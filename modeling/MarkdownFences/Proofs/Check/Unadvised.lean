import MarkdownFences.Proofs.Check.Judgement

namespace MarkdownFences

variable {τ ρ : Type}

namespace Classifier

variable {c : Classifier τ ρ}

theorem opines_none (h : c.advisor = none) : c.Opines fun _ => .ok none := by
  rw [Opines, h]
  exact fun _ => rfl

theorem start_done (h : c.advisor = none) (s : State τ) (t : Text) :
    ∃ r, (c.start s t).2 = .done r := by
  rw [start]
  cases s.memo.get (c.digest t) with
  | mk memo known =>
    cases known with
    | some l => exact ⟨_, rfl⟩
    | none =>
      cases Snippet.guess t with
      | error e => exact ⟨_, rfl⟩
      | ok guess => exact ⟨_, by rw [h]⟩

end Classifier

namespace Check

variable {k : Check τ ρ}

theorem neverWaits (h : k.classifier.advisor = none) (delay : Nat → Block → Nat) :
    (k.worker delay).NeverWaits := by
  intro s i b
  simp only [worker, start]
  cases k.prepare s b with
  | mk s' x =>
    cases x with
    | error f => exact ⟨_, rfl⟩
    | ok p =>
      obtain ⟨r, hr⟩ := Classifier.start_done h s'.classifier b.content
      simp only [hr]
      exact ⟨_, rfl⟩

end Check

end MarkdownFences
