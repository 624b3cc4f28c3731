import MarkdownFences.Proofs.Classifier.Steps

namespace MarkdownFences.Classifier

variable {τ ρ : Type} {c : Classifier τ ρ} {f : Text → Except Fault (Option Language)}
variable {digest : Text → Text} {cs : List Text} {memo : List (Text × Language)} {t : Text}

/-- What is remembered of contents is what is found for each of them. -/
def Recalls (digest : Text → Text) (f : Text → Except Fault (Option Language)) (cs : List Text)
    (memo : List (Text × Language)) : Prop :=
  ∀ t ∈ cs, ∀ l, memo.lookup (digest t) = some l → judge f t = .ok l

theorem recalls_nil (digest : Text → Text) (f : Text → Except Fault (Option Language))
    (cs : List Text) : Recalls digest f cs [] := nofun

theorem Recalls.insert (hd : ∀ a ∈ cs, ∀ b ∈ cs, digest a = digest b → a = b)
    (h : Recalls digest f cs memo) (ht : t ∈ cs) {l : Language} (hl : judge f t = .ok l) :
    Recalls digest f cs (Memo.insert (digest t) l memo) := by
  intro a ha l' hl'
  rw [Memo.lookup_insert] at hl'
  split at hl'
  case isTrue heq => rw [hd a ha t ht heq, hl, Option.some.inj hl']
  case isFalse => exact h a ha l' hl'

theorem look_of_recalls (hd : ∀ a ∈ cs, ∀ b ∈ cs, digest a = digest b → a = b)
    (h : Recalls digest f cs memo) (ht : t ∈ cs) :
    (look digest f memo t).2 = judge f t ∧ Recalls digest f cs (look digest f memo t).1 := by
  rw [look]
  cases hk : memo.lookup (digest t) with
  | some l => exact ⟨(h t ht l hk).symm, h⟩
  | none =>
    cases hj : judge f t with
    | error e => exact ⟨rfl, h⟩
    | ok l => exact ⟨rfl, h.insert hd ht hj⟩

theorem judge_none (t : Text) :
    judge (fun _ => .ok none) t = (Snippet.guess t).mapError tooDeep := by
  rw [judge]
  cases Snippet.guess t <;> rfl

structure Pending.Awaits (c : Classifier τ ρ) (f : Text → Except Fault (Option Language))
    (t : Text) (p : Pending ρ) : Prop where
  content : p.content = t
  guess : Snippet.guess t = .ok p.guess
  answer : ∀ a, c.advisor = some a → ∀ s, (a.receive s p.question).2.2 = f t

theorem judge_of_guess {guess : Language} (hg : Snippet.guess t = .ok guess) :
    judge f t = (f t).map fun opinion => reconcile guess opinion t := by
  rw [judge, hg]

theorem MayGive.eq_of_opines (hf : c.Opines f) {answer : Except Fault (Option Language)}
    (h : c.MayGive t answer) : answer = f t := by
  rw [Opines] at hf
  cases h with
  | unadvised ha =>
    rw [ha] at hf
    exact (hf t).symm
  | atOnce ha ho =>
    rw [ha] at hf
    exact (hf.ask_done _ _ _ ho).symm
  | later ha hq =>
    rw [ha] at hf
    exact hf.ask_waiting _ _ _ _ hq

theorem Pending.Asks.awaits (hf : c.Opines f) {p : Pending ρ} (h : p.Asks c t) :
    p.Awaits c f t where
  content := h.content
  guess := h.guess
  answer := by
    intro a ha s
    obtain ⟨s₀, hq⟩ := h.question a ha
    exact (MayGive.later ha hq).eq_of_opines hf

theorem judge_of_mayGive (hf : c.Opines f) {guess : Language} (hg : Snippet.guess t = .ok guess)
    {answer : Except Fault (Option Language)} (h : c.MayGive t answer) :
    judge f t = answer.map fun opinion => reconcile guess opinion t := by
  rw [judge_of_guess hg, h.eq_of_opines hf]

section Steps

variable (hf : c.Opines f) (hd : ∀ a ∈ cs, ∀ b ∈ cs, c.digest a = c.digest b → a = b)

include hf hd

theorem start_recalls {s s' : State τ} (hm : Recalls c.digest f cs s.memo.entries) (ht : t ∈ cs)
    {turn : Turn (Pending ρ) (Except Fault Language)} (h : c.start s t = (s', turn)) :
    Recalls c.digest f cs s'.memo.entries ∧
      (∀ r, turn = .done r → r = judge f t) ∧ ∀ p, turn = .waiting p → p.Awaits c f t := by
  have hbegins := c.start_begins s t
  rw [h] at hbegins
  generalize s'.memo.entries = known at hbegins ⊢
  cases hbegins with
  | @remembered l hk =>
    refine ⟨hm, fun r hr => ?_, nofun⟩
    rw [← Turn.done.inj hr, hm t ht l hk]
  | unguessed _ hg =>
    refine ⟨hm, fun r hr => ?_, nofun⟩
    rw [← Turn.done.inj hr, judge, hg]
  | found _ hg ho =>
    have hjudge := judge_of_mayGive hf hg ho
    refine ⟨hm.insert hd ht hjudge, fun r hr => ?_, fun p hp => ?_⟩
    · rw [← Turn.done.inj hr, hjudge]
      rfl
    · cases hp
  | asked _ hp =>
    refine ⟨hm, fun r hr => ?_, fun p hp' => ?_⟩
    · cases hr
    · obtain rfl := Turn.waiting.inj hp'
      exact hp.awaits hf

theorem finish_recalls {s s' : State τ} (hm : Recalls c.digest f cs s.memo.entries) (ht : t ∈ cs)
    {p : Pending ρ} (hp : p.Awaits c f t) {r : Except Fault Language}
    (h : c.finish s p = (s', r)) :
    Recalls c.digest f cs s'.memo.entries ∧ r = judge f t := by
  have hjudge := judge_of_guess (f := f) hp.guess
  rw [finish] at h
  cases ha : c.advisor with
  | none =>
    have hn : f t = .ok none := (by simpa [Opines, ha] using hf : ∀ t, f t = .ok none) t
    rw [hn] at hjudge
    rw [ha, hp.content] at h
    obtain ⟨rfl, rfl⟩ := Prod.mk.inj h
    exact ⟨hm.insert hd ht hjudge, hjudge.symm⟩
  | some a =>
    rw [ha] at h
    simp only [hp.answer a ha] at h
    cases hft : f t with
    | error e =>
      rw [hft] at h hjudge
      obtain ⟨rfl, rfl⟩ := Prod.mk.inj h
      exact ⟨hm, hjudge.symm⟩
    | ok opinion =>
      rw [hft] at h hjudge
      rw [hp.content] at h
      obtain ⟨rfl, rfl⟩ := Prod.mk.inj h
      exact ⟨hm.insert hd ht hjudge, hjudge.symm⟩

end Steps

end MarkdownFences.Classifier
