import MarkdownFences.Proofs.Classifier.Look

namespace MarkdownFences.Classifier

variable {τ ρ : Type} {c : Classifier τ ρ} {t : Text}
variable {known : List (Text × Language)}

/-- An answer that may be given about content, sooner or later. Where nobody is asked there is no
opinion. -/
inductive MayGive (c : Classifier τ ρ) (t : Text) : Except Fault (Option Language) → Prop
  | unadvised (ha : c.advisor = none) : MayGive c t (.ok none)
  | atOnce {a : Advisor τ ρ} {s : τ} {opinion : Option Language} (ha : c.advisor = some a)
      (h : (a.ask s t).2.2 = .done opinion) : MayGive c t (.ok opinion)
  | later {a : Advisor τ ρ} {s s' : τ} {q : ρ} (ha : c.advisor = some a)
      (h : (a.ask s t).2.2 = .waiting q) : MayGive c t (a.receive s' q).2.2

structure Pending.Asks (c : Classifier τ ρ) (t : Text) (p : Pending ρ) : Prop where
  content : p.content = t
  guess : Snippet.guess t = .ok p.guess
  question : ∀ a, c.advisor = some a → ∃ s, (a.ask s t).2.2 = .waiting p.question

inductive Begins (c : Classifier τ ρ) (known : List (Text × Language)) (t : Text) :
    List (Text × Language) → Turn (Pending ρ) (Except Fault Language) → Prop
  | remembered {l : Language} (hk : known.lookup (c.digest t) = some l) :
      Begins c known t known (.done (.ok l))
  | unguessed {e : Json.TooDeep} (hk : known.lookup (c.digest t) = none)
      (hg : Snippet.guess t = .error e) : Begins c known t known (.done (.error (tooDeep e)))
  | found {guess : Language} {opinion : Option Language} (hk : known.lookup (c.digest t) = none)
      (hg : Snippet.guess t = .ok guess) (ho : c.MayGive t (.ok opinion)) :
      Begins c known t (Memo.insert (c.digest t) (reconcile guess opinion t) known)
        (.done (.ok (reconcile guess opinion t)))
  | asked {p : Pending ρ} (hk : known.lookup (c.digest t) = none) (hp : p.Asks c t) :
      Begins c known t known (.waiting p)

inductive Ends (c : Classifier τ ρ) (known : List (Text × Language)) (t : Text) (guess : Language) :
    List (Text × Language) → Except Fault Language → Prop
  | failed {e : Fault} (he : c.MayGive t (.error e)) : Ends c known t guess known (.error e)
  | found {opinion : Option Language} (ho : c.MayGive t (.ok opinion)) :
      Ends c known t guess (Memo.insert (c.digest t) (reconcile guess opinion t) known)
        (.ok (reconcile guess opinion t))

theorem start_begins (c : Classifier τ ρ) (s : State τ) (t : Text) :
    c.Begins s.memo.entries t (c.start s t).1.memo.entries (c.start s t).2 := by
  rw [start, Memo.get, Memo.find?]
  cases hk : s.memo.entries.lookup (c.digest t) with
  | some l => exact .remembered hk
  | none =>
    cases hg : Snippet.guess t with
    | error e => exact .unguessed hk hg
    | ok guess =>
      cases ha : c.advisor with
      | none => exact .found hk hg (.unadvised ha)
      | some a =>
        simp only
        cases hturn : (a.ask s.advisor t).2.2 with
        | done opinion => exact .found hk hg (.atOnce ha hturn)
        | waiting q =>
          refine .asked hk ⟨rfl, hg, fun a' ha' => ⟨s.advisor, ?_⟩⟩
          rw [← Option.some.inj (ha.symm.trans ha')]
          exact hturn

theorem finish_ends {p : Pending ρ} (hp : p.Asks c t) (s : State τ) :
    c.Ends s.memo.entries t p.guess (c.finish s p).1.memo.entries (c.finish s p).2 := by
  obtain rfl := hp.content
  rw [finish]
  cases ha : c.advisor with
  | none => exact .found (.unadvised ha)
  | some a =>
    obtain ⟨s₀, hq⟩ := hp.question a ha
    have hgive : c.MayGive p.content (a.receive s.advisor p.question).2.2 := .later ha hq
    simp only
    cases hanswer : (a.receive s.advisor p.question).2.2 with
    | error e => exact .failed (hanswer ▸ hgive)
    | ok opinion => exact .found (hanswer ▸ hgive)

end MarkdownFences.Classifier
