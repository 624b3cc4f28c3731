import MarkdownFences.Classifier

namespace MarkdownFences

variable {τ ρ : Type}

structure Advisor.Answers (a : Advisor τ ρ) (f : Text → Except Fault (Option Language)) :
    Prop where
  ask_done : ∀ s t o, (a.ask s t).2.2 = .done o → f t = .ok o
  ask_waiting : ∀ s s' t q, (a.ask s t).2.2 = .waiting q → (a.receive s' q).2.2 = f t

def Advisor.waiting (answer : Text → Except Fault (Option Language)) : Advisor Unit Text where
  ask s t := (s, [], .waiting t)
  receive s t := (s, [], answer t)

theorem Advisor.waiting_answers (answer : Text → Except Fault (Option Language)) :
    (waiting answer).Answers answer where
  ask_done _ _ _ h := by cases h
  ask_waiting _ _ _ _ h := by rw [← Turn.waiting.inj h]; rfl

namespace Memo

theorem lookup_cons (key k : Text) (l : Language) (es : List (Text × Language)) :
    ((key, l) :: es).lookup k = if k = key then some l else es.lookup k := by
  by_cases hk : k = key
  · rw [hk, List.lookup_cons_self, if_pos rfl]
  · rw [List.lookup_cons, beq_false_of_ne hk, if_neg hk]

theorem lookup_insert (key k : Text) (l : Language) (es : List (Text × Language)) :
    (insert key l es).lookup k = if k = key then some l else es.lookup k := by
  induction es with
  | nil => exact lookup_cons key k l []
  | cons e es ih =>
    obtain ⟨key', l'⟩ := e
    rw [insert]
    split
    case isTrue he =>
      obtain rfl : key' = key := he
      rw [lookup_cons, lookup_cons]
      split <;> rfl
    case isFalse he =>
      rw [lookup_cons, ih, lookup_cons]
      by_cases hk : k = key'
      · rw [if_pos hk, if_pos hk, if_neg (hk ▸ he)]
      · rw [if_neg hk, if_neg hk]

end Memo

namespace Classifier

/-- The advisor answers so, or there is none and there are no answers. -/
def Opines (c : Classifier τ ρ) (f : Text → Except Fault (Option Language)) : Prop :=
  match c.advisor with
  | none => ∀ t, f t = .ok none
  | some a => a.Answers f

def classify (c : Classifier τ ρ) (s : State τ) (t : Text) : State τ × Except Fault Language :=
  match c.start s t with
  | (s, .done r) => (s, r)
  | (s, .waiting p) => c.finish s p

def judge (f : Text → Except Fault (Option Language)) (t : Text) : Except Fault Language :=
  match Snippet.guess t with
  | .error e => .error (tooDeep e)
  | .ok guess => (f t).map fun opinion => reconcile guess opinion t

def look (digest : Text → Text) (f : Text → Except Fault (Option Language))
    (known : List (Text × Language)) (t : Text) :
    List (Text × Language) × Except Fault Language :=
  match known.lookup (digest t) with
  | some l => (known, .ok l)
  | none =>
    match judge f t with
    | .error e => (known, .error e)
    | .ok l => (Memo.insert (digest t) l known, .ok l)

variable {c : Classifier τ ρ} {f : Text → Except Fault (Option Language)}

theorem classify_eq_look (hf : c.Opines f) (s : State τ) (t : Text) :
    (c.classify s t).1.memo.entries = (look c.digest f s.memo.entries t).1 ∧
      (c.classify s t).2 = (look c.digest f s.memo.entries t).2 := by
  rw [classify, start, look, Memo.get, Memo.find?, judge]
  cases hk : s.memo.entries.lookup (c.digest t) with
  | some l => exact ⟨rfl, rfl⟩
  | none =>
    cases hg : Snippet.guess t with
    | error e => exact ⟨rfl, rfl⟩
    | ok guess =>
      cases ha : c.advisor with
      | none =>
        have hn : ∀ t, f t = .ok none := by simpa [Opines, ha] using hf
        simp only [hn t]
        exact ⟨rfl, rfl⟩
      | some a =>
        have hans : a.Answers f := by simpa [Opines, ha] using hf
        simp only
        cases hturn : (a.ask s.advisor t).2.2 with
        | done o =>
          simp only [hans.ask_done _ _ _ hturn]
          exact ⟨rfl, rfl⟩
        | waiting q =>
          have hr (s' : τ) := hans.ask_waiting _ s' _ _ hturn
          simp only [finish, ha, hr]
          cases f t with
          | error e => exact ⟨rfl, rfl⟩
          | ok o => exact ⟨rfl, rfl⟩

end Classifier

end MarkdownFences
