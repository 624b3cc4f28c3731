import MarkdownFences.Proofs.Classifier.Calls

namespace MarkdownFences

variable {τ ρ : Type}

/-- An advisor that takes note of what it is asked about. -/
def Advisor.noting (a : Advisor τ ρ) : Advisor (τ × List Text) ρ where
  ask s t := (((a.ask s.1 t).1, s.2 ++ [t]), (a.ask s.1 t).2)
  receive s q := (((a.receive s.1 q).1, s.2), (a.receive s.1 q).2)

namespace Classifier

open Admission (Stage Course Move Moves Shadows)

def noting (c : Classifier τ ρ) : Classifier (τ × List Text) ρ :=
  ⟨c.digest, c.advisor.map Advisor.noting⟩

def State.forget (s : State (τ × List Text)) : State τ := ⟨s.memo, s.advisor.1, s.log⟩

variable {c : Classifier τ ρ} {ts seen : List Text} {t : Text}
variable {x y : Course (State (τ × List Text)) (Pending ρ) Language}
variable {stage stage' : Stage (Pending ρ) Language}
variable {delay : Nat → Text → Nat} {told : Nat → Fault → List Log.Entry}

theorem noting_shadows (c : Classifier τ ρ) (delay : Nat → Text → Nat)
    (told : Nat → Fault → List Log.Entry) :
    Shadows (c.noting.calls delay told) (c.calls delay told) State.forget where
  start s _ t := by
    obtain ⟨memo, ⟨advisor, asked⟩, log⟩ := s
    obtain ⟨digest, none | ⟨ask, receive⟩⟩ := c
    · simp only [calls, start, noting, State.forget, Option.map_none]
      obtain ⟨memo, found⟩ := memo.get (digest t)
      cases found with
      | some l => rfl
      | none => cases Snippet.guess t <;> rfl
    · simp only [calls, start, noting, State.forget, Option.map_some, Advisor.noting]
      obtain ⟨memo, found⟩ := memo.get (digest t)
      cases found with
      | some l => rfl
      | none =>
        cases Snippet.guess t with
        | error e => rfl
        | ok guess =>
          obtain ⟨advisor, told, turn⟩ := ask advisor t
          cases turn <;> rfl
  finish s _ _ p := by
    obtain ⟨memo, ⟨advisor, asked⟩, log⟩ := s
    obtain ⟨digest, none | ⟨ask, receive⟩⟩ := c
    · rfl
    · simp only [calls, finish, noting, State.forget, Option.map_some, Advisor.noting]
      obtain ⟨advisor, told, answer⟩ := receive advisor p.question
      cases answer <;> rfl
  failed _ _ _ := rfl

structure Books where
  entries : List (Text × Language)
  stats : CacheStats
  asked : List Text

def State.books (s : State (τ × List Text)) : Books :=
  ⟨s.memo.entries, s.memo.stats, s.advisor.2⟩

def asks (c : Classifier τ ρ) (t : Text) : Bool := c.advisor.isSome && (Snippet.guess t).isOk

namespace Books

def hit (b : Books) : Books := { b with stats := b.stats.hit }

def miss (b : Books) (c : Classifier τ ρ) (t : Text) : Books :=
  { b with stats := b.stats.miss, asked := b.asked ++ [t].filter c.asks }

def learn (b : Books) (c : Classifier τ ρ) (t : Text) (l : Language) : Books :=
  { b with entries := Memo.insert (c.digest t) l b.entries }

end Books

inductive Goes (c : Classifier τ ρ) (b : Books) (t : Text) :
    Stage (Pending ρ) Language → Books → Stage (Pending ρ) Language → Prop
  | remembered {l : Language} (hk : b.entries.lookup (c.digest t) = some l) :
      Goes c b t .idle b.hit (.done (.ok l))
  | unguessed {e : Json.TooDeep} (hk : b.entries.lookup (c.digest t) = none)
      (hg : Snippet.guess t = .error e) : Goes c b t .idle (b.miss c t) (.done (.error (tooDeep e)))
  | settled {guess l : Language} (hk : b.entries.lookup (c.digest t) = none)
      (hg : Snippet.guess t = .ok guess) :
      Goes c b t .idle ((b.miss c t).learn c t l) (.done (.ok l))
  | waits {guess : Language} {p : Pending ρ} (hk : b.entries.lookup (c.digest t) = none)
      (hg : Snippet.guess t = .ok guess) (hp : p.content = t) :
      Goes c b t .idle (b.miss c t) (.waiting p)
  | failed {p : Pending ρ} {e : Fault} : Goes c b t (.waiting p) b (.done (.error e))
  | answered {p : Pending ρ} {l : Language} :
      Goes c b t (.waiting p) (b.learn c p.content l) (.done (.ok l))

def stageOf : Turn (Pending ρ) (Except Fault Language) → Stage (Pending ρ) Language
  | .done r => .done r
  | .waiting p => .waiting p

theorem miss_of_asks (b : Books) (h : c.asks t = true) :
    b.miss c t = { b with stats := b.stats.miss, asked := b.asked ++ [t] } := by
  rw [Books.miss, List.filter_singleton, h]
  rfl

theorem miss_of_not_asks (b : Books) (h : c.asks t = false) :
    b.miss c t = { b with stats := b.stats.miss } := by
  rw [Books.miss, List.filter_singleton, h]
  simp

theorem start_goes (c : Classifier τ ρ) (s : State (τ × List Text)) (t : Text) :
    c.Goes s.books t .idle (c.noting.start s t).1.books (stageOf (c.noting.start s t).2) := by
  have hdigest : c.noting.digest = c.digest := rfl
  rw [start, Memo.get, Memo.find?, hdigest]
  cases hk : s.memo.entries.lookup (c.digest t) with
  | some l => exact .remembered hk
  | none =>
    cases hg : Snippet.guess t with
    | error e =>
      have hasks : c.asks t = false := by
        rw [asks, hg]
        exact Bool.and_false _
      have hgoes : c.Goes s.books t .idle (s.books.miss c t) _ := .unguessed hk hg
      rw [miss_of_not_asks _ hasks] at hgoes
      exact hgoes
    | ok guess =>
      have hsettled (l : Language) : c.Goes s.books t .idle ((s.books.miss c t).learn c t l)
          (.done (.ok l)) := .settled hk hg
      have hwaits (q : ρ) : c.Goes s.books t .idle (s.books.miss c t)
          (.waiting ⟨t, guess, q⟩) := .waits hk hg rfl
      cases ha : c.advisor with
      | none =>
        rw [miss_of_not_asks _ (by rw [asks, ha]; rfl)] at hsettled
        simp only [noting, ha, Option.map_none]
        exact hsettled _
      | some a =>
        have hasks : c.asks t = true := by
          rw [asks, ha, hg]
          rfl
        rw [miss_of_asks _ hasks] at hsettled hwaits
        simp only [noting, ha, Option.map_some, Advisor.noting]
        cases (a.ask s.advisor.1 t).2.2 with
        | done opinion => exact hsettled _
        | waiting q => exact hwaits q

theorem finish_goes (c : Classifier τ ρ) (s : State (τ × List Text)) (t : Text) (p : Pending ρ) :
    c.Goes s.books t (.waiting p) (c.noting.finish s p).1.books
      (.done (c.noting.finish s p).2) := by
  rw [finish]
  cases ha : c.advisor with
  | none =>
    simp only [noting, ha, Option.map_none]
    exact .answered
  | some a =>
    simp only [noting, ha, Option.map_some, Advisor.noting]
    cases (a.receive s.advisor.1 p.question).2.2 with
    | error e => exact .failed
    | ok opinion => exact .answered

theorem exists_goes (h : Move (c.noting.calls delay told) ts x y) :
    ∃ (i : Nat) (t : Text) (stage stage' : Stage (Pending ρ) Language),
      ts[i]? = some t ∧ x.stages[i]? = some stage ∧ y.stages = x.stages.set i stage' ∧
      c.Goes x.shared.books t stage y.shared.books stage' := by
  have hnoted (s : State (τ × List Text)) (i : Nat) (r : Except Fault Language) :
      ((c.noting.calls delay told).noted s i r).books = s.books := by
    cases r <;> rfl
  cases h with
  | @ends i t s r ht hi hs =>
    have hgoes := start_goes c x.shared t
    rw [show c.noting.start x.shared t = (s, .done r) from hs] at hgoes
    refine ⟨i, t, _, _, ht, hi, rfl, ?_⟩
    rw [hnoted]
    exact hgoes
  | @waits i t s p ht hi hs =>
    have hgoes := start_goes c x.shared t
    rw [show c.noting.start x.shared t = (s, .waiting p) from hs] at hgoes
    exact ⟨i, t, _, _, ht, hi, rfl, hgoes⟩
  | @goesOn i t p s r ht hi hs =>
    have hgoes := finish_goes c x.shared t p
    rw [show c.noting.finish x.shared p = (s, r) from hs] at hgoes
    refine ⟨i, t, _, _, ht, hi, rfl, ?_⟩
    rw [hnoted]
    exact hgoes

theorem Goes.content {b b' : Books} (h : c.Goes b t stage b' stage') {p : Pending ρ}
    (hp : stage' = .waiting p) : p.content = t := by
  cases h with
  | waits _ _ hcontent => exact Stage.waiting.inj hp ▸ hcontent
  | _ => cases hp

theorem Goes.entries {b b' : Books} (h : c.Goes b t stage b' stage')
    (hstage : ∀ l, stage' ≠ .done (.ok l)) : b'.entries = b.entries := by
  cases h with
  | settled => exact absurd rfl (hstage _)
  | answered => exact absurd rfl (hstage _)
  | _ => rfl

end Classifier

end MarkdownFences
