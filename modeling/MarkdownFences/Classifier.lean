import MarkdownFences.Advisor
import MarkdownFences.Memo
import MarkdownFences.Verdict

namespace MarkdownFences

/-- Finds the language of content. Contents are told apart by their digests; without an advisor
the guess stands. -/
structure Classifier (τ ρ : Type) where
  digest : Text → Text
  advisor : Option (Advisor τ ρ)

namespace Classifier

structure State (τ : Type) where
  memo : Memo
  advisor : τ
  log : List Log.Entry

structure Pending (ρ : Type) where
  content : Text
  guess : Language
  question : ρ

variable {τ ρ : Type}

def source : String := "fencecheck.classification.engine"

def State.note (s : State τ) (es : List Log.Entry) : State τ := { s with log := s.log ++ es }

def overrideEntry (guess opinion final : Language) : Log.Entry :=
  ⟨.debug, source, (s!"event=classification_overridden heuristic={guess.name} " ++
    s!"external={opinion.name} final={final.name}").toList⟩

def tooDeep (e : Json.TooDeep) : Fault := ⟨"nesting", .nesting, none, e.message.toList⟩

/-- Settles the language, tells of an opinion that did not prevail, and remembers the result. -/
def settle (c : Classifier τ ρ) (s : State τ) (t : Text) (guess : Language)
    (opinion : Option Language) : State τ × Language :=
  let final := reconcile guess opinion t
  let told := match opinion with
    | some l => if final = l then [] else [overrideEntry guess l final]
    | none => []
  ({ s.note told with memo := s.memo.put (c.digest t) final }, final)

def start (c : Classifier τ ρ) (s : State τ) (t : Text) :
    State τ × Turn (Pending ρ) (Except Fault Language) :=
  match s.memo.get (c.digest t) with
  | (memo, some l) => ({ s with memo }, .done (.ok l))
  | (memo, none) =>
    let s := { s with memo }
    match Snippet.guess t with
    | .error e => (s, .done (.error (tooDeep e)))
    | .ok guess =>
      match c.advisor with
      | none =>
        let (s, l) := c.settle s t guess none
        (s, .done (.ok l))
      | some a =>
        let (advisor, told, turn) := a.ask s.advisor t
        let s := { s.note told with advisor }
        match turn with
        | .waiting question => (s, .waiting ⟨t, guess, question⟩)
        | .done opinion =>
          let (s, l) := c.settle s t guess opinion
          (s, .done (.ok l))

def finish (c : Classifier τ ρ) (s : State τ) (p : Pending ρ) :
    State τ × Except Fault Language :=
  match c.advisor with
  | none =>
    let (s, l) := c.settle s p.content p.guess none
    (s, .ok l)
  | some a =>
    let (advisor, told, answer) := a.receive s.advisor p.question
    let s := { s.note told with advisor }
    match answer with
    | .error e => (s, .error e)
    | .ok opinion =>
      let (s, l) := c.settle s p.content p.guess opinion
      (s, .ok l)

end Classifier

end MarkdownFences
