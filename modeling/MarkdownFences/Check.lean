import MarkdownFences.Admission
import MarkdownFences.Classifier
import MarkdownFences.Console
import MarkdownFences.Finding
import MarkdownFences.Report.Lines
import MarkdownFences.Validation
import MarkdownFences.ValidationCache

namespace MarkdownFences

structure Check (τ ρ : Type) where
  classifier : Classifier τ ρ
  fix : Bool
  lenient : Bool
  total : Nat

namespace Check

/-- What the checks of a run share: `headed` are the files whose name stands on the console. -/
structure State (τ : Type) where
  classifier : Classifier.State τ
  cache : ValidationCache
  console : Console
  processed : Nat
  headed : List Path

/-- Why the language of a block is asked for: to give it a tag, or to compare it with the one
that its tag stands for. -/
inductive Purpose where
  | tagging
  | comparison (declared : Text)
  deriving DecidableEq, Repr

structure Pending (ρ : Type) where
  purpose : Purpose
  question : Classifier.Pending ρ

variable {τ ρ : Type}

def State.note (s : State τ) (es : List Log.Entry) : State τ :=
  { s with classifier := s.classifier.note es }

def State.tick (k : Check τ ρ) (s : State τ) : State τ :=
  let processed := s.processed + 1
  { s with
    processed
    console := s.console.progress
      s!"  [{processed}/{k.total}] Validating blocks...".toList }

def State.head (s : State τ) (file : Path) : State τ :=
  if s.headed.contains file then s
  else { s with headed := s.headed ++ [file], console := s.console.emit file.text }

def State.report (s : State τ) (i : LanguageIssue) : State τ :=
  let s := s.head i.file
  { s with console := s.console.emit (Issue.language i).render }

def State.accept (k : Check τ ρ) (s : State τ) (b : Block) : State τ :=
  { s with cache := s.cache.markValid k.classifier.digest b }

/-- Settles what can be settled without a language, or gives the purpose of one. -/
def prepare (k : Check τ ρ) (s : State τ) (b : Block) : State τ × Except Finding Purpose :=
  match b.tag with
  | none =>
    if !k.fix then (s, .error (.clean b))
    else if Text.isVoid b.content then (s, .error ⟨b, none, some Language.text.tag⟩)
    else (s, .ok .tagging)
  | some _ =>
    let (cache, known) := s.cache.isValid k.classifier.digest b
    let s := { s with cache }
    if known then (s, .error (.clean b))
    else
      match b.questioned k.lenient with
      | none => (s.accept k b, .error (.clean b))
      | some declared => (s, .ok (.comparison declared))

def settle (k : Check τ ρ) (s : State τ) (b : Block) (p : Purpose) (l : Language) :
    State τ × Finding :=
  match p with
  | .tagging => (s, ⟨b, none, some l.tag⟩)
  | .comparison declared =>
    match b.mismatch declared l with
    | none => (s.accept k b, .clean b)
    | some i => (s.report i, ⟨b, some i, some i.detected⟩)

def conclude (k : Check τ ρ) (s : State τ) (b : Block) (p : Purpose) :
    Except Fault Language → State τ × Except Fault Finding
  | .error e => (s.tick k, .error e)
  | .ok l =>
    let (s, f) := k.settle s b p l
    (s.tick k, .ok f)

def start (k : Check τ ρ) (s : State τ) (b : Block) :
    State τ × Turn (Pending ρ) (Except Fault Finding) :=
  match k.prepare s b with
  | (s, .error f) => (s.tick k, .done (.ok f))
  | (s, .ok p) =>
    let (classifier, turn) := k.classifier.start s.classifier b.content
    let s := { s with classifier }
    match turn with
    | .waiting q => (s, .waiting ⟨p, q⟩)
    | .done r =>
      let (s, r) := k.conclude s b p r
      (s, .done r)

def finish (k : Check τ ρ) (s : State τ) (b : Block) (p : Pending ρ) :
    State τ × Except Fault Finding :=
  let (classifier, r) := k.classifier.finish s.classifier p.question
  k.conclude { s with classifier } b p.purpose r

def failedEntry (index : Nat) (f : Fault) : Log.Entry :=
  ⟨.warning, "fencecheck.pipeline",
    s!"event=unit_failed index={index} error=".toList ++ f.message⟩

/-- The checks of a run as units of work. A second opinion takes the given rounds. -/
def worker (k : Check τ ρ) (delay : Nat → Block → Nat) :
    Worker (State τ) Block (Pending ρ) Finding where
  delay
  start := fun s _ b => k.start s b
  finish := fun s _ b p => k.finish s b p
  failed := fun s index f => s.note [failedEntry index f]

end Check

end MarkdownFences
