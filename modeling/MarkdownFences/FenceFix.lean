import MarkdownFences.Fence.Opening
import MarkdownFences.Groups
import MarkdownFences.Path

namespace MarkdownFences

/-- The tag to be written on the fence of a line, counted from zero. -/
structure FenceFix where
  file : Path
  line : Int
  tag : Text
  deriving DecidableEq, Repr

namespace FenceFix

/-- From the last line to the first; fixes of one line keep their order. -/
def descending (fixes : List FenceFix) : List FenceFix :=
  fixes.mergeSort fun a b => b.line ≤ a.line

def plan (fixes : List FenceFix) : List (Path × List FenceFix) :=
  (collectBy file fixes).map fun g => (g.1, descending g.2)

/-- Lines in the course of being fixed: the number of fixes made, the fixes skipped, and the
fence that could not be given its tag. -/
structure Attempt where
  lines : List Text
  fixed : Nat
  skipped : List FenceFix
  failure : Option Fence.NotOpening

def target? (ls : List Text) (fix : FenceFix) : Option Text :=
  if fix.line < 0 then none
  else (ls[fix.line.toNat]?).filter fun l => Fence.isFence (Text.trim l)

def apply (a : Attempt) (fix : FenceFix) : Attempt :=
  if a.failure.isSome then a
  else
    match target? a.lines fix with
    | none => { a with skipped := a.skipped ++ [fix] }
    | some line =>
      match Fence.retag line fix.tag with
      | .ok new => { a with lines := a.lines.set fix.line.toNat new, fixed := a.fixed + 1 }
      | .error e => { a with failure := some e }

/-- Applies fixes from the last line to the first, so that none moves the line of another. A
fix that is for no fence is skipped. -/
def attempt (t : Text) (fixes : List FenceFix) : Attempt :=
  (descending fixes).foldl apply ⟨Text.lines t, 0, [], none⟩

structure Outcome where
  text : Text
  fixed : Nat
  skipped : List FenceFix
  deriving DecidableEq, Repr

def Attempt.outcome (a : Attempt) : Except Fence.NotOpening Outcome :=
  match a.failure with
  | some e => .error e
  | none => .ok ⟨Text.unlines a.lines, a.fixed, a.skipped⟩

def applyTo (t : Text) (fixes : List FenceFix) : Except Fence.NotOpening Outcome :=
  (attempt t fixes).outcome

def skipMessage (fix : FenceFix) : Text :=
  "event=fix_skipped file=".toList ++ fix.file.text ++
    s!" line={fix.line + 1} reason=not_a_fence".toList

end FenceFix

end MarkdownFences
