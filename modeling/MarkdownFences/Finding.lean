import MarkdownFences.FenceFix
import MarkdownFences.Scan

namespace MarkdownFences

/-- What the check of one block came to: an issue, and the tag that a fix is to write. -/
structure Finding where
  block : Block
  issue : Option LanguageIssue
  tag : Option Text
  deriving DecidableEq, Repr

namespace Finding

def clean (b : Block) : Finding := ⟨b, none, none⟩

end Finding

namespace Scan

def untagged (s : Scan) : List (Path × Option Int) :=
  (s.issues.filter fun i => i.kind == .missingLanguage).map fun i => (i.file, i.openLine)

/-- A fix for every block with an issue of its language or without a tag whose language was
found. -/
def fixes (s : Scan) (fs : List Finding) : List FenceFix :=
  fs.filterMap fun f =>
    match f.tag with
    | none => none
    | some tag =>
      if f.issue.isSome || s.untagged.contains (f.block.file, some (f.block.openLine : Int)) then
        some ⟨f.block.file, f.block.openLine, tag⟩
      else none

end Scan

end MarkdownFences
