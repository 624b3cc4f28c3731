import MarkdownFences.Path

namespace MarkdownFences

/-- A closed block: its lines are those of the two fences, counted from zero. -/
structure Block where
  file : Path
  openLine : Nat
  closeLine : Nat
  content : Text
  tag : Option Text
  deriving DecidableEq, Repr

namespace Block

def openNumber (b : Block) : Nat := b.openLine + 1

def closeNumber (b : Block) : Nat := b.closeLine + 1

end Block

inductive IssueKind where
  | missingLanguage
  | incorrectLanguage
  | unclosedBlock
  | malformedFence
  deriving DecidableEq, Repr

namespace IssueKind

def name : IssueKind → String
  | missingLanguage => "missing-language"
  | incorrectLanguage => "incorrect-language"
  | unclosedBlock => "unclosed-block"
  | malformedFence => "malformed-fence"

def label : IssueKind → String
  | missingLanguage => "Missing language"
  | incorrectLanguage => "Incorrect language"
  | unclosedBlock => "Unclosed block"
  | malformedFence => "Malformed fence"

end IssueKind

/-- A defect of the fences themselves. Lines for display count from one; `openLine` counts from
zero. -/
structure StructuralIssue where
  kind : IssueKind
  file : Path
  line : Int
  endLine : Option Int
  content : Option Text
  message : Option Text
  openLine : Option Int
  deriving DecidableEq, Repr

structure LanguageIssue where
  kind : IssueKind
  file : Path
  line : Int
  endLine : Int
  declared : Text
  detected : Text
  content : Text
  openLine : Int
  deriving DecidableEq, Repr

inductive Issue where
  | structural (i : StructuralIssue)
  | language (i : LanguageIssue)
  deriving DecidableEq, Repr

def Issue.file : Issue → Path
  | .structural i => i.file
  | .language i => i.file

end MarkdownFences
