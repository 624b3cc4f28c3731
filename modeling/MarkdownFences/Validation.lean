import MarkdownFences.Issue
import MarkdownFences.Tag

namespace MarkdownFences.Block

/-- The canonical tag that the detected language is to be held against. There is none when the
block has no tag, nothing but white space in it, or a tag that is trusted; a lenient check asks
only about the vocabulary. -/
def questioned (lenient : Bool) (b : Block) : Option Text :=
  match b.tag with
  | none => none
  | some tag =>
    if Text.isVoid b.content || Tag.isTrusted tag || tag.isEmpty then none
    else
      let declared := Tag.canonical tag
      if lenient && (Language.ofTag? declared).isNone then none else some declared

def mismatch (b : Block) (declared : Text) (detected : Language) : Option LanguageIssue :=
  if declared = detected.tag || Tag.isCompatible declared detected.tag b.content then none
  else some ⟨.incorrectLanguage, b.file, b.openNumber, b.closeNumber, b.tag.getD [],
    detected.tag, b.content, b.openLine⟩

end MarkdownFences.Block
