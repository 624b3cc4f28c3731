import MarkdownFences.Snippet.Guess

namespace MarkdownFences

open Snippet

/-- A row of the table that settles disagreements: with this guess and one of these opinions,
content that the test accepts is taken to be in the resulting language. -/
structure Override where
  name : String
  guess : Language
  opinions : List Language
  applies : Text → Bool
  result : Language

namespace Override

def covers (o : Override) (guess opinion : Language) (t : Text) : Bool :=
  guess == o.guess && o.opinions.contains opinion && o.applies t

def isShort (t : Text) : Bool := t.length < shortLength

def readsAsNotes (t : Text) : Bool :=
  readsAsIssueText t || (proseLines < lineCount t && !anyLink.occursIn t)

def always (_ : Text) : Bool := true

def table : List Override := [
  ⟨"shell-over-text", .bash, [.text], always, .bash⟩,
  ⟨"json-over-shell", .json, [.bash], always, .json⟩,
  ⟨"short-javascript-over-text", .javascript, [.text], isShort, .javascript⟩,
  ⟨"typescript-config-or-jsx", .typescript, [.javascript],
    fun t => hasConfigFactory t || hasJsx t, .typescript⟩,
  ⟨"prose-over-code", .text, [.typescript, .javascript], readsAsProse, .text⟩,
  ⟨"markdown-over-text", .markdown, [.text], always, .markdown⟩,
  ⟨"prose-over-markdown", .text, [.markdown], readsAsNotes, .text⟩]

end Override

/-- The language that a guess and an outside opinion come to. The opinion stands unless a row of
the table says otherwise; without one the guess does. -/
def reconcile (guess : Language) (opinion : Option Language) (t : Text) : Language :=
  match opinion with
  | none => guess
  | some l =>
    match Override.table.find? fun o => o.covers guess l t with
    | some o => o.result
    | none => l

end MarkdownFences
