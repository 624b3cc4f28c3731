import MarkdownFences.Language
import MarkdownFences.Snippet.Markup
import MarkdownFences.Snippet.Prose
import MarkdownFences.Snippet.Script
import MarkdownFences.Snippet.Shell

namespace MarkdownFences.Snippet

open Text Text.Pattern

structure Rule where
  name : String
  accepts : Text → Except Json.TooDeep Bool
  language : Language

def treeGlyph : Pattern := anyOf "├└│"

def configMention : Pattern := words ["tsconfig", "vitest-config", "tsup"]

def isProseAboutCode (t : Text) : Bool :=
  readsAsProse t &&
    (hasTypescriptMarkers t || hasJavascriptMarkers t || configMention.occursIn t)

def capitalHeading : Pattern := sequence [literal "##", blanks1, one isAsciiUpper]

def boldLabel : Pattern :=
  sequence [literal "**", one isAsciiUpper, many (noneOf ":"), literal ":**"]

def capitalItem : Pattern := sequence [lineStart, char '-', blanks1, one isAsciiUpper]

def analysisWord : Pattern := words ["Analyzing", "Checked", "Suggested", "Category"]

def isDescriptive (t : Text) : Bool :=
  readsAsIssueText t ||
    (3 ≤ capitalHeading.count t + boldLabel.count t + capitalItem.count t &&
      analysisWord.occursIn t)

/-- The table, in the order in which it is consulted. -/
def rules : List Rule := [
  ⟨"directory-tree", fun t => .ok (treeGlyph.occursIn t), .text⟩,
  ⟨"shell", hasShellSigns, .bash⟩,
  ⟨"json", looksLikeJson, .json⟩,
  ⟨"prose-mentioning-code", fun t => .ok (isProseAboutCode t), .text⟩,
  ⟨"typescript-by-filename", fun t => .ok (typescriptFile.occursIn (firstLine t)), .typescript⟩,
  ⟨"javascript-by-filename", fun t => .ok (javascriptFile.occursIn (firstLine t)), .javascript⟩,
  ⟨"typescript", fun t => .ok (hasTypescriptMarkers t), .typescript⟩,
  ⟨"javascript", fun t => .ok (hasJavascriptMarkers t), .javascript⟩,
  ⟨"descriptive-text", fun t => .ok (isDescriptive t), .text⟩,
  ⟨"markdown", fun t => .ok (hasMarkdownSyntax t), .markdown⟩]

def firstRule (t : Text) : List Rule → Except Json.TooDeep (Option Rule)
  | [] => .ok none
  | r :: rs => do
    if ← r.accepts t then return some r
    firstRule t rs

def matchingRule (t : Text) : Except Json.TooDeep (Option Rule) := firstRule (trim t) rules

def guess (t : Text) : Except Json.TooDeep Language :=
  (matchingRule t).map fun r => (r.map (·.language)).getD .text

end MarkdownFences.Snippet
