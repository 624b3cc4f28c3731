import MarkdownFences.Text.Pattern

namespace MarkdownFences.Snippet

open Text Text.Pattern

def shortLength : Nat := 100

def configFactory : Pattern :=
  words ["defineConfig", "createCommitlintConfig", "tsup", "vitest/config", "vite.config"]

def moduleStart : Pattern := sequence [lineStart, words ["import", "export"], wordEdge]

def hasConfigFactory (t : Text) : Bool := configFactory.occursIn t && moduleStart.occursIn t

def wholeWord (s : String) : Pattern := sequence [wordEdge, literal s, wordEdge]

def elementName : Pattern := seq (one isAsciiUpper) (many wordChar)

/-- An opening tag is searched for up to its end, whatever stands between. -/
def jsxMarker : Pattern :=
  choice [sequence [char '<', one isAsciiUpper, many (noneOf ">"), char '>'],
    sequence [literal "</", elementName, char '>'], wholeWord "className", wholeWord "onClick"]

def hasJsx (t : Text) : Bool := jsxMarker.occursIn t

def name : Pattern := many1 wordChar

def declared (s : String) : Pattern := sequence [wordEdge, literal s, blanks1, name]

def typeArgument : Pattern := seq name (optional (literal "[]"))

def typeSyntax : Pattern :=
  choice [
    sequence [char ':', blanks, words ["string", "number", "boolean", "any", "void", "object",
      "unknown", "never", "Array", "Promise", "Record", "Map", "Set"], wordEdge],
    declared "interface",
    sequence [declared "type", blanks, char '='],
    declared "enum",
    sequence [wordEdge, literal "as", blanks1, words ["const", "string", "number", "boolean"],
      wordEdge],
    sequence [wordEdge, words ["import", "export"], blanks1, literal "type", wordEdge],
    sequence [wordEdge, elementName, char '<', typeArgument,
      many (sequence [char ',', blanks, typeArgument]), char '>']]

def hasTypescriptMarkers (t : Text) : Bool :=
  hasConfigFactory t || hasJsx t || typeSyntax.occursIn t

def fileComment (endings : List String) : Pattern :=
  sequence [literal "//", many (noneOf "\n"), char '.', words endings, wordEdge]

def typescriptFile : Pattern := fileComment ["ts", "tsx", "mts", "cts"]

def javascriptFile : Pattern := fileComment ["js", "jsx", "mjs", "cjs"]

def codeStart : Pattern :=
  sequence [lineStart, words ["import", "export", "const", "let", "var", "function", "class"],
    wordEdge]

def fullLines (t : Text) : List Text := ((lines t).map trim).filter (· != [])

def endsComment (line : Text) : Bool := "*/".toList.isSuffixOf line

/-- Trimmed lines are comments all through. `inBlock` says that a block comment is open; it
stays open up to a line that ends with its closing mark. -/
def commentLines : Bool → List Text → Bool
  | _, [] => true
  | true, line :: rest => commentLines (!endsComment line) rest
  | false, line :: rest =>
    if "/*".toList.isPrefixOf line then commentLines (!endsComment line) rest
    else "//".toList.isPrefixOf line && commentLines false rest

def isCommentOnly (t : Text) : Bool :=
  !(fullLines t).isEmpty && commentLines false (fullLines t)

def hasJavascriptMarkers (t : Text) : Bool :=
  Text.occursIn "require(".toList t || Text.occursIn "module.exports".toList t ||
    codeStart.occursIn t || (t.length < shortLength && isCommentOnly t)

end MarkdownFences.Snippet
