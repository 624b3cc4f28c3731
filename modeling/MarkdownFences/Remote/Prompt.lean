import MarkdownFences.Text.Case
import MarkdownFences.Text.Blank
import MarkdownFences.Language

namespace MarkdownFences.Remote

def promptStart : Text := ("Classify this code block's language. Return ONLY one word: " ++
  "bash, json, javascript, typescript, text, or markdown.

Guidelines:
- Shell commands/syntax (git, npm, pipes, etc.) -> bash
- Valid JSON structure -> json
- Type annotations (x: string, interface, etc.) -> typescript
- JavaScript without types -> javascript
- Markdown formatting (links, headers, bold) -> markdown
- Plain text, output, or descriptions -> text

Examples:
\"npm install\" -> bash
\"const x: string = 'hi';\" -> typescript
\"const x = 'hi';\" -> javascript
\"\x7b 'name': 'test' \x7d\" -> json
\"[link](url)\" -> markdown
\"Error: not found\" -> text

Code block:
```
").toList

def promptEnd : Text := "
```

Language:".toList

/-- The beginning of a text. A negative size says how much is left off at the end. -/
def sample (size : Int) (t : Text) : Text :=
  if 0 ≤ size then t.take size.toNat else t.take (t.length - size.natAbs)

def prompt (size : Int) (t : Text) : Text := promptStart ++ sample size t ++ promptEnd

def isDecoration (c : Char) : Bool := [Text.tick, '\x27', '"', '.', ',', ':'].contains c

/-- The language that the first word of an answer names, whatever its case and decoration. -/
def answer? (t : Text) : Option Language :=
  let word := Text.firstWord (Text.lower (Text.trim t))
  let word := Text.dropEnding isDecoration (word.dropWhile isDecoration)
  if word = "sh".toList then some .bash else Language.ofTag? word

end MarkdownFences.Remote
