import MarkdownFences.Json.Reader
import MarkdownFences.Text.Pattern

namespace MarkdownFences.Snippet

open Text Text.Pattern

/-- The content is a JSON object or array. Nesting beyond the reader's limit leaves the
question open. -/
def isJson (t : Text) : Except Json.TooDeep Bool :=
  let t := trim t
  if t.head? = some '\x7b' || t.head? = some '[' then
    match Json.read t with
    | .ok _ => .ok true
    | .error (.tooDeep e) => .error e
    | .error _ => .ok false
  else .ok false

def manifestKey : Pattern :=
  sequence [char '"', words ["scripts", "dependencies", "devDependencies", "peerDependencies"],
    char '"', blanks, char ':']

def looksLikeJson (t : Text) : Except Json.TooDeep Bool := do
  if ← isJson t then return true
  return manifestKey.occursIn t && t.contains '\x7b'

end MarkdownFences.Snippet
