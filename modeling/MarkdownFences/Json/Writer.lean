import MarkdownFences.Json.Basic
import MarkdownFences.Text.Quoted

namespace MarkdownFences.Json

def unitEscape (n : Nat) : Text := '\\' :: 'u' :: Text.hex 4 n

/-- A code point in a string, in ASCII only: beyond the basic plane by a surrogate pair. -/
def written (n : Nat) : Text :=
  if n = 0x22 then "\\\"".toList
  else if n = 0x5C then "\\\\".toList
  else if n = 0x0A then "\\n".toList
  else if n = 0x0D then "\\r".toList
  else if n = 0x09 then "\\t".toList
  else if n = 0x08 then "\\b".toList
  else if n = 0x0C then "\\f".toList
  else if 0x20 ≤ n && n < 0x7F then [Char.ofNat n]
  else if n < 0x10000 then unitEscape n
  else
    unitEscape (0xD800 + (n - 0x10000) / 0x400) ++ unitEscape (0xDC00 + (n - 0x10000) % 0x400)

def writeString (ps : Points) : Text := '"' :: (ps.flatMap written ++ ['"'])

end MarkdownFences.Json
