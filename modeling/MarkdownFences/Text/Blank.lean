import MarkdownFences.Text.Basic

namespace MarkdownFences.Text

/-- White space: the blank controls, the space separators, and the line and paragraph
separators. The zero-width characters are not white space. -/
def isBlank (c : Char) : Bool :=
  let n := c.toNat
  (0x09 ≤ n && n ≤ 0x0D) || (0x1C ≤ n && n ≤ 0x20) || n == 0x85 || n == 0xA0 || n == 0x1680 ||
    (0x2000 ≤ n && n ≤ 0x200A) || n == 0x2028 || n == 0x2029 || n == 0x202F || n == 0x205F ||
    n == 0x3000

def trimLeft (t : Text) : Text := t.dropWhile isBlank

def dropEnding (p : Char → Bool) (t : Text) : Text := (t.reverse.dropWhile p).reverse

def trimRight (t : Text) : Text := dropEnding isBlank t

def trim (t : Text) : Text := trimRight (trimLeft t)

def isVoid (t : Text) : Bool := t.all isBlank

/-- Every character that the test accepts becomes a line feed, and a carriage return takes a
line feed right after it along. -/
def withLineFeeds (isBreak : Char → Bool) : Text → Text
  | [] => []
  | '\r' :: '\n' :: r => '\n' :: withLineFeeds isBreak r
  | c :: r => (if isBreak c then '\n' else c) :: withLineFeeds isBreak r

/-- The reading of a text file: all three line end conventions give a line feed. -/
def ofFileText (t : Text) : Text := withLineFeeds (· == '\r') t

def isRowBreak (c : Char) : Bool :=
  let n := c.toNat
  (0x0A ≤ n && n ≤ 0x0D) || (0x1C ≤ n && n ≤ 0x1E) || n == 0x85 || n == 0x2028 || n == 0x2029

/-- The rows of a text under every kind of break; a break at the very end opens no row. -/
def rows (t : Text) : List Text :=
  let ls := lines (withLineFeeds isRowBreak t)
  if ls.getLast? = some [] then ls.dropLast else ls

def firstWord (t : Text) : Text := (trimLeft t).takeWhile (!isBlank ·)

end MarkdownFences.Text
