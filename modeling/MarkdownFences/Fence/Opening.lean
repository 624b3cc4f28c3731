import MarkdownFences.Fence
import MarkdownFences.Text.Quoted

namespace MarkdownFences.Fence

def isIndent (c : Char) : Bool := c == ' ' || c == '\t'

/-- The parts of a line that opens a block: the indentation, the tag if there is one, what
follows it, and whether a carriage return ends the line. -/
structure Opening where
  indent : Text
  tag : Option Text
  rest : Text
  carriageReturn : Bool
  deriving DecidableEq, Repr

namespace Opening

/-- The end of a line: a line feed at the very end is dropped, one before it is not allowed, and
a carriage return at the end is set apart. -/
def ending? (t : Text) : Option (Text × Bool) :=
  let t := if t.getLast? = some '\n' then t.dropLast else t
  if t.contains '\n' then none
  else if t.getLast? = some '\r' then some (t.dropLast, true)
  else some (t, false)

/-- Reads a line; only spaces and tabs may stand before the backticks. -/
def ofLine? (line : Text) : Option Opening :=
  let indent := line.takeWhile isIndent
  let marked := line.drop indent.length
  if mark.isPrefixOf marked then
    let tagged := (marked.drop mark.length).dropWhile isIndent
    let tag := leadingTag tagged
    (ending? (tagged.drop (tag.getD []).length)).map fun e => ⟨indent, tag, e.1, e.2⟩
  else none

def spaced : Text → Text
  | [] => []
  | c :: r => if Text.isBlank c then c :: r else ' ' :: c :: r

def write (o : Opening) (tag : Text) : Text :=
  o.indent ++ mark ++ tag ++ Text.trimRight (spaced o.rest) ++
    (if o.carriageReturn then ['\r'] else [])

end Opening

structure NotOpening where
  line : Text
  deriving DecidableEq, Repr

def NotOpening.message (e : NotOpening) : String :=
  s!"not an opening fence: {String.ofList (Text.quoted e.line)}"

/-- Replaces the tag of an opening fence. Indentation, what follows the tag and a carriage
return at the end stay. -/
def retag (line tag : Text) : Except NotOpening Text :=
  match Opening.ofLine? line with
  | some o => .ok (o.write tag)
  | none => .error ⟨line⟩

end MarkdownFences.Fence
