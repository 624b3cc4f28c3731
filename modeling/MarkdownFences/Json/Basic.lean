import MarkdownFences.Text.Basic

namespace MarkdownFences.Json

/-- The code points of a string. An escape may name half of a surrogate pair, which is no
character. -/
abbrev Points := List Nat

/-- A JSON value; numbers keep the way they are written. -/
inductive Value where
  | null
  | bool (b : Bool)
  | number (literal : Text)
  | string (points : Points)
  | array (items : List Value)
  | object (members : List (Points × Value))

inductive Cause where
  | value
  | propertyName
  | colon
  | comma
  | openString
  | controlCharacter
  | escape
  | unicodeEscape
  | extraData
  deriving DecidableEq, Repr

def Cause.message : Cause → String
  | .value => "Expecting value"
  | .propertyName => "Expecting property name enclosed in double quotes"
  | .colon => "Expecting ':' delimiter"
  | .comma => "Expecting ',' delimiter"
  | .openString => "Unterminated string starting at"
  | .controlCharacter => "Invalid control character at"
  | .escape => "Invalid \\escape"
  | .unicodeEscape => "Invalid \\uXXXX escape"
  | .extraData => "Extra data"

inductive Container where
  | array
  | object
  deriving DecidableEq, Repr

/-- A container opened beyond the nesting limit. It is no defect of the text. -/
structure TooDeep where
  container : Container
  deriving DecidableEq, Repr

def TooDeep.message (e : TooDeep) : String :=
  let kind := match e.container with
    | .array => "array"
    | .object => "object"
  s!"maximum recursion depth exceeded while decoding a JSON {kind} from a unicode string"

inductive Refusal where
  | malformed (cause : Cause) (position line column : Nat)
  | longInteger (digits : Nat)
  | tooDeep (e : TooDeep)
  deriving DecidableEq, Repr

def Refusal.message : Refusal → String
  | .malformed cause position line column =>
    s!"{cause.message}: line {line} column {column} (char {position})"
  | .longInteger digits =>
    "Exceeds the limit (4300 digits) for integer string conversion: " ++
      s!"value has {digits} digits; use sys.set_int_max_str_digits() to increase the limit"
  | .tooDeep e => e.message

/-- The text of a string, with the replacement character for half a surrogate pair. -/
def Points.text (ps : Points) : Text :=
  ps.map fun n => if n.isValidChar then Char.ofNat n else '\uFFFD'

def Points.ofText (t : Text) : Points := t.map Char.toNat

/-- The last value that an object gives for a key. -/
def Value.get? (key : String) : Value → Option Value
  | .object members => (members.reverse.find? fun m => m.1 == Points.ofText key.toList).map (·.2)
  | _ => none

end MarkdownFences.Json
