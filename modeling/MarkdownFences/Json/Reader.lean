import MarkdownFences.Json.Basic
import MarkdownFences.Text.Alphanumeric

namespace MarkdownFences.Json

inductive Stop where
  | unexpected (cause : Cause) (rest : Text)
  | longInteger (digits : Nat)
  | tooDeep (e : TooDeep)

/-- A reader takes its part from the front of a text and leaves the rest. -/
abbrev Reader (α : Type) := Text → Except Stop (α × Text)

def isSpace (c : Char) : Bool := c == ' ' || c == '\t' || c == '\n' || c == '\r'

def skipSpace (t : Text) : Text := t.dropWhile isSpace

def hexDigit? (c : Char) : Option Nat :=
  if Text.isAsciiDigit c then some (c.toNat - 0x30)
  else if 'a' ≤ c && c ≤ 'f' then some (c.toNat - 0x57)
  else if 'A' ≤ c && c ≤ 'F' then some (c.toNat - 0x37)
  else none

/-- The number that four hexadecimal digits write at the front of a text. Something must
follow them, as a string cannot end there. -/
def unit? : Text → Option Nat
  | a :: b :: c :: d :: _ :: _ => do
    let a ← hexDigit? a
    let b ← hexDigit? b
    let c ← hexDigit? c
    let d ← hexDigit? d
    return ((a * 16 + b) * 16 + c) * 16 + d
  | _ => none

def isHighSurrogate (n : Nat) : Bool := 0xD800 ≤ n && n < 0xDC00

def isLowSurrogate (n : Nat) : Bool := 0xDC00 ≤ n && n < 0xE000

/-- The code point of the escape whose backslash has just been passed, and its length. The two
halves of a surrogate pair, written one after the other, are one code point. -/
def escape (opening r : Text) : Except Stop (Nat × Nat) :=
  match r with
  | [] => .error (.unexpected .openString opening)
  | 'u' :: u =>
    match unit? u with
    | none => .error (.unexpected .unicodeEscape r)
    | some high =>
      match u.drop 4 with
      | '\\' :: 'u' :: v =>
        if isHighSurrogate high && 4 < v.length then
          match unit? v with
          | none => .error (.unexpected .unicodeEscape ('u' :: v))
          | some low =>
            if isLowSurrogate low then
              .ok (0x10000 + (high - 0xD800) * 0x400 + (low - 0xDC00), 11)
            else .ok (high, 5)
        else .ok (high, 5)
      | _ => .ok (high, 5)
  | c :: _ =>
    match "\"\\/bfnrt".toList.zip "\"\\/\x08\x0c\n\r\t".toList |>.lookup c with
    | some d => .ok (d.toNat, 1)
    | none => .error (.unexpected .escape ('\\' :: r))

def stringRest (opening : Text) : Reader Points
  | [] => .error (.unexpected .openString opening)
  | c :: r =>
    if c = '"' then .ok ([], r)
    else if c = '\\' then
      match escape opening r with
      | .error e => .error e
      | .ok (n, size) => (stringRest opening (r.drop size)).map fun x => (n :: x.1, x.2)
    else if c.toNat < 0x20 then .error (.unexpected .controlCharacter (c :: r))
    else (stringRest opening r).map fun x => (c.toNat :: x.1, x.2)
termination_by t => t.length
decreasing_by all_goals simp; try omega

def fraction : Text → Text
  | '.' :: d :: r =>
    if Text.isAsciiDigit d then '.' :: d :: r.takeWhile Text.isAsciiDigit else []
  | _ => []

def exponent : Text → Text
  | e :: r =>
    let sign := match r with
      | '+' :: _ => ['+']
      | '-' :: _ => ['-']
      | _ => []
    let ds := (r.drop sign.length).takeWhile Text.isAsciiDigit
    if (e = 'e' || e = 'E') && !ds.isEmpty then e :: (sign ++ ds) else []
  | [] => []

/-- Longer integers are refused. -/
def integerDigits : Nat := 4300

def number (t : Text) : Except Stop (Value × Text) :=
  let sign := if t.head? = some '-' then ['-'] else []
  let r := t.drop sign.length
  let whole := if r.head? = some '0' then ['0'] else r.takeWhile Text.isAsciiDigit
  if whole.isEmpty then .error (.unexpected .value t)
  else
    let frac := fraction (r.drop whole.length)
    let ex := exponent (r.drop (whole.length + frac.length))
    let literal := sign ++ whole ++ frac ++ ex
    if frac.isEmpty && ex.isEmpty && integerDigits < whole.length then
      .error (.longInteger whole.length)
    else .ok (.number literal, t.drop literal.length)

/-- Words with a meaning of their own, three of them numbers that no digits write. -/
def words : List (String × Value) :=
  [("null", .null), ("true", .bool true), ("false", .bool false), ("NaN", .number "NaN".toList),
    ("Infinity", .number "Infinity".toList), ("-Infinity", .number "-Infinity".toList)]

def wordOrNumber (t : Text) : Except Stop (Value × Text) :=
  match words.find? fun w => w.1.toList.isPrefixOf t with
  | some w => .ok (w.2, t.drop w.1.length)
  | none => number t

def items (item : Reader Value) : Nat → Reader (List Value)
  | 0, t => .error (.unexpected .value t)
  | n + 1, t => do
    let (v, r) ← item t
    match skipSpace r with
    | ']' :: r => return ([v], r)
    | ',' :: r =>
      let (vs, r) ← items item n (skipSpace r)
      return (v :: vs, r)
    | r => throw (.unexpected .comma r)

def members (item : Reader Value) : Nat → Reader (List (Points × Value))
  | 0, t => .error (.unexpected .value t)
  | n + 1, t =>
    match t with
    | '"' :: k => do
      let (key, r) ← stringRest t k
      match skipSpace r with
      | ':' :: r =>
        let (v, r) ← item (skipSpace r)
        match skipSpace r with
        | '\x7d' :: r => return ([(key, v)], r)
        | ',' :: r =>
          let (ms, r) ← members item n (skipSpace r)
          return ((key, v) :: ms, r)
        | r => throw (.unexpected .comma r)
      | r => throw (.unexpected .colon r)
    | _ => .error (.unexpected .propertyName t)

/-- A value whose parts are read by the given reader. Without one there is no room for a
container, not even for an empty one. -/
def valueOf (inner : Option (Reader Value)) : Reader Value
  | '"' :: r => (stringRest ('"' :: r) r).map fun x => (.string x.1, x.2)
  | '[' :: r =>
    match inner with
    | none => .error (.tooDeep ⟨.array⟩)
    | some item =>
      match skipSpace r with
      | ']' :: r => .ok (.array [], r)
      | r => (items item (r.length + 1) r).map fun x => (.array x.1, x.2)
  | '\x7b' :: r =>
    match inner with
    | none => .error (.tooDeep ⟨.object⟩)
    | some item =>
      match skipSpace r with
      | '\x7d' :: r => .ok (.object [], r)
      | r => (members item (r.length + 1) r).map fun x => (.object x.1, x.2)
  | t => wordOrNumber t

def value : Nat → Reader Value
  | 0 => valueOf none
  | levels + 1 => valueOf (some (value levels))

/-- Containers may stand in one another to this depth. The number stands for the room that is left
on the stack of a reader that calls itself for each of them, which differs with the place it is
called from; no more is relied on than that there is such a number above zero. -/
def nestingLimit : Nat := 1000

def refusalAt (t : Text) : Stop → Refusal
  | .unexpected cause rest =>
    let passed := t.take (t.length - rest.length)
    let column := (passed.reverse.takeWhile (· != '\n')).length + 1
    .malformed cause passed.length (passed.count '\n' + 1) column
  | .longInteger digits => .longInteger digits
  | .tooDeep e => .tooDeep e

def read (t : Text) : Except Refusal Value :=
  match value nestingLimit (skipSpace t) with
  | .error e => .error (refusalAt t e)
  | .ok (v, r) =>
    match skipSpace r with
    | [] => .ok v
    | r => .error (refusalAt t (.unexpected .extraData r))

end MarkdownFences.Json
