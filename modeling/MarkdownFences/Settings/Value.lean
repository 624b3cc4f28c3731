import MarkdownFences.Binary64
import MarkdownFences.Path
import MarkdownFences.Text.Case

namespace MarkdownFences.Settings

inductive Cause where
  | integerText
  | integerSize
  | integerFraction
  | integerInfinite
  | integerType
  | flagText
  | flagType
  | numberText
  | numberType
  | textType
  | textBytes
  | pathType
  | belowOne
  | sampleBelowOne
  | notHttp
  deriving DecidableEq, Repr

structure Conversions where
  integer : Except Cause Int
  flag : Except Cause Bool
  number : Except Cause Binary64
  text : Except Cause Text
  path : Except Cause Path
  deriving Repr

/-- A value given for a setting, before it is converted to the setting's type. -/
inductive Value where
  | text (t : Text)
  | null
  | flag (b : Bool)
  | whole (n : Int)
  | real (x : Binary64)
  | path (p : Path)
  | compound
  | other (c : Conversions)
  deriving Repr

/-- The value of a variable, which no setting takes if its bytes are no text. -/
def Value.ofVariable : Option Text → Value
  | some t => .text t
  | none => .other ⟨.error .textBytes, .error .textBytes, .error .textBytes, .error .textBytes,
      .error .pathType⟩

def Cause.message : Cause → String
  | .integerText => "Input should be a valid integer, unable to parse string as an integer"
  | .integerSize => "Unable to parse input string as an integer, exceeded maximum size"
  | .integerFraction => "Input should be a valid integer, got a number with a fractional part"
  | .integerInfinite => "Input should be a finite number"
  | .integerType => "Input should be a valid integer"
  | .flagText => "Input should be a valid boolean, unable to interpret input"
  | .flagType => "Input should be a valid boolean"
  | .numberText => "Input should be a valid number, unable to parse string as a number"
  | .numberType => "Input should be a valid number"
  | .textType => "Input should be a valid string"
  | .textBytes => "Input should be a valid string, unable to parse raw data as a unicode string"
  | .pathType => "Input is not a valid path"
  | .belowOne => "Value error, value must be at least 1"
  | .sampleBelowOne => "Value error, classifier_sample_chars must be at least 1"
  | .notHttp => "Value error, ollama_base_url must be an http(s) URL"

/-- White space around numbers; the separators among the controls do not belong to it. -/
def isMargin (c : Char) : Bool :=
  Text.isBlank c && !(0x1C ≤ c.toNat && c.toNat ≤ 0x1F)

def trimMargin (t : Text) : Text := Text.dropEnding isMargin (t.dropWhile isMargin)

def splitSign : Text → Bool × Text
  | '-' :: r => (true, r)
  | '+' :: r => (false, r)
  | r => (false, r)

def natOfDigits (t : Text) : Nat :=
  t.foldl (fun n c => if Text.isAsciiDigit c then n * 10 + (c.toNat - 0x30) else n) 0

/-- Single underscores inside a number are passed over. Where others stand all of them stay. -/
def withoutUnderscores (t : Text) : Text :=
  let ps := Text.pieces '_' t
  if ps.all (!·.isEmpty) then ps.flatten else t

/-- What follows zeros that do not count, given the last character passed. They may have single
underscores between them, and a minus sign may come after them. A zero that nothing or only a
fraction follows is kept. -/
def afterZeros (last : Char) : Text → Option Text
  | [] => some [last]
  | c :: r =>
    if c = '0' then afterZeros c r
    else if c = '_' then if last = '_' then none else afterZeros c r
    else if c = '-' || Text.isAsciiDigit c then some (c :: r)
    else if c = '.' then some (last :: c :: r)
    else none

/-- Zeros in front are dropped. An integer starts with a digit or a minus sign. -/
def withoutZeros : Text → Option Text
  | [] => none
  | c :: r =>
    if c = '0' then afterZeros c r
    else if c = '-' || Text.isAsciiDigit c then some (c :: r)
    else none

def withoutPlus : Text → Option Text
  | '+' :: '-' :: _ => none
  | '+' :: r => some r
  | r => some r

/-- A fraction of zeros is dropped; a point alone is none. -/
def withoutFraction (t : Text) : Text :=
  let whole := t.takeWhile (· != '.')
  match t.drop whole.length with
  | _ :: z :: zeros => if (z :: zeros).all (· == '0') then whole else t
  | _ => t

def integerLength : Nat := 4300

/-- Digits, perhaps after a minus sign. Of several digits the first is not zero. -/
def plainInteger (t : Text) : Except Cause Int :=
  let (negative, r) := match t with
    | '-' :: r => (true, r)
    | r => (false, r)
  let digits := r.takeWhile Text.isAsciiDigit
  if digits.isEmpty || (digits.head? = some '0' && digits.length ≠ 1) then .error .integerText
  else if integerLength + r.length < t.length + digits.length then .error .integerSize
  else if digits.length ≠ r.length then .error .integerText
  else
    let n : Int := natOfDigits digits
    .ok (if negative then -n else n)

def integerOfText (t : Text) : Except Cause Int :=
  match (withoutPlus (trimMargin t)).bind withoutZeros with
  | some t => plainInteger (withoutUnderscores (withoutFraction t))
  | none => .error .integerText

/-- The integers in the range of eight bytes, but for the ends. -/
def isLong (n : Int) : Bool := -9223372036854775808 < n && n < 9223372036854775808

def integerOfReal : Binary64 → Except Cause Int
  | .finite s m e =>
    let (n, d) := Binary64.power 2 e
    if m * n % d = 0 then
      let k : Int := m * n / d
      let k := if s then -k else k
      if isLong k then .ok k else .error .integerSize
    else .error .integerFraction
  | _ => .error .integerInfinite

def Value.integer : Value → Except Cause Int
  | .text t => integerOfText t
  | .flag b => .ok (if b then 1 else 0)
  | .whole n => .ok n
  | .real x => integerOfReal x
  | .null | .path _ | .compound => .error .integerType
  | .other c => c.integer

def yesWords : List String := ["1", "on", "t", "true", "y", "yes"]

def noWords : List String := ["0", "off", "f", "false", "n", "no"]

def flagOfText (t : Text) : Except Cause Bool :=
  let isOneOf (ws : List String) := ws.any fun w => w.toList == Text.lower t
  if isOneOf yesWords then .ok true
  else if isOneOf noWords then .ok false
  else .error .flagText

def flagOfWhole (n : Int) : Except Cause Bool :=
  if n = 1 then .ok true else if n = 0 then .ok false else .error .flagText

def Value.toFlag : Value → Except Cause Bool
  | .text t => flagOfText t
  | .flag b => .ok b
  | .whole n => flagOfWhole n
  | .real x =>
    match integerOfReal x with
    | .ok n => flagOfWhole n
    | .error _ => .error .flagType
  | .null | .path _ | .compound => .error .flagType
  | .other c => c.flag

/-- A decimal number with or without a point and an exponent, or one of the words for the
numbers that have no digits. -/
def realOfPlain (t : Text) : Option Binary64 :=
  let (s, r) := splitSign t
  if ["inf", "infinity"].any fun w => w.toList == Text.lower r then some (.infinite s)
  else if Text.lower r = "nan".toList then some .undefined
  else
    let whole := r.takeWhile Text.isAsciiDigit
    let r := r.drop whole.length
    let (fraction, r) := match r with
      | '.' :: r => (r.takeWhile Text.isAsciiDigit, r.dropWhile Text.isAsciiDigit)
      | r => ([], r)
    let digits := whole ++ fraction
    let number (e : Int) := Binary64.ofDecimal s (natOfDigits digits) (e - fraction.length)
    if digits.isEmpty then none
    else
      match r with
      | [] => some (number 0)
      | c :: r =>
        let (negative, ds) := splitSign r
        if (c = 'e' || c = 'E') && !ds.isEmpty && ds.all Text.isAsciiDigit then
          let e : Int := natOfDigits ds
          some (number (if negative then -e else e))
        else none

/-- White space around a number is passed over, or else underscores inside it. -/
def realOfText (t : Text) : Except Cause Binary64 :=
  match (realOfPlain (trimMargin t)).or (realOfPlain (withoutUnderscores t)) with
  | some x => .ok x
  | none => .error .numberText

def realOfWhole (n : Int) : Except Cause Binary64 :=
  match Binary64.ofInt n with
  | .infinite _ => .error .numberType
  | x => .ok x

def Value.number : Value → Except Cause Binary64
  | .text t => realOfText t
  | .whole n => realOfWhole n
  | .real x => .ok x
  | .flag b => .ok (Binary64.ofInt (if b then 1 else 0))
  | .null | .path _ | .compound => .error .numberType
  | .other c => c.number

def Value.toText : Value → Except Cause Text
  | .text t => .ok t
  | .null | .flag _ | .whole _ | .real _ | .path _ | .compound => .error .textType
  | .other c => c.text

def Value.toPath : Value → Except Cause Path
  | .text t => .ok (.ofText t)
  | .path p => .ok p
  | .null | .flag _ | .whole _ | .real _ | .compound => .error .pathType
  | .other c => c.path

end MarkdownFences.Settings
