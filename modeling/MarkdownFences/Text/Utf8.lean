import MarkdownFences.Text.Quoted

namespace MarkdownFences.Text

/-- Why bytes begin no character: the first byte starts none, a later one does not continue
it, or the bytes end too early. Where characters have units of several bytes, a unit is cut off,
or it is beyond the code points. -/
inductive Flaw where
  | start
  | continuation
  | truncated
  | cut
  | range
  deriving DecidableEq, Repr

def Flaw.message : Flaw → String
  | .start => "invalid start byte"
  | .continuation => "invalid continuation byte"
  | .truncated => "unexpected end of data"
  | .cut => "truncated data"
  | .range => "code point not in range(0x110000)"

/-- What the next bytes are: a character, or the longest beginning of one that fails. -/
inductive Scalar where
  | char (c : Char)
  | bad (flaw : Flaw)
  deriving DecidableEq, Repr

/-- The rest of a character of which `left` bytes are to come, the next one between `low` and
`high`. The number counts the bytes taken. -/
def continued (code taken : Nat) : Nat → Nat → Nat → List UInt8 → Scalar × Nat
  | 0, _, _, _ => (.char (Char.ofNat code), taken)
  | _ + 1, _, _, [] => (.bad .truncated, taken)
  | left + 1, low, high, b :: r =>
    if low ≤ b.toNat && b.toNat ≤ high then
      continued (code * 64 + (b.toNat - 0x80)) (taken + 1) left 0x80 0xBF r
    else (.bad .continuation, taken)

/-- The character or flaw that a first byte and the bytes after it make, and how many of the
latter belong to it. The bounds of the second byte leave out overlong forms, surrogates and
numbers that are no code point. -/
def scalar (b : UInt8) (r : List UInt8) : Scalar × Nat :=
  let n := b.toNat
  if n < 0x80 then (.char (Char.ofNat n), 0)
  else if n < 0xC2 then (.bad .start, 0)
  else if n < 0xE0 then continued (n - 0xC0) 0 1 0x80 0xBF r
  else if n = 0xE0 then continued 0 0 2 0xA0 0xBF r
  else if n = 0xED then continued 13 0 2 0x80 0x9F r
  else if n < 0xF0 then continued (n - 0xE0) 0 2 0x80 0xBF r
  else if n = 0xF0 then continued 0 0 3 0x90 0xBF r
  else if n < 0xF4 then continued (n - 0xF0) 0 3 0x80 0xBF r
  else if n = 0xF4 then continued 4 0 3 0x80 0x8F r
  else (.bad .start, 0)

def scalars : List UInt8 → List (Scalar × List UInt8)
  | [] => []
  | b :: r =>
    let (s, n) := scalar b r
    (s, b :: r.take n) :: scalars (r.drop n)
termination_by bs => bs.length
decreasing_by
  simp only [List.length_drop, List.length_cons]
  omega

structure BadBytes where
  position : Nat
  bytes : List UInt8
  flaw : Flaw
  deriving DecidableEq, Repr

def BadBytes.messageOf (encoding : String) (e : BadBytes) : String :=
  let place :=
    match e.bytes with
    | [b] => s!"byte 0x{String.ofList (hex 2 b.toNat)} in position {e.position}"
    | bs => s!"bytes in position {e.position}-{e.position + bs.length - 1}"
  s!"'{encoding}' codec can't decode {place}: {e.flaw.message}"

def BadBytes.message (e : BadBytes) : String := e.messageOf "utf-8"

def ofScalars (position : Nat) : List (Scalar × List UInt8) → Except BadBytes Text
  | [] => .ok []
  | (.char c, bs) :: r => (ofScalars (position + bs.length) r).map (c :: ·)
  | (.bad flaw, bs) :: _ => .error ⟨position, bs, flaw⟩

def ofUtf8 (bs : List UInt8) : Except BadBytes Text := ofScalars 0 (scalars bs)

/-- Reading that puts the replacement character for every run of bad bytes. -/
def ofUtf8Lossy (bs : List UInt8) : Text :=
  (scalars bs).map fun
    | (.char c, _) => c
    | (.bad _, _) => '\uFFFD'

def toUtf8 (t : Text) : List UInt8 := t.flatMap String.utf8EncodeChar

end MarkdownFences.Text
