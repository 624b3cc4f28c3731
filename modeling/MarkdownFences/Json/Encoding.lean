import MarkdownFences.Json.Reader
import MarkdownFences.Text.Utf8

namespace MarkdownFences.Json

/-- How the bytes of a document spell its text: in units of one, two or four bytes, where the byte
that counts most comes first or last. -/
inductive Encoding where
  | utf8
  | utf16 (highFirst : Bool)
  | utf32 (highFirst : Bool)
  deriving DecidableEq, Repr

def Encoding.name : Encoding → String
  | .utf8 => "utf-8"
  | .utf16 true => "utf-16-be"
  | .utf16 false => "utf-16-le"
  | .utf32 true => "utf-32-be"
  | .utf32 false => "utf-32-le"

def marks : List (List UInt8 × Encoding) :=
  [([0x00, 0x00, 0xFE, 0xFF], .utf32 true), ([0xFF, 0xFE, 0x00, 0x00], .utf32 false),
    ([0xFE, 0xFF], .utf16 true), ([0xFF, 0xFE], .utf16 false), ([0xEF, 0xBB, 0xBF], .utf8)]

/-- A document without a mark shows its encoding by the zeros among its first bytes, since it
begins with characters that one byte can spell. -/
def Encoding.ofZeros : List UInt8 → Encoding
  | [a, b] => if a = 0 then .utf16 true else if b = 0 then .utf16 false else .utf8
  | a :: b :: c :: d :: _ =>
    if a = 0 then (if b = 0 then .utf32 true else .utf16 true)
    else if b = 0 then (if c = 0 && d = 0 then .utf32 false else .utf16 false)
    else .utf8
  | _ => .utf8

def unitOf (highFirst : Bool) (bs : List UInt8) : Nat :=
  (if highFirst then bs else bs.reverse).foldl (fun n b => n * 0x100 + b.toNat) 0

/-- The numbers that units of `size + 1` bytes write, or the first bytes that write none. -/
def units (highFirst : Bool) (size position : Nat) : List UInt8 → Except Text.BadBytes Points
  | [] => .ok []
  | b :: r =>
    let bs := b :: r.take size
    if r.length < size then .error ⟨position, bs, .cut⟩
    else if 0x110000 ≤ unitOf highFirst bs then .error ⟨position, bs, .range⟩
    else (units highFirst size (position + size + 1) (r.drop size)).map (unitOf highFirst bs :: ·)
termination_by bs => bs.length
decreasing_by
  simp only [List.length_drop, List.length_cons]
  omega

def paired : Points → Points
  | high :: low :: ps =>
    if isHighSurrogate high && isLowSurrogate low then
      (0x10000 + (high - 0xD800) * 0x400 + (low - 0xDC00)) :: paired ps
    else high :: paired (low :: ps)
  | ps => ps

/-- The text of scalars, with the replacement character for three bytes that spell half of a
surrogate pair. -/
def ofScalars (position : Nat) : List (Text.Scalar × List UInt8) → Except Text.BadBytes Text
  | [] => .ok []
  | (.char c, bs) :: r => (ofScalars (position + bs.length) r).map (c :: ·)
  | (.bad flaw, bs) :: (.bad _, [b]) :: (.bad _, [c]) :: r =>
    if bs = [0xED] && 0xA0 ≤ b && b ≤ 0xBF && 0x80 ≤ c && c ≤ 0xBF then
      (ofScalars (position + 3) r).map ('\uFFFD' :: ·)
    else .error ⟨position, bs, flaw⟩
  | (.bad flaw, bs) :: _ => .error ⟨position, bs, flaw⟩

def Encoding.read (e : Encoding) (mark : Nat) (bs : List UInt8) : Except Text.BadBytes Text :=
  match e with
  | .utf8 => ofScalars 0 (Text.scalars bs)
  | .utf16 highFirst => (units highFirst 1 mark bs).map fun ps => (paired ps).text
  | .utf32 highFirst => (units highFirst 3 mark bs).map Points.text

/-- The text of a document. A mark in front is no part of it, and half of a surrogate pair is read
as the replacement character. -/
def decode (bs : List UInt8) : Except (Encoding × Text.BadBytes) Text :=
  let (mark, e) := (marks.find? fun m => m.1.isPrefixOf bs).getD ([], .ofZeros bs)
  (e.read mark.length (bs.drop mark.length)).mapError fun bad => (e, bad)

end MarkdownFences.Json
