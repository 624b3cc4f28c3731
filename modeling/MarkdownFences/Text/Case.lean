import MarkdownFences.Text.Alphanumeric
import MarkdownFences.Text.Basic
import MarkdownFences.Text.Case.Table

namespace MarkdownFences.Text

def isCased (c : Char) : Bool := casedRanges.contains c.toNat

def isCaseIgnorable (c : Char) : Bool := caseIgnorableRanges.contains c.toNat

def casedNext (t : Text) : Bool :=
  ((t.dropWhile isCaseIgnorable).head?.map isCased).getD false

def lowerChar (c : Char) : Text :=
  if isAsciiUpper c then [Char.ofNat (c.toNat + 32)]
  else if c.toNat < 0x80 then [c]
  else if c.toNat = 0x130 then ['i', '\u0307']
  else [((lowerRuns.image? c.toNat).map Char.ofNat).getD c]

/-- Lower case after the characters `back`, the nearest first. A capital sigma that ends a
word becomes the final sigma. -/
def lowerAfter (back : Text) : Text → Text
  | [] => []
  | c :: r =>
    (if c = '\u03A3' then
      [if casedNext back && !casedNext r then '\u03C2' else '\u03C3']
    else lowerChar c) ++ lowerAfter (c :: back) r

def lower (t : Text) : Text := lowerAfter [] t

def upperChar (c : Char) : Text :=
  if isAsciiLower c then [Char.ofNat (c.toNat - 32)]
  else if c.toNat < 0x80 then [c]
  else
    match upperExpansions.lookup c.toNat with
    | some ns => ns.map Char.ofNat
    | none => [((upperRuns.image? c.toNat).map Char.ofNat).getD c]

def upper (t : Text) : Text := t.flatMap upperChar

/-- Equality with an ASCII lower-case letter when case is ignored. The long s, the Kelvin sign
and the two Turkish forms of i fold to ASCII letters. -/
def foldsTo (l c : Char) : Bool :=
  c == l || (isAsciiUpper c && Char.ofNat (c.toNat + 32) == l) ||
    (l == 's' && c == '\u017F') || (l == 'k' && c == '\u212A') ||
    (l == 'i' && (c == '\u0130' || c == '\u0131'))

end MarkdownFences.Text
