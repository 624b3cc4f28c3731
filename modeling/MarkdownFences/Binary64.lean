import MarkdownFences.Text.Blank

namespace MarkdownFences

/-- The numbers of double precision arithmetic: finite ones are a significand times a power of
two, with a sign that zero has too. -/
inductive Binary64 where
  | finite (negative : Bool) (significand : Nat) (exponent : Int)
  | infinite (negative : Bool)
  | undefined
  deriving DecidableEq, Repr

namespace Binary64

/-- The quotient rounded to the nearest whole number, a half to the even neighbour. -/
def divRound (num den : Nat) : Nat :=
  let q := num / den
  let r := num % den
  if 2 * r < den then q
  else if 2 * r = den && q % 2 = 0 then q
  else q + 1

def power (base : Nat) (e : Int) : Nat × Nat :=
  if 0 ≤ e then (base.pow e.toNat, 1) else (1, base.pow (-e).toNat)

def significandBound : Nat := 9007199254740992

def nearest (negative : Bool) (num den : Nat) : Binary64 :=
  if num = 0 then .finite negative 0 0
  else
    let e : Int := (Nat.log2 num : Int) - Nat.log2 den - 53
    let (d, n) := power 2 e
    let e := if num * n / (den * d) < significandBound then e else e + 1
    let e := max e (-1074)
    let (d, n) := power 2 e
    let m := divRound (num * n) (den * d)
    if 971 < e || (e = 971 && significandBound ≤ m) then .infinite negative
    else .finite negative m e

/-- The double nearest to a decimal number. Exponents beyond all doubles need no powers. -/
def ofDecimal (negative : Bool) (digits : Nat) (exponent : Int) : Binary64 :=
  if digits = 0 then .finite negative 0 0
  else
    let size : Int := exponent + (Nat.log2 digits / 3 : Nat)
    if 400 < exponent then .infinite negative
    else if size < -500 then .finite negative 0 0
    else
      let (n, d) := power 10 exponent
      nearest negative (digits * n) d

def ofInt (n : Int) : Binary64 := nearest (n < 0) n.natAbs 1

def ratio (a b : Int) : Binary64 := nearest ((a < 0) != (b < 0)) a.natAbs b.natAbs

def scale (k : Nat) : Binary64 → Binary64
  | .finite s m e =>
    let (n, d) := power 2 e
    nearest s (m * n * k) d
  | x => x

def padded (width n : Nat) : Text :=
  let ds := (toString n).toList
  List.replicate (width - ds.length) '0' ++ ds

/-- The text with so many digits after the point, the exact value rounded with ties to even. -/
def fixed (places : Nat) : Binary64 → Text
  | .finite s m e =>
    let (n, d) := power 2 e
    let ds := padded (places + 1) (divRound (m * n * Nat.pow 10 places) d)
    let cut := ds.length - places
    (if s then ['-'] else []) ++ ds.take cut ++
      (if places = 0 then [] else '.' :: ds.drop cut)
  | .infinite s => (if s then ['-'] else []) ++ "inf".toList
  | .undefined => "nan".toList

/-- Of the two decimals with `n` digits around a value the nearer one that reads back as it.
The value is below ten to the power `top`. -/
def readingBack (m : Nat) (e top : Int) (n : Nat) : Option Nat :=
  let (a, b) := power 2 e
  let (c, d) := power 10 (n - top)
  let num := m * a * c
  let den := b * d
  let low := num / den
  let ofGrid (q : Nat) : Binary64 := nearest false (q * d) c
  let value := nearest false (m * a) b
  let near := divRound num den
  let far := if near = low then low + 1 else low
  if ofGrid near = value then some near
  else if ofGrid far = value then some far
  else none

def decimalTop (m : Nat) (e : Int) : Nat → Int → Int
  | 0, top => top
  | k + 1, top =>
    let (a, b) := power 2 e
    let (c, d) := power 10 (top - 1)
    if m * a * d < c * b then decimalTop m e k (top - 1) else top

/-- The fewest digits that read back as the value, with the power of ten above them. -/
def shortestDigits (m : Nat) (e : Int) : Text × Int :=
  let top := decimalTop m e 700 310
  match (List.range 17).findSome? fun i => (readingBack m e top (i + 1)).map (·, i + 1) with
  | some (q, n) =>
    let ds := (toString q).toList
    (Text.dropEnding (· == '0') ds, top + ds.length - n)
  | none => (['0'], top)

/-- The shortest text that reads back: positional from `1e-4` on and below `1e16`, with at
least one digit after the point, and scientific with two exponent digits elsewhere. -/
def shortest : Binary64 → Text
  | .finite s m e =>
    let sign := if s then ['-'] else []
    if m = 0 then sign ++ "0.0".toList
    else
      let (ds, top) := shortestDigits m e
      if -4 < top && top ≤ 16 then
        if top ≤ 0 then sign ++ "0.".toList ++ List.replicate (-top).toNat '0' ++ ds
        else
          let whole := ds.take top.toNat
          let fraction := ds.drop top.toNat
          sign ++ whole ++ List.replicate (top.toNat - whole.length) '0' ++
            '.' :: (if fraction.isEmpty then ['0'] else fraction)
      else
        let x := top - 1
        sign ++ ds.take 1 ++ (if ds.length = 1 then [] else '.' :: ds.drop 1) ++
          'e' :: (if x < 0 then '-' else '+') :: padded 2 x.natAbs
  | .infinite s => (if s then ['-'] else []) ++ "inf".toList
  | .undefined => "nan".toList

end Binary64

end MarkdownFences
