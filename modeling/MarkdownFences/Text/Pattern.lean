import MarkdownFences.Text.Case
import MarkdownFences.Text.Blank

namespace MarkdownFences.Text

/-- A place in a text: the character just before it, if it is not the start, and what follows. -/
structure Place where
  back : Option Char
  rest : Text
  deriving DecidableEq, Repr

namespace Place

def start (t : Text) : Place := ⟨none, t⟩

def atLineStart (x : Place) : Bool := x.back = none || x.back = some '\n'

def atLineEnd (x : Place) : Bool := x.rest.head? = none || x.rest.head? = some '\n'

def atWordEdge (x : Place) : Bool :=
  (x.back.map isWordChar).getD false != (x.rest.head?.map isWordChar).getD false

end Place

inductive Pattern where
  | empty
  | one (accepts : Char → Bool)
  | seq (p q : Pattern)
  | alt (p q : Pattern)
  | many (p : Pattern)
  | holds (test : Place → Bool)
  | ahead (p : Pattern)
  | notAhead (p : Pattern)

namespace Pattern

/-- A matcher hands every end of a match to its continuation until one is accepted. -/
abbrev Matcher := Place → (Place → Option Place) → Option Place

def repeated (m : Matcher) : Nat → Matcher
  | 0, x, k => k x
  | n + 1, x, k =>
    match m x fun y => repeated m n y k with
    | some z => some z
    | none => k x

/-- The first end, in order of preference, of a match that begins at the place and after which
the continuation succeeds: earlier alternatives and longer repetitions come first. -/
def matchAt : Pattern → Matcher
  | empty, x, k => k x
  | one accepts, x, k =>
    match x.rest with
    | [] => none
    | c :: r => if accepts c then k ⟨some c, r⟩ else none
  | seq p q, x, k => matchAt p x fun y => matchAt q y k
  | alt p q, x, k =>
    match matchAt p x k with
    | some z => some z
    | none => matchAt q x k
  | many p, x, k => repeated (matchAt p) x.rest.length x k
  | holds test, x, k => if test x then k x else none
  | ahead p, x, k => if (matchAt p x some).isSome then k x else none
  | notAhead p, x, k => if (matchAt p x some).isSome then none else k x

/-- The place right after the first match that begins here or later. -/
def searchFrom (p : Pattern) (back : Option Char) : Text → Option Place
  | [] => matchAt p ⟨back, []⟩ some
  | c :: r =>
    match matchAt p ⟨back, c :: r⟩ some with
    | some y => some y
    | none => searchFrom p (some c) r

def occursIn (p : Pattern) (t : Text) : Bool := (searchFrom p none t).isSome

def startsText (p : Pattern) (t : Text) : Bool := (matchAt p (.start t) some).isSome

/-- The matches that do not overlap, counted from the left, at most `n` of them. -/
def countFrom (p : Pattern) : Nat → Place → Nat
  | 0, _ => 0
  | n + 1, x =>
    match searchFrom p x.back x.rest with
    | some y => 1 + countFrom p n y
    | none => 0

def count (p : Pattern) (t : Text) : Nat := countFrom p (t.length + 1) (.start t)

def sequence : List Pattern → Pattern
  | [] => empty
  | [p] => p
  | p :: q :: ps => seq p (sequence (q :: ps))

def choice : List Pattern → Pattern
  | [] => holds fun _ => false
  | [p] => p
  | p :: q :: ps => alt p (choice (q :: ps))

def optional (p : Pattern) : Pattern := alt p empty

def many1 (p : Pattern) : Pattern := seq p (many p)

def char (c : Char) : Pattern := one (· == c)

def literal (s : String) : Pattern := sequence (s.toList.map char)

def words (ss : List String) : Pattern := choice (ss.map literal)

def foldedWords (ss : List String) : Pattern :=
  choice (ss.map fun s => sequence (s.toList.map fun c => one (foldsTo c)))

def anyOf (s : String) : Pattern := one (s.toList.contains ·)

def noneOf (s : String) : Pattern := one (!s.toList.contains ·)

def blank : Pattern := one isBlank

def blanks : Pattern := many blank

def blanks1 : Pattern := many1 blank

def wordChar : Pattern := one isWordChar

def lineStart : Pattern := holds Place.atLineStart

def lineEnd : Pattern := holds Place.atLineEnd

def wordEdge : Pattern := holds Place.atWordEdge

end Pattern

end MarkdownFences.Text
