import MarkdownFences.Text.Basic

namespace MarkdownFences

/-- A path in its normal form: the slashes that it begins with, none, one or two, and the names
after them. Empty names and single points are no names, two points are one. Names are text: files
whose names are bytes that spell none are not among those spoken of. -/
structure Path where
  slashes : Nat
  names : List Text
  deriving DecidableEq, Repr

namespace Path

/-- Two slashes in front are kept apart from one; three or more are the same as one. -/
def leadingSlashes (t : Text) : Nat :=
  match (t.takeWhile (· == '/')).length with
  | 0 => 0
  | 2 => 2
  | _ => 1

def ofText (t : Text) : Path :=
  ⟨leadingSlashes t, (Text.pieces '/' t).filter fun n => n != [] && n != ['.']⟩

def ofString (s : String) : Path := ofText s.toList

def text (p : Path) : Text :=
  if p.slashes = 0 && p.names.isEmpty then ['.']
  else List.replicate p.slashes '/' ++ Text.joined '/' p.names

/-- A path below a directory; one that starts at the root stands for itself. -/
def append (p q : Path) : Path :=
  if q.slashes = 0 then ⟨p.slashes, p.names ++ q.names⟩ else q

def parent (p : Path) : Path := ⟨p.slashes, p.names.dropLast⟩

end Path

end MarkdownFences
