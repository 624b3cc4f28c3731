namespace MarkdownFences

/-- A text is the list of its characters, so lengths, cuts and positions count characters. -/
abbrev Text := List Char

namespace Text

def tick : Char := '\x60'

/-- The pieces between the occurrences of a separator: always one more than there are
separators, so an empty text has one empty piece. -/
def pieces (sep : Char) : Text → List Text
  | [] => [[]]
  | c :: r =>
    if c = sep then [] :: pieces sep r
    else
      match pieces sep r with
      | p :: ps => (c :: p) :: ps
      | [] => [[c]]

def joined (sep : Char) : List Text → Text
  | [] => []
  | [p] => p
  | p :: q :: ps => p ++ sep :: joined sep (q :: ps)

/-- The lines of a text, ended by line feeds alone. -/
def lines (t : Text) : List Text := pieces '\n' t

def unlines (ls : List Text) : Text := joined '\n' ls

def firstLine (t : Text) : Text := t.takeWhile (· != '\n')

def occursIn (part : Text) : Text → Bool
  | [] => part.isEmpty
  | c :: r => part.isPrefixOf (c :: r) || occursIn part r

def before : Text → Text → Bool
  | _, [] => false
  | [], _ :: _ => true
  | a :: r, b :: s => a.toNat < b.toNat || (a == b && before r s)

end Text

end MarkdownFences
