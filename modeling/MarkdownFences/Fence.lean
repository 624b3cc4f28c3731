import MarkdownFences.Text.Blank
import MarkdownFences.Text.Alphanumeric

namespace MarkdownFences.Fence

def mark : Text := List.replicate 3 Text.tick

def quadMark : Text := List.replicate 4 Text.tick

/-- A trimmed line that opens or closes a literal example, inside which fences have no meaning. -/
def isQuad (t : Text) : Bool := quadMark.isPrefixOf t

def isFence (t : Text) : Bool := mark.isPrefixOf t && !isQuad t

def isTagChar (c : Char) : Bool := Text.isWordChar c || ['.', '+', '#', '-'].contains c

def leadingTag : Text → Option Text
  | [] => none
  | c :: r => if Text.isWordChar c then some (c :: r.takeWhile isTagChar) else none

def tag (t : Text) : Option Text :=
  if mark.isPrefixOf t then leadingTag (Text.trimLeft (t.drop mark.length)) else none

end MarkdownFences.Fence
