import MarkdownFences.Fault
import MarkdownFences.Store
import MarkdownFences.Text.Blank

namespace MarkdownFences

structure Document where
  path : Path
  text : Text
  deriving DecidableEq, Repr

inductive ReadError where
  | store (e : StoreError)
  | bytes (e : Text.BadBytes)
  deriving DecidableEq, Repr

namespace ReadError

def message : ReadError → Text
  | store e => e.message
  | bytes e => e.message.toList

/-- Only the message tells what kind of error it is. -/
def classify (e : ReadError) : FaultClass := .ofMessage e.message

def fault (e : ReadError) : Fault :=
  let name := match e with
    | store _ => "refused value"
    | bytes _ => "bad bytes"
  ⟨name, .value, none, e.message⟩

end ReadError

def Store.readText (s : Store) (p : Path) : Except ReadError Text := do
  let bytes ← (s.read p).mapError .store
  (Text.ofUtf8 bytes).mapError .bytes

/-- A document has the line ends of text files. -/
def Document.read (s : Store) (p : Path) : Except ReadError Document :=
  (s.readText p).map fun t => ⟨p, Text.ofFileText t⟩

end MarkdownFences
