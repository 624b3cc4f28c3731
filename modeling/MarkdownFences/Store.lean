import MarkdownFences.Path
import MarkdownFences.Text.Utf8

namespace MarkdownFences

inductive Node where
  | file (bytes : List UInt8)
  | directory
  deriving DecidableEq, Repr

/-- Files and directories below the current directory, each under the names that lead to it. -/
structure Store where
  nodes : List (List Text × Node)
  deriving DecidableEq, Repr

inductive StoreError where
  | missing (path : Path)
  | isDirectory (path : Path)
  | notDirectory (path : Path)
  | exists (path : Path)
  | nameTooLong (path : Path)
  | nullCharacter
  deriving DecidableEq, Repr

def StoreError.message : StoreError → Text
  | .missing p => "[Errno 2] No such file or directory: ".toList ++ Text.quoted p.text
  | .isDirectory p => "[Errno 21] Is a directory: ".toList ++ Text.quoted p.text
  | .notDirectory p => "[Errno 20] Not a directory: ".toList ++ Text.quoted p.text
  | .exists p => "[Errno 17] File exists: ".toList ++ Text.quoted p.text
  | .nameTooLong p => "[Errno 36] File name too long: ".toList ++ Text.quoted p.text
  | .nullCharacter => "embedded null byte".toList

namespace Store

def empty : Store := ⟨[]⟩

def up : Text := ['.', '.']

/-- The names that stand for the top of all directories; no file has such a name. -/
def top : List Text := [['/']]

/-- The current directory and those above it are always there. -/
def node? (s : Store) (names : List Text) : Option Node :=
  if names = top || names.all (· == up) then some .directory else s.nodes.lookup names

def put (s : Store) (names : List Text) (n : Node) : Store :=
  if (s.nodes.lookup names).isSome then
    ⟨s.nodes.map fun e => if e.1 = names then (names, n) else e⟩
  else ⟨s.nodes ++ [(names, n)]⟩

def nameBytes : Nat := 255

/-- The directory above one; above the current directory the steps up are kept. -/
def above (here : List Text) : List Text :=
  if here = top then top else if here.all (· == up) then here ++ [up] else here.dropLast

def follow (s : Store) (p : Path) (here : List Text) (name : Text) :
    Except StoreError (List Text) :=
  match s.node? here with
  | some .directory =>
    if name = up then .ok (above here)
    else if nameBytes < (Text.toUtf8 name).length then .error (.nameTooLong p)
    else .ok (here ++ [name])
  | some (.file _) => .error (.notDirectory p)
  | none => .error (.missing p)

def start (p : Path) : List Text := if p.slashes = 0 then [] else top

/-- The names that a path comes to. Its last name need not stand for anything yet. -/
def resolve (s : Store) (p : Path) : Except StoreError (List Text) :=
  if p.text.contains '\x00' then .error .nullCharacter
  else p.names.foldlM (s.follow p) (start p)

def read (s : Store) (p : Path) : Except StoreError (List UInt8) := do
  let names ← s.resolve p
  match s.node? names with
  | some (.file bytes) => return bytes
  | some .directory => throw (.isDirectory p)
  | none => throw (.missing p)

def write (s : Store) (p : Path) (bytes : List UInt8) : Except StoreError Store := do
  let names ← s.resolve p
  match s.node? names with
  | some .directory => throw (.isDirectory p)
  | _ => return s.put names (.file bytes)

def makeStep (p : Path) (x : Store × List Text) (name : Text) :
    Except StoreError (Store × List Text) := do
  let (s, here) := x
  let names ← s.follow p here name
  match s.node? names with
  | some _ => return (s, names)
  | none => return (s.put names .directory, names)

def makeDirectory (s : Store) (p : Path) : Except StoreError Store := do
  if p.text.contains '\x00' then throw .nullCharacter
  let (made, names) ← p.names.foldlM (makeStep p) (s, start p)
  match made.node? names with
  | some (.file _) => throw (.exists p)
  | _ => return made

def pathOf (names : List Text) : Path :=
  if names.take 1 = top then ⟨1, names.drop 1⟩ else ⟨0, names⟩

def files (s : Store) : List (Path × List UInt8) :=
  s.nodes.filterMap fun e =>
    match e.2 with
    | .file bytes => some (pathOf e.1, bytes)
    | .directory => none

end Store

end MarkdownFences
