import MarkdownFences.Fence
import MarkdownFences.Issue

namespace MarkdownFences

structure Scan where
  issues : List StructuralIssue
  blocks : List Block
  deriving DecidableEq, Repr

namespace Scan

/-- A block that is still open: the line of its fence, the declared language, and its lines so
far with the newest first. -/
structure Opened where
  line : Nat
  tag : Option Text
  body : List Text

def Opened.content (o : Opened) : Text := Text.unlines o.body.reverse

def empty : Scan := ⟨[], []⟩

def addIssue (i : StructuralIssue) (s : Scan) : Scan := ⟨i :: s.issues, s.blocks⟩

def addBlock (b : Block) (s : Scan) : Scan := ⟨s.issues, b :: s.blocks⟩

def malformed (file : Path) (line : Nat) : StructuralIssue :=
  ⟨.malformedFence, file, line + 1, none, none, some "Code fence not at start of line".toList, none⟩

def missing (b : Block) : StructuralIssue :=
  ⟨.missingLanguage, b.file, b.openNumber, some b.closeNumber, some b.content, none,
    some b.openLine⟩

/-- An open block at the end of the text runs to the last line, counted from one. -/
def unclosed (file : Path) (lastLine : Nat) (o : Opened) : StructuralIssue :=
  ⟨.unclosedBlock, file, o.line + 1, some lastLine, some o.content,
    some "Code block not closed".toList, some o.line⟩

/-- Goes through the lines from the given one on. Literal examples are passed over wherever
they stand, also inside an open block. -/
def ofLines (file : Path) (lastLine : Nat) :
    Nat → Bool → Option Opened → List Text → Scan
  | _, _, none, [] => empty
  | _, _, some o, [] => ⟨[unclosed file lastLine o], []⟩
  | n, quad, opened, line :: rest =>
    let t := Text.trim line
    if Fence.isQuad t then ofLines file lastLine (n + 1) (!quad) opened rest
    else if quad then ofLines file lastLine (n + 1) quad opened rest
    else
      match opened with
      | none =>
        if Fence.isFence t then
          ofLines file lastLine (n + 1) quad (some ⟨n, Fence.tag t, []⟩) rest
        else
          let s := ofLines file lastLine (n + 1) quad none rest
          if Text.occursIn Fence.mark t then s.addIssue (malformed file n) else s
      | some o =>
        if Fence.isFence t then
          let b : Block := ⟨file, o.line, n, o.content, o.tag⟩
          let s := (ofLines file lastLine (n + 1) quad none rest).addBlock b
          if o.tag.isNone then s.addIssue (missing b) else s
        else ofLines file lastLine (n + 1) quad (some { o with body := line :: o.body }) rest

/-- The number of the last line; a line feed at the end opens no line. -/
def lastLine (ls : List Text) : Nat :=
  if ls.getLast? = some [] then ls.length - 1 else ls.length

end Scan

/-- The blocks of a text and the defects of its fences, both in the order of their lines. -/
def scan (file : Path) (t : Text) : Scan :=
  Scan.ofLines file (Scan.lastLine (Text.lines t)) 0 false none (Text.lines t)

end MarkdownFences
