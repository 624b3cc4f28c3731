import MarkdownFences.Document
import MarkdownFences.FenceFix
import MarkdownFences.Log
import MarkdownFences.Report

namespace MarkdownFences

inductive RepairError where
  | unreadable (path : Path) (e : ReadError)
  | notOpening (e : Fence.NotOpening)
  | unwritable (path : Path) (reason : Text)
  deriving DecidableEq, Repr

def RepairError.message : RepairError → Text
  | .unreadable p e => "cannot read ".toList ++ p.text ++ ": ".toList ++ e.message
  | .notOpening e => e.message.toList
  | .unwritable p reason => "cannot write ".toList ++ p.text ++ ": ".toList ++ reason

namespace Repair

def source : String := "fencecheck.fixer"

def skipEntry (fix : FenceFix) : Log.Entry := ⟨.warning, source, fix.skipMessage⟩

def fixedEntry (f : FileFix) : Log.Entry :=
  ⟨.info, source, "event=file_fixed file=".toList ++ f.file.text ++
    s!" fixed={f.fixed} skipped={f.skipped}".toList⟩

def save (readOnly : List Path) (s : Store) (p : Path) (t : Text) : Except RepairError Store :=
  if readOnly.contains p then .error (.unwritable p "read-only".toList)
  else (s.write p (Text.toUtf8 t)).mapError fun e => .unwritable p e.message

/-- Makes the fixes of one file. A file in which nothing is fixed is not written, and one that
fails stays as it is. -/
def file (readOnly : List Path) (s : Store) (p : Path) (fixes : List FenceFix) :
    Store × List Log.Entry × Except RepairError FileFix :=
  match s.readText p with
  | .error e => (s, [], .error (.unreadable p e))
  | .ok t =>
    let a := FenceFix.attempt t fixes
    let told := a.skipped.map skipEntry
    match a.outcome with
    | .error e => (s, told, .error (.notOpening e))
    | .ok o =>
      let r : FileFix := ⟨p, o.fixed, o.skipped.length⟩
      if o.fixed = 0 then (s, told ++ [fixedEntry r], .ok r)
      else
        match save readOnly s p o.text with
        | .error e => (s, told, .error e)
        | .ok s => (s, told ++ [fixedEntry r], .ok r)

end Repair

end MarkdownFences
