import MarkdownFences.Binary64
import MarkdownFences.Log
import MarkdownFences.Path
import MarkdownFences.Text.Blank
import MarkdownFences.Text.Utf8

namespace MarkdownFences.Discovery

def command : List String := ["git", "ls-files", "*.md"]

inductive Limit where
  | whole (n : Int)
  | real (x : Binary64)
  deriving DecidableEq, Repr

def Limit.text : Limit → Text
  | .whole n => (toString n).toList
  | .real x => x.shortest

/-- How the command ended: it was not there, it took longer than the limit, or it exited with a
code and what it had written. -/
inductive Listing where
  | notThere
  | timedOut (limit : Limit)
  | exited (code : Int) (output errors : List UInt8)

inductive Error where
  | noGit
  | timedOut (limit : Limit)
  | failed (code : Int) (detail : Text)
  | notText (e : Text.BadBytes)
  deriving DecidableEq, Repr

def Error.message : Error → Text
  | .noGit => "git executable not found".toList
  | .timedOut limit => "git ls-files timed out after ".toList ++ limit.text ++ ['s']
  | .failed code detail => s!"git ls-files failed ({code}): ".toList ++ detail
  | .notText e => e.message.toList

def isExcluded (p : Path) : Bool := p.names.contains "node_modules".toList

def listed (t : Text) : List Path :=
  ((Text.rows t).filter fun l => !Text.isVoid l).map Path.ofText

def foundEntry (root : Text) (all kept : List Path) : Log.Entry :=
  ⟨.info, "fencecheck.discovery", "event=files_discovered root=".toList ++ root ++
    s!" found={kept.length} excluded={all.length - kept.length}".toList⟩

/-- The files to check below a directory, in the order in which they are listed. -/
def files (root : Text) : Listing → Except Error (List Path × List Log.Entry)
  | .notThere => .error .noGit
  | .timedOut limit => .error (.timedOut limit)
  | .exited code output errors =>
    if code ≠ 0 then .error (.failed code (Text.trim (Text.ofUtf8Lossy errors)))
    else
      match Text.ofUtf8 output with
      | .error e => .error (.notText e)
      | .ok t =>
        let all := listed t
        let kept := all.filter fun p => !isExcluded p
        .ok (kept, [foundEntry root all kept])

end MarkdownFences.Discovery
