import MarkdownFences.Log
import MarkdownFences.Text.Case

namespace MarkdownFences

/-- The thresholds in force: that of the program and that of the web client, which is kept
quiet once logging has been set up. `attempted` says that a setup has been tried. -/
structure Logging where
  root : Log.Level
  client : Log.Level
  attempted : Bool
  deriving DecidableEq, Repr

namespace Logging

def unconfigured : Logging := ⟨.warning, .notset, false⟩

inductive Fault where
  | unknown (name : Text)
  | layout
  deriving DecidableEq, Repr

def layoutName : String := "BASIC_FORMAT"

def layout : String := "%(levelname)s:%(name)s:%(message)s"

def Fault.message : Fault → Text
  | unknown name => "module 'logging' has no attribute '".toList ++ name ++ ['\x27']
  | layout => "Unknown level: '".toList ++ Logging.layout.toList ++ ['\x27']

/-- The level of a name in any case. One known name is that of a layout and no level. -/
def level (name : Text) : Except Fault Log.Level :=
  let name := Text.upper name
  match Log.Level.ofName? name with
  | some l => .ok l
  | none => .error (if name = layoutName.toList then .layout else .unknown name)

/-- Sets the threshold, at most once unless forced to. An attempt that fails counts as one. -/
def setup (l : Logging) (name : Text) (force : Bool) : Logging × Option Fault :=
  if l.attempted && !force then (l, none)
  else
    match level name with
    | .error e => ({ l with attempted := true }, some e)
    | .ok root => (⟨root, .warning, true⟩, none)

end Logging

end MarkdownFences
