import MarkdownFences.Text.Basic

namespace MarkdownFences

/-- What is written on a console: a line that stays, or one that the next record replaces. -/
inductive Record where
  | line (t : Text)
  | progress (t : Text)
  deriving DecidableEq, Repr

/-- Records are queued by anyone and written by one consumer, each as a whole. `shown` says that
a progress line is to be seen. -/
structure Console where
  interactive : Bool
  started : Bool
  queue : List Record
  shown : Bool
  written : Text
  deriving DecidableEq, Repr

namespace Console

def new (interactive : Bool) : Console := ⟨interactive, false, [], false, []⟩

def clear : Text := List.replicate 50 ' ' ++ ['\r']

def start (c : Console) : Console := { c with started := true }

def emit (c : Console) (t : Text) : Console := { c with queue := c.queue ++ [.line t] }

def emitAll (c : Console) (ts : List Text) : Console := ts.foldl emit c

def progress (c : Console) (t : Text) : Console :=
  if c.interactive then { c with queue := c.queue ++ [.progress t] } else c

def hide (c : Console) : Console :=
  if c.shown then { c with written := c.written ++ clear, shown := false } else c

def write (c : Console) (r : Record) : Console :=
  let c := c.hide
  match r with
  | .line t => { c with written := c.written ++ t ++ ['\n'] }
  | .progress t => { c with written := c.written ++ t ++ ['\r'], shown := true }

def settle (c : Console) : Console :=
  if c.started then c.queue.foldl write { c with queue := [] } else c

def close (c : Console) : Console :=
  if c.started then { c.settle.hide with started := false } else c

end Console

end MarkdownFences
