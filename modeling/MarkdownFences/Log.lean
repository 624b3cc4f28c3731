import MarkdownFences.Text.Basic

namespace MarkdownFences.Log

inductive Level where
  | notset
  | debug
  | info
  | warning
  | error
  | critical
  deriving DecidableEq, Repr

namespace Level

def rank : Level → Nat
  | notset => 0
  | debug => 10
  | info => 20
  | warning => 30
  | error => 40
  | critical => 50

def name : Level → String
  | notset => "NOTSET"
  | debug => "DEBUG"
  | info => "INFO"
  | warning => "WARNING"
  | error => "ERROR"
  | critical => "CRITICAL"

def names : List (String × Level) :=
  [("CRITICAL", critical), ("FATAL", critical), ("ERROR", error), ("WARN", warning),
    ("WARNING", warning), ("INFO", info), ("DEBUG", debug), ("NOTSET", notset)]

def ofName? (t : Text) : Option Level :=
  (names.find? fun n => n.1.toList == t).map (·.2)

end Level

structure Entry where
  level : Level
  source : String
  message : Text
  deriving DecidableEq, Repr

def shown (threshold : Level) (es : List Entry) : List Entry :=
  es.filter fun e => threshold.rank ≤ e.level.rank

end MarkdownFences.Log
