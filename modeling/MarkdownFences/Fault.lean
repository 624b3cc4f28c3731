import MarkdownFences.Text.Case

namespace MarkdownFences

/-- Where a fault comes from: a request that ran out of time, a reply with a bad status, a
connection that failed, an exchange that went wrong otherwise, a value that was refused, a
deadline of the program's own, content that is nested too deeply, or anything else. -/
inductive FaultOrigin where
  | requestTimeout
  | badStatus (code : Int)
  | transport
  | exchange
  | value
  | deadline
  | nesting
  | other
  deriving DecidableEq, Repr

/-- Something that went wrong while an answer was worked out. `status` is a status number that
it brings along without being a reply. -/
structure Fault where
  name : String
  origin : FaultOrigin
  status : Option Int
  message : Text
  deriving DecidableEq, Repr

inductive FaultClass where
  | transient
  | server
  | timeout
  | client
  | unknown
  deriving DecidableEq, Repr

namespace FaultClass

def name : FaultClass → String
  | transient => "transient"
  | server => "server"
  | timeout => "timeout"
  | client => "client"
  | unknown => "unknown"

def ofStatus (code : Int) : FaultClass :=
  if code = 429 then transient
  else if 400 ≤ code && code < 500 then client
  else if 500 ≤ code && code < 600 then server
  else unknown

def ofMessage (t : Text) : FaultClass :=
  let t := Text.lower t
  let mentions (ss : List String) := ss.any fun s => Text.occursIn s.toList t
  if mentions ["timeout", "timed out"] then timeout
  else if mentions ["500", "502", "503", "504"] then server
  else if mentions ["econnrefused", "connection"] then transient
  else if mentions ["400", "401", "403", "404"] then client
  else unknown

end FaultClass

namespace Fault

/-- The origin decides where it can, then a status number, then the message. -/
def classify (f : Fault) : FaultClass :=
  match f.origin, f.status with
  | .requestTimeout, _ => .timeout
  | .badStatus code, _ => .ofStatus code
  | .transport, _ => .transient
  | _, some code => .ofStatus code
  | .deadline, none => .timeout
  | _, none => .ofMessage f.message

def isOfExchange (f : Fault) : Bool :=
  match f.origin with
  | .requestTimeout | .badStatus _ | .transport | .exchange => true
  | _ => false

end Fault

end MarkdownFences
