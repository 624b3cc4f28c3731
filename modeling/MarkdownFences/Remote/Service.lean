import MarkdownFences.Advisor
import MarkdownFences.Json.Encoding
import MarkdownFences.Remote.Breaker
import MarkdownFences.Remote.Prompt

namespace MarkdownFences.Remote

inductive Request where
  | tags
  | generate (body : Json.Value)

def Request.method : Request → String
  | .tags => "GET"
  | .generate _ => "POST"

def Request.path : Request → String
  | .tags => "/api/tags"
  | .generate _ => "/api/generate"

inductive Reply where
  | response (status : Int) (body : List UInt8)
  | fault (f : Fault)

/-- A language model behind a breaker. `calls` counts the questions sent, `failures` those that
came to nothing, and `told` says that its failing has been reported. -/
structure Service where
  model : Text
  sampleSize : Int
  breaker : Breaker
  told : Bool
  calls : Nat
  failures : Nat

namespace Service

def new (model : Text) (sampleSize : Int) (threshold : Nat) : Service :=
  ⟨model, sampleSize, .new threshold, false, 0, 0⟩

def source : String := "fencecheck.classification.ollama"

def debug (t : Text) : Log.Entry := ⟨.debug, source, t⟩

def isDisabled (s : Service) : Bool := s.breaker.isOpen

def tell (s : Service) : Service × List Log.Entry :=
  if s.told then (s, [])
  else ({ s with told := true }, [⟨.warning, source, "event=ollama_disabled model=".toList ++
    s.model ++ s!" failures={s.failures} fallback=heuristic".toList⟩])

def points (s : String) : Json.Points := Json.Points.ofText s.toList

def field (s : String) (v : Json.Value) : Json.Points × Json.Value := (points s, v)

def request (s : Service) (t : Text) : Request :=
  .generate <| .object [field "model" (.string (Json.Points.ofText s.model)),
    field "prompt" (.string (Json.Points.ofText (prompt s.sampleSize t))),
    field "stream" (.bool false),
    field "options" (.object [field "temperature" (.number "0.0".toList),
      field "num_predict" (.number "15".toList), field "top_p" (.number "0.9".toList)])]

def start (s : Service) (t : Text) : Service × List Log.Entry × Option Request :=
  if s.isDisabled then
    let (s, told) := s.tell
    (s, told, none)
  else ({ s with calls := s.calls + 1 }, [], some (s.request t))

def failEntry (f : Fault) : Log.Entry :=
  debug (s!"event=ollama_classify_failed class={f.classify.name} error=".toList ++ f.message)

def fail (s : Service) (f : Fault) : Service × List Log.Entry × Except Fault (Option Language) :=
  let s := { s with failures := s.failures + 1 }
  if s.isDisabled then
    let (s, told) := s.tell
    (s, failEntry f :: told, .ok none)
  else (s, [failEntry f], .ok none)

def refused (message : String) : Fault := ⟨"refused value", .value, none, message.toList⟩

def badStatus (status : Int) : Fault :=
  ⟨"bad status", .badStatus status, none, s!"status {status}".toList⟩

/-- Reads the body of a good response. Nesting beyond the reader's limit is a fault of its own
kind, all else that is no JSON a refused value. -/
def readBody (body : List UInt8) : Except Fault Json.Value :=
  match Json.decode body with
  | .error (encoding, e) => .error (refused (e.messageOf encoding.name))
  | .ok t =>
    match Json.read t with
    | .ok v => .ok v
    | .error (.tooDeep e) => .error ⟨"nesting", .nesting, none, e.message.toList⟩
    | .error e => .error (refused e.message)

def interpret (v : Json.Value) : List Log.Entry × Option Language :=
  match v.get? "response" with
  | some (.string ps) =>
    match answer? ps.text with
    | some l => ([], some l)
    | none => ([debug ("event=ollama_unrecognised answer=".toList ++ Text.quoted ps.text)], none)
  | _ => ([debug "event=ollama_bad_payload payload=unusable".toList], none)

/-- Ends a question with its reply. The breaker counts what goes wrong in the exchange and takes
every other end for a success. -/
def finish (s : Service) : Reply → Service × List Log.Entry × Except Fault (Option Language)
  | .fault f =>
    if f.isOfExchange then { s with breaker := s.breaker.fail }.fail f
    else
      let s := { s with breaker := s.breaker.succeed }
      if f.origin = .value then s.fail f else (s, [], .error f)
  | .response status body =>
    if 200 ≤ status && status < 300 then
      let s := { s with breaker := s.breaker.succeed }
      match readBody body with
      | .error f => if f.origin = .value then s.fail f else (s, [], .error f)
      | .ok v =>
        let (told, l) := interpret v
        (s, told, .ok l)
    else { s with breaker := s.breaker.fail }.fail (badStatus status)

def probe : Reply → List Log.Entry × Except Fault Bool
  | .response status _ => ([], .ok (status == 200))
  | .fault f =>
    if f.isOfExchange then
      ([debug (s!"event=ollama_probe_failed class={f.classify.name} error=".toList ++ f.message)],
        .ok false)
    else ([], .error f)

/-- The service as an advisor, over a line that turns requests into replies. The line keeps a
state of its own. -/
def advisor {κ : Type} (send : κ → Request → κ × Reply) : Advisor (Service × κ) Reply where
  ask := fun (s, line) t =>
    let (s, told, r) := s.start t
    match r with
    | none => ((s, line), told, .done none)
    | some r =>
      let (line, reply) := send line r
      ((s, line), told, .waiting reply)
  receive := fun (s, line) reply =>
    let (s, told, answer) := s.finish reply
    ((s, line), told, answer)

end Service

end MarkdownFences.Remote
