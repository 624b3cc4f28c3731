import MarkdownFences.Arguments
import MarkdownFences.Discovery
import MarkdownFences.Logging
import MarkdownFences.Run

namespace MarkdownFences

inductive Notice where
  | entry (e : Log.Entry)
  | message (t : Text)
  deriving DecidableEq, Repr

namespace Notice

def render (time : Text) : Notice → Text
  | .entry e => time ++ s!" - {e.level.name} - [{e.source}] - ".toList ++ e.message
  | .message t => t

def shown (threshold : Log.Level) (es : List Log.Entry) : List Notice :=
  (Log.shown threshold es).map .entry

end Notice

namespace Program

def versionLine : Text := "fencecheck 0.1.0\n".toList

/-- How the program leaves: with a code, or of its own accord. -/
structure Ending where
  code : Option Nat
  output : Text
  notices : List Notice
  deriving DecidableEq, Repr

/-- Arguments and settings that a run can be made of. `notices` is what has been told so far. -/
structure Preparation where
  arguments : Arguments
  settings : Settings
  threshold : Log.Level
  notices : List Notice

def envFile (s : Store) : Option (List UInt8) := (s.read (.ofString ".env")).toOption

def refuseSettings (told : List Notice) (ps : List Settings.Problem) : Ending :=
  ⟨some 1, [], told ++ .message "Error: invalid settings".toList ::
    (ps.flatMap (·.lines)).map .message⟩

/-- Takes the arguments and settles the settings; logging begins at the ordinary level and goes
on at the one of the settings. -/
def prepare (arguments : List Text) (environment : List (Text × List UInt8)) (s : Store) :
    Except Fault (Except Ending Preparation) :=
  match Arguments.parse arguments with
  | .error e => .ok (.error ⟨some e.code, e.output,
      if e.errors.isEmpty then [] else [.message e.errors]⟩)
  | .ok a =>
    if a.version then .ok (.error ⟨none, versionLine, []⟩)
    else
      let logging := (Logging.unconfigured.setup "INFO".toList false).1
      let sources : Settings.Sources := ⟨[], environment, envFile s⟩
      let told := Notice.shown logging.root (Settings.entries sources)
      match Settings.ofSources sources with
      | .error (.notText e) => .error (ReadError.bytes e).fault
      | .error (.invalid ps) => .ok (.error (refuseSettings told ps))
      | .ok settings =>
        let level := if a.verbose then "DEBUG".toList else settings.logLevel
        let cacheEnabled := settings.cacheEnabled && !a.noCache
        .ok (.ok ⟨a, { settings with cacheEnabled }, (logging.setup level true).1.root, told⟩)

def Preparation.wantsListing (p : Preparation) : Bool := p.arguments.paths.isEmpty

structure Targets where
  paths : List Path
  output : Text
  notices : List Notice

def failDiscovery (p : Preparation) (e : Discovery.Error) : Ending :=
  let entry : Log.Entry :=
    ⟨.error, "fencecheck.cli", "event=discovery_failed error=".toList ++ e.message⟩
  ⟨some 1, [], p.notices ++ Notice.shown p.threshold [entry] ++
    [.message ("Error: ".toList ++ e.message)]⟩

def Preparation.targets (p : Preparation) (root : Text) (listing : Discovery.Listing) :
    Except Fault (Except Ending Targets) :=
  if p.wantsListing then
    match Discovery.files root listing with
    | .error (.notText e) => .error (ReadError.bytes e).fault
    | .error e => .ok (.error (failDiscovery p e))
    | .ok (paths, told) => .ok (.ok ⟨paths, s!"Found {paths.length} markdown files\n\n".toList,
        p.notices ++ Notice.shown p.threshold told⟩)
  else .ok (.ok ⟨p.arguments.paths.map Path.ofText, [], p.notices⟩)

def Preparation.job (p : Preparation) (t : Targets) (interactive : Bool) : Job where
  paths := t.paths
  settings := p.settings
  fix := p.arguments.fix
  model := p.arguments.model.name?
  interactive
  digest := Digest.ofText
  readOnly := []

def Preparation.opinions {κ : Type} (p : Preparation)
    (send : Text → κ → Remote.Request → κ × Remote.Reply) (line : κ) :
    Except Fault (Opinions (Remote.Service × κ) Remote.Reply) :=
  if p.arguments.skipService then
    .ok (.skipped (.new p.settings.model p.settings.sampleChars p.settings.failureThreshold, line))
  else Opinions.ofService p.settings p.arguments.model.name? (send p.settings.baseUrl) line

def ofResult {τ : Type} (p : Preparation) (t : Targets) (r : Run.Result τ) : Ending :=
  ⟨some r.report.exitCode, t.output ++ r.written, t.notices ++ Notice.shown p.threshold r.log⟩

/-- What the program finds around it: the directory it stands in with its files, what a listing
of them would give, and a line to a service at an address. -/
structure Surroundings (κ : Type) where
  environment : List (Text × List UInt8)
  store : Store
  root : Text
  listing : Discovery.Listing
  send : Text → κ → Remote.Request → κ × Remote.Reply
  line : κ
  interactive : Bool

structure Outcome (κ : Type) where
  ending : Ending
  store : Store
  line : κ
  listed : Bool

/-- The program when all checks have ended, or when it has left before any. -/
inductive Stage (κ : Type) where
  | left (e : Ending) (listed : Bool)
  | checked (p : Preparation) (t : Targets) (job : Job)
      (x : Run.Examination (Remote.Service × κ) Remote.Reply)

variable {κ : Type}

def examine (arguments : List Text) (w : Surroundings κ) : Except Fault (Stage κ) := do
  match ← prepare arguments w.environment w.store with
  | .error e => return .left e false
  | .ok p =>
    match ← p.targets w.root w.listing with
    | .error e => return .left e p.wantsListing
    | .ok t =>
      let o ← p.opinions w.send w.line
      let job := p.job t w.interactive
      let x ← Run.examine job o (fun _ _ => 0) w.store
      return .checked p t job x

def Stage.conclude (w : Surroundings κ) (duration : Binary64) :
    Stage κ → Except Fault (Outcome κ)
  | .left e listed => .ok ⟨e, w.store, w.line, listed⟩
  | .checked p t job x =>
    (x.conclude job duration w.store).map fun r =>
      ⟨ofResult p t r, r.store, r.opinions.2, p.wantsListing⟩

end Program

/-- The whole program, from the arguments to the ending. -/
def program {κ : Type} (arguments : List Text) (w : Program.Surroundings κ)
    (duration : Binary64) : Except Fault (Program.Outcome κ) := do
  (← Program.examine arguments w).conclude w duration

end MarkdownFences
