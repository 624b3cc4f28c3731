import MarkdownFences.Log
import MarkdownFences.Path
import MarkdownFences.Settings.EnvFile
import MarkdownFences.Settings.Value
import MarkdownFences.Text.Quoted
import MarkdownFences.Text.Utf8

namespace MarkdownFences

structure Settings where
  baseUrl : Text
  model : Text
  timeout : Binary64
  sampleChars : Nat
  failureThreshold : Nat
  concurrency : Nat
  cacheDir : Path
  cacheFile : Text
  cacheEnabled : Bool
  lenient : Bool
  logLevel : Text
  deriving DecidableEq, Repr

namespace Settings

inductive Field where
  | baseUrl
  | model
  | timeout
  | sampleChars
  | failureThreshold
  | concurrency
  | cacheDir
  | cacheFile
  | cacheEnabled
  | lenient
  | logLevel
  deriving DecidableEq, Repr

def Field.all : List Field := [baseUrl, model, timeout, sampleChars, failureThreshold, concurrency,
  cacheDir, cacheFile, cacheEnabled, lenient, logLevel]

def Field.name : Field → String
  | baseUrl => "ollama_base_url"
  | model => "ollama_model"
  | timeout => "ollama_timeout_seconds"
  | sampleChars => "classifier_sample_chars"
  | failureThreshold => "classifier_failure_threshold"
  | concurrency => "concurrency"
  | cacheDir => "cache_dir"
  | cacheFile => "validation_cache_file"
  | cacheEnabled => "cache_enabled"
  | lenient => "lenient_languages"
  | logLevel => "log_level"

def default : Settings where
  baseUrl := "http://localhost:11434".toList
  model := "codellama:7b".toList
  timeout := .ofInt 60
  sampleChars := 800
  failureThreshold := 3
  concurrency := 10
  cacheDir := .ofString ".cache/fencecheck"
  cacheFile := "markdown-validation-cache.json".toList
  cacheEnabled := true
  lenient := false
  logLevel := "INFO".toList

def cachePath (s : Settings) : Path := s.cacheDir.append (.ofText s.cacheFile)

/-- Where values come from: arguments, the variables of the environment, and the bytes of an
environment file if there is one. A variable whose name is no text is under no name. -/
structure Sources where
  arguments : List (Text × Value)
  environment : List (Text × List UInt8)
  envFile : Option (List UInt8)

/-- What sources offer: arguments under exact names, variables and the bindings of the file under
names in any case. The first of them that has a value decides. -/
structure Offer where
  arguments : List (Text × Value)
  environment : List (Text × Option Text)
  bindings : List EnvFile.Expanded

def Sources.offerWith (s : Sources) (file : Text) : Offer :=
  let environment := s.environment.map fun e => (e.1, (Text.ofUtf8 e.2).toOption)
  ⟨s.arguments, environment, EnvFile.read environment (Text.ofFileText file)⟩

/-- The whole file must be text, whatever is looked for in it; of a variable only who asks for it
finds out that it is none. -/
def Sources.offer (s : Sources) : Except Text.BadBytes Offer :=
  match s.envFile with
  | none => .ok (s.offerWith [])
  | some bytes => (Text.ofUtf8 bytes).map s.offerWith

def lookupFolded (name : Text) (es : List (Text × Option Text)) : Option (Option Text) :=
  (es.reverse.find? fun e => Text.lower e.1 == name).map (·.2)

def Offer.get? (o : Offer) (f : Field) : Option Value :=
  let name := f.name.toList
  match o.arguments.reverse.lookup name with
  | some v => some v
  | none =>
    ((lookupFolded name o.environment).or (EnvFile.lookup name o.bindings)).map Value.ofVariable

structure Problem where
  field : Field
  cause : Cause
  deriving DecidableEq, Repr

def Problem.lines (p : Problem) : List Text :=
  [p.field.name.toList, ' ' :: ' ' :: p.cause.message.toList]

def atLeastOne (cause : Cause) (n : Int) : Except Cause Nat :=
  if n < 1 then .error cause else .ok n.toNat

def checkUrl (t : Text) : Except Cause Text :=
  let t := Text.dropEnding (· == '/') t
  if "http://".toList.isPrefixOf t || "https://".toList.isPrefixOf t then .ok t
  else .error .notHttp

/-- The name of a level in upper case. An unknown one gives way to the ordinary level. -/
def checkLevel (t : Text) : Text :=
  let l := Text.upper t
  if (Log.Level.ofName? l).isSome then l else "INFO".toList

def levelEntries (t : Text) : List Log.Entry :=
  if (Log.Level.ofName? (Text.upper t)).isSome then []
  else [⟨.warning, "fencecheck.config",
    "Unknown LOG_LEVEL ".toList ++ Text.quoted t ++ ", using INFO".toList⟩]

def count (cause : Cause) (v : Value) : Except Cause Nat := do atLeastOne cause (← v.integer)

def webAddress (v : Value) : Except Cause Text := do checkUrl (← v.toText)

def levelName (v : Value) : Except Cause Text := return checkLevel (← v.toText)

def convert {α : Type} (o : Offer) (f : Field) (dflt : α) (conv : Value → Except Cause α) :
    Except Problem α :=
  match o.get? f with
  | none => .ok dflt
  | some v => (conv v).mapError fun c => ⟨f, c⟩

def problem? {α : Type} : Except Problem α → List Problem
  | .ok _ => []
  | .error p => [p]

/-- The settings that an offer comes to, or all that is wrong with it. -/
def ofOffer (o : Offer) : Except (List Problem) Settings :=
  let baseUrl := convert o .baseUrl default.baseUrl webAddress
  let model := convert o .model default.model Value.toText
  let timeout := convert o .timeout default.timeout Value.number
  let sampleChars := convert o .sampleChars default.sampleChars (count .sampleBelowOne)
  let failureThreshold := convert o .failureThreshold default.failureThreshold (count .belowOne)
  let concurrency := convert o .concurrency default.concurrency (count .belowOne)
  let cacheDir := convert o .cacheDir default.cacheDir Value.toPath
  let cacheFile := convert o .cacheFile default.cacheFile Value.toText
  let cacheEnabled := convert o .cacheEnabled default.cacheEnabled Value.toFlag
  let lenient := convert o .lenient default.lenient Value.toFlag
  let logLevel := convert o .logLevel default.logLevel levelName
  let settings : Except Problem Settings := do
    return ⟨← baseUrl, ← model, ← timeout, ← sampleChars, ← failureThreshold, ← concurrency,
      ← cacheDir, ← cacheFile, ← cacheEnabled, ← lenient, ← logLevel⟩
  settings.mapError fun _ =>
    problem? baseUrl ++ problem? model ++ problem? timeout ++ problem? sampleChars ++
      problem? failureThreshold ++ problem? concurrency ++ problem? cacheDir ++
      problem? cacheFile ++ problem? cacheEnabled ++ problem? lenient ++ problem? logLevel

inductive Refusal where
  | notText (e : Text.BadBytes)
  | invalid (ps : List Problem)

def ofSources (s : Sources) : Except Refusal Settings := do
  let o ← s.offer.mapError .notText
  (ofOffer o).mapError .invalid

def entries (s : Sources) : List Log.Entry :=
  match s.offer with
  | .error _ => []
  | .ok o =>
    match (o.get? .logLevel).map Value.toText with
    | some (.ok t) => levelEntries t
    | _ => []

end Settings

end MarkdownFences
