import MarkdownFences.Check
import MarkdownFences.Opinions
import MarkdownFences.Repair
import MarkdownFences.Scan

namespace MarkdownFences

/-- What is to be checked and how. `readOnly` are the files that fixes cannot be written to. -/
structure Job where
  paths : List Path
  settings : Settings
  fix : Bool
  model : Option Text
  interactive : Bool
  digest : Text → Text
  readOnly : List Path

namespace Run

def source : String := "fencecheck.service"

structure Intake where
  documents : List Document
  failures : List Failure
  log : List Log.Entry
  deriving DecidableEq, Repr

def Intake.empty : Intake := ⟨[], [], []⟩

def readFailedEntry (p : Path) (e : ReadError) : Log.Entry :=
  ⟨.warning, source, "event=file_read_failed file=".toList ++ p.text ++
    s!" error_class={e.classify.name} error=".toList ++ e.message⟩

/-- Reads one more document. A file that cannot be read is a failure of the run's report, a path
that is none is a fault. -/
def Intake.take (s : Store) (i : Intake) (p : Path) : Except Fault Intake :=
  match Document.read s p with
  | .ok d => .ok { i with documents := i.documents ++ [d] }
  | .error (.store .nullCharacter) => .error (ReadError.store .nullCharacter).fault
  | .error e => .ok { i with
      failures := i.failures ++ [⟨p, .read, e.message⟩], log := i.log ++ [readFailedEntry p e] }

def readAll (s : Store) (ps : List Path) : Except Fault Intake :=
  ps.foldlM (Intake.take s) .empty

def scanAll (ds : List Document) : Scan :=
  let scans := ds.map fun d => scan d.path d.text
  ⟨scans.flatMap (·.issues), scans.flatMap (·.blocks)⟩

def scanEntry (documents : Nat) (s : Scan) : Log.Entry :=
  ⟨.info, source, (s!"event=scan_complete files={documents} blocks={s.blocks.length} " ++
    s!"structural={s.issues.length}").toList⟩

def heading (job : Job) : List Text :=
  let mode := if job.fix then ["   Mode: fix".toList] else []
  "Markdown code block validator".toList :: mode ++
    ["   Model: ".toList ++ Opinions.chosenModel job.settings job.model,
      s!"   Concurrency: {job.settings.concurrency}".toList, []]

def scanLines (s : Scan) : List Text :=
  s!"  Found {s.blocks.length} code block(s) to validate".toList :: [] ::
    Issue.sectionLines (s.issues.map .structural)

structure Examination (τ ρ : Type) where
  check : Check τ ρ
  intake : Intake
  scan : Scan
  state : Check.State τ
  results : List (Except Fault Finding)

variable {τ ρ : Type}

def prepare (job : Job) (o : Opinions τ ρ) (s : Store) : Except Fault (Examination τ ρ) := do
  let cache := ValidationCache.new (some job.settings.cachePath) job.settings.cacheEnabled
  let (cache, told) ← (cache.load s).mapError Classifier.tooDeep
  let intake ← readAll s job.paths
  let scan := scanAll intake.documents
  let console := ((Console.new job.interactive).start.emitAll (heading job)).emitAll o.lines
  let log := o.log ++ told ++ intake.log ++ [scanEntry intake.documents.length scan]
  return {
    check := ⟨⟨job.digest, o.advisor⟩, job.fix, job.settings.lenient, scan.blocks.length⟩
    intake, scan
    state := ⟨⟨.empty, o.state, log⟩, cache, console.emitAll (scanLines scan), 0, []⟩
    results := [] }

def Examination.checkAll (limit : Nat) (delay : Nat → Block → Nat) (x : Examination τ ρ) :
    Examination τ ρ :=
  let s := Admission.run (x.check.worker delay) limit 0 x.state x.scan.blocks
  { x with state := s.shared, results := s.outcomes }

def examine (job : Job) (o : Opinions τ ρ) (delay : Nat → Block → Nat) (s : Store) :
    Except Fault (Examination τ ρ) :=
  (prepare job o s).map fun x => x.checkAll job.settings.concurrency delay

namespace Examination

def findings (x : Examination τ ρ) : List Finding := x.results.filterMap Except.toOption

def failures (x : Examination τ ρ) : List Failure :=
  (x.scan.blocks.zip x.results).filterMap fun (b, r) =>
    match r with
    | .ok _ => none
    | .error f => some ⟨b.file, .validate, f.message⟩

/-- The report as long as nothing is fixed. -/
def report (job : Job) (duration : Binary64) (x : Examination τ ρ) : Report where
  filesScanned := x.intake.documents.length
  blocksFound := x.scan.blocks.length
  structuralIssues := x.scan.issues
  languageIssues := x.findings.filterMap (·.issue)
  failures := x.intake.failures ++ x.failures
  fixes := []
  fixMode := job.fix
  opinionsUsed := x.check.classifier.advisor.isSome
  concurrency := job.settings.concurrency
  duration
  memoStats := x.state.classifier.memo.stats
  cacheStats := x.state.cache.stats

def fixes (x : Examination τ ρ) : List FenceFix := x.scan.fixes x.findings

end Examination

structure Fixing where
  store : Store
  report : Report
  lines : List Text
  log : List Log.Entry

def fixFailedEntry (p : Path) (e : RepairError) : Log.Entry :=
  ⟨.error, source, "event=fix_failed file=".toList ++ p.text ++ " error=".toList ++ e.message⟩

def Fixing.fixFile (readOnly : List Path) (total : Nat) (x : Fixing)
    (g : (Path × List FenceFix) × Nat) : Fixing :=
  let ((p, fixes), i) := g
  let (store, told, r) := Repair.file readOnly x.store p fixes
  let x := { x with store, log := x.log ++ told }
  match r with
  | .error e =>
    let f : Failure := ⟨p, .write, e.message⟩
    { x with
      report := { x.report with failures := x.report.failures ++ [f] }
      lines := x.lines ++ [f.render], log := x.log ++ [fixFailedEntry p e] }
  | .ok f => { x with
      report := { x.report with fixes := x.report.fixes ++ [f] }
      lines := x.lines ++ [f.render (i + 1) total] }

/-- Fixes the files of a plan in turn. A file that fails does not keep the others from being
fixed. -/
def fixAll (readOnly : List Path) (s : Store) (r : Report) (fixes : List FenceFix) : Fixing :=
  let plan := FenceFix.plan fixes
  let x := plan.zipIdx.foldl (Fixing.fixFile readOnly plan.length)
    ⟨s, r, [[], "Fixing code blocks...".toList], []⟩
  { x with lines := x.lines ++ [x.report.fixSummary] }

def settleIssues (job : Job) (s : Store) (r : Report) (fixes : List FenceFix) : Fixing :=
  if r.totalIssues = 0 then ⟨s, r, [], []⟩
  else if job.fix then fixAll job.readOnly s r fixes
  else ⟨s, r, ["⚠ Run with --fix to automatically fix issues".toList], []⟩

def completeEntry (r : Report) : Log.Entry :=
  ⟨.info, source, (s!"event=run_complete issues={r.totalIssues} failures={r.failures.length} " ++
    s!"fixed={r.totalFixed} exit_code={r.exitCode}").toList⟩

def failureLines (r : Report) : List Text :=
  if r.failures.isEmpty then [] else [] :: r.failures.map Failure.render

/-- What a run leaves: its report, what is written on the console and told in the log, the files,
the cache, and the state of the opinions. -/
structure Result (τ : Type) where
  report : Report
  written : Text
  log : List Log.Entry
  store : Store
  cache : ValidationCache
  opinions : τ

/-- Ends a run whose checks took so many seconds: the cache is saved before anything is fixed. -/
def Examination.conclude (job : Job) (duration : Binary64) (s : Store) (x : Examination τ ρ) :
    Except Fault (Result τ) := do
  let r := x.report job duration
  let (cache, s, told) ← (x.state.cache.save s).mapError fun e => (ReadError.store e).fault
  let y := settleIssues job s r x.fixes
  let console := x.state.console.emitAll ([] :: r.performance)
  let console := console.emitAll (failureLines r ++ [[], r.summary] ++ y.lines)
  return {
    report := y.report
    written := console.close.written
    log := x.state.classifier.log ++ told ++ y.log ++ [completeEntry y.report]
    store := y.store
    cache
    opinions := x.state.classifier.advisor }

end Run

/-- Checks the blocks of all files of a job, and fixes what is wrong if that is wanted. -/
def run {τ ρ : Type} (job : Job) (o : Opinions τ ρ) (delay : Nat → Block → Nat)
    (duration : Binary64) (s : Store) : Except Fault (Run.Result τ) := do
  let x ← Run.examine job o delay s
  x.conclude job duration s

end MarkdownFences
