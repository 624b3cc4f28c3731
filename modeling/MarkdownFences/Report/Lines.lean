import MarkdownFences.Groups
import MarkdownFences.Report

namespace MarkdownFences

def issueLine (kind : IssueKind) (line : Int) (endLine : Option Int) (message : Option Text) :
    Text :=
  let ends :=
    match endLine with
    | some n => if n = line then "" else s!" (ends at line {n})"
    | none => ""
  let note :=
    match message with
    | none | some [] => []
    | some m => " - ".toList ++ m
  s!"  ✗ Line {line}: {kind.label}{ends}".toList ++ note

namespace Issue

def render : Issue → Text
  | .structural i => issueLine i.kind i.line i.endLine i.message
  | .language i =>
    issueLine i.kind i.line (some i.endLine) none ++
      if i.kind = .incorrectLanguage then
        "\n     Specified: ".toList ++ i.declared ++ ", Detected: ".toList ++ i.detected
      else []

def byFile (is : List Issue) : List (Path × List Issue) := collectBy file is

def sectionLines (is : List Issue) : List Text :=
  if is.isEmpty then []
  else s!"⚠ Found {is.length} structural issue(s):".toList :: [] ::
    (byFile is).flatMap fun g => g.1.text :: (g.2.map render ++ [[]])

end Issue

def errorLength : Nat := 200

def Failure.render (f : Failure) : Text :=
  let error := if errorLength < f.error.length then f.error.take errorLength ++ "...".toList
    else f.error
  "  ✗ ".toList ++ f.file.text ++ s!": {f.operation.name} failed - ".toList ++ error

def CacheStats.render (label : String) (s : CacheStats) : Option Text :=
  if s.total = 0 then Option.none
  else
    let rate := String.ofList (Binary64.fixed 1 s.hitRate)
    some s!"{label}: {s.hits}/{s.total} hits ({rate}% hit rate)".toList

def FileFix.render (f : FileFix) (position total : Nat) : Text :=
  let skipped := if f.skipped = 0 then "" else s!" ({f.skipped} skipped)"
  s!"  [{position}/{total}] Fixing ".toList ++ f.file.text ++
    s!"... ✓ {f.fixed} blocks{skipped}".toList

namespace Report

def performance (r : Report) : List Text :=
  let time := String.ofList (Binary64.fixed 2 r.duration)
  s!"Performance: Validated {r.blocksFound} blocks in {time}s ({r.concurrency} concurrent)".toList
    :: ((r.memoStats.render "Classification Cache").toList ++
      (r.cacheStats.render "Validation Cache").toList)

def summary (r : Report) : Text :=
  if r.totalIssues = 0 && r.failures.isEmpty then
    "✓ No issues found! All code blocks are valid.".toList
  else
    let failed := if r.failures.isEmpty then ""
      else s!", {r.failures.length} file(s) could not be processed"
    s!"Summary: Found {r.totalIssues} issue(s) in {r.filesWithIssues.length} file(s){failed}".toList

def fixSummary (r : Report) : Text :=
  s!"✓ Fixed {r.totalFixed} code blocks in {r.fixes.length} files".toList

end Report

end MarkdownFences
