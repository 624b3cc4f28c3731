import MarkdownFences.Binary64
import MarkdownFences.Issue
import MarkdownFences.Tally

namespace MarkdownFences

inductive Operation where
  | read
  | write
  | validate
  deriving DecidableEq, Repr

def Operation.name : Operation → String
  | .read => "read"
  | .write => "write"
  | .validate => "validate"

structure Failure where
  file : Path
  operation : Operation
  error : Text
  deriving DecidableEq, Repr

structure FileFix where
  file : Path
  fixed : Nat
  skipped : Nat
  deriving DecidableEq, Repr

structure CacheStats where
  hits : Nat
  misses : Nat
  deriving DecidableEq, Repr

namespace CacheStats

def none : CacheStats := ⟨0, 0⟩

def hit (s : CacheStats) : CacheStats := ⟨s.hits + 1, s.misses⟩

def miss (s : CacheStats) : CacheStats := ⟨s.hits, s.misses + 1⟩

def total (s : CacheStats) : Nat := s.hits + s.misses

def hitRate (s : CacheStats) : Binary64 :=
  if s.total = 0 then .finite false 0 0 else (Binary64.ratio s.hits s.total).scale 100

end CacheStats

structure Report where
  filesScanned : Nat
  blocksFound : Nat
  structuralIssues : List StructuralIssue
  languageIssues : List LanguageIssue
  failures : List Failure
  fixes : List FileFix
  fixMode : Bool
  opinionsUsed : Bool
  concurrency : Nat
  duration : Binary64
  memoStats : CacheStats
  cacheStats : CacheStats
  deriving Repr

namespace Report

def issues (r : Report) : List Issue :=
  r.structuralIssues.map .structural ++ r.languageIssues.map .language

def totalIssues (r : Report) : Nat := r.structuralIssues.length + r.languageIssues.length

def filesWithIssues (r : Report) : List Path := (r.issues.map Issue.file).eraseDups

def fixableIssues (r : Report) : Nat :=
  r.languageIssues.length + r.structuralIssues.countP fun i => i.kind == .missingLanguage

def totalFixed (r : Report) : Nat := tally (·.fixed) r.fixes

def exitCode (r : Report) : Nat :=
  if !r.failures.isEmpty then 1
  else if r.totalIssues = 0 then 0
  else if !r.fixMode then 1
  else if r.fixableIssues < r.totalIssues || r.totalFixed < r.fixableIssues then 1
  else 0

end Report

end MarkdownFences
