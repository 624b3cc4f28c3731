import MarkdownFences.Digest
import MarkdownFences.Language
import MarkdownFences.Report

namespace MarkdownFences

/-- The languages found so far, each under the digest of its content. -/
structure Memo where
  entries : List (Text × Language)
  stats : CacheStats
  deriving DecidableEq, Repr

namespace Memo

def empty : Memo := ⟨[], .none⟩

def find? (m : Memo) (key : Text) : Option Language := m.entries.lookup key

def get (m : Memo) (key : Text) : Memo × Option Language :=
  match m.find? key with
  | some l => ({ m with stats := m.stats.hit }, some l)
  | none => ({ m with stats := m.stats.miss }, none)

def insert (key : Text) (l : Language) : List (Text × Language) → List (Text × Language)
  | [] => [(key, l)]
  | e :: es => if e.1 = key then (key, l) :: es else e :: insert key l es

def put (m : Memo) (key : Text) (l : Language) : Memo :=
  { m with entries := insert key l m.entries }

def size (m : Memo) : Nat := m.entries.length

end Memo

end MarkdownFences
