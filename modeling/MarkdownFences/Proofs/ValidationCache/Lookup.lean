import MarkdownFences.ValidationCache
import Mathlib.Data.List.Nodup

namespace MarkdownFences.ValidationCache

variable {digest : Text → Text} {c : ValidationCache} {b : Block} {q : Json.Points}

/-- The cache says of a block that it was found valid. -/
def lists (digest : Text → Text) (c : ValidationCache) (b : Block) : Bool :=
  c.enabled && c.keys.contains (key digest b)

/-! A cache that is not enabled neither says nor takes anything. -/

theorem isValid_of_disabled (he : c.enabled = false) (digest : Text → Text) (b : Block) :
    c.isValid digest b = (c, false) := by
  rw [isValid, he]
  rfl

theorem markValid_of_disabled (he : c.enabled = false) (digest : Text → Text) (b : Block) :
    c.markValid digest b = c := by
  rw [markValid, he]
  rfl

theorem isValid_of_enabled (he : c.enabled = true) (digest : Text → Text) (b : Block) :
    c.isValid digest b = ({ c with
      stats := if c.lists digest b then c.stats.hit else c.stats.miss }, c.lists digest b) := by
  rw [isValid, lists, he, Bool.true_and]
  cases c.keys.contains (key digest b) <;> rfl

theorem markValid_of_enabled (he : c.enabled = true) (digest : Text → Text) (b : Block) :
    c.markValid digest b = { c with
      keys := if c.keys.contains (key digest b) then c.keys else c.keys ++ [key digest b]
      dirty := true } := by
  rw [markValid, he]
  rfl

theorem isValid_snd (digest : Text → Text) (c : ValidationCache) (b : Block) :
    (c.isValid digest b).2 = c.lists digest b := by
  cases he : c.enabled with
  | false => rw [isValid_of_disabled he, lists, he, Bool.false_and]
  | true => rw [isValid_of_enabled he]

theorem stats_isValid (digest : Text → Text) (he : c.enabled = true) (b : Block) :
    (c.isValid digest b).1.stats = if c.lists digest b then c.stats.hit else c.stats.miss := by
  rw [isValid_of_enabled he]

theorem stats_markValid (digest : Text → Text) (c : ValidationCache) (b : Block) :
    (c.markValid digest b).stats = c.stats := by
  cases he : c.enabled with
  | false => rw [markValid_of_disabled he]
  | true => rw [markValid_of_enabled he]

theorem mem_markValid (he : c.enabled = true) (b : Block) :
    q ∈ (c.markValid digest b).keys ↔ q ∈ c.keys ∨ q = key digest b := by
  rw [markValid_of_enabled he]
  simp only
  split
  case isTrue h =>
    refine ⟨.inl, ?_⟩
    rintro (hq | rfl)
    · exact hq
    · exact List.contains_iff_mem.mp h
  case isFalse => rw [List.mem_append, List.mem_singleton]

theorem nodup_markValid (he : c.enabled = true) (hn : c.keys.Nodup) (b : Block) :
    (c.markValid digest b).keys.Nodup := by
  rw [markValid_of_enabled he]
  simp only
  split
  case isTrue => exact hn
  case isFalse h =>
    refine List.Nodup.append hn (List.nodup_singleton _)
      (List.disjoint_singleton.mpr fun hmem => ?_)
    exact h (List.contains_iff_mem.mpr hmem)

end MarkdownFences.ValidationCache
