import MarkdownFences.Discovery
import MarkdownFences.Proofs.Path.Normal
import MarkdownFences.Proofs.Text.Rows
import MarkdownFences.Proofs.Text.Utf8
import Mathlib.Algebra.Order.BigOperators.Group.List
import Mathlib.Algebra.Order.Group.Nat

namespace MarkdownFences.Discovery

open Text

variable {n : Text} {names : List Text}

def listing (names : List Text) : Text := names.flatMap (· ++ ['\n'])

theorem listed_eq (t : Text) :
    listed t = ((t.splitOnP isRowBreak).filter (!isVoid ·)).map Path.ofText := by
  rw [listed, filter_rows]

theorem listed_listing (names : List Text) : listed (listing names) = names.flatMap listed := by
  induction names with
  | nil => rfl
  | cons n names ih =>
    have hlisting : listing (n :: names) = n ++ '\n' :: listing names := by simp [listing]
    rw [hlisting, listed_eq, List.splitOnP_append_cons n _ (by decide), List.filter_append,
      List.map_append, ← listed_eq, ← listed_eq, ih, List.flatMap_cons]

theorem listed_of_plain (hn : isVoid n = false) (h : ∀ c ∈ n, isRowBreak c = false) :
    listed n = [Path.ofText n] := by
  rw [listed_eq, List.splitOnP_eq_singleton h]
  simp [hn]

theorem plain_of_mem_listed {t : Text} (h : Path.ofText n ∈ listed t) :
    ∀ c ∈ n, isRowBreak c = false := by
  intro c hc
  by_contra hbreak
  have hne {d : Char} (hd : isRowBreak d = false) : c ≠ d := by
    rintro rfl
    exact hbreak hd
  have hnames := Path.exists_mem_names_iff (hne (d := '/') (by decide)) (hne (d := '.') (by decide))
  rw [listed_eq] at h
  obtain ⟨l, hl, hpath⟩ := List.mem_map.mp h
  have hcl : c ∈ l := by rwa [← hnames, hpath, hnames]
  exact hbreak (eq_false_of_mem_splitOnP (List.mem_filter.mp hl).1 c hcl)

def keptOf (n : Text) : List Path := (listed n).filter (!isExcluded ·)

theorem files_listing (root : Text) (names : List Text) (errors : List UInt8) :
    ∃ log, files root (.exited 0 (toUtf8 (listing names)) errors) =
      .ok (names.flatMap keptOf, log) := by
  have hkept : (listed (listing names)).filter (!isExcluded ·) = names.flatMap keptOf := by
    rw [listed_listing, List.filter_flatMap]
    rfl
  rw [files, if_neg (by decide), ofUtf8_toUtf8]
  exact ⟨_, by rw [← hkept]⟩

theorem flatMap_paths (names : List Text) :
    (names.flatMap fun n => [Path.ofText n].filter (!isExcluded ·)) =
      (names.map Path.ofText).filter (!isExcluded ·) := by
  rw [List.map_eq_flatMap, List.filter_flatMap]

/-- A name is listed whole: a file to check as the one path that it is, any other as no file to
check. -/
def isListedWhole (n : Text) : Bool :=
  if isExcluded (Path.ofText n) then (listed n).all isExcluded else !n.any isRowBreak

theorem isListedWhole_iff (hn : isVoid n = false) :
    isListedWhole n = true ↔ keptOf n = [Path.ofText n].filter (!isExcluded ·) := by
  rw [isListedWhole, keptOf]
  split
  next hex => simp [hex]
  next hex =>
    have hkept : [Path.ofText n].filter (!isExcluded ·) = [Path.ofText n] := by simp [hex]
    have hplain : (!n.any isRowBreak) = true ↔ ∀ c ∈ n, isRowBreak c = false := by simp
    rw [hkept, hplain]
    constructor
    · intro h
      rw [listed_of_plain hn h, hkept]
    · intro h
      have hmem : Path.ofText n ∈ (listed n).filter (!isExcluded ·) := by simp [h]
      exact plain_of_mem_listed (List.mem_filter.mp hmem).1

theorem eq_of_flatMap_eq {α β : Type} {f g : α → List β} {l : List α}
    (hlen : ∀ a ∈ l, (g a).length ≤ (f a).length) (h : l.flatMap f = l.flatMap g) :
    ∀ a ∈ l, f a = g a := by
  induction l with
  | nil => exact List.forall_mem_nil _
  | cons a l ih =>
    obtain ⟨ha, hl⟩ := List.forall_mem_cons.mp hlen
    have hrest : (l.flatMap g).length ≤ (l.flatMap f).length := by
      rw [List.length_flatMap, List.length_flatMap]
      exact List.sum_le_sum hl
    rw [List.flatMap_cons, List.flatMap_cons] at h
    have htotal := congrArg List.length h
    rw [List.length_append, List.length_append] at htotal
    obtain ⟨hfirst, hmore⟩ := List.append_inj h (by omega)
    exact List.forall_mem_cons.mpr ⟨hfirst, ih hl hmore⟩

theorem isListedWhole_of_flatMap_keptOf (hnames : ∀ n ∈ names, isVoid n = false)
    (h : names.flatMap keptOf = (names.map Path.ofText).filter (!isExcluded ·)) :
    ∀ n ∈ names, isListedWhole n = true := by
  have hplain (n : Text) (hn : n ∈ names) (hex : isExcluded (Path.ofText n) = false) :
      ∀ c ∈ n, isRowBreak c = false := by
    have hmem : Path.ofText n ∈ (names.map Path.ofText).filter (!isExcluded ·) :=
      List.mem_filter.mpr ⟨List.mem_map_of_mem hn, by simp [hex]⟩
    rw [← h] at hmem
    obtain ⟨m, -, hm⟩ := List.mem_flatMap.mp hmem
    exact plain_of_mem_listed (List.mem_filter.mp hm).1
  -- so only a name under an excluded directory could come to more paths than it is
  have hlen (n : Text) (hn : n ∈ names) :
      ([Path.ofText n].filter (!isExcluded ·)).length ≤ (keptOf n).length := by
    cases hex : isExcluded (Path.ofText n) with
    | true => simp [hex]
    | false => rw [keptOf, listed_of_plain (hnames n hn) (hplain n hn hex)]
  rw [← flatMap_paths] at h
  exact fun n hn => (isListedWhole_iff (hnames n hn)).mpr (eq_of_flatMap_eq hlen h n hn)

/-- A listing of names, none of them blank, gives exactly the paths of those outside the excluded
directories, in their order, if and only if each name is listed whole. -/
theorem files_listed_iff (hnames : ∀ n ∈ names, isVoid n = false) (root : Text)
    (errors : List UInt8) :
    ∃ kept log, files root (.exited 0 (toUtf8 (listing names)) errors) = .ok (kept, log) ∧
      (kept = (names.map Path.ofText).filter (!isExcluded ·) ↔
        ∀ n ∈ names, isListedWhole n = true) := by
  obtain ⟨log, hfiles⟩ := files_listing root names errors
  refine ⟨_, log, hfiles, isListedWhole_of_flatMap_keptOf hnames, fun h => ?_⟩
  rw [← flatMap_paths]
  exact List.flatMap_congr fun n hn => (isListedWhole_iff (hnames n hn)).mp (h n hn)

/-- Names with a space and with letters beyond ASCII, and one under an excluded directory that ends
with a carriage return. -/
theorem files_listed_iff_spaces :
    let names : List Text :=
      ["a b.md".toList, "docs/\u00e9t\u00e9.md".toList, "node_modules/x\r".toList]
    (∀ n ∈ names, isVoid n = false) ∧ ∃ log, files [] (.exited 0 (toUtf8 (listing names)) []) =
      .ok (["a b.md", "docs/\u00e9t\u00e9.md"].map Path.ofString, log) := by
  intro names
  have hnames : ∀ n ∈ names, isVoid n = false := by decide
  have hwhole : ∀ n ∈ names, isListedWhole n = true := by decide +kernel
  obtain ⟨kept, log, hfiles, hkept⟩ := files_listed_iff hnames [] []
  exact ⟨hnames, log, by rw [hfiles, hkept.mpr hwhole]; rfl⟩

/-- The line separator cuts a name in two. -/
theorem line_separator_splits_name :
    let name : Text := "a\u2028b.md".toList
    isVoid name = false ∧ '\n' ∉ name ∧ isExcluded (Path.ofText name) = false ∧
      (files [] (.exited 0 (toUtf8 (name ++ ['\n'])) [])).map Prod.fst =
        .ok (["a", "b.md"].map Path.ofString) := by
  decide +kernel

end MarkdownFences.Discovery
