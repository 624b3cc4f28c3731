import MarkdownFences.Finding
import MarkdownFences.Proofs.Scan.Alike
import MarkdownFences.Proofs.Scan.Progress

namespace MarkdownFences.Scan

variable {file p q : Path} {t : Text} {a b : Block}

theorem file_of_mem_blocks (h : b ∈ (scan file t).blocks) : b.file = file := by
  rw [scan_blocks] at h
  obtain ⟨p, -, rfl⟩ := List.mem_map.mp h
  rfl

theorem blocks_file (p q : Path) (t : Text) :
    (scan q t).blocks = (scan p t).blocks.map fun b => { b with file := q } := by
  rw [scan_blocks, scan_blocks, Layout.blocks, Layout.blocks, List.map_map]
  rfl

theorem pairwise_blocks (file : Path) (t : Text) :
    (scan file t).blocks.Pairwise fun a b => a.openLine < b.openLine := by
  rw [scan_blocks, Layout.blocks, List.pairwise_map]
  exact Layout.pairwise_pairs (Layout.pairwise_fences _)

theorem isFence_openLine (hb : b ∈ (scan file t).blocks) :
    ∃ l, (Text.lines t)[b.openLine]? = some l ∧ Fence.isFence (Text.trim l) = true := by
  rw [scan_blocks] at hb
  obtain ⟨p, hp, rfl⟩ := List.mem_map.mp hb
  obtain ⟨hlt, hf⟩ := Layout.mem_fencesBefore.mp (Layout.fst_mem_of_mem_pairs hp)
  have hl := List.getElem?_eq_getElem hlt
  refine ⟨_, hl, ?_⟩
  have hfence := (Bool.and_eq_true_iff.mp hf).2
  rwa [Layout.lineAt, hl] at hfence

theorem openLine_apart (ha : a ∈ (scan file t).blocks) (hb : b ∈ (scan file t).blocks) :
    b.openLine ≤ a.openLine ∨ a.closeLine < b.openLine := by
  rw [scan_blocks] at ha hb
  obtain ⟨p, hp, rfl⟩ := List.mem_map.mp ha
  obtain ⟨q, hq, rfl⟩ := List.mem_map.mp hb
  exact Layout.separated_of_mem_pairs (Layout.pairwise_fences _) hp hq

theorem eq_of_openLine (ha : a ∈ (scan p t).blocks) (hb : b ∈ (scan q t).blocks)
    (h : a.openLine = b.openLine) : a = { b with file := p } := by
  rw [blocks_file q p] at ha
  obtain ⟨c, hc, rfl⟩ := List.mem_map.mp ha
  have hsorted := List.pairwise_iff_getElem.mp (pairwise_blocks q t)
  have hcb : c = b := by
    obtain ⟨i, hi, rfl⟩ := List.getElem_of_mem hc
    obtain ⟨j, hj, rfl⟩ := List.getElem_of_mem hb
    obtain hlt | rfl | hlt := Nat.lt_trichotomy i j
    · exact absurd h (Nat.ne_of_lt (hsorted i j hi hj hlt))
    · rfl
    · exact absurd h (Nat.ne_of_gt (hsorted j i hj hi hlt))
  rw [hcb]

def TellsMissing (s : Scan) : Prop :=
  s.issues.filter (·.kind == .missingLanguage) = (s.blocks.filter (·.tag.isNone)).map missing

namespace TellsMissing

variable {s : Scan} (h : s.TellsMissing)

include h

theorem other {i : StructuralIssue} (hi : i.kind ≠ .missingLanguage) :
    (s.addIssue i).TellsMissing := by
  rw [TellsMissing, Scan.addIssue, List.filter_cons_of_neg (by simpa using hi)]
  exact h

theorem tagged (hb : ¬ b.tag.isNone = true) : (s.addBlock b).TellsMissing := by
  simp only [TellsMissing, Scan.addBlock, List.filter_cons, hb]
  exact h

theorem untagged (hb : b.tag.isNone = true) :
    ((s.addBlock b).addIssue (missing b)).TellsMissing := by
  simp only [TellsMissing, Scan.addBlock, Scan.addIssue, List.filter_cons, hb, if_true]
  exact congrArg (missing b :: ·) h

theorem append {t : Scan} (ht : t.TellsMissing) :
    TellsMissing ⟨s.issues ++ t.issues, s.blocks ++ t.blocks⟩ := by
  rw [TellsMissing] at h ht ⊢
  rw [List.filter_append, List.filter_append, List.map_append, h, ht]

theorem untagged_eq :
    s.untagged =
      (s.blocks.filter (·.tag.isNone)).map fun b => (b.file, some (b.openLine : Int)) := by
  rw [Scan.untagged, h, List.map_map]
  rfl

theorem mem_untagged (hb : b ∈ s.blocks) (ht : b.tag = none) :
    (b.file, some (b.openLine : Int)) ∈ s.untagged := by
  rw [h.untagged_eq]
  exact List.mem_map_of_mem (List.mem_filter.mpr ⟨hb, by simp [ht]⟩)

end TellsMissing

theorem tellsMissing_ofLines (file : Path) (last n : Nat) (quad : Bool) (opened : Option Opened)
    (ls : List Text) : (ofLines file last n quad opened ls).TellsMissing := by
  fun_induction ofLines file last n quad opened ls
  case case1 | case2 => rfl
  case case3 ih | case4 ih | case5 ih | case7 ih | case10 ih => exact ih
  case case6 ih => exact ih.other nofun
  case case8 ho ih => exact ih.untagged ho
  case case9 ho ih => exact ih.tagged ho

theorem tellsMissing_scan (file : Path) (t : Text) : (scan file t).TellsMissing :=
  tellsMissing_ofLines file _ 0 false none _

end MarkdownFences.Scan
