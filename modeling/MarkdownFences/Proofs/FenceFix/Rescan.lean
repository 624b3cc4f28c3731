import MarkdownFences.Proofs.FenceFix.Attempt
import MarkdownFences.Proofs.Scan.Alike
import MarkdownFences.Proofs.Scan.Progress

namespace MarkdownFences.FenceFix

open Fence Layout

variable {fs : List FenceFix} {i : Nat} {l new : Text}

theorem Settles.isQuad_eq (hn : '\n' ∉ l) (ht : ∀ f ∈ fs, IsTag f.tag) (h : Settles fs i l new) :
    Layout.isQuad new = Layout.isQuad l := by
  obtain rfl | ⟨hl, f, hf, hr⟩ := h.eq_or_retag
  · rfl
  · have hquad : Fence.isQuad (Text.trim l) = false := by
      simp only [Fence.isFence, Bool.and_eq_true, Bool.not_eq_true'] at hl
      exact hl.2
    rw [Layout.isQuad, Layout.isQuad, isQuad_retag hn (ht f hf) hr, hquad]

theorem Settles.alike (hn : '\n' ∉ l) (ht : ∀ f ∈ fs, IsTag f.tag) (h : Settles fs i l new) :
    Alike l new :=
  ⟨h.isQuad_eq hn ht, h.isFence_eq hn ht, h.eq_of_not_fence⟩

theorem Settles.tag_eq (hn : '\n' ∉ l) (ht : ∀ f ∈ fs, IsTag f.tag)
    (hl : Fence.isFence (Text.trim l) = true) (h : Settles fs i l new) :
    Fence.tag (Text.trim new) =
      ((onLine fs i).getLast?.map (·.tag)).or (Fence.tag (Text.trim l)) := by
  rw [Settles] at h
  cases hf : (onLine fs i).getLast? with
  | none =>
    rw [hf] at h
    rw [h]
    rfl
  | some f =>
    have hmem : f ∈ fs := (List.mem_filter.mp (List.mem_of_getLast? hf)).1
    simp only [hf, hl, if_true] at h
    exact tag_retag hn (ht f hmem) h

theorem onLine_append (fs gs : List FenceFix) (i : Nat) :
    onLine (fs ++ gs) i = onLine fs i ++ onLine gs i :=
  List.filter_append fs gs

theorem Settles.append {gs : List FenceFix} {last : Text} (hn : '\n' ∉ l)
    (ht : ∀ f ∈ fs, IsTag f.tag) (h : Settles fs i l new) (h' : Settles gs i new last) :
    Settles (fs ++ gs) i l last := by
  rw [Settles, onLine_append, List.getLast?_append]
  cases hg : (onLine gs i).getLast? with
  | none =>
    rw [Settles, hg] at h'
    rw [Option.none_or, h']
    exact h
  | some g =>
    simp only [Option.some_or]
    rw [Settles, hg] at h'
    simp only [h.isFence_eq hn ht] at h'
    split
    case isTrue hfence =>
      rwa [if_pos hfence, h.retag_eq hn ht] at h'
    case isFalse hfence =>
      rw [if_neg hfence] at h'
      rw [h', h.eq_of_not_fence (by simpa using hfence)]

def retagged (fs : List FenceFix) (b : Block) : Block :=
  { b with tag := ((onLine fs b.openLine).getLast?.map (·.tag)).or b.tag }

section Lines

variable {ls news : List Text}

/-- Fixes of a list of lines, which need not be all lines of a text. -/
structure SettlesAll (fs : List FenceFix) (ls news : List Text) : Prop where
  length : news.length = ls.length
  line : ∀ i l, ls[i]? = some l → ∃ new, news[i]? = some new ∧ Settles fs i l new

theorem SettlesAll.refl (ls : List Text) : SettlesAll [] ls ls :=
  ⟨rfl, fun _ l hl => ⟨l, hl, rfl⟩⟩

theorem SettlesAll.trans {gs : List FenceFix} {lasts : List Text} (hn : ∀ l ∈ ls, '\n' ∉ l)
    (ht : ∀ f ∈ fs, IsTag f.tag) (h : SettlesAll fs ls news) (h' : SettlesAll gs news lasts) :
    SettlesAll (fs ++ gs) ls lasts := by
  refine ⟨h'.length.trans h.length, fun i l hl => ?_⟩
  obtain ⟨new, hnew, hs⟩ := h.line i l hl
  obtain ⟨last, hlast, hs'⟩ := h'.line i new hnew
  exact ⟨last, hlast, hs.append (hn l (List.mem_of_getElem? hl)) ht hs'⟩

theorem SettlesAll.lineAt (h : SettlesAll fs ls news) (hi : i < ls.length) :
    Settles fs i (Layout.lineAt ls i) (Layout.lineAt news i) := by
  obtain ⟨new, hnew, hs⟩ := h.line i ls[i] (List.getElem?_eq_getElem hi)
  rwa [Layout.lineAt, Layout.lineAt, hnew, List.getElem?_eq_getElem hi]

theorem SettlesAll.alike (hn : ∀ l ∈ ls, '\n' ∉ l) (ht : ∀ f ∈ fs, IsTag f.tag)
    (h : SettlesAll fs ls news) : AlikeLines ls news := by
  refine ⟨h.length, fun i => ?_⟩
  by_cases hi : i < ls.length
  · refine (h.lineAt hi).alike ?_ ht
    rw [Layout.lineAt, List.getElem?_eq_getElem hi]
    exact hn _ (List.getElem_mem hi)
  · have hl : Layout.lineAt ls i = [] := by
      rw [Layout.lineAt, List.getElem?_eq_none (Nat.le_of_not_lt hi)]
      rfl
    have hnew : Layout.lineAt news i = [] := by
      rw [Layout.lineAt, List.getElem?_eq_none (h.length ▸ Nat.le_of_not_lt hi)]
      rfl
    rw [hl, hnew]
    exact ⟨rfl, rfl, fun _ => rfl⟩

theorem SettlesAll.tagAt (hn : ∀ l ∈ ls, '\n' ∉ l) (ht : ∀ f ∈ fs, IsTag f.tag)
    (h : SettlesAll fs ls news) (hi : i < ls.length) (hf : Layout.isFence ls i = true) :
    Layout.tagAt news i = ((onLine fs i).getLast?.map (·.tag)).or (Layout.tagAt ls i) := by
  refine (h.lineAt hi).tag_eq ?_ ht (Bool.and_eq_true_iff.mp hf).2
  rw [Layout.lineAt, List.getElem?_eq_getElem hi]
  exact hn _ (List.getElem_mem hi)

theorem SettlesAll.blocks (hn : ∀ l ∈ ls, '\n' ∉ l) (ht : ∀ f ∈ fs, IsTag f.tag)
    (h : SettlesAll fs ls news) (file : Path) :
    Layout.blocks file news = (Layout.blocks file ls).map (retagged fs) := by
  rw [(h.alike hn ht).blocks_eq]
  apply List.map_congr_left
  intro b hb
  obtain ⟨p, hp, rfl⟩ := List.mem_map.mp hb
  obtain ⟨hlt, hf⟩ := mem_fencesBefore.mp (fst_mem_of_mem_pairs hp)
  rw [retagged, block, h.tagAt hn ht hlt hf]

theorem SettlesAll.exists_made (h : SettlesAll fs ls news) :
    ∃ gs, (∀ f, f ∈ gs ↔ f ∈ fs ∧ (target? ls f).isSome = true) ∧ SettlesAll gs ls news := by
  refine ⟨fs.filter fun f => (target? ls f).isSome, fun f => List.mem_filter, h.length, ?_⟩
  intro i l hl
  obtain ⟨new, hnew, hs⟩ := h.line i l hl
  refine ⟨new, hnew, ?_⟩
  cases hf : Fence.isFence (Text.trim l) with
  | true =>
    have hline : onLine (fs.filter fun f => (target? ls f).isSome) i = onLine fs i := by
      rw [onLine, onLine, List.filter_filter]
      apply List.filter_congr
      intro f _
      by_cases hi : f.line = i
      · simp [target?_eq_some.mpr ⟨i, hi, hl, hf⟩]
      · simp [hi]
    rwa [Settles, hline]
  | false =>
    rw [hs.eq_of_not_fence hf, Settles, hf]
    split <;> rfl

/-- Nothing is changed but lines of some numbers. -/
structure ChangedOnly (P : Nat → Prop) (ls news : List Text) : Prop where
  length : news.length = ls.length
  line : ∀ i, ¬ P i → news[i]? = ls[i]?

theorem SettlesAll.changedOnly {P : Nat → Prop} (h : SettlesAll fs ls news)
    (hP : ∀ f ∈ fs, ∀ i : Nat, f.line = i → P i) : ChangedOnly P ls news := by
  refine ⟨h.length, fun i hi => ?_⟩
  cases hl : ls[i]? with
  | none =>
    rw [List.getElem?_eq_none_iff] at hl ⊢
    rwa [h.length]
  | some l =>
    obtain ⟨new, hnew, hs⟩ := h.line i l hl
    have hnone : onLine fs i = [] := by
      refine List.filter_eq_nil_iff.mpr fun f hf hline => ?_
      exact hi (hP f hf i (by simpa using hline))
    rw [Settles, hnone] at hs
    rw [hnew, hs]

theorem SettlesAll.text_eq_of_nil {t t' : Text} (h : SettlesAll [] (Text.lines t) (Text.lines t')) :
    t' = t := by
  have hlines : Text.lines t' = Text.lines t := by
    apply List.ext_getElem?
    intro i
    exact (h.changedOnly (P := fun _ => False) nofun).line i id
  rw [← Text.unlines_lines t', hlines, Text.unlines_lines]

end Lines

theorem settlesAll_applyTo {t : Text} {o : Outcome} (ht : ∀ f ∈ fs, IsTag f.tag)
    (h : applyTo t fs = .ok o) : SettlesAll fs (Text.lines t) (Text.lines o.text) :=
  ⟨length_applyTo ht h, fun _ _ => settles_applyTo ht h⟩

end MarkdownFences.FenceFix
