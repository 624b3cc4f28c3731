import MarkdownFences.Proofs.Fence.Reading
import MarkdownFences.Proofs.FenceFix.Attempt

namespace MarkdownFences.FenceFix

open Fence

/-- A line before and after some fixes: it is the same, or spaces and tabs alone stand in front of
it, then and now. -/
def Kin (old new : Text) : Prop :=
  new = old ∨ IsIndentation (margin old) ∧ IsIndentation (margin new)

structure Attempt.Underway (ls : List Text) (a : Attempt) : Prop where
  failure : a.failure = none
  newline : ∀ l ∈ a.lines, '\n' ∉ l
  length : a.lines.length = ls.length
  line : ∀ (i : Nat) l, ls[i]? = some l → ∃ new, a.lines[i]? = some new ∧ Kin l new

/-- The line of a fix is no fence that stands behind white space of another kind. -/
def Writable (ls : List Text) (f : FenceFix) : Prop :=
  ∀ l, target? ls f = some l → IsIndentation (margin l)

variable {ls : List Text} {fs : List FenceFix} {f : FenceFix} {a : Attempt}

theorem underway_start (hn : ∀ l ∈ ls, '\n' ∉ l) : Attempt.Underway ls ⟨ls, 0, [], none⟩ :=
  ⟨rfl, hn, rfl, fun _ l hl => ⟨l, hl, .inl rfl⟩⟩

theorem Attempt.Underway.fix (h : a.Underway ls) (ht : '\n' ∉ f.tag) {line new : Text}
    (hf : target? a.lines f = some line) (hr : retag line f.tag = .ok new) :
    Attempt.Underway ls
      { a with lines := a.lines.set f.line.toNat new, fixed := a.fixed + 1 } := by
  obtain ⟨j, hj, hline, hfence⟩ := target?_eq_some.mp hf
  have hn := h.newline line (List.mem_of_getElem? hline)
  obtain ⟨hm, -⟩ := retag_fence_eq_ok hn hfence hr
  have hnew := margin_retag hn hfence hr
  rw [hj, Int.toNat_natCast]
  refine ⟨h.failure, fun l hl => ?_, by simp [h.length], fun i l hl => ?_⟩
  · obtain hl | rfl := List.mem_or_eq_of_mem_set hl
    · exact h.newline l hl
    · exact newline_not_mem_retag hn hfence ht hr
  · obtain ⟨old, hold, hkin⟩ := h.line i l hl
    by_cases hi : j = i
    · subst hi
      obtain rfl := Option.some.inj (hold.symm.trans hline)
      refine ⟨new, List.getElem?_set_self (List.getElem?_eq_some_iff.mp hold).1, .inr ?_⟩
      rw [hnew]
      obtain rfl | ⟨hl, -⟩ := hkin
      · exact ⟨hm, hm⟩
      · exact ⟨hl, hm⟩
    · exact ⟨old, (List.getElem?_set_ne hi).trans hold, hkin⟩

theorem Attempt.Underway.writable_of_none (h : a.Underway ls) (hf : target? a.lines f = none) :
    Writable ls f := by
  intro l hl
  obtain ⟨i, hi, hget, hfence⟩ := target?_eq_some.mp hl
  obtain ⟨new, hnew, rfl | ⟨hm, -⟩⟩ := h.line i l hget
  · rw [target?_eq_some.mpr ⟨i, hi, hnew, hfence⟩] at hf
    cases hf
  · exact hm

theorem Attempt.Underway.writable_iff (h : a.Underway ls) {line : Text}
    (hf : target? a.lines f = some line) : Writable ls f ↔ IsIndentation (margin line) := by
  obtain ⟨i, hi, hline, hfence⟩ := target?_eq_some.mp hf
  have hlt : i < ls.length := h.length ▸ (List.getElem?_eq_some_iff.mp hline).1
  have hget : ls[i]? = some ls[i] := List.getElem?_eq_getElem hlt
  obtain ⟨new, hnew, hkin⟩ := h.line i _ hget
  obtain rfl := Option.some.inj (hline.symm.trans hnew)
  have hthat {l : Text} (hl : target? ls f = some l) : l = ls[i] := by
    obtain ⟨k, hk, hlk, -⟩ := target?_eq_some.mp hl
    obtain rfl : i = k := by omega
    exact Option.some.inj (hlk.symm.trans hget)
  obtain hsame | ⟨hold, hnow⟩ := hkin
  · rw [hsame] at hfence ⊢
    refine ⟨fun hw => hw _ (target?_eq_some.mpr ⟨i, hi, hget, hfence⟩), fun hm l hl => ?_⟩
    rwa [hthat hl]
  · exact iff_of_true (fun l hl => by rwa [hthat hl]) hnow

theorem Attempt.Underway.apply (h : a.Underway ls) (ht : '\n' ∉ f.tag) :
    Writable ls f ∧ (FenceFix.apply a f).Underway ls ∨
      ¬ Writable ls f ∧ (FenceFix.apply a f).failure ≠ none := by
  have hgo : a.failure.isSome = false := by rw [h.failure, Option.isSome_none]
  rw [FenceFix.apply, hgo, if_neg Bool.false_ne_true]
  cases heq : target? a.lines f with
  | none => exact .inl ⟨h.writable_of_none heq, h.failure, h.newline, h.length, h.line⟩
  | some line =>
    obtain ⟨i, -, hline, hfence⟩ := target?_eq_some.mp heq
    have hretag := retag_fence (h.newline line (List.mem_of_getElem? hline)) hfence f.tag
    simp only
    by_cases hm : IsIndentation (margin line)
    · rw [if_pos hm] at hretag
      rw [hretag]
      exact .inl ⟨(h.writable_iff heq).mpr hm, h.fix ht heq hretag⟩
    · rw [if_neg hm] at hretag
      rw [hretag]
      exact .inr ⟨fun hw => hm ((h.writable_iff heq).mp hw), Option.some_ne_none _⟩

theorem failure_of_foldl (h : (fs.foldl apply a).failure = none) : a.failure = none := by
  induction fs generalizing a with
  | nil => exact h
  | cons f fs ih => exact failure_of_apply (ih h)

theorem foldl_apply_failure (h : a.Underway ls) (ht : ∀ f ∈ fs, '\n' ∉ f.tag) :
    (fs.foldl apply a).failure = none ↔ ∀ f ∈ fs, Writable ls f := by
  induction fs generalizing a with
  | nil => exact iff_of_true h.failure (List.forall_mem_nil _)
  | cons f fs ih =>
    obtain ⟨hf, hfs⟩ := List.forall_mem_cons.mp ht
    rw [List.foldl_cons, List.forall_mem_cons]
    obtain ⟨hw, hgo⟩ | ⟨hw, hfail⟩ := h.apply hf
    · rw [ih hgo hfs]
      exact ⟨fun hall => ⟨hw, hall⟩, fun hall => hall.2⟩
    · exact iff_of_false (fun hnone => hfail (failure_of_foldl hnone)) fun hall => hw hall.1

theorem applyTo_ends_iff (t : Text) (ht : ∀ f ∈ fs, '\n' ∉ f.tag) :
    (∃ o, applyTo t fs = .ok o) ↔ ∀ f ∈ fs, Writable (Text.lines t) f := by
  have hstart := underway_start fun l (hl : l ∈ Text.lines t) => Text.not_mem_of_mem_lines hl
  have hgo : ((descending fs).foldl apply ⟨Text.lines t, 0, [], none⟩).failure = none ↔
      ∀ f ∈ descending fs, Writable (Text.lines t) f :=
    foldl_apply_failure hstart fun f hf => ht f (mem_descending.mp hf)
  simp only [mem_descending] at hgo
  rw [← hgo, ← attempt, applyTo, Attempt.outcome]
  cases (attempt t fs).failure <;> simp

/-- A line that the scan takes for a fence is its white space in front, the backticks and what
follows them. It can be given a tag exactly if spaces and tabs alone stand in front. It keeps what
follows its own tag, or its backticks and the spaces and tabs after them if it declares none, set
apart from the new tag by white space and with none at the end but for a carriage return. Where
other white space stands between the backticks and its own tag it keeps that tag as well. Fixes
fail exactly if one of them is for a fence that can be given no tag. -/
theorem fences_writable {l : Text} (hn : '\n' ∉ l) (hf : isFence (Text.trim l) = true) (t : Text)
    (ht : ∀ f ∈ fs, '\n' ∉ f.tag) :
    l = margin l ++ (mark ++ info l) ∧
    (∀ u, retag l u = if IsIndentation (margin l) then
        .ok (margin l ++ mark ++ u ++ Text.trimRight (Opening.spaced (kept l)) ++ returnAt l)
      else .error ⟨l⟩) ∧
    (IsIndentation (gap l) → info l = gap l ++ (Fence.tag (Text.trim l)).getD [] ++ kept l) ∧
    (¬ IsIndentation (gap l) →
      info l = (info l).takeWhile isIndent ++ kept l ∧ IsApart (kept l)) ∧
    ((∃ o, applyTo t fs = .ok o) ↔ ∀ f ∈ fs, Writable (Text.lines t) f) :=
  ⟨eq_of_isFence hf, retag_fence hn hf, info_eq_of_gap hf, info_eq_of_not_gap,
    applyTo_ends_iff t ht⟩

/-- A fence behind a tab with attributes and a carriage return, and a fix for it. -/
theorem fences_writable_tab :
    let l := "\t```  js\x7bline=3\x7d \r".toList
    let fixes : List FenceFix := [⟨⟨0, [['a']]⟩, 0, "bash".toList⟩]
    '\n' ∉ l ∧ isFence (Text.trim l) = true ∧
      retag l "bash".toList = .ok "\t```bash \x7bline=3\x7d\r".toList ∧
      IsIndentation (gap l) ∧ info l = "  ".toList ++ "js".toList ++ kept l ∧
      (∀ f ∈ fixes, '\n' ∉ f.tag) ∧ ∃ o, applyTo (l ++ "\nls\n```".toList) fixes = .ok o := by
  intro l fixes
  have hn : '\n' ∉ l := by decide
  have hf : isFence (Text.trim l) = true := by decide +kernel
  have ht : ∀ f ∈ fixes, '\n' ∉ f.tag := by decide
  have hg : IsIndentation (gap l) := by decide +kernel
  obtain ⟨-, hretag, hgap, -, hfixes⟩ := fences_writable hn hf (l ++ "\nls\n```".toList) ht
  refine ⟨hn, hf, (hretag _).trans rfl, hg, hgap hg, ht, hfixes.mpr fun f hmem line hl => ?_⟩
  rw [List.mem_singleton.mp hmem] at hl
  obtain rfl : l = line := Option.some.inj hl
  decide +kernel

/-- Behind a no-break space the scan finds a fence that can be given no tag, and with it all fixes
fail. A tag behind a vertical tab stays where a new one is written. -/
theorem wide_space_refuses_fence :
    let l := "\u00a0```".toList
    let fence := "```\x0bjs".toList
    '\n' ∉ l ∧ isFence (Text.trim l) = true ∧ retag l "bash".toList = .error ⟨l⟩ ∧
      applyTo (l ++ "\nls\n```".toList) [⟨⟨0, [['a']]⟩, 0, "bash".toList⟩] = .error ⟨l⟩ ∧
      isFence (Text.trim fence) = true ∧ Fence.tag (Text.trim fence) = some "js".toList ∧
      retag fence "bash".toList = .ok "```bash\x0bjs".toList := by
  refine ⟨by decide, by decide +kernel, rfl, ?_, by decide +kernel, by decide +kernel, rfl⟩
  rw [applyTo, attempt, descending, List.mergeSort_singleton]
  rfl

end MarkdownFences.FenceFix
