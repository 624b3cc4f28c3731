import MarkdownFences.FenceFix
import MarkdownFences.Proofs.Fence.Retag
import MarkdownFences.Proofs.Text.Lines
import Mathlib.Data.List.Induction

namespace MarkdownFences.FenceFix

open Fence

def onLine (fs : List FenceFix) (i : Nat) : List FenceFix := fs.filter fun f => f.line == (i : Int)

/-- What becomes of a line: the last fix for it gives a fence its tag. -/
def Settles (fs : List FenceFix) (i : Nat) (l new : Text) : Prop :=
  match (onLine fs i).getLast? with
  | none => new = l
  | some f => if isFence (Text.trim l) then retag l f.tag = .ok new else new = l

variable {fs : List FenceFix} {f : FenceFix} {i : Nat} {l new : Text}

theorem Settles.eq_or_retag (h : Settles fs i l new) :
    new = l ∨ isFence (Text.trim l) = true ∧ ∃ f ∈ fs, retag l f.tag = .ok new := by
  rw [Settles] at h
  split at h
  case h_1 => exact .inl h
  case h_2 f hf =>
    have hf : f ∈ fs := (List.mem_filter.mp (List.mem_of_getLast? hf)).1
    split at h
    case isTrue hl => exact .inr ⟨hl, f, hf, h⟩
    case isFalse => exact .inl h

theorem Settles.isFence_eq (hn : '\n' ∉ l) (ht : ∀ f ∈ fs, IsTag f.tag) (h : Settles fs i l new) :
    isFence (Text.trim new) = isFence (Text.trim l) := by
  obtain rfl | ⟨hl, f, hf, hr⟩ := h.eq_or_retag
  · rfl
  · rw [isFence_retag hn (ht f hf) hr, hl]

theorem Settles.retag_eq (hn : '\n' ∉ l) (ht : ∀ f ∈ fs, IsTag f.tag) (h : Settles fs i l new)
    (t : Text) : retag new t = retag l t := by
  obtain rfl | ⟨-, f, hf, hr⟩ := h.eq_or_retag
  · rfl
  · exact retag_retag hn (ht f hf) hr t

theorem onLine_concat (fs : List FenceFix) (f : FenceFix) (i : Nat) :
    onLine (fs ++ [f]) i = if f.line = i then onLine fs i ++ [f] else onLine fs i := by
  simp only [onLine, List.filter_append, List.filter_cons, List.filter_nil, beq_iff_eq]
  split <;> simp

theorem Settles.concat_of_ne (hf : f.line ≠ i) :
    Settles (fs ++ [f]) i l new ↔ Settles fs i l new := by
  rw [Settles, Settles, onLine_concat, if_neg hf]

theorem Settles.eq_of_not_fence (hf : isFence (Text.trim l) = false) (h : Settles fs i l new) :
    new = l := by
  obtain heq | ⟨hl, -⟩ := h.eq_or_retag
  · exact heq
  · rw [hf] at hl
    cases hl

theorem Settles.concat_of_not_fence (hf : isFence (Text.trim l) = false) (h : Settles fs i l new) :
    Settles (fs ++ [f]) i l new := by
  have hl := h.eq_of_not_fence hf
  rw [Settles, hf]
  split
  · exact hl
  · exact hl

theorem Settles.concat_of_retag (hn : '\n' ∉ l) (ht : ∀ f ∈ fs, IsTag f.tag)
    (hf : isFence (Text.trim l) = true) (h : Settles fs i l new) (hi : f.line = i) {last : Text}
    (hr : retag new f.tag = .ok last) : Settles (fs ++ [f]) i l last := by
  rw [Settles, onLine_concat, if_pos hi, List.getLast?_concat]
  simp only [hf, if_true]
  rwa [← h.retag_eq hn ht]

structure Attempt.Reached (ls : List Text) (fs : List FenceFix) (a : Attempt) : Prop where
  length : a.lines.length = ls.length
  line : ∀ i l, ls[i]? = some l → ∃ new, a.lines[i]? = some new ∧ Settles fs i l new
  fixed : a.fixed = fs.countP fun f => (target? ls f).isSome
  skipped : a.skipped = fs.filter fun f => (target? ls f).isNone

theorem failure_of_apply {a : Attempt} (h : (apply a f).failure = none) : a.failure = none := by
  rw [apply] at h
  split at h
  case isTrue hs => rw [h] at hs; cases hs
  case isFalse hs => simpa using hs

theorem target?_eq_some {ls : List Text} :
    target? ls f = some l ↔
      ∃ i : Nat, f.line = i ∧ ls[i]? = some l ∧ isFence (Text.trim l) = true := by
  rw [target?]
  split
  case isTrue hneg =>
    simp only [reduceCtorEq, false_iff, not_exists]
    rintro i ⟨hi, -⟩
    omega
  case isFalse hneg =>
    rw [Option.filter_eq_some_iff]
    constructor
    · rintro ⟨hl, hf⟩
      exact ⟨f.line.toNat, by omega, hl, hf⟩
    · rintro ⟨i, hi, hl, hf⟩
      rw [hi, Int.toNat_natCast]
      exact ⟨hl, hf⟩

section Step

variable {ls : List Text} {a : Attempt}

theorem Attempt.Reached.target?_isSome (hn : ∀ l ∈ ls, '\n' ∉ l) (ht : ∀ g ∈ fs, IsTag g.tag)
    (h : a.Reached ls fs) (f : FenceFix) :
    (target? a.lines f).isSome = (target? ls f).isSome := by
  rw [Bool.eq_iff_iff, Option.isSome_iff_exists, Option.isSome_iff_exists]
  simp only [target?_eq_some]
  constructor
  · rintro ⟨new, i, hi, hnew, hf⟩
    have hlt : i < ls.length := h.length ▸ (List.getElem?_eq_some_iff.mp hnew).1
    have hl : ls[i]? = some ls[i] := List.getElem?_eq_getElem hlt
    obtain ⟨new', hnew', hs⟩ := h.line i _ hl
    rw [hnew] at hnew'
    obtain rfl := Option.some.inj hnew'
    rw [hs.isFence_eq (hn _ (List.getElem_mem hlt)) ht] at hf
    exact ⟨_, i, hi, hl, hf⟩
  · rintro ⟨l, i, hi, hl, hf⟩
    obtain ⟨new, hnew, hs⟩ := h.line i l hl
    exact ⟨new, i, hi, hnew, by rwa [hs.isFence_eq (hn l (List.mem_of_getElem? hl)) ht]⟩

theorem Attempt.Reached.skip (h : a.Reached ls fs) (hf : target? ls f = none) :
    Attempt.Reached ls (fs ++ [f]) { a with skipped := a.skipped ++ [f] } := by
  refine ⟨h.length, ?_, ?_, ?_⟩
  · intro i l hl
    obtain ⟨new, hnew, hs⟩ := h.line i l hl
    refine ⟨new, hnew, ?_⟩
    by_cases hi : f.line = i
    · apply hs.concat_of_not_fence
      by_contra hfence
      have hsome := target?_eq_some.mpr ⟨i, hi, hl, by simpa using hfence⟩
      rw [hf] at hsome
      cases hsome
    · exact (Settles.concat_of_ne hi).mpr hs
  · simp [h.fixed, hf]
  · simp [h.skipped, List.filter_append, hf]

theorem Attempt.Reached.fix (hn : ∀ l ∈ ls, '\n' ∉ l) (ht : ∀ g ∈ fs, IsTag g.tag)
    (h : a.Reached ls fs) {line : Text} (hf : target? a.lines f = some line)
    (hr : retag line f.tag = .ok new) :
    Attempt.Reached ls (fs ++ [f])
      { a with lines := a.lines.set f.line.toNat new, fixed := a.fixed + 1 } := by
  have hsome : (target? ls f).isSome = true := by
    rw [← h.target?_isSome hn ht, hf]
    rfl
  obtain ⟨j, hj, hline, -⟩ := target?_eq_some.mp hf
  refine ⟨by simp [h.length], ?_, ?_, ?_⟩
  · intro i l hl
    obtain ⟨old, hold, hs⟩ := h.line i l hl
    rw [hj, Int.toNat_natCast]
    by_cases hi : j = i
    · subst hi
      rw [hold] at hline
      obtain rfl := Option.some.inj hline
      obtain ⟨l', hl'⟩ := Option.isSome_iff_exists.mp hsome
      obtain ⟨k, hk, hlk, hfence⟩ := target?_eq_some.mp hl'
      obtain rfl : j = k := by omega
      rw [hl] at hlk
      obtain rfl := Option.some.inj hlk
      refine ⟨new, ?_, hs.concat_of_retag (hn l (List.mem_of_getElem? hl)) ht hfence hj hr⟩
      exact List.getElem?_set_self (List.getElem?_eq_some_iff.mp hold).1
    · refine ⟨old, ?_, (Settles.concat_of_ne (by omega)).mpr hs⟩
      rw [List.getElem?_set_ne hi]
      exact hold
  · simp [h.fixed, hsome]
  · simp [h.skipped, List.filter_append, Option.isNone_iff_eq_none,
      Option.isSome_iff_ne_none.mp hsome]

theorem Attempt.Reached.apply (hn : ∀ l ∈ ls, '\n' ∉ l) (ht : ∀ g ∈ fs, IsTag g.tag)
    (h : a.Reached ls fs) (ha : (FenceFix.apply a f).failure = none) :
    Attempt.Reached ls (fs ++ [f]) (FenceFix.apply a f) := by
  have hnone := failure_of_apply ha
  rw [FenceFix.apply, hnone] at ha ⊢
  simp only [Option.isSome_none, Bool.false_eq_true, if_false] at ha ⊢
  have htarget := h.target?_isSome hn ht f
  cases heq : target? a.lines f with
  | none =>
    rw [heq] at htarget
    exact hnone ▸ h.skip (Option.not_isSome_iff_eq_none.mp (by simp [← htarget]))
  | some line =>
    cases hr : retag line f.tag with
    | error e => simp [heq, hr] at ha
    | ok new =>
      simp only [hr]
      exact hnone ▸ h.fix hn ht heq hr

theorem foldl_apply_reached (hn : ∀ l ∈ ls, '\n' ∉ l) (ht : ∀ g ∈ fs, IsTag g.tag)
    (h : (fs.foldl FenceFix.apply ⟨ls, 0, [], none⟩).failure = none) :
    (fs.foldl FenceFix.apply ⟨ls, 0, [], none⟩).Reached ls fs := by
  induction fs using List.reverseRecOn with
  | nil => exact ⟨rfl, fun i l hl => ⟨l, hl, rfl⟩, rfl, rfl⟩
  | append_singleton fs f ih =>
    rw [List.foldl_append, List.foldl_cons, List.foldl_nil] at h ⊢
    have ht' : ∀ g ∈ fs, IsTag g.tag := fun g hg => ht g (List.mem_append_left [f] hg)
    exact (ih ht' (failure_of_apply h)).apply hn ht' h

end Step

theorem filter_line_descending (fs : List FenceFix) (n : Int) :
    (descending fs).filter (fun f => f.line == n) = fs.filter fun f => f.line == n := by
  have hsorted : (fs.filter fun f => f.line == n).Pairwise
      fun a b => decide (b.line ≤ a.line) = true := by
    rw [List.pairwise_iff_forall_sublist]
    intro a b hab
    have ha := (List.mem_filter.mp (hab.subset List.mem_cons_self)).2
    have hb := (List.mem_filter.mp (hab.subset (List.mem_cons_of_mem a List.mem_cons_self))).2
    simp only [beq_iff_eq] at ha hb
    simp [ha, hb]
  have hsub : (fs.filter fun f => f.line == n).Sublist (descending fs) :=
    List.sublist_mergeSort (by simp; omega) (by simp; omega) hsorted List.filter_sublist
  have hperm : ((descending fs).filter fun f => f.line == n).Perm
      (fs.filter fun f => f.line == n) :=
    (List.mergeSort_perm fs _).filter _
  have hsub' : (fs.filter fun f => f.line == n).Sublist
      ((descending fs).filter fun f => f.line == n) := by
    have h := hsub.filter fun f => f.line == n
    simpa using h
  exact (hsub'.eq_of_length hperm.length_eq.symm).symm

theorem onLine_descending (fs : List FenceFix) (i : Nat) :
    onLine (descending fs) i = onLine fs i :=
  filter_line_descending fs i

theorem pairwise_descending (fs : List FenceFix) :
    (descending fs).Pairwise fun a b => b.line ≤ a.line := by
  have h : (descending fs).Pairwise fun a b => decide (b.line ≤ a.line) = true :=
    List.pairwise_mergeSort (by simp; omega) (by simp; omega) fs
  exact h.imp of_decide_eq_true

theorem mem_descending : f ∈ descending fs ↔ f ∈ fs := List.mem_mergeSort

theorem Settles.of_descending (h : Settles (descending fs) i l new) : Settles fs i l new := by
  rwa [Settles, onLine_descending] at h

theorem Settles.not_mem (hn : '\n' ∉ l) (ht : ∀ f ∈ fs, IsTag f.tag) (h : Settles fs i l new) :
    '\n' ∉ new := by
  rw [Settles] at h
  split at h
  case h_1 => rwa [h]
  case h_2 g hg =>
    have hg : g ∈ fs := (List.mem_filter.mp (List.mem_of_getLast? hg)).1
    split at h
    case isTrue => exact not_mem_retag rfl rfl hn hn (ht g hg) h
    case isFalse => rwa [h]

section Outcome

variable {t : Text} {o : Outcome}

theorem attempt_reached (ht : ∀ g ∈ fs, IsTag g.tag) (h : (attempt t fs).failure = none) :
    (attempt t fs).Reached (Text.lines t) (descending fs) :=
  foldl_apply_reached (fun _ hl => Text.not_mem_of_mem_lines hl)
    (fun g hg => ht g (mem_descending.mp hg)) h

theorem applyTo_eq_ok (h : applyTo t fs = .ok o) :
    (attempt t fs).failure = none ∧
      o = ⟨Text.unlines (attempt t fs).lines, (attempt t fs).fixed, (attempt t fs).skipped⟩ := by
  rw [applyTo, Attempt.outcome] at h
  split at h
  case h_1 => cases h
  case h_2 hf => exact ⟨hf, (Except.ok.inj h).symm⟩

theorem lines_applyTo (ht : ∀ g ∈ fs, IsTag g.tag) (h : applyTo t fs = .ok o) :
    Text.lines o.text = (attempt t fs).lines := by
  obtain ⟨hf, rfl⟩ := applyTo_eq_ok h
  have hr := attempt_reached ht hf
  apply Text.lines_unlines
  · intro hnil
    have hl := hr.length
    rw [hnil] at hl
    exact Text.lines_ne_nil t (List.eq_nil_of_length_eq_zero hl.symm)
  · intro new hnew
    obtain ⟨i, hi, hget⟩ := List.getElem_of_mem hnew
    have hlt : i < (Text.lines t).length := hr.length ▸ hi
    obtain ⟨new', hnew', hs⟩ := hr.line i _ (List.getElem?_eq_getElem hlt)
    rw [List.getElem?_eq_getElem hi, hget] at hnew'
    obtain rfl := Option.some.inj hnew'
    exact hs.not_mem (Text.not_mem_of_mem_lines (List.getElem_mem hlt))
      fun g hg => ht g (mem_descending.mp hg)

theorem length_applyTo (ht : ∀ g ∈ fs, IsTag g.tag) (h : applyTo t fs = .ok o) :
    (Text.lines o.text).length = (Text.lines t).length := by
  rw [lines_applyTo ht h]
  exact (attempt_reached ht (applyTo_eq_ok h).1).length

theorem settles_applyTo (ht : ∀ g ∈ fs, IsTag g.tag) (h : applyTo t fs = .ok o)
    (hl : (Text.lines t)[i]? = some l) :
    ∃ new, (Text.lines o.text)[i]? = some new ∧ Settles fs i l new := by
  rw [lines_applyTo ht h]
  obtain ⟨new, hnew, hs⟩ := (attempt_reached ht (applyTo_eq_ok h).1).line i l hl
  exact ⟨new, hnew, hs.of_descending⟩

theorem fixed_applyTo (ht : ∀ g ∈ fs, IsTag g.tag) (h : applyTo t fs = .ok o) :
    o.fixed = fs.countP fun f => (target? (Text.lines t) f).isSome := by
  obtain ⟨hf, rfl⟩ := applyTo_eq_ok h
  rw [(attempt_reached ht hf).fixed]
  exact (List.mergeSort_perm fs _).countP_eq _

theorem skipped_applyTo (ht : ∀ g ∈ fs, IsTag g.tag) (h : applyTo t fs = .ok o) :
    o.skipped = (descending fs).filter fun f => (target? (Text.lines t) f).isNone := by
  obtain ⟨hf, rfl⟩ := applyTo_eq_ok h
  exact (attempt_reached ht hf).skipped

theorem fixed_add_skipped (ht : ∀ g ∈ fs, IsTag g.tag) (h : applyTo t fs = .ok o) :
    o.fixed + o.skipped.length = fs.length := by
  rw [fixed_applyTo ht h, skipped_applyTo ht h, ← List.countP_eq_length_filter, descending,
    (List.mergeSort_perm fs _).countP_eq,
    List.length_eq_countP_add_countP fun f => (target? (Text.lines t) f).isSome]
  exact congrArg (_ + ·) (List.countP_congr fun f _ => by simp)

theorem text_of_fixed_eq_zero (ht : ∀ g ∈ fs, IsTag g.tag) (h : applyTo t fs = .ok o)
    (h0 : o.fixed = 0) : o.text = t := by
  have hnone : ∀ f ∈ fs, target? (Text.lines t) f = none := by
    rw [fixed_applyTo ht h, List.countP_eq_zero] at h0
    exact fun f hf => by simpa using h0 f hf
  have hlines : Text.lines o.text = Text.lines t := by
    apply List.ext_getElem?
    intro i
    cases hl : (Text.lines t)[i]? with
    | none =>
      rw [List.getElem?_eq_none_iff] at hl ⊢
      rwa [length_applyTo ht h]
    | some l =>
      obtain ⟨new, hnew, hs⟩ := settles_applyTo ht h hl
      rw [hnew]
      congr 1
      rw [Settles] at hs
      split at hs
      case h_1 => exact hs
      case h_2 f hf =>
        obtain ⟨hmem, hline⟩ := List.mem_filter.mp (List.mem_of_getLast? hf)
        split at hs
        case isTrue hfence =>
          have hsome := target?_eq_some.mpr ⟨i, by simpa using hline, hl, hfence⟩
          rw [hnone f hmem] at hsome
          cases hsome
        case isFalse => exact hs
  rw [← Text.unlines_lines o.text, hlines, Text.unlines_lines]

end Outcome

end MarkdownFences.FenceFix
