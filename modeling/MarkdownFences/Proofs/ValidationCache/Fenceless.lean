import MarkdownFences.Proofs.FenceFix.Rescan
import MarkdownFences.Proofs.ValidationCache.RoundTrip

namespace MarkdownFences

/-- No line of the text is a fence. -/
def Text.Fenceless (t : Text) : Prop := ∀ l ∈ lines t, Fence.isFence (trim l) = false

namespace Text

theorem isFence_trim {front : Text} {c : Char} (hf : ∀ d ∈ front, isBlank d = true)
    (hb : isBlank c = false) (hc : c ≠ tick) (r : Text) :
    Fence.isFence (trim (front ++ c :: r)) = false := by
  have hp : trim (front ++ c :: r) <+: c :: r := by
    rw [trim, trimLeft_append hf, trimLeft_cons hb]
    exact dropEnding_isPrefix isBlank _
  rw [Fence.isFence, Bool.and_eq_false_iff, Bool.eq_false_iff, ne_eq, List.isPrefixOf_iff_prefix]
  refine .inl fun hm => ?_
  exact hc (List.cons_prefix_cons.mp (hm.trans hp)).1.symm

theorem fenceless_append {p : Text} (hp : '\n' ∉ p) (hf : Fence.isFence (trim p) = false) {t : Text}
    (ht : t.Fenceless) : Fenceless (p ++ '\n' :: t) := by
  rw [Fenceless, lines, pieces_append hp]
  exact List.forall_mem_cons.mpr ⟨hf, ht⟩

end Text

namespace FenceFix

theorem SettlesAll.text_eq {fs : List FenceFix} {t t' : Text} (ht : t.Fenceless)
    (h : SettlesAll fs (Text.lines t) (Text.lines t')) : t' = t := by
  obtain ⟨gs, hgs, hmade⟩ := h.exists_made
  have hnil : gs = [] := by
    refine List.eq_nil_iff_forall_not_mem.mpr fun f hf => ?_
    obtain ⟨l, hl⟩ := Option.isSome_iff_exists.mp ((hgs f).mp hf).2
    obtain ⟨i, -, hget, hfence⟩ := target?_eq_some.mp hl
    rw [ht l (List.mem_of_getElem? hget)] at hfence
    cases hfence
  rw [hnil] at hmade
  exact hmade.text_eq_of_nil

end FenceFix

namespace ValidationCache

open Json (Points writeString)

theorem fenceless_memberLines (keys : List Points) :
    Text.Fenceless (memberLines keys ++ "\x7d".toList) := by
  have hnot (k : Points) (ending : Text) (he : '\n' ∉ ending) :
      '\n' ∉ "  ".toList ++ writeString k ++ ending := by
    have hk := not_mem_writeString (c := '\n') (by decide) k
    simp [hk, he]
  have hfence (k : Points) (ending : Text) :
      Fence.isFence (Text.trim ("  ".toList ++ writeString k ++ ending)) = false := by
    rw [List.append_assoc]
    exact Text.isFence_trim (List.all_eq_true.mp (by decide)) (by decide) (by decide) _
  induction keys with
  | nil => exact List.forall_mem_singleton.mpr (by decide)
  | cons k keys ih =>
    cases keys with
    | nil =>
      have hline : memberLines [k] ++ "\x7d".toList =
          ("  ".toList ++ writeString k ++ ": null".toList) ++ '\n' :: "\x7d".toList := by
        simp [memberLines]
      rw [hline]
      exact Text.fenceless_append (hnot k _ (by decide)) (hfence k _) ih
    | cons l keys =>
      have hline : memberLines (k :: l :: keys) ++ "\x7d".toList =
          ("  ".toList ++ writeString k ++ ": null,".toList) ++
            '\n' :: (memberLines (l :: keys) ++ "\x7d".toList) := by
        simp [memberLines]
      rw [hline]
      exact Text.fenceless_append (hnot k _ (by decide)) (hfence k _) ih

/-- The file of a cache is never fixed, not even where it is one of the files that are checked. -/
theorem fenceless_fileText (keys : List Points) : Text.Fenceless (fileText keys) := by
  rw [fileText]
  split
  case isTrue => exact List.forall_mem_singleton.mpr (by decide)
  case isFalse =>
    exact Text.fenceless_append (p := "\x7b".toList) (by decide) (by decide)
      (fenceless_memberLines _)

end ValidationCache

end MarkdownFences
