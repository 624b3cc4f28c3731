import MarkdownFences.Proofs.Text.Lines
import MarkdownFences.Text.Blank

namespace MarkdownFences.Text

variable {t w : Text}

theorem eq_false_of_mem_splitOnP {p : Char → Bool} (h : w ∈ t.splitOnP p) :
    ∀ c ∈ w, p c = false := by
  induction t generalizing w with
  | nil =>
    obtain rfl := List.mem_singleton.mp h
    exact List.forall_mem_nil _
  | cons d t ih =>
    rw [List.splitOnP_cons_eq_if_modifyHead] at h
    cases hd : p d with
    | true =>
      rw [if_pos hd] at h
      obtain rfl | h := List.mem_cons.mp h
      · exact List.forall_mem_nil _
      · exact ih h
    | false =>
      obtain ⟨first, later, hfirst⟩ := List.exists_cons_of_ne_nil (List.splitOnP_ne_nil p t)
      rw [if_neg (by simp [hd]), hfirst, List.modifyHead_cons] at h
      rw [hfirst] at ih
      obtain rfl | h := List.mem_cons.mp h
      · exact List.forall_mem_cons.mpr ⟨hd, ih List.mem_cons_self⟩
      · exact ih (List.mem_cons_of_mem first h)

/-- What stands between breaks is, apart from what is blank, what stands between line feeds after
all breaks have become line feeds. -/
theorem exists_splitOnP (t : Text) : ∃ first later later',
    lines (withLineFeeds isRowBreak t) = first :: later ∧ t.splitOnP isRowBreak = first :: later' ∧
      later.filter (!isVoid ·) = later'.filter (!isVoid ·) := by
  induction t using withLineFeeds.induct with
  | case1 => exact ⟨[], [], [], rfl, rfl, rfl⟩
  | case2 r ih =>
    -- the line feed after a carriage return is a break of its own, with nothing before it
    obtain ⟨first, later, later', hlines, hcut, hlater⟩ := ih
    refine ⟨[], first :: later, [] :: first :: later', ?_, ?_, ?_⟩
    · rw [withLineFeeds, lines, pieces_sep, ← lines, hlines]
    · rw [List.splitOnP_cons_eq_if_modifyHead, if_pos (by decide),
        List.splitOnP_cons_eq_if_modifyHead, if_pos (by decide), hcut]
    · have hnil : isVoid [] = true := rfl
      simp [List.filter_cons, hnil, hlater]
  | case3 c r hpair ih =>
    obtain ⟨first, later, later', hlines, hcut, hlater⟩ := ih
    rw [withLineFeeds.eq_3 _ _ _ hpair, List.splitOnP_cons_eq_if_modifyHead, hcut]
    cases hc : isRowBreak c with
    | true =>
      refine ⟨[], first :: later, first :: later', ?_, rfl, ?_⟩
      · rw [if_pos rfl, lines, pieces_sep, ← lines, hlines]
      · simp [List.filter_cons, hlater]
    | false =>
      have hne : c ≠ '\n' := by
        rintro rfl
        cases hc
      refine ⟨c :: first, later, later', ?_, rfl, hlater⟩
      exact pieces_cons hne hlines

theorem filter_rows (t : Text) :
    (rows t).filter (!isVoid ·) = (t.splitOnP isRowBreak).filter (!isVoid ·) := by
  obtain ⟨first, later, later', hlines, hcut, hlater⟩ := exists_splitOnP t
  have hfilter : (lines (withLineFeeds isRowBreak t)).filter (!isVoid ·) =
      (t.splitOnP isRowBreak).filter (!isVoid ·) := by
    rw [hlines, hcut, List.filter_cons, List.filter_cons, hlater]
  rw [← hfilter, rows]
  split
  next hlast =>
    obtain ⟨ls, hls⟩ := List.getLast?_eq_some_iff.mp hlast
    simp [hls, isVoid]
  next => rfl

end MarkdownFences.Text
