import MarkdownFences.Text.Basic

namespace MarkdownFences.Text

variable {sep : Char}

theorem pieces_ne_nil (t : Text) : pieces sep t ≠ [] := by
  cases t with
  | nil => simp [pieces]
  | cons c r =>
    rw [pieces]
    split
    · simp
    · split <;> simp

theorem pieces_sep (t : Text) : pieces sep (sep :: t) = [] :: pieces sep t := by
  rw [pieces, if_pos rfl]

theorem pieces_cons {c : Char} (hc : c ≠ sep) {t p : Text} {ps : List Text}
    (h : pieces sep t = p :: ps) : pieces sep (c :: t) = (c :: p) :: ps := by
  rw [pieces, if_neg hc, h]

theorem joined_cons_ne_nil (p : Text) {ps : List Text} (h : ps ≠ []) :
    joined sep (p :: ps) = p ++ sep :: joined sep ps := by
  cases ps with
  | nil => exact absurd rfl h
  | cons q ps => rfl

theorem joined_cons_cons (c : Char) (p : Text) (ps : List Text) :
    joined sep ((c :: p) :: ps) = c :: joined sep (p :: ps) := by
  cases ps <;> rfl

theorem joined_pieces (t : Text) : joined sep (pieces sep t) = t := by
  induction t with
  | nil => rfl
  | cons c r ih =>
    by_cases hc : c = sep
    · subst hc
      rw [pieces_sep, joined_cons_ne_nil [] (pieces_ne_nil r), ih]
      rfl
    · have hne : pieces sep r ≠ [] := pieces_ne_nil r
      obtain ⟨p, ps, hp⟩ := List.exists_cons_of_ne_nil hne
      rw [pieces_cons hc hp, joined_cons_cons, ← hp, ih]

theorem pieces_inj {s t : Text} (h : pieces sep s = pieces sep t) : s = t :=
  calc s
    _ = joined sep (pieces sep s) := (joined_pieces s).symm
    _ = t := by rw [h, joined_pieces]

theorem not_mem_of_mem_pieces {t p : Text} (h : p ∈ pieces sep t) : sep ∉ p := by
  induction t generalizing p with
  | nil =>
    rw [pieces, List.mem_singleton] at h
    simp [h]
  | cons c r ih =>
    by_cases hc : c = sep
    · subst hc
      rw [pieces_sep] at h
      obtain rfl | hp := List.mem_cons.mp h
      · simp
      · exact ih hp
    · have hne : pieces sep r ≠ [] := pieces_ne_nil r
      obtain ⟨q, qs, hq⟩ := List.exists_cons_of_ne_nil hne
      rw [pieces_cons hc hq] at h
      obtain rfl | hp := List.mem_cons.mp h
      · have hn := ih (hq ▸ List.mem_cons_self)
        simp [hn, Ne.symm hc]
      · exact ih (hq ▸ List.mem_cons_of_mem q hp)

theorem pieces_of_not_mem {p : Text} (h : sep ∉ p) : pieces sep p = [p] := by
  induction p with
  | nil => rfl
  | cons c r ih =>
    have hc : c ≠ sep := Ne.symm (List.ne_of_not_mem_cons h)
    exact pieces_cons hc (ih (List.not_mem_of_not_mem_cons h))

theorem pieces_append {p : Text} (h : sep ∉ p) (t : Text) :
    pieces sep (p ++ sep :: t) = p :: pieces sep t := by
  induction p with
  | nil => exact pieces_sep t
  | cons c r ih =>
    have hc : c ≠ sep := Ne.symm (List.ne_of_not_mem_cons h)
    exact pieces_cons hc (ih (List.not_mem_of_not_mem_cons h))

theorem pieces_joined {ps : List Text} (hne : ps ≠ []) (h : ∀ p ∈ ps, sep ∉ p) :
    pieces sep (joined sep ps) = ps := by
  induction ps with
  | nil => exact absurd rfl hne
  | cons p ps ih =>
    have hp := h p List.mem_cons_self
    by_cases hps : ps = []
    · subst hps
      exact pieces_of_not_mem hp
    · rw [joined_cons_ne_nil p hps, pieces_append hp,
        ih hps fun q hq => h q (List.mem_cons_of_mem p hq)]

theorem mem_joined {c : Char} (hc : c ≠ sep) {ps : List Text} :
    c ∈ joined sep ps ↔ ∃ p ∈ ps, c ∈ p := by
  induction ps with
  | nil => simp [joined]
  | cons p ps ih =>
    cases ps with
    | nil => simp [joined]
    | cons q ps => simp [joined, ih, hc]

theorem unlines_lines (t : Text) : unlines (lines t) = t := joined_pieces t

theorem lines_unlines {ls : List Text} (hne : ls ≠ []) (h : ∀ l ∈ ls, '\n' ∉ l) :
    lines (unlines ls) = ls :=
  pieces_joined hne h

theorem not_mem_of_mem_lines {t l : Text} (h : l ∈ lines t) : '\n' ∉ l := not_mem_of_mem_pieces h

theorem lines_ne_nil (t : Text) : lines t ≠ [] := pieces_ne_nil t

theorem lines_cons {c : Char} (hc : c ≠ '\n') (t : Text) :
    ∃ first later, lines t = first :: later ∧ lines (c :: t) = (c :: first) :: later := by
  obtain ⟨first, later, h⟩ := List.exists_cons_of_ne_nil (lines_ne_nil t)
  exact ⟨first, later, h, pieces_cons hc h⟩

theorem lines_eq_firstLine_cons (t : Text) : lines t = firstLine t :: (lines t).tail := by
  induction t with
  | nil => rfl
  | cons c t ih =>
    by_cases hc : c = '\n'
    · subst hc
      rw [lines, pieces_sep, firstLine, List.takeWhile_cons_of_neg (by simp), List.tail_cons]
    · obtain ⟨first, later, ht, hct⟩ := lines_cons hc t
      rw [ht, List.tail_cons, List.cons.injEq] at ih
      rw [hct, firstLine, List.takeWhile_cons_of_pos (by simpa using hc), ← firstLine, ← ih.1,
        List.tail_cons]

theorem firstLine_of_lines {t l : Text} {ls : List Text} (h : lines t = l :: ls) :
    firstLine t = l :=
  (List.cons.inj ((lines_eq_firstLine_cons t).symm.trans h)).1

theorem firstLine_append_newline {l : Text} (h : '\n' ∉ l) (t : Text) :
    firstLine (l ++ '\n' :: t) = l :=
  firstLine_of_lines (pieces_append h t)

theorem firstLine_of_not_mem {l : Text} (h : '\n' ∉ l) : firstLine l = l :=
  firstLine_of_lines (pieces_of_not_mem h)

end MarkdownFences.Text
