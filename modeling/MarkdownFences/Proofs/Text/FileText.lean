import MarkdownFences.Proofs.Text.Lines
import MarkdownFences.Tally
import MarkdownFences.Text.Blank

namespace MarkdownFences.Text

def chomp (l : Text) : Text := if l.getLast? = some '\r' then l.dropLast else l

def PlainLines (ls : List Text) : Prop := ∀ l ∈ ls, '\r' ∉ chomp l

/-- The first lines of a text, so many, are plain. -/
def IsPlainTo (n : Nat) (t : Text) : Prop := PlainLines ((lines t).take n)

theorem chomp_of_not_mem {l : Text} (h : '\r' ∉ l) : chomp l = l :=
  if_neg fun hl => h (List.mem_of_getLast? hl)

theorem chomp_concat (l : Text) : chomp (l ++ ['\r']) = l := by
  simp [chomp]

theorem chomp_cases (l : Text) :
    chomp l = l ∧ l.getLast? ≠ some '\r' ∨ l = chomp l ++ ['\r'] ∧ l.getLast? = some '\r' := by
  by_cases h : l.getLast? = some '\r'
  · obtain ⟨r, rfl⟩ := List.getLast?_eq_some_iff.mp h
    exact .inr ⟨by rw [chomp_concat], h⟩
  · exact .inl ⟨if_neg h, h⟩

theorem chomp_isPrefix (l : Text) : chomp l <+: l := by
  obtain ⟨h, -⟩ | ⟨h, -⟩ := chomp_cases l
  · exact ⟨[], by rw [List.append_nil, h]⟩
  · exact ⟨_, h.symm⟩

section FileText

variable {l p t : Text} {ls rest : List Text}

theorem ofFileText_cons {c : Char} (hc : c ≠ '\r') (t : Text) :
    ofFileText (c :: t) = c :: ofFileText t := by
  rw [ofFileText, ofFileText, withLineFeeds]
  · simp [hc]
  · rintro r rfl -
    exact hc rfl

theorem ofFileText_append (h : '\r' ∉ p) (t : Text) : ofFileText (p ++ t) = p ++ ofFileText t := by
  induction p with
  | nil => rfl
  | cons c p ih =>
    rw [List.cons_append, ofFileText_cons (Ne.symm (List.ne_of_not_mem_cons h)),
      ih (List.not_mem_of_not_mem_cons h), List.cons_append]

theorem ofFileText_eq_self (h : '\r' ∉ t) : ofFileText t = t := by
  have ht := ofFileText_append h []
  have hnil : ofFileText [] = [] := rfl
  rwa [List.append_nil, hnil, List.append_nil] at ht

theorem ofFileText_line (h : '\r' ∉ chomp l) (t : Text) :
    ofFileText (l ++ '\n' :: t) = chomp l ++ '\n' :: ofFileText t := by
  have hlf : ofFileText ('\n' :: t) = '\n' :: ofFileText t := ofFileText_cons (by decide) t
  obtain ⟨hl, -⟩ | ⟨hl, -⟩ := chomp_cases l
  · rw [hl] at h ⊢
    rw [ofFileText_append h, hlf]
  · calc ofFileText (l ++ '\n' :: t) = ofFileText (chomp l ++ '\r' :: '\n' :: t) := by
          rw [hl, chomp_concat, List.append_assoc]
          rfl
      _ = chomp l ++ '\n' :: ofFileText t := ofFileText_append h _

theorem not_mem_chomp (h : '\n' ∉ l) : '\n' ∉ chomp l := fun hm => h ((chomp_isPrefix l).subset hm)

theorem lines_ofFileText_cons (hn : '\n' ∉ l) (hr : '\r' ∉ chomp l) (hne : rest ≠ []) :
    lines (ofFileText (unlines (l :: rest))) = chomp l :: lines (ofFileText (unlines rest)) := by
  rw [unlines, joined_cons_ne_nil l hne, ofFileText_line hr]
  exact pieces_append (not_mem_chomp hn) _

def extra (l : Text) : List Text := if l.getLast? = some '\r' then [[]] else []

theorem lines_ofFileText_last (hn : '\n' ∉ l) (hr : '\r' ∉ chomp l) :
    lines (ofFileText l) = chomp l :: extra l := by
  obtain ⟨hl, he⟩ | ⟨hl, he⟩ := chomp_cases l
  · rw [hl] at hr ⊢
    rw [ofFileText_eq_self hr, extra, if_neg he]
    exact pieces_of_not_mem hn
  · rw [extra, if_pos he]
    calc lines (ofFileText l) = lines (chomp l ++ ['\n']) := by
          rw [hl, chomp_concat, ofFileText_append hr]
          rfl
      _ = chomp l :: [[]] := pieces_append (not_mem_chomp hn) []

theorem lines_ofFileText_append (hn : ∀ l ∈ ls, '\n' ∉ l) (hr : PlainLines ls) (hne : rest ≠ []) :
    lines (ofFileText (unlines (ls ++ rest))) =
      ls.map chomp ++ lines (ofFileText (unlines rest)) := by
  induction ls with
  | nil => rfl
  | cons l ls ih =>
    obtain ⟨hnl, hn⟩ := List.forall_mem_cons.mp hn
    obtain ⟨hrl, hr⟩ := List.forall_mem_cons.mp hr
    rw [List.cons_append, lines_ofFileText_cons hnl hrl (List.append_ne_nil_of_right_ne_nil ls hne),
      ih hn hr, List.map_cons, List.cons_append]

theorem lines_ofFileText_concat (hn : ∀ x ∈ ls ++ [l], '\n' ∉ x) (hr : PlainLines (ls ++ [l])) :
    lines (ofFileText (unlines (ls ++ [l]))) = (ls ++ [l]).map chomp ++ extra l := by
  obtain ⟨hn, hnl⟩ := List.forall_mem_append.mp hn
  obtain ⟨hr, hrl⟩ := List.forall_mem_append.mp hr
  have hlast : unlines [l] = l := rfl
  rw [lines_ofFileText_append hn hr (List.cons_ne_nil l []), hlast,
    lines_ofFileText_last (hnl l List.mem_cons_self) (hrl l List.mem_cons_self), List.map_append]
  simp

end FileText

section Numbering

variable {l t : Text} {ls rest : List Text} {i : Nat}

/-- As how many lines a line is read that a line feed ends. -/
def readCount (l : Text) : Nat := (chomp l).count '\r' + 1

/-- The number of the line as which a line of a text is read. -/
def readAs (t : Text) (i : Nat) : Nat := tally readCount ((lines t).take i)

theorem chomp_cons {c : Char} (h : c ≠ '\r' ∨ l ≠ []) : chomp (c :: l) = c :: chomp l := by
  cases l with
  | nil => simp [chomp, h.resolve_right (fun hne => hne rfl)]
  | cons d l =>
    rw [chomp, chomp, List.getLast?_cons_cons, List.dropLast_cons_cons]
    split <;> rfl

theorem drop_lines_line (hn : '\n' ∉ l) (t : Text) :
    (lines (ofFileText (l ++ '\n' :: t))).drop (readCount l) = lines (ofFileText t) := by
  have hlf : (lines (ofFileText ('\n' :: t))).drop 1 = lines (ofFileText t) := by
    rw [ofFileText_cons (by decide), lines, pieces_sep]
    rfl
  induction l with
  | nil => exact hlf
  | cons c l ih =>
    have ih := ih (List.not_mem_of_not_mem_cons hn)
    by_cases hcr : c = '\r'
    · subst hcr
      cases l with
      | nil => exact hlf
      | cons d l =>
        -- no line feed comes right after it, so that it ends a line by itself
        have hd : ofFileText ('\r' :: (d :: l ++ '\n' :: t)) =
            '\n' :: ofFileText (d :: l ++ '\n' :: t) := by
          rw [ofFileText, ofFileText, List.cons_append, withLineFeeds]
          · rfl
          · rintro r - hr
            exact hn (by simp [(List.cons.inj hr).1])
        rw [List.cons_append, hd, lines, pieces_sep, readCount,
          chomp_cons (.inr (List.cons_ne_nil d l)), List.count_cons_self]
        exact ih
    · obtain ⟨p, ps, hp⟩ := List.exists_cons_of_ne_nil (lines_ne_nil (ofFileText (l ++ '\n' :: t)))
      have hc : c ≠ '\n' := Ne.symm (List.ne_of_not_mem_cons hn)
      rw [readCount, hp] at ih
      rw [List.cons_append, ofFileText_cons hcr, lines, pieces_cons hc hp, readCount,
        chomp_cons (.inl hcr), List.count_cons_of_ne hcr]
      exact ih

theorem drop_lines_ofFileText (hn : ∀ l ∈ ls, '\n' ∉ l) (hne : rest ≠ []) :
    (lines (ofFileText (unlines (ls ++ rest)))).drop (tally readCount ls) =
      lines (ofFileText (unlines rest)) := by
  induction ls with
  | nil => rfl
  | cons l ls ih =>
    obtain ⟨hnl, hn⟩ := List.forall_mem_cons.mp hn
    rw [List.cons_append, unlines, joined_cons_ne_nil l (List.append_ne_nil_of_right_ne_nil ls hne),
      tally, ← List.drop_drop, drop_lines_line hnl]
    exact ih hn

theorem drop_readAs (hi : i < (lines t).length) :
    (lines (ofFileText t)).drop (readAs t i) =
      lines (ofFileText (unlines ((lines t).drop i))) := by
  have hn : ∀ l ∈ (lines t).take i, '\n' ∉ l :=
    fun l hl => not_mem_of_mem_lines (List.mem_of_mem_take hl)
  have hne : (lines t).drop i ≠ [] := by
    rw [Ne, List.drop_eq_nil_iff, Nat.not_le]
    exact hi
  have hdrop := drop_lines_ofFileText hn hne
  rwa [List.take_append_drop, unlines_lines] at hdrop

theorem length_le_tally (ls : List Text) :
    ls.length ≤ tally readCount ls ∧ (tally readCount ls = ls.length ↔ PlainLines ls) := by
  induction ls with
  | nil => exact ⟨Nat.le_refl _, fun _ => nofun, fun _ => rfl⟩
  | cons l ls ih =>
    obtain ⟨hle, heq⟩ := ih
    have hplain : PlainLines (l :: ls) ↔ '\r' ∉ chomp l ∧ PlainLines ls := List.forall_mem_cons
    rw [hplain, ← heq, ← List.count_eq_zero, tally, List.length_cons, readCount]
    omega

/-- A line is read as the line of its number exactly if the lines before it are plain. -/
theorem readAs_eq_iff (hi : i ≤ (lines t).length) : readAs t i = i ↔ IsPlainTo i t := by
  have heq := (length_le_tally ((lines t).take i)).2
  rwa [List.length_take_of_le hi] at heq

end Numbering

end MarkdownFences.Text
