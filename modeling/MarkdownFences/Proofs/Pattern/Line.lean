import MarkdownFences.Proofs.Pattern.Padding

namespace MarkdownFences.Text

theorem firstLine_append {s : Text} (h : '\n' ∉ s) (t : Text) :
    firstLine (s ++ t) = s ++ firstLine t :=
  List.takeWhile_append_of_pos fun c hc => by simpa using fun hn : c = '\n' => h (hn ▸ hc)

theorem not_mem_firstLine (t : Text) : '\n' ∉ firstLine t := fun h => by
  simpa using List.all_eq_true.mp List.all_takeWhile '\n' h

theorem firstLine_firstLine (t : Text) : firstLine (firstLine t) = firstLine t :=
  firstLine_of_not_mem (not_mem_firstLine t)

theorem exists_firstLine (t : Text) : ∃ r, t = firstLine t ++ r :=
  ⟨t.dropWhile (· != '\n'), List.takeWhile_append_dropWhile.symm⟩

namespace Pattern

variable {p q : Pattern} {ps : List Pattern} {back back' : Option Char}
variable {s t part rest rest' : Text}

theorem isWord_head?_firstLine (t : Text) : isWord (firstLine t).head? = isWord t.head? := by
  have h := isWord_head?_append_of (isWord_head?_dropWhile t) (firstLine t)
  rw [firstLine, List.takeWhile_append_dropWhile] at h
  exact h.symm

/-- A pattern that stays on its line: it reads no line feed, and sees nothing from the next one on.
Of what stands before it sees at most whether a word character is there. -/
structure InLine (p : Pattern) : Prop where
  back : LooseBehind p
  newline {back : Option Char} {part rest : Text} (hp : p.Reads back part rest) : '\n' ∉ part
  line {back : Option Char} {part rest rest' : Text} (h : firstLine rest = firstLine rest')
    (hp : p.Reads back part rest) : p.Reads back part rest'

theorem Loose.inLine (hp : Loose p)
    (hline : ∀ {back part rest}, p.Reads back part rest → '\n' ∉ part) : InLine p where
  back := hp.back
  newline := hline
  line {_ _ rest rest'} h := hp.rest <|
    calc isWord rest.head?
      _ = isWord (firstLine rest').head? := by rw [← h, isWord_head?_firstLine]
      _ = isWord rest'.head? := isWord_head?_firstLine rest'

theorem inLine_empty : InLine empty := by
  refine loose_empty.inLine ?_
  rintro back part rest rfl
  exact List.not_mem_nil

theorem inLine_one {accepts : Char → Bool} (h : accepts '\n' = false) : InLine (one accepts) := by
  refine (loose_one accepts).inLine ?_
  rintro back part rest ⟨c, rfl, hc⟩ hn
  obtain rfl := List.mem_singleton.mp hn
  cases h.symm.trans hc

theorem inLine_wordEdge : InLine wordEdge := by
  refine loose_wordEdge.inLine ?_
  rintro back part rest ⟨rfl, -⟩
  exact List.not_mem_nil

theorem inLine_words {ss : List String} (h : ∀ s ∈ ss, '\n' ∉ s.toList) : InLine (words ss) := by
  refine (loose_words ss).inLine fun hp => ?_
  obtain ⟨s, hs, rfl⟩ := reads_words.mp hp
  exact h s hs

theorem firstLine_append_congr (hs : '\n' ∉ s) (h : firstLine rest = firstLine rest') :
    firstLine (s ++ rest) = firstLine (s ++ rest') := by
  rw [firstLine_append hs, firstLine_append hs, h]

theorem InLine.seq (hp : InLine p) (hq : InLine q) : InLine (.seq p q) where
  back := hp.back.seq hq.back
  newline := by
    rintro back part rest ⟨v, w, rfl, hv, hw⟩
    exact List.not_mem_append (hp.newline hv) (hq.newline hw)
  line := by
    rintro back part rest rest' h ⟨v, w, rfl, hv, hw⟩
    exact ⟨v, w, rfl, hp.line (firstLine_append_congr (hq.newline hw) h) hv, hq.line h hw⟩

theorem InLine.alt (hp : InLine p) (hq : InLine q) : InLine (.alt p q) where
  back _ _ _ _ h := Or.imp (hp.back h) (hq.back h)
  newline := Or.rec hp.newline hq.newline
  line h := Or.imp (hp.line h) (hq.line h)

theorem InLine.many (hp : InLine p) : InLine (many p) where
  back := hp.back.many
  newline := by
    intro back part rest hrow
    induction hrow with
    | nil => exact List.not_mem_nil
    | cons _ hpart _ ih => exact List.not_mem_append (hp.newline hpart) ih
  line := by
    intro back part rest rest' h hrow
    suffices hrest : '\n' ∉ part ∧ (Pattern.many p).Reads back part rest' from hrest.2
    induction hrow with
    | nil back rest => exact ⟨List.not_mem_nil, .nil back rest'⟩
    | cons hne hpart _ ih =>
      obtain ⟨hmore, hrow⟩ := ih h
      exact ⟨List.not_mem_append (hp.newline hpart) hmore,
        .cons hne (hp.line (firstLine_append_congr hmore h) hpart) hrow⟩

theorem InLine.exists_reads (hp : InLine p) (h : firstLine s = firstLine t)
    (hs : ∃ part rest, s = part ++ rest ∧ p.Reads back part rest) :
    ∃ part rest, t = part ++ rest ∧ p.Reads back part rest := by
  obtain ⟨part, rest, rfl, hr⟩ := hs
  obtain ⟨r, ht⟩ := exists_firstLine t
  rw [← h, firstLine_append (hp.newline hr), List.append_assoc] at ht
  refine ⟨part, firstLine rest ++ r, ht, hp.line ?_ hr⟩
  rw [ht, firstLine_append (hp.newline hr), firstLine_append (hp.newline hr)] at h
  exact List.append_cancel_left h

theorem InLine.notAhead (hp : InLine p) : InLine (notAhead p) where
  back := by
    rintro back back' part rest h ⟨rfl, hnot⟩
    exact ⟨rfl, fun ⟨v, w, hrest, hv⟩ => hnot ⟨v, w, hrest, hp.back h.symm hv⟩⟩
  newline := by
    rintro back part rest ⟨rfl, -⟩
    exact List.not_mem_nil
  line := by
    rintro back part rest rest' h ⟨rfl, hnot⟩
    exact ⟨rfl, fun hr => hnot (hp.exists_reads h.symm hr)⟩

theorem inLine_sequence (h : ∀ p ∈ ps, InLine p) : InLine (sequence ps) := by
  induction ps with
  | nil => exact inLine_empty
  | cons p ps ih =>
    have hp := h p List.mem_cons_self
    cases ps with
    | nil => exact hp
    | cons q ps => exact hp.seq (ih fun r hr => h r (List.mem_cons_of_mem p hr))

theorem InLine.matchAt_lineStart (hp : InLine p) :
    (matchAt (.seq lineStart p) ⟨back, t⟩ some).isSome = true ↔
      (back = none ∨ back = some '\n') ∧ p.startsText (firstLine t) = true := by
  have hback (h : back = none ∨ back = some '\n') : isWord back = isWord none := by
    obtain rfl | rfl := h
    · rfl
    · exact isWord_of_isBlank rfl
  rw [matchAt_iff, startsText_iff]
  constructor
  · rintro ⟨part, rest, rfl, v, w, rfl, ⟨rfl, hv⟩, hw⟩
    have hstart : back = none ∨ back = some '\n' := by simpa [Place.atLineStart] using hv
    exact ⟨hstart, hp.exists_reads (firstLine_firstLine _).symm
      ⟨w, rest, rfl, hp.back (hback hstart) hw⟩⟩
  · rintro ⟨hstart, hline⟩
    obtain ⟨part, rest, rfl, hr⟩ := hp.exists_reads (firstLine_firstLine t) hline
    refine ⟨part, rest, rfl, [], part, rfl, ⟨rfl, ?_⟩, hp.back (hback hstart).symm hr⟩
    simpa [Place.atLineStart] using hstart

theorem InLine.searchFrom_lineStart (hp : InLine p) (back : Option Char) (t : Text) :
    (searchFrom (.seq lineStart p) back t).isSome = true ↔
      (back = none ∨ back = some '\n') ∧ p.startsText (firstLine t) = true ∨
        ∃ l ∈ (lines t).tail, p.startsText l = true := by
  induction t generalizing back with
  | nil =>
    rw [searchFrom, hp.matchAt_lineStart]
    simp [lines, pieces]
  | cons c t ih =>
    rw [isSome_searchFrom, Bool.or_eq_true, hp.matchAt_lineStart]
    refine (or_congr_right (ih (some c))).trans (or_congr_right ?_)
    by_cases hc : c = '\n'
    · subst hc
      have hlines : (lines ('\n' :: t)).tail = firstLine t :: (lines t).tail := by
        rw [lines, pieces_sep, List.tail_cons, ← lines, ← lines_eq_firstLine_cons]
      simp [hlines]
    · obtain ⟨first, later, ht, hct⟩ := lines_cons hc t
      simp [ht, hct, hc]

theorem InLine.occursIn_lineStart (hp : InLine p) (t : Text) :
    (Pattern.seq lineStart p).occursIn t = (lines t).any p.startsText := by
  rw [Bool.eq_iff_iff, occursIn, hp.searchFrom_lineStart, lines_eq_firstLine_cons]
  simp

end Pattern

end MarkdownFences.Text
