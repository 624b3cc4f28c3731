import MarkdownFences.Fence.Opening
import MarkdownFences.Proofs.Text.Trim

namespace MarkdownFences.Fence

open Text

/-- What a fence can declare. -/
def IsTag (t : Text) : Prop := leadingTag t = some t

theorem isBlank_of_isTagChar {c : Char} (h : isTagChar c = true) : isBlank c = false := by
  obtain hw | hs := Bool.or_eq_true _ _ ▸ h
  · exact isBlank_of_isWordChar hw
  · simp only [List.contains_eq_mem, List.mem_cons, List.not_mem_nil, or_false,
      decide_eq_true_eq] at hs
    obtain rfl | rfl | rfl | rfl := hs <;> rfl

theorem isBlank_of_isIndent {c : Char} (h : isIndent c = true) : isBlank c = true := by
  simp only [isIndent, Bool.or_eq_true, beq_iff_eq] at h
  obtain rfl | rfl := h <;> rfl

theorem isTagChar_of_isWordChar {c : Char} (h : isWordChar c = true) : isTagChar c = true := by
  simp [isTagChar, h]

theorem IsTag.exists_cons {t : Text} (h : IsTag t) :
    ∃ c r, t = c :: r ∧ isWordChar c = true ∧ ∀ x ∈ r, isTagChar x = true := by
  cases t with
  | nil => cases h
  | cons c r =>
    simp only [IsTag, leadingTag, Option.ite_none_right_eq_some, Option.some.injEq,
      List.cons.injEq, true_and] at h
    obtain ⟨hc, hr⟩ := h
    have ha := List.all_takeWhile (l := r) (p := isTagChar)
    rw [hr, List.all_eq_true] at ha
    exact ⟨c, r, rfl, hc, ha⟩

theorem IsTag.isTagChar {t : Text} (h : IsTag t) {c : Char} (hc : c ∈ t) : isTagChar c = true := by
  obtain ⟨d, r, rfl, hd, hr⟩ := h.exists_cons
  obtain rfl | hc := List.mem_cons.mp hc
  · exact isTagChar_of_isWordChar hd
  · exact hr c hc

theorem IsTag.isBlank {t : Text} (h : IsTag t) {c : Char} (hc : c ∈ t) : isBlank c = false :=
  isBlank_of_isTagChar (h.isTagChar hc)

def IsApart (t : Text) : Prop := ∀ c, t.head? = some c → isBlank c = true

theorem isApart_spaced (t : Text) : IsApart (Opening.spaced t) := by
  cases t with
  | nil => simp [IsApart, Opening.spaced]
  | cons c r =>
    rw [Opening.spaced]
    split
    · simpa [IsApart]
    · simp [IsApart]
      rfl

theorem IsApart.of_isPrefix {s t : Text} (h : IsApart t) (hp : s <+: t) : IsApart s := by
  obtain ⟨r, rfl⟩ := hp
  intro c hc
  apply h c
  rw [List.head?_append, hc]
  rfl

theorem leadingTag_append {t r : Text} (ht : IsTag t) (hr : IsApart r) :
    leadingTag (t ++ r) = some t := by
  obtain ⟨c, s, rfl, hc, hs⟩ := ht.exists_cons
  have hnil : r.takeWhile isTagChar = [] := by
    cases r with
    | nil => rfl
    | cons d r =>
      apply List.takeWhile_cons_of_neg
      intro hd
      have hb := hr d rfl
      rw [isBlank_of_isTagChar hd] at hb
      cases hb
  rw [List.cons_append, leadingTag, if_pos hc, List.takeWhile_append_of_pos hs, hnil,
    List.append_nil]

/-- The line that a tag and what follows it make, without what surrounds them. -/
def marked (tag rest : Text) : Text := mark ++ tag ++ trimRight (Opening.spaced rest)

theorem isApart_ending (rest : Text) : IsApart (trimRight (Opening.spaced rest)) :=
  (isApart_spaced rest).of_isPrefix (dropEnding_isPrefix isBlank _)

theorem trimRight_marked {tag : Text} (h : IsTag tag) (rest : Text) :
    trimRight (marked tag rest) = marked tag rest := by
  apply trimRight_eq_self
  intro c hc
  rw [marked, List.getLast?_append, Option.or_eq_some_iff] at hc
  obtain hc | ⟨-, hc⟩ := hc
  · exact of_getLast?_dropEnding hc
  · rw [List.getLast?_append, Option.or_eq_some_iff] at hc
    obtain hc | ⟨hn, -⟩ := hc
    · exact h.isBlank (List.mem_of_getLast? hc)
    · obtain ⟨d, r, rfl, -⟩ := h.exists_cons
      simp at hn

theorem trim_surrounded {tag : Text} (h : IsTag tag) (rest : Text) {front back : Text}
    (hf : ∀ c ∈ front, isBlank c = true) (hb : ∀ c ∈ back, isBlank c = true) :
    trim (front ++ marked tag rest ++ back) = marked tag rest := by
  have hl : trimLeft (marked tag rest ++ back) = marked tag rest ++ back :=
    trimLeft_cons not_isBlank_tick _
  rw [trim, List.append_assoc, trimLeft_append hf, hl, trimRight, dropEnding_append hb]
  exact trimRight_marked h rest

theorem isQuad_marked {tag : Text} (h : IsTag tag) (rest : Text) :
    isQuad (marked tag rest) = false := by
  obtain ⟨c, r, rfl, hc, -⟩ := h.exists_cons
  have hne : tick ≠ c := by
    rintro rfl
    cases hc
  simp [isQuad, marked, quadMark, mark, List.replicate, List.isPrefixOf, hne]

theorem isFence_marked {tag : Text} (h : IsTag tag) (rest : Text) :
    isFence (marked tag rest) = true := by
  rw [isFence, isQuad_marked h]
  simp [marked, mark, List.replicate]

theorem tag_marked {t : Text} (h : IsTag t) (rest : Text) : tag (marked t rest) = some t := by
  have hd : (marked t rest).drop mark.length = t ++ trimRight (Opening.spaced rest) := by
    rw [marked, List.append_assoc]
    exact List.drop_left
  have hp : mark.isPrefixOf (marked t rest) = true := by
    simp [marked, List.append_assoc]
  obtain ⟨c, r, ht, hc, -⟩ := h.exists_cons
  rw [tag, if_pos hp, hd, ht, List.cons_append, trimLeft_cons (isBlank_of_isWordChar hc),
    ← List.cons_append, ← ht, leadingTag_append h (isApart_ending rest)]

theorem leadingTag_isPrefix (t : Text) : (leadingTag t).getD [] <+: t := by
  cases t with
  | nil => exact List.prefix_refl _
  | cons c r =>
    rw [leadingTag]
    split
    · exact List.cons_prefix_cons.mpr ⟨rfl, List.takeWhile_prefix _⟩
    · exact List.nil_prefix

namespace Opening

/-- The carriage return at the end of a line, if it has one. -/
def lineEnd (o : Opening) : Text := if o.carriageReturn then ['\r'] else []

theorem ending?_eq_some {t r : Text} {cr : Bool} (h : ending? t = some (r, cr)) :
    '\n' ∉ r ∧ (cr = false → r.getLast? ≠ some '\r') ∧
      ∃ feed, (feed = [] ∨ feed = ['\n']) ∧ t = r ++ (if cr then ['\r'] else []) ++ feed := by
  obtain ⟨s, feed, hs, hfeed, ht⟩ : ∃ s feed,
      (if t.getLast? = some '\n' then t.dropLast else t) = s ∧
      (feed = [] ∨ feed = ['\n']) ∧ t = s ++ feed := by
    split
    case isTrue hl =>
      obtain ⟨s, rfl⟩ := List.getLast?_eq_some_iff.mp hl
      exact ⟨s, ['\n'], List.dropLast_concat, .inr rfl, rfl⟩
    case isFalse => exact ⟨t, [], rfl, .inl rfl, (List.append_nil t).symm⟩
  simp only [ending?, hs] at h
  split at h
  case isTrue => cases h
  case isFalse hc =>
    have hn : '\n' ∉ s := by simpa using hc
    split at h
    case isTrue hr =>
      obtain ⟨rfl, rfl⟩ := Prod.mk.inj (Option.some.inj h)
      obtain ⟨s, rfl⟩ := List.getLast?_eq_some_iff.mp hr
      rw [List.dropLast_concat]
      exact ⟨fun hm => hn (List.mem_append_left _ hm), nofun, feed, hfeed, ht⟩
    case isFalse hr =>
      obtain ⟨rfl, rfl⟩ := Prod.mk.inj (Option.some.inj h)
      refine ⟨hn, fun _ => hr, feed, hfeed, ?_⟩
      rw [ht]
      simp

/-- The parts that are read off a line make it up, with a gap of spaces and tabs before the tag. A
line feed at the very end is none of them. -/
theorem ofLine?_parts {line : Text} {o : Opening} (h : ofLine? line = some o) :
    o.indent = line.takeWhile isIndent ∧ '\n' ∉ o.rest ∧
      (o.carriageReturn = false → o.rest.getLast? ≠ some '\r') ∧
      ∃ gap feed, (∀ c ∈ gap, isIndent c = true) ∧ (feed = [] ∨ feed = ['\n']) ∧
        line = o.indent ++ mark ++ gap ++ o.tag.getD [] ++ o.rest ++ o.lineEnd ++ feed := by
  simp only [ofLine?] at h
  generalize hi : line.takeWhile isIndent = indent at h
  have hline : line = indent ++ line.drop indent.length :=
    (List.prefix_iff_eq_append.mp (hi ▸ List.takeWhile_prefix _)).symm
  generalize line.drop indent.length = marked at h hline
  split at h
  case isFalse => cases h
  case isTrue hm =>
    have hmark : marked = mark ++ marked.drop mark.length :=
      (List.prefix_iff_eq_append.mp (List.isPrefixOf_iff_prefix.mp hm)).symm
    have hgap := List.takeWhile_append_dropWhile (p := isIndent) (l := marked.drop mark.length)
    have hgi := List.all_takeWhile (p := isIndent) (l := marked.drop mark.length)
    generalize (marked.drop mark.length).takeWhile isIndent = gap at hgap hgi
    generalize (marked.drop mark.length).dropWhile isIndent = tagged at h hgap
    have htag : tagged =
        (leadingTag tagged).getD [] ++ tagged.drop ((leadingTag tagged).getD []).length :=
      (List.prefix_iff_eq_append.mp (leadingTag_isPrefix tagged)).symm
    obtain ⟨⟨rest, cr⟩, he, rfl⟩ := Option.map_eq_some_iff.mp h
    obtain ⟨hn, hcr, feed, hfeed, hr⟩ := ending?_eq_some he
    refine ⟨rfl, hn, hcr, gap, feed, List.all_eq_true.mp hgi, hfeed, ?_⟩
    rw [hr] at htag
    simp only [lineEnd, List.append_assoc] at htag ⊢
    calc line = indent ++ (mark ++ marked.drop mark.length) := hline.trans (congrArg _ hmark)
      _ = indent ++ (mark ++ (gap ++ tagged)) := by rw [hgap]
      _ = _ := congrArg (fun x => indent ++ (mark ++ (gap ++ x))) htag

theorem isIndent_of_mem_indent {line : Text} {o : Opening} (h : ofLine? line = some o) {c : Char}
    (hc : c ∈ o.indent) : isIndent c = true := by
  rw [(ofLine?_parts h).1] at hc
  exact List.all_eq_true.mp List.all_takeWhile c hc

theorem ofLine?_eq_some {line : Text} {o : Opening} (hn : '\n' ∉ line) (h : ofLine? line = some o) :
    (∀ c ∈ o.indent, isIndent c = true) ∧
      (∃ gap, (∀ c ∈ gap, isIndent c = true) ∧
        line = o.indent ++ mark ++ gap ++ o.tag.getD [] ++ o.rest ++ o.lineEnd) ∧
      (o.carriageReturn = false → o.rest.getLast? ≠ some '\r') := by
  obtain ⟨-, -, hcr, gap, feed, hgap, rfl | rfl, hline⟩ := ofLine?_parts h
  · rw [List.append_nil] at hline
    exact ⟨fun c hc => isIndent_of_mem_indent h hc, ⟨gap, hgap, hline⟩, hcr⟩
  · rw [hline] at hn
    exact absurd (List.mem_append_right _ (List.mem_singleton_self _)) hn

theorem write_eq (o : Opening) (t : Text) :
    o.write t = o.indent ++ marked t o.rest ++ o.lineEnd := by
  simp only [write, marked, lineEnd, List.append_assoc]

theorem isBlank_of_mem_lineEnd {o : Opening} {c : Char} (h : c ∈ o.lineEnd) : isBlank c = true := by
  rw [lineEnd] at h
  split at h
  · rw [List.mem_singleton.mp h]
    rfl
  · cases h

theorem ending?_append_lineEnd {o : Opening} {r : Text} (hn : '\n' ∉ r)
    (hr : ∀ c, r.getLast? = some c → isBlank c = false) :
    ending? (r ++ o.lineEnd) = some (r, o.carriageReturn) := by
  have hl : r.getLast? ≠ some '\n' := fun hl => hn (List.mem_of_getLast? hl)
  have hc : r.getLast? ≠ some '\r' := fun hc => by cases hr _ hc
  cases hcr : o.carriageReturn <;> simp [ending?, lineEnd, hcr, hn, hl, hc]

theorem spaced_of_isApart {t : Text} (h : IsApart t) : spaced t = t := by
  cases t with
  | nil => rfl
  | cons c r => rw [spaced, if_pos (h c rfl)]

theorem not_mem_spaced {c : Char} (hc : c ≠ ' ') {t : Text} (h : c ∉ t) : c ∉ spaced t := by
  cases t with
  | nil => exact h
  | cons d r =>
    rw [spaced]
    split
    · exact h
    · exact List.not_mem_cons_of_ne_of_not_mem hc h

theorem not_mem_trimRight_spaced {c : Char} (hc : c ≠ ' ') {t : Text} (h : c ∉ t) :
    c ∉ trimRight (spaced t) :=
  fun hm => not_mem_spaced hc h ((dropEnding_isPrefix isBlank _).subset hm)

theorem ofLine?_write {o : Opening} {t : Text} (hi : ∀ c ∈ o.indent, isIndent c = true)
    (hr : '\n' ∉ o.rest) (ht : IsTag t) :
    ofLine? (o.write t) = some ⟨o.indent, some t, trimRight (spaced o.rest), o.carriageReturn⟩ := by
  have hrest := not_mem_trimRight_spaced (by decide) hr
  have hapart : IsApart (trimRight (spaced o.rest) ++ o.lineEnd) := by
    intro c hc
    rw [List.head?_append, Option.or_eq_some_iff] at hc
    obtain hc | ⟨-, hc⟩ := hc
    · exact isApart_ending o.rest c hc
    · exact isBlank_of_mem_lineEnd (List.mem_of_mem_head? hc)
  have hend := ending?_append_lineEnd (o := o) hrest fun c hc => of_getLast?_dropEnding hc
  obtain ⟨c, r, hcons, hc, -⟩ := ht.exists_cons
  have hgap : (t ++ (trimRight (spaced o.rest) ++ o.lineEnd)).dropWhile isIndent =
      t ++ (trimRight (spaced o.rest) ++ o.lineEnd) := by
    rw [hcons, List.cons_append, List.dropWhile_cons_of_neg]
    intro hci
    have hb := isBlank_of_isIndent hci
    rw [isBlank_of_isWordChar hc] at hb
    cases hb
  have hline : o.write t =
      o.indent ++ (mark ++ (t ++ (trimRight (spaced o.rest) ++ o.lineEnd))) := by
    simp only [write, lineEnd, List.append_assoc]
  have htake : (o.indent ++ (mark ++ (t ++ (trimRight (spaced o.rest) ++ o.lineEnd)))).takeWhile
      isIndent = o.indent := by
    rw [List.takeWhile_append_of_pos hi]
    exact List.append_nil _
  simp only [ofLine?, hline, htake, List.drop_left, hgap, leadingTag_append ht hapart,
    Option.getD_some, hend, Option.map_some, List.isPrefixOf_iff_prefix, List.prefix_append,
    if_true]

theorem trim_write {o : Opening} {t : Text} (hi : ∀ c ∈ o.indent, isIndent c = true)
    (ht : IsTag t) : trim (o.write t) = marked t o.rest := by
  rw [write_eq]
  exact trim_surrounded ht o.rest (fun c hc => isBlank_of_isIndent (hi c hc))
    fun c hc => isBlank_of_mem_lineEnd hc

theorem retag_write {o : Opening} {t : Text} (hi : ∀ c ∈ o.indent, isIndent c = true)
    (hr : '\n' ∉ o.rest) (ht : IsTag t) (u : Text) : retag (o.write t) u = .ok (o.write u) := by
  have htrim : trimRight (trimRight (spaced o.rest)) = trimRight (spaced o.rest) :=
    trimRight_eq_self fun c hc => of_getLast?_dropEnding hc
  rw [retag, ofLine?_write hi hr ht]
  simp only [write, spaced_of_isApart (isApart_ending o.rest), htrim]

end Opening

section Retag

variable {line new t : Text}

theorem retag_eq_ok (h : retag line t = .ok new) :
    ∃ o, Opening.ofLine? line = some o ∧ new = o.write t := by
  rw [retag] at h
  split at h
  case h_1 o ho => exact ⟨o, ho, (Except.ok.inj h).symm⟩
  case h_2 => cases h

theorem trim_retag (hn : '\n' ∉ line) (ht : IsTag t) (h : retag line t = .ok new) :
    ∃ rest, trim new = marked t rest := by
  obtain ⟨o, ho, rfl⟩ := retag_eq_ok h
  exact ⟨o.rest, Opening.trim_write (Opening.ofLine?_eq_some hn ho).1 ht⟩

theorem isQuad_retag (hn : '\n' ∉ line) (ht : IsTag t) (h : retag line t = .ok new) :
    isQuad (trim new) = false := by
  obtain ⟨rest, hr⟩ := trim_retag hn ht h
  rw [hr, isQuad_marked ht]

theorem isFence_retag (hn : '\n' ∉ line) (ht : IsTag t) (h : retag line t = .ok new) :
    isFence (trim new) = true := by
  obtain ⟨rest, hr⟩ := trim_retag hn ht h
  rw [hr, isFence_marked ht]

theorem tag_retag (hn : '\n' ∉ line) (ht : IsTag t) (h : retag line t = .ok new) :
    tag (trim new) = some t := by
  obtain ⟨rest, hr⟩ := trim_retag hn ht h
  rw [hr, tag_marked ht]

theorem subset_of_ofLine? (hn : '\n' ∉ line) {o : Opening} (ho : Opening.ofLine? line = some o) :
    o.rest ⊆ line ∧ o.lineEnd ⊆ line := by
  obtain ⟨-, ⟨gap, -, hl⟩, -⟩ := Opening.ofLine?_eq_some hn ho
  rw [hl]
  constructor
  · intro c hc
    simp [hc]
  · intro c hc
    simp [hc]

theorem not_mem_retag {c : Char} (hb : isBlank c = true) (hi : isIndent c = false)
    (hn : '\n' ∉ line) (hc : c ∉ line) (ht : IsTag t) (h : retag line t = .ok new) : c ∉ new := by
  obtain ⟨o, ho, rfl⟩ := retag_eq_ok h
  obtain ⟨hindent, -, -⟩ := Opening.ofLine?_eq_some hn ho
  obtain ⟨hrest, hend⟩ := subset_of_ofLine? hn ho
  have hspace : c ≠ ' ' := by
    rintro rfl
    cases hi
  have hmark : c ∉ mark := by
    intro hm
    rw [List.eq_of_mem_replicate hm] at hb
    cases hb
  have htag : c ∉ t := by
    intro hm
    rw [ht.isBlank hm] at hb
    cases hb
  have hind : c ∉ o.indent := by
    intro hm
    rw [hindent c hm] at hi
    cases hi
  simp only [Opening.write_eq, marked, List.mem_append, not_or]
  exact ⟨⟨hind, ⟨hmark, htag⟩,
    Opening.not_mem_trimRight_spaced hspace fun hm => hc (hrest hm)⟩, fun hm => hc (hend hm)⟩

theorem retag_retag (hn : '\n' ∉ line) (ht : IsTag t) (h : retag line t = .ok new) (u : Text) :
    retag new u = retag line u := by
  obtain ⟨o, ho, rfl⟩ := retag_eq_ok h
  obtain ⟨hi, -, -⟩ := Opening.ofLine?_eq_some hn ho
  have hr : '\n' ∉ o.rest := fun hm => hn ((subset_of_ofLine? hn ho).1 hm)
  rw [Opening.retag_write hi hr ht, retag, ho]

end Retag

end MarkdownFences.Fence
