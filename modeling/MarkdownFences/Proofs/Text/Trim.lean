import MarkdownFences.Fence

namespace MarkdownFences.Text

section Ending

variable {p : Char → Bool} {s t : Text} {c : Char}

theorem dropEnding_append (h : ∀ c ∈ t, p c = true) : dropEnding p (s ++ t) = dropEnding p s := by
  have hr : ∀ c ∈ t.reverse, p c = true := fun c hc => h c (List.mem_reverse.mp hc)
  rw [dropEnding, List.reverse_append, List.dropWhile_append_of_pos hr, ← dropEnding]

theorem dropEnding_concat (h : p c = false) : dropEnding p (s ++ [c]) = s ++ [c] := by
  rw [dropEnding, List.reverse_concat, List.dropWhile_cons_of_neg (by simp [h]),
    List.reverse_cons, List.reverse_reverse]

theorem dropEnding_eq_self (h : ∀ c, t.getLast? = some c → p c = false) : dropEnding p t = t := by
  obtain rfl | ⟨s, c, rfl⟩ := List.eq_nil_or_concat t
  · rfl
  · rw [List.concat_eq_append] at h ⊢
    exact dropEnding_concat (h c List.getLast?_concat)

theorem of_getLast?_dropEnding (h : (dropEnding p t).getLast? = some c) : p c = false := by
  rw [dropEnding, List.getLast?_reverse, List.head?_eq_some_iff] at h
  obtain ⟨r, hr⟩ := h
  have hd := List.head?_dropWhile_not p t.reverse
  rw [hr] at hd
  simpa using hd

theorem dropEnding_isPrefix (p : Char → Bool) (t : Text) : dropEnding p t <+: t := by
  have h := List.reverse_prefix.mpr (List.dropWhile_suffix p (l := t.reverse))
  rwa [List.reverse_reverse] at h

theorem exists_dropEnding (p : Char → Bool) (t : Text) :
    ∃ ending, (∀ c ∈ ending, p c = true) ∧ t = dropEnding p t ++ ending := by
  refine ⟨(t.reverse.takeWhile p).reverse, fun c hc => ?_, ?_⟩
  · exact List.all_eq_true.mp List.all_takeWhile c (List.mem_reverse.mp hc)
  · rw [dropEnding, ← List.reverse_append, List.takeWhile_append_dropWhile, List.reverse_reverse]

end Ending

theorem trimRight_eq_self {t : Text} (h : ∀ c, t.getLast? = some c → isBlank c = false) :
    trimRight t = t :=
  dropEnding_eq_self h

theorem trimLeft_append {s t : Text} (h : ∀ c ∈ s, isBlank c = true) :
    trimLeft (s ++ t) = trimLeft t :=
  List.dropWhile_append_of_pos h

theorem trimLeft_cons {c : Char} (h : isBlank c = false) (t : Text) : trimLeft (c :: t) = c :: t :=
  List.dropWhile_cons_of_neg (by simp [h])

theorem trim_append {t v : Text} (h : ∀ c ∈ v, isBlank c = true) : trim (t ++ v) = trim t := by
  have hv : v.dropWhile isBlank = [] := by simpa [trimLeft] using trimLeft_append (t := []) h
  rw [trim, trim, trimLeft, trimLeft, List.dropWhile_append]
  split
  case isTrue ht => rw [List.isEmpty_iff.mp ht, hv]
  case isFalse => exact dropEnding_append h

theorem trim_padded {u v : Text} (hu : ∀ c ∈ u, isBlank c = true)
    (hv : ∀ c ∈ v, isBlank c = true) (t : Text) : trim (u ++ (t ++ v)) = trim t := by
  rw [trim, trimLeft_append hu, ← trim, trim_append hv]

theorem exists_trimRight (t : Text) :
    ∃ ending, (∀ c ∈ ending, isBlank c = true) ∧ t = trimRight t ++ ending :=
  exists_dropEnding isBlank t

theorem exists_trim (t : Text) : ∃ front ending, (∀ c ∈ front, isBlank c = true) ∧
    (∀ c ∈ ending, isBlank c = true) ∧ t = front ++ (trim t ++ ending) := by
  obtain ⟨ending, hblank, ht⟩ := exists_trimRight (trimLeft t)
  refine ⟨t.takeWhile isBlank, ending, List.all_eq_true.mp List.all_takeWhile, hblank, ?_⟩
  rw [trim, ← ht, trimLeft, List.takeWhile_append_dropWhile]

theorem trim_trim (t : Text) : trim (trim t) = trim t := by
  obtain ⟨front, ending, hfront, hending, ht⟩ := exists_trim t
  have h := trim_padded hfront hending (trim t)
  rw [← ht] at h
  exact h.symm

theorem any_padded {p : Char → Bool} (hp : ∀ c, isBlank c = true → p c = false) {u v : Text}
    (hu : ∀ c ∈ u, isBlank c = true) (hv : ∀ c ∈ v, isBlank c = true) (t : Text) :
    (u ++ (t ++ v)).any p = t.any p := by
  have hblank {w : Text} (hw : ∀ c ∈ w, isBlank c = true) : w.any p = false := by
    rw [List.any_eq_false]
    intro c hc
    simp [hp c (hw c hc)]
  rw [List.any_append, List.any_append, hblank hu, hblank hv, Bool.false_or, Bool.or_false]

theorem any_trim {p : Char → Bool} (hp : ∀ c, isBlank c = true → p c = false) (t : Text) :
    (trim t).any p = t.any p := by
  obtain ⟨front, ending, hfront, hending, ht⟩ := exists_trim t
  have h := any_padded hp hfront hending (trim t)
  rw [← ht] at h
  exact h.symm

theorem contains_of_isBlank {marks : Text} (hmarks : marks.any isBlank = false) (c : Char)
    (h : isBlank c = true) : marks.contains c = false := by
  cases hc : marks.contains c with
  | false => rfl
  | true => exact absurd h (List.any_eq_false.mp hmarks c (List.contains_iff_mem.mp hc))

theorem exists_of_prefix_trim {s t : Text} (h : s <+: trim t) :
    ∃ front rest, (∀ c ∈ front, isBlank c = true) ∧ t = front ++ (s ++ rest) := by
  obtain ⟨r, hr⟩ := h
  obtain ⟨front, ending, hblank, -, ht⟩ := exists_trim t
  exact ⟨front, r ++ ending, hblank, by rw [ht, ← hr, List.append_assoc]⟩

theorem isBlank_head_trim {l t : Text} {c : Char} (h : trim l = c :: t) : isBlank c = false := by
  have hpre := dropEnding_isPrefix isBlank (trimLeft l)
  change trim l <+: _ at hpre
  have hhead := List.head?_dropWhile_not isBlank l
  obtain ⟨r, hr⟩ := hpre
  rw [h] at hr
  rw [← trimLeft, ← hr] at hhead
  simpa using hhead

theorem isBlank_of_trim_eq_nil {l : Text} (h : trim l = []) : ∀ c ∈ l, isBlank c = true := by
  obtain ⟨front, ending, hf, he, hl⟩ := exists_trim l
  rw [hl, h, List.nil_append]
  exact List.forall_mem_append.mpr ⟨hf, he⟩

theorem trim_eq_nil {l : Text} (h : ∀ c ∈ l, isBlank c = true) : trim l = [] :=
  trim_append (t := []) h

theorem isVoid_iff {t : Text} : isVoid t = true ↔ ∀ c ∈ t, isBlank c = true := List.all_eq_true

theorem ne_of_isBlank {c d : Char} (h : isBlank c = true) (hd : isBlank d = false) : c ≠ d := by
  rintro rfl
  cases h.symm.trans hd

def blankPoints : List Nat :=
  [0x09, 0x0A, 0x0B, 0x0C, 0x0D, 0x1C, 0x1D, 0x1E, 0x1F, 0x20, 0x85, 0xA0, 0x1680, 0x2000, 0x2001,
    0x2002, 0x2003, 0x2004, 0x2005, 0x2006, 0x2007, 0x2008, 0x2009, 0x200A, 0x2028, 0x2029, 0x202F,
    0x205F, 0x3000]

theorem mem_blankPoints {c : Char} (h : isBlank c = true) : c.toNat ∈ blankPoints := by
  simp only [isBlank, Bool.or_eq_true, Bool.and_eq_true, decide_eq_true_eq, beq_iff_eq] at h
  simp only [blankPoints, List.mem_cons, List.not_mem_nil, or_false]
  omega

theorem isWordChar_of_blankPoints : ∀ n ∈ blankPoints, isWordChar (Char.ofNat n) = false := by
  decide +kernel

theorem isBlank_of_isWordChar {c : Char} (h : isWordChar c = true) : isBlank c = false := by
  cases hb : isBlank c with
  | false => rfl
  | true =>
    have hw := isWordChar_of_blankPoints c.toNat (mem_blankPoints hb)
    rw [Char.ofNat_toNat, h] at hw
    cases hw

section Word

variable {u t r : Text}

theorem takeWhile_of_blank_head? (h : ∀ c, r.head? = some c → isBlank c = true) :
    r.takeWhile (!isBlank ·) = [] := by
  cases r with
  | nil => rfl
  | cons c r => rw [List.takeWhile_cons_of_neg (by simp [h c rfl])]

theorem firstWord_padded (hu : ∀ c ∈ u, isBlank c = true) (hne : t ≠ [])
    (ht : ∀ c ∈ t, isBlank c = false) (hr : ∀ c, r.head? = some c → isBlank c = true) :
    firstWord (u ++ (t ++ r)) = t := by
  obtain ⟨c, s, rfl⟩ := List.exists_cons_of_ne_nil hne
  rw [firstWord, trimLeft_append hu, List.cons_append, trimLeft_cons (ht c List.mem_cons_self),
    ← List.cons_append, List.takeWhile_append_of_pos fun d hd => by rw [ht d hd]; rfl,
    takeWhile_of_blank_head? hr, List.append_nil]

theorem exists_firstWord (t : Text) : ∃ u r, t = u ++ (firstWord t ++ r) ∧
    (∀ c ∈ u, isBlank c = true) ∧ ∀ c, r.head? = some c → isBlank c = true := by
  refine ⟨t.takeWhile isBlank, (trimLeft t).dropWhile (!isBlank ·), ?_,
    List.all_eq_true.mp List.all_takeWhile, fun c hc => ?_⟩
  · rw [firstWord, List.takeWhile_append_dropWhile, trimLeft, List.takeWhile_append_dropWhile]
  · have h := List.head?_dropWhile_not (!isBlank ·) (trimLeft t)
    rw [hc] at h
    simpa using h

theorem firstWord_trim (t : Text) : firstWord (trim t) = firstWord t := by
  obtain ⟨front, ending, hfront, hending, ht⟩ := exists_trim t
  have hword : firstWord (trim t ++ ending) = firstWord (trim t) := by
    cases htrim : trim t with
    | nil =>
      have hnil : trimLeft ending = [] := by
        simpa [trimLeft] using trimLeft_append (t := []) hending
      rw [List.nil_append, firstWord, hnil]
      rfl
    | cons c s =>
      have hc := isBlank_head_trim htrim
      have hrest := takeWhile_of_blank_head? fun d hd => hending d (List.mem_of_head? hd)
      rw [firstWord, firstWord, List.cons_append, trimLeft_cons hc, trimLeft_cons hc,
        ← List.cons_append, List.takeWhile_append, hrest, List.append_nil]
      split
      case isTrue hall => exact ((List.takeWhile_prefix _).eq_of_length hall).symm
      case isFalse => rfl
  calc firstWord (trim t)
    _ = firstWord (front ++ (trim t ++ ending)) := by
      rw [← hword, firstWord, firstWord, trimLeft_append hfront]
    _ = firstWord t := by rw [← ht]

end Word

theorem occursIn_iff {part t : Text} : occursIn part t = true ↔ part <:+: t := by
  induction t with
  | nil => simp [occursIn]
  | cons c r ih => simp [occursIn, ih, List.infix_cons_iff]

theorem not_isBlank_tick : isBlank tick = false := rfl

theorem mark_infix_trimLeft (t : Text) : Fence.mark <:+: trimLeft t ↔ Fence.mark <:+: t := by
  induction t with
  | nil => rfl
  | cons c r ih =>
    cases hc : isBlank c with
    | false => rw [trimLeft, List.dropWhile_cons_of_neg (by simp [hc])]
    | true =>
      rw [trimLeft, List.dropWhile_cons_of_pos hc, ← trimLeft, ih, List.infix_cons_iff]
      have hne : ¬ Fence.mark <+: c :: r := by
        intro hp
        have ht : tick = c := (List.cons_prefix_cons.mp hp).1
        rw [← ht, not_isBlank_tick] at hc
        cases hc
      simp [hne]

theorem mark_infix_reverse (t : Text) : Fence.mark <:+: t.reverse ↔ Fence.mark <:+: t :=
  @List.reverse_infix _ Fence.mark t

theorem mark_infix_trimRight (t : Text) : Fence.mark <:+: trimRight t ↔ Fence.mark <:+: t := by
  rw [trimRight, dropEnding, mark_infix_reverse, ← trimLeft, mark_infix_trimLeft,
    mark_infix_reverse]

theorem occursIn_mark_trim (t : Text) : occursIn Fence.mark (trim t) = occursIn Fence.mark t := by
  rw [Bool.eq_iff_iff, occursIn_iff, occursIn_iff, trim, mark_infix_trimRight,
    mark_infix_trimLeft]

end MarkdownFences.Text
