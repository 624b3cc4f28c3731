import MarkdownFences.Proofs.Fence.LineEnd
import Mathlib.Data.List.TakeWhile

namespace MarkdownFences.Fence

open Text

/-- The white space in front of a line. -/
def margin (l : Text) : Text := l.takeWhile isBlank

/-- What stands after the backticks of a fence. -/
def info (l : Text) : Text := (trimLeft l).drop mark.length

def gap (l : Text) : Text := (info l).takeWhile isBlank

/-- What a fence keeps when it is given a tag: spaces and tabs after the backticks go, and so does a
tag right after them. -/
def kept (l : Text) : Text :=
  let tagged := (info l).dropWhile isIndent
  tagged.drop ((leadingTag tagged).getD []).length

def returnAt (l : Text) : Text := if l.getLast? = some '\r' then ['\r'] else []

/-- Spaces and tabs, and nothing else. -/
def IsIndentation (t : Text) : Prop := ∀ c ∈ t, isIndent c = true

instance (t : Text) : Decidable (IsIndentation t) :=
  decidable_of_iff (t.all isIndent = true) List.all_eq_true

variable {l t s : Text}

section While

variable {p q : Char → Bool} {c : Char}

theorem takeWhile_append_cons (hs : ∀ x ∈ s, p x = true) (hc : p c = false) :
    (s ++ c :: t).takeWhile p = s := by
  rw [List.takeWhile_append_of_pos hs, List.takeWhile_cons_of_neg (by simp [hc]), List.append_nil]

theorem drop_takeWhile (p : Char → Bool) (t : Text) :
    t.drop (t.takeWhile p).length = t.dropWhile p := by
  have h : (t.takeWhile p ++ t.dropWhile p).drop (t.takeWhile p).length = t.dropWhile p :=
    List.drop_left
  rwa [List.takeWhile_append_dropWhile] at h

theorem dropWhile_eq (hq : ∀ x, q x = true → p x = true) (hs : ∀ x ∈ t.takeWhile p, q x = true) :
    t.dropWhile q = t.dropWhile p := by
  induction t with
  | nil => rfl
  | cons c t ih =>
    rw [List.takeWhile_cons] at hs
    cases hp : p c with
    | true =>
      rw [hp, if_pos rfl] at hs
      rw [List.dropWhile_cons_of_pos (hs c List.mem_cons_self), List.dropWhile_cons_of_pos hp,
        ih fun x hx => hs x (List.mem_cons_of_mem c hx)]
    | false =>
      have hc : ¬ q c = true := fun hc => by
        rw [hq c hc] at hp
        cases hp
      rw [List.dropWhile_cons_of_neg hc, List.dropWhile_cons_of_neg (by simp [hp])]

theorem exists_dropWhile (hs : ¬ ∀ x ∈ t.takeWhile p, q x = true) :
    ∃ c r, t.dropWhile q = c :: r ∧ p c = true ∧ q c = false := by
  induction t with
  | nil => exact absurd (List.forall_mem_nil _) hs
  | cons c t ih =>
    rw [List.takeWhile_cons] at hs
    cases hp : p c with
    | true =>
      rw [hp, if_pos rfl, List.forall_mem_cons] at hs
      cases hq : q c with
      | true =>
        rw [List.dropWhile_cons_of_pos hq]
        exact ih fun h => hs ⟨hq, h⟩
      | false => exact ⟨c, t, List.dropWhile_cons_of_neg (by simp [hq]), hp, hq⟩
    | false => simp [hp] at hs

end While

section Tag

theorem not_isIndent_tick : isIndent tick = false := rfl

theorem isBlank_of_mem_margin {c : Char} (h : c ∈ margin l) : isBlank c = true :=
  List.all_eq_true.mp List.all_takeWhile c h

theorem trimLeft_eq_of_isFence (hf : isFence (trim l) = true) : trimLeft l = mark ++ info l := by
  have hmark : mark <+: trim l := by
    rw [isFence, Bool.and_eq_true] at hf
    exact List.isPrefixOf_iff_prefix.mp hf.1
  exact (List.prefix_iff_eq_append.mp (hmark.trans (dropEnding_isPrefix isBlank _))).symm

theorem eq_of_isFence (hf : isFence (trim l) = true) : l = margin l ++ (mark ++ info l) := by
  rw [← trimLeft_eq_of_isFence hf]
  exact List.takeWhile_append_dropWhile.symm

theorem trimRight_mark_append (t : Text) : trimRight (mark ++ t) = mark ++ trimRight t := by
  obtain ⟨ending, hblank, ht⟩ := exists_trimRight t
  have hsplit : mark ++ t = (mark ++ trimRight t) ++ ending := by rw [List.append_assoc, ← ht]
  rw [hsplit, trimRight, dropEnding_append hblank]
  refine dropEnding_eq_self fun c hc => ?_
  rw [List.getLast?_append, Option.or_eq_some_iff] at hc
  obtain hc | ⟨-, hc⟩ := hc
  · exact of_getLast?_dropEnding hc
  · rw [List.eq_of_mem_replicate (List.mem_of_getLast? hc)]
    rfl

theorem tag_mark_append (t : Text) : tag (mark ++ t) = leadingTag (trimLeft t) := by
  rw [tag, if_pos (List.isPrefixOf_iff_prefix.mpr (List.prefix_append mark t)), List.drop_left]

theorem not_isTagChar_of_isBlank {c : Char} (h : isBlank c = true) : isTagChar c = false := by
  cases ht : isTagChar c with
  | false => rfl
  | true =>
    rw [isBlank_of_isTagChar ht] at h
    cases h

theorem leadingTag_append_blank (t : Text) {r : Text} (hr : ∀ c ∈ r, isBlank c = true) :
    leadingTag (t ++ r) = leadingTag t := by
  induction r generalizing t with
  | nil => rw [List.append_nil]
  | cons c r ih =>
    obtain ⟨hc, hr⟩ := List.forall_mem_cons.mp hr
    rw [List.append_cons, ih (t ++ [c]) hr, leadingTag_concat (not_isTagChar_of_isBlank hc)]

theorem tag_trim (hf : isFence (trim l) = true) :
    tag (trim l) = leadingTag (trimLeft (info l)) := by
  obtain ⟨ending, hblank, hinfo⟩ := exists_trimRight (info l)
  rw [trim, trimLeft_eq_of_isFence hf, trimRight_mark_append, tag_mark_append]
  conv => rhs; rw [hinfo]
  simp only [trimLeft, List.dropWhile_append]
  split
  case isTrue he =>
    have hnil : ending.dropWhile isBlank = [] := List.dropWhile_eq_nil_iff.mpr hblank
    rw [List.isEmpty_iff.mp he, hnil]
  case isFalse => rw [leadingTag_append_blank _ hblank]

theorem info_eq_of_gap (hf : isFence (trim l) = true) (hg : IsIndentation (gap l)) :
    info l = gap l ++ (tag (trim l)).getD [] ++ kept l := by
  have hskip : (info l).dropWhile isIndent = trimLeft (info l) :=
    dropWhile_eq (fun _ => isBlank_of_isIndent) hg
  have htag := List.prefix_iff_eq_append.mp (leadingTag_isPrefix (trimLeft (info l)))
  rw [kept, hskip, tag_trim hf, List.append_assoc, htag]
  exact List.takeWhile_append_dropWhile.symm

/-- Behind other white space nothing is taken for a tag, and all but the first spaces and tabs is
kept. -/
theorem info_eq_of_not_gap (hg : ¬ IsIndentation (gap l)) :
    info l = (info l).takeWhile isIndent ++ kept l ∧ IsApart (kept l) := by
  obtain ⟨c, r, hskip, hc, -⟩ := exists_dropWhile hg
  have hword : leadingTag (c :: r) = none := by
    rw [leadingTag, if_neg]
    intro hw
    rw [isBlank_of_isWordChar hw] at hc
    cases hc
  have hkept : kept l = c :: r := by rw [kept, hskip, hword]; rfl
  refine ⟨?_, ?_⟩
  · rw [hkept, ← hskip]
    exact List.takeWhile_append_dropWhile.symm
  · rw [hkept]
    intro d hd
    rwa [← Option.some.inj hd]

end Tag

section Retag

theorem kept_suffix (l : Text) : kept l <:+ l :=
  (List.drop_suffix _ _).trans <| (List.dropWhile_suffix _).trans <|
    (List.drop_suffix _ _).trans (List.dropWhile_suffix _)

theorem exists_ending? (hn : '\n' ∉ t) : ∃ cr, Opening.ending? t = some (chomp t, cr) := by
  have hl : t.getLast? ≠ some '\n' := fun hl => hn (List.mem_of_getLast? hl)
  have hc : t.contains '\n' = false := by simpa using hn
  simp only [Opening.ending?, hl, if_false, hc, Bool.false_eq_true, chomp]
  split
  · exact ⟨true, rfl⟩
  · exact ⟨false, rfl⟩

theorem ofLine?_of_margin (hn : '\n' ∉ l) (hf : isFence (trim l) = true)
    (hm : IsIndentation (margin l)) :
    ∃ o, Opening.ofLine? l = some o ∧ o.indent = margin l ∧ o.rest = chomp (kept l) := by
  have hindent : l.takeWhile isIndent = margin l := by
    conv => lhs; rw [eq_of_isFence hf]
    exact takeWhile_append_cons hm not_isIndent_tick
  have hmarked : l.drop (margin l).length = mark ++ info l := by
    rw [margin, drop_takeWhile]
    exact trimLeft_eq_of_isFence hf
  obtain ⟨cr, hend⟩ := exists_ending? fun h => hn ((kept_suffix l).subset h)
  refine ⟨⟨margin l, leadingTag ((info l).dropWhile isIndent), chomp (kept l), cr⟩, ?_, rfl, rfl⟩
  rw [kept] at hend
  simp only [Opening.ofLine?, hindent, hmarked, List.isPrefixOf_iff_prefix, List.prefix_append,
    if_true, List.drop_left, hend, Option.map_some, kept]

theorem ofLine?_of_not_margin (hm : ¬ IsIndentation (margin l)) : Opening.ofLine? l = none := by
  obtain ⟨c, r, hskip, hc, -⟩ := exists_dropWhile hm
  have hno : ¬ mark.isPrefixOf (c :: r) = true := by
    intro hp
    have htick : tick = c := (List.cons_prefix_cons.mp (List.isPrefixOf_iff_prefix.mp hp)).1
    rw [← htick, not_isBlank_tick] at hc
    cases hc
  simp only [Opening.ofLine?, drop_takeWhile, hskip, hno, Bool.false_eq_true, if_false]

theorem trimRight_spaced_chomp (t : Text) :
    trimRight (Opening.spaced (chomp t)) = trimRight (Opening.spaced t) := by
  obtain ⟨ht, -⟩ | ⟨ht, -⟩ := chomp_cases t
  · rw [ht]
  · cases hc : chomp t with
    | nil =>
      rw [ht, hc]
      rfl
    | cons c r =>
      have hspaced : Opening.spaced (c :: r ++ ['\r']) = Opening.spaced (c :: r) ++ ['\r'] := by
        simp only [List.cons_append, Opening.spaced]
        split <;> rfl
      rw [ht, hc, hspaced, trimRight, trimRight, dropEnding_append]
      exact List.forall_mem_singleton.mpr rfl

theorem lineEnd_of_ofLine? (hn : '\n' ∉ l) {o : Opening} (h : Opening.ofLine? l = some o) :
    o.lineEnd = returnAt l := by
  rw [Opening.lineEnd, returnAt]
  exact if_congr (Opening.getLast?_eq_iff hn h).symm rfl rfl

theorem retag_fence (hn : '\n' ∉ l) (hf : isFence (trim l) = true) (t : Text) :
    retag l t = if IsIndentation (margin l) then
        .ok (margin l ++ mark ++ t ++ trimRight (Opening.spaced (kept l)) ++ returnAt l)
      else .error ⟨l⟩ := by
  split
  case isTrue hm =>
    obtain ⟨o, ho, hindent, hrest⟩ := ofLine?_of_margin hn hf hm
    simp only [retag, ho, Opening.write_eq, marked, hindent, hrest, trimRight_spaced_chomp,
      lineEnd_of_ofLine? hn ho, List.append_assoc]
  case isFalse hm => simp only [retag, ofLine?_of_not_margin hm]

theorem retag_fence_eq_ok (hn : '\n' ∉ l) (hf : isFence (trim l) = true)
    (h : retag l t = .ok s) : IsIndentation (margin l) ∧
      s = margin l ++ mark ++ t ++ trimRight (Opening.spaced (kept l)) ++ returnAt l := by
  rw [retag_fence hn hf] at h
  split at h
  case isTrue hm => exact ⟨hm, (Except.ok.inj h).symm⟩
  case isFalse => cases h

theorem margin_retag (hn : '\n' ∉ l) (hf : isFence (trim l) = true) (h : retag l t = .ok s) :
    margin s = margin l := by
  obtain ⟨-, rfl⟩ := retag_fence_eq_ok hn hf h
  simp only [List.append_assoc]
  exact takeWhile_append_cons (fun c hc => isBlank_of_mem_margin hc) not_isBlank_tick

theorem newline_not_mem_retag (hn : '\n' ∉ l) (hf : isFence (trim l) = true) (ht : '\n' ∉ t)
    (h : retag l t = .ok s) : '\n' ∉ s := by
  obtain ⟨hm, rfl⟩ := retag_fence_eq_ok hn hf h
  have hkept : '\n' ∉ kept l := fun h => hn ((kept_suffix l).subset h)
  simp only [List.mem_append, not_or]
  refine ⟨⟨⟨⟨fun h => ?_, by decide⟩, ht⟩, Opening.not_mem_trimRight_spaced (by decide) hkept⟩, ?_⟩
  · cases hm _ h
  · rw [returnAt]
    split <;> decide

end Retag

end MarkdownFences.Fence
