import MarkdownFences.Proofs.Fence.Retag
import MarkdownFences.Proofs.Text.FileText

namespace MarkdownFences.Fence

open Text

section Concat

variable {p : Char → Bool} {c : Char} {l : Text}

theorem takeWhile_concat_of_neg (h : p c = false) : (l ++ [c]).takeWhile p = l.takeWhile p := by
  induction l with
  | nil => exact List.takeWhile_cons_of_neg (by simp [h])
  | cons d l ih =>
    rw [List.cons_append, List.takeWhile_cons, List.takeWhile_cons, ih]

theorem dropWhile_concat_of_neg (h : p c = false) :
    (l ++ [c]).dropWhile p = l.dropWhile p ++ [c] := by
  induction l with
  | nil => exact List.dropWhile_cons_of_neg (by simp [h])
  | cons d l ih =>
    rw [List.cons_append, List.dropWhile_cons, List.dropWhile_cons, ih]
    split <;> rfl

theorem leadingTag_concat (h : isTagChar c = false) : leadingTag (l ++ [c]) = leadingTag l := by
  cases l with
  | nil =>
    have hw : isWordChar c = false := by
      cases hw : isWordChar c with
      | false => rfl
      | true => rw [isTagChar_of_isWordChar hw] at h; cases h
    simp [leadingTag, hw]
  | cons d l => rw [List.cons_append, leadingTag, leadingTag, takeWhile_concat_of_neg h]

theorem isTagChar_of_mem_leadingTag {c : Char} (h : c ∈ (leadingTag l).getD []) :
    isTagChar c = true := by
  cases l with
  | nil => cases h
  | cons d l =>
    rw [leadingTag] at h
    split at h
    case isTrue hd =>
      obtain rfl | h := List.mem_cons.mp h
      · exact isTagChar_of_isWordChar hd
      · exact List.all_eq_true.mp List.all_takeWhile c h
    case isFalse => cases h

end Concat

namespace Opening

variable {l : Text} {o : Opening}

theorem isPrefixOf_concat (l : Text) : mark.isPrefixOf (l ++ ['\r']) = mark.isPrefixOf l := by
  rw [Bool.eq_iff_iff, List.isPrefixOf_iff_prefix, List.isPrefixOf_iff_prefix,
    List.prefix_concat_iff]
  constructor
  · rintro (h | h)
    · have hm : '\r' ∈ mark := by simp [h]
      exact absurd hm (by decide)
    · exact h
  · exact .inr

theorem ending?_of_not_mem (hn : '\n' ∉ l) (hr : '\r' ∉ l) : ending? l = some (l, false) := by
  have hl : l.getLast? ≠ some '\n' := fun hl => hn (List.mem_of_getLast? hl)
  have hc : l.getLast? ≠ some '\r' := fun hc => hr (List.mem_of_getLast? hc)
  simp [ending?, hl, hn, hc]

theorem ending?_concat (hn : '\n' ∉ l) : ending? (l ++ ['\r']) = some (l, true) := by
  simp [ending?, hn]

theorem ofLine?_concat (hn : '\n' ∉ l) (hr : '\r' ∉ l) :
    ofLine? (l ++ ['\r']) = (ofLine? l).map fun o => { o with carriageReturn := true } := by
  have hindent : isIndent '\r' = false := rfl
  have htagChar : isTagChar '\r' = false := by decide
  have hlen : (l.takeWhile isIndent).length ≤ l.length := (List.takeWhile_prefix isIndent).length_le
  simp only [ofLine?, takeWhile_concat_of_neg hindent, List.drop_append_of_le_length hlen,
    isPrefixOf_concat]
  generalize hmarked : l.drop (l.takeWhile isIndent).length = marked
  have hsub : marked ⊆ l := hmarked ▸ List.drop_subset _ l
  split
  case isFalse => rfl
  case isTrue hm =>
    have hmark : mark.length ≤ marked.length := (List.isPrefixOf_iff_prefix.mp hm).length_le
    simp only [List.drop_append_of_le_length hmark, dropWhile_concat_of_neg hindent,
      leadingTag_concat htagChar]
    generalize htagged : (marked.drop mark.length).dropWhile isIndent = tagged
    have htsub : tagged ⊆ l := by
      rw [← htagged]
      exact fun c hc => hsub (List.drop_subset _ _ ((List.dropWhile_suffix _).subset hc))
    have htag := (leadingTag_isPrefix tagged).length_le
    have hrest := List.drop_subset ((leadingTag tagged).getD []).length tagged
    rw [List.drop_append_of_le_length htag,
      ending?_concat fun h => hn (htsub (hrest h)),
      ending?_of_not_mem (fun h => hn (htsub (hrest h))) fun h => hr (htsub (hrest h))]
    rfl

theorem isTagChar_of_mem_tag (h : ofLine? l = some o) {c : Char} (hc : c ∈ o.tag.getD []) :
    isTagChar c = true := by
  rw [ofLine?] at h
  split at h
  case isTrue =>
    obtain ⟨e, -, rfl⟩ := Option.map_eq_some_iff.mp h
    exact isTagChar_of_mem_leadingTag hc
  case isFalse => cases h

theorem exists_line (h : ofLine? l = some o) :
    ∃ s feed, '\n' ∉ s ∧ (feed = [] ∨ feed = ['\n']) ∧ l = s ++ feed ∧
      (s.getLast? = some '\r' ↔ o.carriageReturn = true) := by
  obtain ⟨-, hn, hcr, gap, feed, hgap, hfeed, hl⟩ := ofLine?_parts h
  have hfront {c : Char} (hi : isIndent c = false) (hm : c ∉ mark) (ht : isTagChar c = false) :
      c ∉ o.indent ++ mark ++ gap ++ o.tag.getD [] := by
    simp only [List.mem_append, not_or]
    refine ⟨⟨⟨fun hc => ?_, hm⟩, fun hc => ?_⟩, fun hc => ?_⟩
    · rw [isIndent_of_mem_indent h hc] at hi
      cases hi
    · rw [hgap c hc] at hi
      cases hi
    · rw [isTagChar_of_mem_tag h hc] at ht
      cases ht
  refine ⟨_, feed, ?_, hfeed, hl, ?_⟩
  · have hend : '\n' ∉ o.lineEnd := by
      rw [lineEnd]
      split <;> decide
    rw [List.mem_append, List.mem_append, not_or, not_or]
    exact ⟨⟨hfront (by decide) (by decide) (by decide), hn⟩, hend⟩
  · cases hb : o.carriageReturn with
    | true =>
      rw [lineEnd, if_pos hb]
      exact ⟨fun _ => rfl, fun _ => List.getLast?_concat⟩
    | false =>
      refine ⟨fun hlast => ?_, fun hb' => by cases hb'⟩
      rw [lineEnd, hb, if_neg Bool.false_ne_true, List.append_nil, List.getLast?_append] at hlast
      cases hr : o.rest.getLast? with
      | none =>
        rw [hr, Option.none_or] at hlast
        exact absurd (List.mem_of_getLast? hlast) (hfront (by decide) (by decide) (by decide))
      | some c =>
        rw [hr, Option.some_or] at hlast
        exact absurd (hr.trans hlast) (hcr hb)

theorem getLast?_eq_iff (hn : '\n' ∉ l) (h : ofLine? l = some o) :
    l.getLast? = some '\r' ↔ o.carriageReturn = true := by
  obtain ⟨s, feed, -, rfl | rfl, rfl, hs⟩ := exists_line h
  · rwa [List.append_nil]
  · exact absurd (List.mem_append_right s (List.mem_singleton_self _)) hn

theorem carriageReturn_eq_false (hn : '\n' ∉ l) (hr : '\r' ∉ l) (h : ofLine? l = some o) :
    o.carriageReturn = false := by
  cases hcr : o.carriageReturn with
  | false => rfl
  | true =>
    have hmem : '\r' ∈ o.lineEnd := by simp [lineEnd, hcr]
    exact absurd ((subset_of_ofLine? hn h).2 hmem) hr

end Opening

variable {l new t : Text}

theorem retag_concat (hn : '\n' ∉ l) (hr : '\r' ∉ l) (h : retag (l ++ ['\r']) t = .ok new) :
    ∃ r, retag l t = .ok r ∧ new = r ++ ['\r'] := by
  obtain ⟨o', ho', rfl⟩ := retag_eq_ok h
  rw [Opening.ofLine?_concat hn hr, Option.map_eq_some_iff] at ho'
  obtain ⟨o, ho, rfl⟩ := ho'
  refine ⟨o.write t, by rw [retag, ho], ?_⟩
  simp [Opening.write, Opening.carriageReturn_eq_false hn hr ho]

theorem getLast?_retag (hn : '\n' ∉ l) (ht : IsTag t) (h : retag l t = .ok new) :
    new.getLast? = some '\r' ↔ l.getLast? = some '\r' := by
  obtain ⟨o, ho, rfl⟩ := retag_eq_ok h
  obtain ⟨hi, -, -⟩ := Opening.ofLine?_eq_some hn ho
  have hrest : '\n' ∉ o.rest := fun hm => hn ((subset_of_ofLine? hn ho).1 hm)
  have hnew := not_mem_retag rfl rfl hn hn ht h
  rw [Opening.getLast?_eq_iff hnew (Opening.ofLine?_write hi hrest ht),
    Opening.getLast?_eq_iff hn ho]

theorem retag_chomp (hn : '\n' ∉ l) (hr : '\r' ∉ chomp l) (ht : IsTag t)
    (h : retag l t = .ok new) :
    retag (chomp l) t = .ok (chomp new) ∧ '\r' ∉ chomp new := by
  have hn' := not_mem_chomp hn
  obtain ⟨hl, -⟩ | ⟨hl, -⟩ := chomp_cases l
  · rw [hl] at hr ⊢
    have hnew := not_mem_retag rfl rfl hn hr ht h
    rw [chomp_of_not_mem hnew]
    exact ⟨h, hnew⟩
  · rw [hl] at h
    obtain ⟨r, hret, rfl⟩ := retag_concat hn' hr h
    rw [chomp_concat]
    exact ⟨hret, not_mem_retag rfl rfl hn' hr ht hret⟩

theorem trim_concat (l : Text) : trim (l ++ ['\r']) = trim l := by
  have hblank : ∀ c ∈ ['\r'], isBlank c = true := by
    intro c hc
    rw [List.mem_singleton.mp hc]
    decide
  rw [trim, trim, trimLeft, trimLeft, List.dropWhile_append]
  split
  case isTrue he => rw [List.isEmpty_iff.mp he]; rfl
  case isFalse => exact dropEnding_append hblank

theorem trim_chomp (l : Text) : trim (chomp l) = trim l := by
  obtain ⟨hl, -⟩ | ⟨hl, -⟩ := chomp_cases l
  · rw [hl]
  · rw [hl, chomp_concat, trim_concat]

end MarkdownFences.Fence
