import MarkdownFences.Proofs.Scan.Layout

namespace MarkdownFences.Layout

/-- Lines that are the same, or two fences. -/
structure Alike (l new : Text) : Prop where
  quad : isQuad new = isQuad l
  fence : Fence.isFence (Text.trim new) = Fence.isFence (Text.trim l)
  same : Fence.isFence (Text.trim l) = false → new = l

theorem Alike.eq_nil_iff {l new : Text} (h : Alike l new) : new = [] ↔ l = [] := by
  constructor
  · rintro rfl
    exact (h.same h.fence.symm).symm
  · rintro rfl
    exact h.same rfl

structure AlikeLines (ls new : List Text) : Prop where
  length : new.length = ls.length
  line : ∀ n, Alike (lineAt ls n) (lineAt new n)

namespace AlikeLines

variable {ls new : List Text} {n : Nat}

theorem map_isQuad (h : AlikeLines ls new) : new.map isQuad = ls.map isQuad := by
  apply List.ext_getElem
  · simp [h.length]
  · intro n hn hl
    rw [List.length_map] at hn hl
    have hq := (h.line n).quad
    rw [lineAt, lineAt, List.getElem?_eq_getElem hn, List.getElem?_eq_getElem hl] at hq
    simpa using hq

theorem quadsBefore_eq (h : AlikeLines ls new) (n : Nat) :
    quadsBefore new n = quadsBefore ls n := by
  have hmap (xs : List Text) : quadsBefore xs n = ((xs.map isQuad).take n).countP id := by
    rw [← List.map_take, List.countP_map]
    rfl
  rw [hmap, hmap, h.map_isQuad]

theorem isVisible_eq (h : AlikeLines ls new) (n : Nat) : isVisible new n = isVisible ls n := by
  rw [isVisible, isVisible, (h.line n).quad, h.quadsBefore_eq]

theorem isFence_eq (h : AlikeLines ls new) (n : Nat) : isFence new n = isFence ls n := by
  rw [isFence, isFence, h.isVisible_eq, (h.line n).fence]

theorem fencesBefore_eq (h : AlikeLines ls new) (n : Nat) :
    fencesBefore new n = fencesBefore ls n := by
  rw [fencesBefore, fencesBefore, funext h.isFence_eq]

theorem fences_eq (h : AlikeLines ls new) : fences new = fences ls := by
  rw [fences, fences, h.length, h.fencesBefore_eq]

theorem lineAt_eq (h : AlikeLines ls new) (hv : isVisible ls n = true)
    (hf : isFence ls n = false) : lineAt new n = lineAt ls n := by
  apply (h.line n).same
  simpa [isFence, hv] using hf

theorem body_eq (h : AlikeLines ls new) {i j : Nat}
    (hn : ∀ n, i < n → n < j → isFence ls n = false) : body new i j = body ls i j := by
  rw [body, body, funext h.isVisible_eq]
  apply List.map_congr_left
  intro n hmem
  simp only [List.mem_filter, List.mem_range, Bool.and_eq_true, decide_eq_true_eq] at hmem
  obtain ⟨hj, hi, hv⟩ := hmem
  exact h.lineAt_eq hv (hn n hi hj)

theorem isMalformed_eq (h : AlikeLines ls new) (n : Nat) :
    isMalformed new n = isMalformed ls n := by
  rw [isMalformed, isMalformed, h.isVisible_eq, h.isFence_eq, h.fencesBefore_eq]
  cases hv : isVisible ls n with
  | false => rfl
  | true =>
    cases hf : isFence ls n with
    | false => rw [h.lineAt_eq hv hf]
    | true => rfl

end AlikeLines

section Between

theorem pairwise_fences (ls : List Text) : (fences ls).Pairwise (· < ·) :=
  List.Pairwise.filter _ List.pairwise_lt_range

theorem fst_mem_of_mem_pairs {xs : List Nat} {p : Nat × Nat} (h : p ∈ pairs xs) : p.1 ∈ xs := by
  fun_induction pairs xs with
  | case1 i j r ih =>
    obtain rfl | hp := List.mem_cons.mp h
    · exact List.mem_cons_self
    · exact List.mem_cons_of_mem i (List.mem_cons_of_mem j (ih hp))
  | case2 xs hx => cases h

theorem not_between_of_mem_pairs {xs : List Nat} (hs : xs.Pairwise (· < ·)) {p : Nat × Nat}
    (h : p ∈ pairs xs) {n : Nat} (hn : n ∈ xs) : n ≤ p.1 ∨ p.2 ≤ n := by
  fun_induction pairs xs with
  | case1 i j r ih =>
    obtain ⟨hi, hj, hr⟩ : (i < j ∧ ∀ x ∈ r, i < x) ∧ (∀ x ∈ r, j < x) ∧ r.Pairwise (· < ·) := by
      simpa [List.pairwise_cons] using hs
    obtain rfl | hp := List.mem_cons.mp h
    · obtain rfl | hn := List.mem_cons.mp hn
      · exact .inl (Nat.le_refl n)
      · obtain rfl | hn := List.mem_cons.mp hn
        · exact .inr (Nat.le_refl n)
        · exact .inr (Nat.le_of_lt (hj n hn))
    · have hfst := hj p.1 (fst_mem_of_mem_pairs hp)
      obtain rfl | hn := List.mem_cons.mp hn
      · exact .inl (by omega)
      · obtain rfl | hn := List.mem_cons.mp hn
        · exact .inl (by omega)
        · exact ih hr hp hn
  | case2 xs hx => cases h

theorem separated_of_mem_pairs {xs : List Nat} (hs : xs.Pairwise (· < ·)) {p q : Nat × Nat}
    (hp : p ∈ pairs xs) (hq : q ∈ pairs xs) : q.1 ≤ p.1 ∨ p.2 < q.1 := by
  fun_induction pairs xs with
  | case1 i j r ih =>
    obtain ⟨hi, hj, hr⟩ : (i < j ∧ ∀ x ∈ r, i < x) ∧ (∀ x ∈ r, j < x) ∧ r.Pairwise (· < ·) := by
      simpa [List.pairwise_cons] using hs
    obtain rfl | hp := List.mem_cons.mp hp
    · obtain rfl | hq := List.mem_cons.mp hq
      · exact .inl (Nat.le_refl i)
      · exact .inr (hj q.1 (fst_mem_of_mem_pairs hq))
    · obtain rfl | hq := List.mem_cons.mp hq
      · exact .inl (Nat.le_of_lt (hi.2 p.1 (fst_mem_of_mem_pairs hp)))
      · exact ih hr hp hq
  | case2 xs hx => cases hp

theorem pairwise_pairs {xs : List Nat} (hs : xs.Pairwise (· < ·)) :
    (pairs xs).Pairwise fun p q => p.1 < q.1 := by
  fun_induction pairs xs with
  | case1 i j r ih =>
    obtain ⟨hi, hj, hr⟩ : (i < j ∧ ∀ x ∈ r, i < x) ∧ (∀ x ∈ r, j < x) ∧ r.Pairwise (· < ·) := by
      simpa [List.pairwise_cons] using hs
    refine List.Pairwise.cons ?_ (ih hr)
    intro p hp
    exact hi.2 p.1 (fst_mem_of_mem_pairs hp)
  | case2 xs hx => exact .nil

variable {ls : List Text} {p : Nat × Nat} {i n : Nat}

theorem not_isFence_between (h : p ∈ pairs (fences ls)) (hi : p.1 < n) (hj : n < p.2) :
    isFence ls n = false := by
  refine Bool.eq_false_iff.mpr fun hf => ?_
  have hlast := (mem_fencesBefore.mp (List.mem_of_mem_tail (snd_mem_of_mem_pairs h))).1
  have hmem : n ∈ fences ls := mem_fencesBefore.mpr ⟨by omega, hf⟩
  obtain hle | hle := not_between_of_mem_pairs (pairwise_fences ls) h hmem <;> omega

theorem not_isFence_after (h : (fences ls).getLast? = some i) (hi : i < n) (hn : n < ls.length) :
    isFence ls n = false := by
  refine Bool.eq_false_iff.mpr fun hf => ?_
  have hmem : n ∈ fences ls := mem_fencesBefore.mpr ⟨hn, hf⟩
  obtain ⟨xs, hxs⟩ := List.getLast?_eq_some_iff.mp h
  have hs := pairwise_fences ls
  rw [hxs, List.pairwise_append] at hs
  rw [hxs, List.mem_append, List.mem_singleton] at hmem
  obtain hmem | rfl := hmem
  · have hlt := hs.2.2 n hmem i (List.mem_singleton_self i)
    omega
  · exact Nat.lt_irrefl _ hi

end Between

namespace AlikeLines

variable {ls new : List Text} (h : AlikeLines ls new) (file : Path)

include h

theorem lastLine_eq : Scan.lastLine new = Scan.lastLine ls := by
  have hlast : new.getLast? = some [] ↔ ls.getLast? = some [] := by
    by_cases hn : ls.length - 1 < ls.length
    · have hline := h.line (ls.length - 1)
      rw [lineAt, lineAt, List.getElem?_eq_getElem hn, List.getElem?_eq_getElem (h.length ▸ hn)]
        at hline
      rw [List.getLast?_eq_getElem?, List.getLast?_eq_getElem?, h.length,
        List.getElem?_eq_getElem hn, List.getElem?_eq_getElem (h.length ▸ hn), Option.some_inj,
        Option.some_inj]
      exact hline.eq_nil_iff
    · have hl : ls = [] := List.eq_nil_of_length_eq_zero (by omega)
      have hnew : new = [] := List.eq_nil_of_length_eq_zero (by rw [h.length, hl]; rfl)
      rw [hl, hnew]
  rw [Scan.lastLine, Scan.lastLine, h.length]
  simp only [hlast]

theorem blocks_eq :
    blocks file new = (blocks file ls).map fun b => { b with tag := tagAt new b.openLine } := by
  rw [blocks, blocks, h.fences_eq, List.map_map]
  apply List.map_congr_left
  intro p hp
  simp only [Function.comp_apply, block, content]
  rw [h.body_eq fun n => not_isFence_between hp]

theorem unclosed_eq : unclosed file new = unclosed file ls := by
  rw [unclosed, unclosed, h.fences_eq, h.lastLine_eq, h.length]
  split
  · rfl
  · cases hl : (fences ls).getLast? with
    | none => rfl
    | some i =>
      simp only [Option.toList_some, List.map_cons, List.map_nil, content]
      rw [h.body_eq fun n => not_isFence_after hl]

theorem issues_eq (ht : ∀ b ∈ blocks file new, b.tag.isNone = false) :
    issues file new = (issues file ls).filter (·.kind != .missingLanguage) := by
  have hnew (n : Nat) :
      issuesAt file new n = if isMalformed ls n then [malformed file n] else [] := by
    have hb : ((blocks file new).filter fun b => b.closeLine == n && b.tag.isNone) = [] := by
      simp only [List.filter_eq_nil_iff]
      intro b hb
      simp [ht b hb]
    rw [issuesAt, hb, h.isMalformed_eq]
    rfl
  have hold (n : Nat) : (issuesAt file ls n).filter (·.kind != .missingLanguage) =
      if isMalformed ls n then [malformed file n] else [] := by
    have hm (bs : List Block) :
        (bs.map missing).filter (·.kind != .missingLanguage) = [] := by
      simp [List.filter_eq_nil_iff, missing]
    rw [issuesAt, List.filter_append, hm, List.nil_append]
    split <;> rfl
  have hopen : (unclosed file ls).filter (·.kind != .missingLanguage) = unclosed file ls := by
    rw [List.filter_eq_self, unclosed]
    split
    · simp
    · simp
  rw [issues, issues, List.filter_append, List.filter_flatMap, hopen, h.length, h.unclosed_eq,
    funext hnew]
  simp only [hold]

end AlikeLines

end MarkdownFences.Layout
