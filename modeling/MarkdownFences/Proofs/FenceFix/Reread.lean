import MarkdownFences.Proofs.Fence.LineEnd
import MarkdownFences.Proofs.FenceFix.Rescan

namespace MarkdownFences.FenceFix

open Fence Text

variable {fs : List FenceFix} {i n : Nat} {l new : Text} {ls news : List Text}

theorem Settles.chomp (hn : '\n' ∉ l) (hr : '\r' ∉ chomp l) (ht : ∀ f ∈ fs, IsTag f.tag)
    (h : Settles fs i l new) :
    Settles fs i (Text.chomp l) (Text.chomp new) ∧ '\r' ∉ Text.chomp new := by
  rw [Settles] at h ⊢
  rw [trim_chomp]
  split at h
  case h_1 => exact ⟨congrArg Text.chomp h, h ▸ hr⟩
  case h_2 f hf =>
    have hf : f ∈ fs := (List.mem_filter.mp (List.mem_of_getLast? hf)).1
    split at h
    case isTrue hfence =>
      rw [if_pos hfence]
      exact retag_chomp hn hr (ht f hf) h
    case isFalse hfence =>
      rw [if_neg hfence]
      exact ⟨congrArg Text.chomp h, h ▸ hr⟩

theorem Settles.getLast?_eq (hn : '\n' ∉ l) (ht : ∀ f ∈ fs, IsTag f.tag)
    (h : Settles fs i l new) : new.getLast? = some '\r' ↔ l.getLast? = some '\r' := by
  obtain rfl | ⟨-, f, hf, hr⟩ := h.eq_or_retag
  · rfl
  · exact getLast?_retag hn (ht f hf) hr

theorem settles_of_onLine_eq_nil (h : onLine fs i = []) (l : Text) : Settles fs i l l := by
  rw [Settles, h]
  rfl

theorem settles_nil (fs : List FenceFix) (i : Nat) : Settles fs i [] [] := by
  rw [Settles]
  split <;> rfl

/-- Every line ends with a carriage return that did so before, and no other one. -/
def SameEnds (ls news : List Text) : Prop :=
  ∀ (i : Nat) (l new : Text), ls[i]? = some l → news[i]? = some new →
    (new.getLast? = some '\r' ↔ l.getLast? = some '\r')

/-- Lines that agree from one on, and before it are plain and end alike, are read alike from
there on. -/
theorem exists_rest (hlen : news.length = ls.length) (hne : ls ≠ []) (hn : ∀ l ∈ ls, '\n' ∉ l)
    (hn' : ∀ l ∈ news, '\n' ∉ l) (hp : PlainLines (ls.take n)) (hp' : PlainLines (news.take n))
    (hdrop : news.drop n = ls.drop n)
    (hends : SameEnds ls news) :
    ∃ rest, lines (ofFileText (unlines ls)) = (ls.take n).map chomp ++ rest ∧
      lines (ofFileText (unlines news)) = (news.take n).map chomp ++ rest ∧
      (ls.length ≤ n → ∀ l ∈ rest, l = []) := by
  by_cases hlt : n < ls.length
  · have hrest : ls.drop n ≠ [] := List.drop_eq_nil_iff.not.mpr (Nat.not_le.mpr hlt)
    refine ⟨lines (ofFileText (unlines (ls.drop n))), ?_, ?_,
      fun h => absurd hlt (Nat.not_lt.mpr h)⟩
    · conv_lhs => rw [← List.take_append_drop n ls]
      exact lines_ofFileText_append (fun l hl => hn l (List.mem_of_mem_take hl)) hp hrest
    · conv_lhs => rw [← List.take_append_drop n news, hdrop]
      exact lines_ofFileText_append (fun l hl => hn' l (List.mem_of_mem_take hl)) hp' hrest
  · have hle : ls.length ≤ n := Nat.le_of_not_lt hlt
    rw [List.take_of_length_le hle] at hp ⊢
    rw [List.take_of_length_le (hlen ▸ hle)] at hp' ⊢
    obtain ⟨init, last, rfl⟩ : ∃ init last, ls = init ++ [last] :=
      ⟨_, _, (List.dropLast_concat_getLast hne).symm⟩
    have hne' : news ≠ [] := by
      rintro rfl
      simp at hlen
    obtain ⟨init', last', rfl⟩ : ∃ init last, news = init ++ [last] :=
      ⟨_, _, (List.dropLast_concat_getLast hne').symm⟩
    have hinit : init'.length = init.length := by simpa using hlen
    -- the last line is read as two if a carriage return ends it, before the fixes and after
    have hlast : extra last' = extra last := by
      have hend := hends init.length last last' (by simp) (by simp [← hinit])
      simp only [extra, hend]
    refine ⟨extra last, lines_ofFileText_concat hn hp, ?_, fun _ l hl => ?_⟩
    · rw [← hlast]
      exact lines_ofFileText_concat hn' hp'
    · rw [extra] at hl
      split at hl
      · exact List.mem_singleton.mp hl
      · cases hl

theorem exists_bound {t : Text} (h : ∀ f ∈ fs, IsPlainTo (f.line.toNat + 1) t) :
    ∃ n, IsPlainTo n t ∧ ∀ f ∈ fs, f.line.toNat < n := by
  induction fs with
  | nil => exact ⟨0, by simp [IsPlainTo, PlainLines], nofun⟩
  | cons f fs ih =>
    obtain ⟨hf, hfs⟩ := List.forall_mem_cons.mp h
    obtain ⟨n, hn, hlt⟩ := ih hfs
    by_cases hle : n ≤ f.line.toNat + 1
    · refine ⟨f.line.toNat + 1, hf, List.forall_mem_cons.mpr ⟨Nat.lt_succ_self _, ?_⟩⟩
      exact fun g hg => Nat.lt_of_lt_of_le (hlt g hg) hle
    · exact ⟨n, hn, List.forall_mem_cons.mpr ⟨by omega, hlt⟩⟩

theorem onLine_eq_nil (hb : ∀ f ∈ fs, f.line.toNat < n) (hi : n ≤ i) : onLine fs i = [] := by
  simp only [onLine, List.filter_eq_nil_iff, beq_iff_eq]
  intro f hf
  have hlt := hb f hf
  omega

namespace SettlesAll

theorem get (h : SettlesAll fs ls news) (hl : ls[i]? = some l) (hnew : news[i]? = some new) :
    Settles fs i l new := by
  obtain ⟨new', hnew', hs⟩ := h.line i l hl
  rw [hnew] at hnew'
  obtain rfl := Option.some.inj hnew'
  exact hs

theorem sameEnds (hn : ∀ l ∈ ls, '\n' ∉ l) (ht : ∀ f ∈ fs, IsTag f.tag)
    (h : SettlesAll fs ls news) : SameEnds ls news :=
  fun _ l _ hl hnew => (h.get hl hnew).getLast?_eq (hn l (List.mem_of_getElem? hl)) ht

theorem exists_old (h : SettlesAll fs ls news) (hnew : news[i]? = some new) :
    ∃ l, ls[i]? = some l :=
  ⟨_, List.getElem?_eq_getElem (h.length ▸ (List.getElem?_eq_some_iff.mp hnew).1)⟩

theorem eq_of_le (hb : ∀ f ∈ fs, f.line.toNat < n) (h : SettlesAll fs ls news) (hi : n ≤ i)
    (hl : ls[i]? = some l) (hnew : news[i]? = some new) : new = l := by
  have hs := h.get hl hnew
  rwa [Settles, onLine_eq_nil hb hi] at hs

theorem drop_eq (hb : ∀ f ∈ fs, f.line.toNat < n) (h : SettlesAll fs ls news) :
    news.drop n = ls.drop n := by
  apply List.ext_getElem?
  intro k
  rw [List.getElem?_drop, List.getElem?_drop]
  cases hl : ls[n + k]? with
  | none =>
    rw [List.getElem?_eq_none_iff] at hl ⊢
    rwa [h.length]
  | some l =>
    obtain ⟨new, hnew, -⟩ := h.line (n + k) l hl
    rw [hnew, h.eq_of_le hb (Nat.le_add_right n k) hl hnew]

theorem chomp (ht : ∀ f ∈ fs, IsTag f.tag) (hn : ∀ l ∈ ls, '\n' ∉ l) (hp : PlainLines (ls.take n))
    (h : SettlesAll fs ls news) (hi : i < n) (hl : ls[i]? = some l) (hnew : news[i]? = some new) :
    Settles fs i (Text.chomp l) (Text.chomp new) ∧ '\r' ∉ Text.chomp new := by
  refine (h.get hl hnew).chomp (hn l (List.mem_of_getElem? hl)) ?_ ht
  exact hp l (List.mem_of_getElem? (i := i) (by rw [List.getElem?_take, if_pos hi, hl]))

theorem plainLines (ht : ∀ f ∈ fs, IsTag f.tag) (hn : ∀ l ∈ ls, '\n' ∉ l)
    (hp : PlainLines (ls.take n)) (h : SettlesAll fs ls news) : PlainLines (news.take n) := by
  intro new hmem
  obtain ⟨i, hi, hnew⟩ := List.mem_take_iff_getElem.mp hmem
  have hnew : news[i]? = some new := by
    rw [List.getElem?_eq_getElem (by omega), hnew]
  obtain ⟨l, hl⟩ := h.exists_old hnew
  exact (h.chomp ht hn hp (by omega) hl hnew).2

/-- Fixes of lines up to which a file is plain are fixes of the same lines as it is read. -/
theorem reread {raw raw' : Text} (ht : ∀ f ∈ fs, IsTag f.tag)
    (hp : ∀ f ∈ fs, IsPlainTo (f.line.toNat + 1) raw)
    (h : SettlesAll fs (lines raw) (lines raw')) :
    SettlesAll fs (lines (ofFileText raw)) (lines (ofFileText raw')) := by
  obtain ⟨n, hplain, hb⟩ := exists_bound hp
  have hn (t : Text) : ∀ l ∈ lines t, '\n' ∉ l := fun l hl => not_mem_of_mem_lines hl
  obtain ⟨rest, hread, hread', hrest⟩ := exists_rest h.length (lines_ne_nil raw) (hn raw) (hn raw')
    hplain (h.plainLines ht (hn raw) hplain) (h.drop_eq hb)
    (h.sameEnds (hn raw) ht)
  rw [unlines_lines] at hread hread'
  have hlen : ((lines raw').take n).length = ((lines raw).take n).length := by
    rw [List.length_take, List.length_take, h.length]
  rw [hread, hread']
  refine ⟨by simp [h.length], fun i l hl => ?_⟩
  by_cases hi : i < ((lines raw).take n).length
  · have hin : i < n := by
      rw [List.length_take] at hi
      omega
    rw [List.getElem?_append_left (by rwa [List.length_map]), List.getElem?_map,
      List.getElem?_take, if_pos hin] at hl
    rw [List.getElem?_append_left (by rw [List.length_map]; omega), List.getElem?_map,
      List.getElem?_take, if_pos hin]
    obtain ⟨old, hold, rfl⟩ := Option.map_eq_some_iff.mp hl
    obtain ⟨new, hnew, -⟩ := h.line i old hold
    rw [hnew]
    exact ⟨_, rfl, (h.chomp ht (hn raw) hplain hin hold hnew).1⟩
  · rw [List.getElem?_append_right (by rw [List.length_map]; exact Nat.le_of_not_lt hi)] at hl
    rw [List.getElem?_append_right (by rw [List.length_map]; omega)]
    refine ⟨l, by rwa [List.length_map, hlen, ← List.length_map (f := Text.chomp)], ?_⟩
    by_cases hin : n ≤ i
    · exact settles_of_onLine_eq_nil (onLine_eq_nil hb hin) l
    · rw [List.length_take] at hi
      rw [hrest (by omega) l (List.mem_of_getElem? hl)]
      exact settles_nil fs i

end SettlesAll

end MarkdownFences.FenceFix
