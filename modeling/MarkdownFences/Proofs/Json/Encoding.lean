import MarkdownFences.Json.Encoding
import MarkdownFences.Proofs.Text.Utf8

namespace MarkdownFences

namespace Text

variable {b : UInt8} {c : Char} {t : Text}

theorem byte_of_mem_encode (h : b ∈ String.utf8EncodeChar c) :
    b.toNat < 0xF8 ∧ (b.toNat < 0x80 → b.toNat = c.toNat) := by
  obtain ⟨v, hv, rfl⟩ : ∃ v, (v < 0xD800 ∨ 0xDFFF < v ∧ v < 0x110000) ∧ c = Char.ofNat v :=
    ⟨c.toNat, c.valid, (Char.ofNat_toNat c).symm⟩
  by_cases h1 : v < 0x80
  · rw [encode_one h1, List.mem_singleton] at h
    have hc : (Char.ofNat v).toNat = v := val_ofNat hv
    rw [h, toNat_byte (by omega), hc]
    omega
  -- no byte of a longer character is small
  suffices hb : 0x80 ≤ b.toNat ∧ b.toNat < 0xF8 from ⟨hb.2, fun hlt => absurd hlt (by omega)⟩
  by_cases h2 : v < 0x800
  · simp only [encode_two (v := v) (by omega) h2, List.mem_cons, List.not_mem_nil, or_false] at h
    obtain rfl | rfl := h
    all_goals
      rw [toNat_byte (by omega)]
      omega
  by_cases h3 : v < 0x10000
  · simp only [encode_three (v := v) (by omega) h3 (by omega), List.mem_cons, List.not_mem_nil,
      or_false] at h
    obtain rfl | rfl | rfl := h
    all_goals
      rw [toNat_byte (by omega)]
      omega
  · simp only [encode_four (v := v) (by omega) (by omega), List.mem_cons, List.not_mem_nil,
      or_false] at h
    obtain rfl | rfl | rfl | rfl := h
    all_goals
      rw [toNat_byte (by omega)]
      omega

theorem byte_of_mem_toUtf8 (h : b ∈ toUtf8 t) :
    b.toNat < 0xF8 ∧ (b.toNat < 0x80 → ∃ c ∈ t, b.toNat = c.toNat) := by
  obtain ⟨c, hc, hb⟩ := List.mem_flatMap.mp h
  obtain ⟨hlt, heq⟩ := byte_of_mem_encode hb
  exact ⟨hlt, fun hsmall => ⟨c, hc, heq hsmall⟩⟩

theorem zero_not_mem_toUtf8 (h : '\x00' ∉ t) : 0 ∉ toUtf8 t := by
  intro hmem
  obtain ⟨c, hc, hzero⟩ := (byte_of_mem_toUtf8 hmem).2 (by decide)
  have hc0 : '\x00' = c := Char.toNat_inj.mp hzero
  exact h (hc0 ▸ hc)

end Text

namespace Json

open Text (toUtf8)

variable {t : Text} {bs : List UInt8}

theorem ofZeros_eq_utf8 (h : 0 ∉ bs) : Encoding.ofZeros bs = .utf8 := by
  have hne : ∀ b ∈ bs, ¬ b = 0 := fun b hb h0 => h (h0 ▸ hb)
  rw [Encoding.ofZeros.eq_def]
  split
  case h_1 a b =>
    rw [if_neg (hne a (by simp)), if_neg (hne b (by simp))]
  case h_2 a b c d r =>
    rw [if_neg (hne a (by simp)), if_neg (hne b (by simp))]
  case h_3 => rfl

theorem head_of_mark (h : [0xEF, 0xBB, 0xBF] <+: toUtf8 t) : t.head? = some '\uFEFF' := by
  obtain ⟨rest, hrest⟩ := h
  cases t with
  | nil => cases hrest
  | cons c t =>
    obtain ⟨b, r, hc, hs⟩ := Text.scalar_encode c (toUtf8 t)
    rw [Text.toUtf8_cons, hc] at hrest
    obtain ⟨hb, hr⟩ := List.cons.inj hrest
    have hr : r ++ toUtf8 t = 0xBB :: 0xBF :: rest := hr.symm
    rw [← hb, hr] at hs
    have hmark : Text.scalar 0xEF (0xBB :: 0xBF :: rest) = (.char '\uFEFF', 2) := rfl
    have hchar := Text.Scalar.char.inj (congrArg Prod.fst (hmark.symm.trans hs))
    rw [← hchar]
    rfl

theorem not_marked (hz : '\x00' ∉ t) (hm : t.head? ≠ some '\uFEFF') :
    marks.find? (fun m => m.1.isPrefixOf (toUtf8 t)) = none := by
  rw [List.find?_eq_none]
  intro m hmark hpre
  rw [List.isPrefixOf_iff_prefix] at hpre
  have hlt (b : UInt8) (hb : b ∈ m.1) : b.toNat < 0xF8 :=
    (Text.byte_of_mem_toUtf8 (hpre.subset hb)).1
  simp only [marks, List.mem_cons, List.not_mem_nil, or_false] at hmark
  obtain rfl | rfl | rfl | rfl | rfl := hmark
  · exact Text.zero_not_mem_toUtf8 hz (hpre.subset (by decide))
  · exact Text.zero_not_mem_toUtf8 hz (hpre.subset (by decide))
  · exact absurd (hlt 0xFE (by decide)) (by decide)
  · exact absurd (hlt 0xFE (by decide)) (by decide)
  · exact hm (head_of_mark hpre)

theorem ofScalars_eq_ok {position : Nat} {ss : List (Text.Scalar × List UInt8)}
    (h : Text.ofScalars position ss = .ok t) : ofScalars position ss = .ok t := by
  induction ss generalizing position t with
  | nil => exact h
  | cons x ss ih =>
    obtain ⟨s, bs⟩ := x
    cases s with
    | bad flaw => cases h
    | char c =>
      rw [Text.ofScalars] at h
      obtain ⟨u, hu, rfl⟩ := ok_of_map h
      rw [ofScalars, ih hu]
      rfl

theorem decode_toUtf8 (hz : '\x00' ∉ t) (hm : t.head? ≠ some '\uFEFF') :
    decode (toUtf8 t) = .ok t := by
  have hzeros := ofZeros_eq_utf8 (Text.zero_not_mem_toUtf8 hz)
  simp only [decode, not_marked hz hm, Option.getD_none, hzeros, Encoding.read, List.length_nil,
    List.drop_zero, ofScalars_eq_ok (Text.ofUtf8_toUtf8 t)]
  rfl

end Json

end MarkdownFences
