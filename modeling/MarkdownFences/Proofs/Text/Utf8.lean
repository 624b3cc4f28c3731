import MarkdownFences.Proofs.Result
import MarkdownFences.Text.Utf8

namespace MarkdownFences.Text

section Encode

variable {v : Nat}

theorem toNat_byte {n : Nat} (h : n < 256) : (UInt8.ofNat n).toNat = n := by
  rw [UInt8.toNat_ofNat']
  exact Nat.mod_eq_of_lt h

theorem byte_eq {b : UInt8} {n : Nat} (h : n = b.toNat) : UInt8.ofNat n = b := by
  rw [h, UInt8.ofNat_toNat]

theorem val_ofNat (h : v < 0xD800 ∨ 0xDFFF < v ∧ v < 0x110000) : (Char.ofNat v).val.toNat = v := by
  have hv : v.isValidChar := h
  rw [Char.ofNat, dif_pos hv]
  rfl

theorem encode_one (h : v < 0x80) : String.utf8EncodeChar (Char.ofNat v) = [UInt8.ofNat v] := by
  simp only [String.utf8EncodeChar, val_ofNat (v := v) (by omega)]
  rw [if_pos (by omega)]

theorem encode_two (h : 0x80 ≤ v) (h' : v < 0x800) : String.utf8EncodeChar (Char.ofNat v) =
    [UInt8.ofNat (v / 64 % 32 + 192), UInt8.ofNat (v % 64 + 128)] := by
  simp only [String.utf8EncodeChar, val_ofNat (v := v) (by omega)]
  rw [if_neg (by omega), if_pos (by omega)]

theorem encode_three (h : 0x800 ≤ v) (h' : v < 0x10000) (hs : v < 0xD800 ∨ 0xDFFF < v) :
    String.utf8EncodeChar (Char.ofNat v) =
      [UInt8.ofNat (v / 4096 % 16 + 224), UInt8.ofNat (v / 64 % 64 + 128),
        UInt8.ofNat (v % 64 + 128)] := by
  simp only [String.utf8EncodeChar, val_ofNat (v := v) (by omega)]
  rw [if_neg (by omega), if_neg (by omega), if_pos (by omega)]

theorem encode_four (h : 0x10000 ≤ v) (h' : v < 0x110000) :
    String.utf8EncodeChar (Char.ofNat v) =
      [UInt8.ofNat (v / 262144 % 8 + 240), UInt8.ofNat (v / 4096 % 64 + 128),
        UInt8.ofNat (v / 64 % 64 + 128), UInt8.ofNat (v % 64 + 128)] := by
  simp only [String.utf8EncodeChar, val_ofNat (v := v) (by omega)]
  rw [if_neg (by omega), if_neg (by omega), if_neg (by omega)]

end Encode

section Continued

variable {code taken left low high n : Nat} {b : UInt8} {r bs : List UInt8} {c : Char}

theorem continued_cons (hl : low ≤ b.toNat) (hh : b.toNat ≤ high) :
    continued code taken (left + 1) low high (b :: r) =
      continued (code * 64 + (b.toNat - 0x80)) (taken + 1) left 0x80 0xBF r := by
  rw [continued, if_pos (by simp [hl, hh])]

theorem continued_eq_char (h : continued code taken (left + 1) low high bs = (.char c, n)) :
    ∃ b r, bs = b :: r ∧ low ≤ b.toNat ∧ b.toNat ≤ high ∧
      continued (code * 64 + (b.toNat - 0x80)) (taken + 1) left 0x80 0xBF r = (.char c, n) := by
  cases bs with
  | nil => cases h
  | cons b r =>
    rw [continued] at h
    split at h
    case isTrue hb =>
      simp only [Bool.and_eq_true, decide_eq_true_eq] at hb
      exact ⟨b, r, rfl, hb.1, hb.2, h⟩
    case isFalse => cases h

theorem continued_zero {v : Nat} (h : code = v) :
    continued code taken 0 low high bs = (.char (Char.ofNat v), taken) := by
  rw [continued, h]

theorem continued_zero_eq_char (h : continued code taken 0 low high bs = (.char c, n)) :
    c = Char.ofNat code ∧ n = taken := by
  rw [continued, Prod.mk.injEq, Scalar.char.injEq] at h
  exact ⟨h.1.symm, h.2.symm⟩

end Continued

section Scalar

variable {v n : Nat} {b b₁ b₂ b₃ : UInt8} {r bs rest : List UInt8} {c : Char}

theorem scalar_two (hb : b.toNat = v / 64 % 32 + 192) (hb₁ : b₁.toNat = v % 64 + 128)
    (h : 0x80 ≤ v) (h' : v < 0x800) : scalar b (b₁ :: rest) = (.char (Char.ofNat v), 1) := by
  simp only [scalar, hb]
  rw [if_neg (by omega), if_neg (by omega), if_pos (by omega), continued_cons (by omega) (by omega)]
  exact continued_zero (by omega)

theorem scalar_three (hb : b.toNat = v / 4096 % 16 + 224) (hb₁ : b₁.toNat = v / 64 % 64 + 128)
    (hb₂ : b₂.toNat = v % 64 + 128) (h : 0x800 ≤ v) (h' : v < 0x10000)
    (hs : v < 0xD800 ∨ 0xDFFF < v) :
    scalar b (b₁ :: b₂ :: rest) = (.char (Char.ofNat v), 2) := by
  simp only [scalar, hb]
  rw [if_neg (by omega), if_neg (by omega), if_neg (by omega)]
  by_cases hE0 : v / 4096 % 16 + 224 = 0xE0
  · rw [if_pos hE0, continued_cons (by omega) (by omega), continued_cons (by omega) (by omega)]
    exact continued_zero (by omega)
  rw [if_neg hE0]
  by_cases hED : v / 4096 % 16 + 224 = 0xED
  · rw [if_pos hED, continued_cons (by omega) (by omega), continued_cons (by omega) (by omega)]
    exact continued_zero (by omega)
  rw [if_neg hED, if_pos (by omega), continued_cons (by omega) (by omega),
    continued_cons (by omega) (by omega)]
  exact continued_zero (by omega)

theorem scalar_four (hb : b.toNat = v / 262144 % 8 + 240) (hb₁ : b₁.toNat = v / 4096 % 64 + 128)
    (hb₂ : b₂.toNat = v / 64 % 64 + 128) (hb₃ : b₃.toNat = v % 64 + 128) (h : 0x10000 ≤ v)
    (h' : v < 0x110000) : scalar b (b₁ :: b₂ :: b₃ :: rest) = (.char (Char.ofNat v), 3) := by
  simp only [scalar, hb]
  rw [if_neg (by omega), if_neg (by omega), if_neg (by omega), if_neg (by omega), if_neg (by omega),
    if_neg (by omega)]
  by_cases hF0 : v / 262144 % 8 + 240 = 0xF0
  · rw [if_pos hF0, continued_cons (by omega) (by omega), continued_cons (by omega) (by omega),
      continued_cons (by omega) (by omega)]
    exact continued_zero (by omega)
  rw [if_neg hF0]
  by_cases hF4 : v / 262144 % 8 + 240 < 0xF4
  · rw [if_pos hF4, continued_cons (by omega) (by omega), continued_cons (by omega) (by omega),
      continued_cons (by omega) (by omega)]
    exact continued_zero (by omega)
  rw [if_neg hF4, if_pos (by omega), continued_cons (by omega) (by omega),
    continued_cons (by omega) (by omega), continued_cons (by omega) (by omega)]
  exact continued_zero (by omega)

theorem scalar_encode (c : Char) (rest : List UInt8) :
    ∃ b r, String.utf8EncodeChar c = b :: r ∧ scalar b (r ++ rest) = (.char c, r.length) := by
  obtain ⟨v, hv, rfl⟩ : ∃ v, (v < 0xD800 ∨ 0xDFFF < v ∧ v < 0x110000) ∧ c = Char.ofNat v :=
    ⟨c.toNat, c.valid, (Char.ofNat_toNat c).symm⟩
  by_cases h1 : v < 0x80
  · refine ⟨_, _, encode_one h1, ?_⟩
    simp only [scalar, toNat_byte (n := v) (by omega), if_pos h1, List.length_nil]
  by_cases h2 : v < 0x800
  · refine ⟨_, _, encode_two (by omega) h2, ?_⟩
    exact scalar_two (toNat_byte (by omega)) (toNat_byte (by omega)) (by omega) h2
  by_cases h3 : v < 0x10000
  · refine ⟨_, _, encode_three (by omega) h3 (by omega), ?_⟩
    exact scalar_three (toNat_byte (by omega)) (toNat_byte (by omega)) (toNat_byte (by omega))
      (by omega) h3 (by omega)
  · refine ⟨_, _, encode_four (by omega) (by omega), ?_⟩
    exact scalar_four (toNat_byte (by omega)) (toNat_byte (by omega)) (toNat_byte (by omega))
      (toNat_byte (by omega)) (by omega) (by omega)

theorem encode_of_continued_one {lead : Nat} (hb : b.toNat = lead + 192) (hl : 2 ≤ lead)
    (hl' : lead < 32) (h : continued lead 0 1 0x80 0xBF r = (.char c, n)) :
    String.utf8EncodeChar c = b :: r.take n := by
  obtain ⟨b₁, r, rfl, h1, h1', h⟩ := continued_eq_char h
  obtain ⟨hc, rfl⟩ := continued_zero_eq_char h
  have henc := encode_two (v := lead * 64 + (b₁.toNat - 128)) (by omega) (by omega)
  rw [hc, henc, byte_eq (b := b) (by omega), byte_eq (b := b₁) (by omega)]
  rfl

theorem encode_of_continued_two {lead low high : Nat} (hb : b.toNat = lead + 224) (hl : lead < 16)
    (hlow : lead = 0 → 0xA0 ≤ low) (hlow' : 0x80 ≤ low) (hhigh : lead = 13 → high ≤ 0x9F)
    (hhigh' : high ≤ 0xBF) (h : continued lead 0 2 low high r = (.char c, n)) :
    String.utf8EncodeChar c = b :: r.take n := by
  obtain ⟨b₁, r, rfl, h1, h1', h⟩ := continued_eq_char h
  obtain ⟨b₂, r, rfl, h2, h2', h⟩ := continued_eq_char h
  obtain ⟨hc, rfl⟩ := continued_zero_eq_char h
  have henc := encode_three (v := (lead * 64 + (b₁.toNat - 128)) * 64 + (b₂.toNat - 128))
    (by omega) (by omega) (by omega)
  rw [hc, henc, byte_eq (b := b) (by omega), byte_eq (b := b₁) (by omega),
    byte_eq (b := b₂) (by omega)]
  rfl

theorem encode_of_continued_three {lead low high : Nat} (hb : b.toNat = lead + 240)
    (hl : lead < 5) (hlow : lead = 0 → 0x90 ≤ low) (hlow' : 0x80 ≤ low)
    (hhigh : lead = 4 → high ≤ 0x8F) (hhigh' : high ≤ 0xBF)
    (h : continued lead 0 3 low high r = (.char c, n)) :
    String.utf8EncodeChar c = b :: r.take n := by
  obtain ⟨b₁, r, rfl, h1, h1', h⟩ := continued_eq_char h
  obtain ⟨b₂, r, rfl, h2, h2', h⟩ := continued_eq_char h
  obtain ⟨b₃, r, rfl, h3, h3', h⟩ := continued_eq_char h
  obtain ⟨hc, rfl⟩ := continued_zero_eq_char h
  have henc := encode_four
    (v := ((lead * 64 + (b₁.toNat - 128)) * 64 + (b₂.toNat - 128)) * 64 + (b₃.toNat - 128))
    (by omega) (by omega)
  rw [hc, henc, byte_eq (b := b) (by omega), byte_eq (b := b₁) (by omega),
    byte_eq (b := b₂) (by omega), byte_eq (b := b₃) (by omega)]
  rfl

theorem encode_of_scalar (h : scalar b r = (.char c, n)) :
    String.utf8EncodeChar c = b :: r.take n := by
  simp only [scalar] at h
  split at h
  case isTrue h1 =>
    rw [Prod.mk.injEq, Scalar.char.injEq] at h
    obtain ⟨rfl, rfl⟩ := h
    rw [encode_one h1, UInt8.ofNat_toNat]
    rfl
  split at h
  case isTrue => cases h
  split at h
  case isTrue => exact encode_of_continued_one (by omega) (by omega) (by omega) h
  split at h
  case isTrue =>
    exact encode_of_continued_two (by omega) (by omega) (by omega) (by omega) (by omega)
      (by omega) h
  split at h
  case isTrue =>
    exact encode_of_continued_two (by omega) (by omega) (by omega) (by omega) (by omega)
      (by omega) h
  split at h
  case isTrue =>
    exact encode_of_continued_two (by omega) (by omega) (by omega) (by omega) (by omega)
      (by omega) h
  split at h
  case isTrue =>
    exact encode_of_continued_three (by omega) (by omega) (by omega) (by omega) (by omega)
      (by omega) h
  split at h
  case isTrue =>
    exact encode_of_continued_three (by omega) (by omega) (by omega) (by omega) (by omega)
      (by omega) h
  split at h
  case isTrue =>
    exact encode_of_continued_three (by omega) (by omega) (by omega) (by omega) (by omega)
      (by omega) h
  case isFalse => cases h

end Scalar

theorem toUtf8_cons (c : Char) (t : Text) : toUtf8 (c :: t) = String.utf8EncodeChar c ++ toUtf8 t :=
  rfl

theorem ofScalars_toUtf8 (position : Nat) (t : Text) :
    ofScalars position (scalars (toUtf8 t)) = .ok t := by
  induction t generalizing position with
  | nil =>
    rw [toUtf8, List.flatMap_nil, scalars]
    rfl
  | cons c t ih =>
    obtain ⟨b, r, hc, hs⟩ := scalar_encode c (toUtf8 t)
    rw [toUtf8_cons, hc, List.cons_append, scalars]
    simp only [hs, List.drop_left, ofScalars, ih]
    rfl

theorem ofUtf8_toUtf8 (t : Text) : ofUtf8 (toUtf8 t) = .ok t := ofScalars_toUtf8 0 t

theorem toUtf8_inj {t u : Text} (h : toUtf8 t = toUtf8 u) : t = u := by
  have ht := ofUtf8_toUtf8 t
  rw [h, ofUtf8_toUtf8] at ht
  exact (Except.ok.inj ht).symm

theorem toUtf8_of_ofScalars {bs : List UInt8} {position : Nat} {t : Text}
    (h : ofScalars position (scalars bs) = .ok t) : toUtf8 t = bs := by
  fun_induction scalars bs generalizing position t with
  | case1 =>
    obtain rfl := Except.ok.inj h
    rfl
  | case2 b r s n hs ih =>
    cases s with
    | bad flaw => cases h
    | char c =>
      rw [ofScalars] at h
      obtain ⟨t, ht, rfl⟩ := ok_of_map h
      rw [toUtf8_cons, ih ht, encode_of_scalar hs, List.cons_append, List.take_append_drop]

theorem toUtf8_of_ofUtf8 {bs : List UInt8} {t : Text} (h : ofUtf8 bs = .ok t) : toUtf8 t = bs :=
  toUtf8_of_ofScalars h

end MarkdownFences.Text
