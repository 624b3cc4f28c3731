import MarkdownFences.Json.Reader
import MarkdownFences.Json.Writer
import MarkdownFences.Proofs.Text.Utf8

namespace MarkdownFences.Json

/-! A string that is written is read again. -/

theorem hexDigit?_hexDigit : ∀ d < 16, hexDigit? (Text.hexDigit d) = some d := by decide

theorem hex_four (n : Nat) : Text.hex 4 n =
    [Text.hexDigit (n / 16 / 16 / 16 % 16), Text.hexDigit (n / 16 / 16 % 16),
      Text.hexDigit (n / 16 % 16), Text.hexDigit (n % 16)] :=
  rfl

variable {n m : Nat} {r t opening : Text} {ps : Points}

theorem unit?_hex (hn : n < 0x10000) (hr : r ≠ []) : unit? (Text.hex 4 n ++ r) = some n := by
  obtain ⟨c, r, rfl⟩ := List.exists_cons_of_ne_nil hr
  have hdigit (k : Nat) : hexDigit? (Text.hexDigit (k % 16)) = some (k % 16) :=
    hexDigit?_hexDigit (k % 16) (Nat.mod_lt k (by decide))
  simp only [hex_four, List.cons_append, List.nil_append, unit?, hdigit, bind, Option.bind, pure]
  congr 1
  omega

def Ends (r : Text) : Prop :=
  ∀ v, r = '\\' :: 'u' :: v → ∃ low, unit? v = some low ∧ isLowSurrogate low = false

theorem ends_of_ne {c : Char} (hc : c ≠ '\\') (r : Text) : Ends (c :: r) := by
  intro v hv
  exact absurd (List.cons.inj hv).1 hc

theorem escape_unit (hn : n < 0x10000) (hr : r ≠ [])
    (he : isHighSurrogate n = true → Ends r) :
    escape opening ('u' :: (Text.hex 4 n ++ r)) = .ok (n, 5) := by
  have hdrop : (Text.hex 4 n ++ r).drop 4 = r := rfl
  simp only [escape, unit?_hex hn hr, hdrop]
  split
  case h_1 v =>
    split
    case isTrue hhigh =>
      obtain ⟨low, hlow, hnot⟩ := he (Bool.and_eq_true_iff.mp hhigh).1 v rfl
      simp only [hlow, hnot, Bool.false_eq_true, if_false]
    case isFalse => rfl
  case h_2 => rfl

theorem escape_pair (hn : 0x10000 ≤ n) (hlt : n < 0x110000) (hr : r ≠ []) :
    escape opening ('u' :: (Text.hex 4 (0xD800 + (n - 0x10000) / 0x400) ++
      unitEscape (0xDC00 + (n - 0x10000) % 0x400) ++ r)) = .ok (n, 11) := by
  have hdrop (u : Text) (k : Nat) : (Text.hex 4 k ++ u).drop 4 = u := rfl
  have hhigh : isHighSurrogate (0xD800 + (n - 0x10000) / 0x400) = true := by
    simp only [isHighSurrogate, Bool.and_eq_true, decide_eq_true_eq]
    omega
  have hlow : isLowSurrogate (0xDC00 + (n - 0x10000) % 0x400) = true := by
    simp only [isLowSurrogate, Bool.and_eq_true, decide_eq_true_eq]
    omega
  have hlen : 4 < (Text.hex 4 (0xDC00 + (n - 0x10000) % 0x400) ++ r).length := by
    have hpos := List.length_pos_iff.mpr hr
    simp only [hex_four, List.length_append, List.length_cons, List.length_nil]
    omega
  rw [List.append_assoc]
  simp only [escape]
  rw [unit?_hex (by omega) (by simp [unitEscape])]
  simp only [hdrop, unitEscape, List.cons_append]
  rw [hhigh, Bool.true_and, decide_eq_true hlen, if_pos rfl, unit?_hex (by omega) hr]
  have hvalue : 0x10000 + (0xD800 + (n - 0x10000) / 0x400 - 0xD800) * 0x400 +
      (0xDC00 + (n - 0x10000) % 0x400 - 0xDC00) = n := by
    omega
  simp only [hlow, if_true, hvalue]

/-- The code points of a string: both halves of a pair are one. -/
inductive Points.Whole : Points → Prop
  | nil : Whole []
  | cons {n : Nat} {ps : Points} (hn : n < 0x110000)
      (hpair : isHighSurrogate n = true → ∀ m, ps.head? = some m → isLowSurrogate m = false)
      (hps : Whole ps) : Whole (n :: ps)

theorem stringRest_unit (hn : n < 0x10000) (hr : r ≠ [])
    (he : isHighSurrogate n = true → Ends r) :
    stringRest opening (unitEscape n ++ r) =
      (stringRest opening r).map fun x => (n :: x.1, x.2) := by
  have hdrop : ('u' :: (Text.hex 4 n ++ r)).drop 5 = r := rfl
  rw [unitEscape, List.cons_append, List.cons_append, stringRest, escape_unit hn hr he]
  simp only [hdrop]
  rfl

theorem stringRest_plain (hlow : 0x20 ≤ n) (hhigh : n < 0x7F) (hquote : n ≠ 0x22)
    (hback : n ≠ 0x5C) (r : Text) :
    stringRest opening (Char.ofNat n :: r) =
      (stringRest opening r).map fun x => (n :: x.1, x.2) := by
  have hc : (Char.ofNat n).toNat = n := Text.val_ofNat (by omega)
  have hquote' : Char.ofNat n ≠ '"' := fun h => hquote (by rw [← hc, h]; rfl)
  have hback' : Char.ofNat n ≠ '\\' := fun h => hback (by rw [← hc, h]; rfl)
  rw [stringRest, if_neg hquote', if_neg hback', hc, if_neg (Nat.not_lt.mpr hlow)]

theorem stringRest_short {c : Char} (hc : escape opening (c :: r) = .ok (n, 1)) :
    stringRest opening ('\\' :: c :: r) =
      (stringRest opening r).map fun x => (n :: x.1, x.2) := by
  rw [stringRest, hc]
  rfl

theorem stringRest_pair (hn : 0x10000 ≤ n) (hlt : n < 0x110000) (hr : r ≠ []) :
    stringRest opening (unitEscape (0xD800 + (n - 0x10000) / 0x400) ++
        unitEscape (0xDC00 + (n - 0x10000) % 0x400) ++ r) =
      (stringRest opening r).map fun x => (n :: x.1, x.2) := by
  have hdrop (k l : Nat) : ('u' :: (Text.hex 4 k ++ unitEscape l ++ r)).drop 11 = r := rfl
  have hescape : escape opening ('u' :: (Text.hex 4 (0xD800 + (n - 0x10000) / 0x400) ++
      unitEscape (0xDC00 + (n - 0x10000) % 0x400) ++ r)) = .ok (n, 11) :=
    escape_pair hn hlt hr
  rw [unitEscape, List.cons_append, List.cons_append, List.cons_append, List.cons_append,
    stringRest, hescape]
  simp only [hdrop]
  rfl

theorem written_cases (n : Nat) :
    (∃ c, c ≠ 'u' ∧ 0x20 ≤ c.toNat ∧ written n = ['\\', c] ∧
      ∀ opening r, escape opening (c :: r) = .ok (n, 1)) ∨
    (0x20 ≤ n ∧ n < 0x7F ∧ n ≠ 0x22 ∧ n ≠ 0x5C ∧ written n = [Char.ofNat n]) ∨
    n < 0x10000 ∧ written n = unitEscape n ∨
    0x10000 ≤ n ∧ written n = unitEscape (0xD800 + (n - 0x10000) / 0x400) ++
      unitEscape (0xDC00 + (n - 0x10000) % 0x400) := by
  unfold written
  iterate 7
    split
    case isTrue h =>
      subst h
      exact .inl ⟨_, by decide, by decide, rfl, fun _ _ => rfl⟩
  rename_i hquote hback _ _ _ _ _
  split
  case isTrue hplain =>
    obtain ⟨hlow, hhigh⟩ := Bool.and_eq_true_iff.mp hplain
    exact .inr (.inl ⟨of_decide_eq_true hlow, of_decide_eq_true hhigh, hquote, hback, rfl⟩)
  case isFalse =>
    split
    case isTrue h => exact .inr (.inr (.inl ⟨h, rfl⟩))
    case isFalse h => exact .inr (.inr (.inr ⟨Nat.le_of_not_lt h, rfl⟩))

theorem stringRest_written (hn : n < 0x110000) (hr : r ≠ [])
    (he : isHighSurrogate n = true → Ends r) :
    stringRest opening (written n ++ r) =
      (stringRest opening r).map fun x => (n :: x.1, x.2) := by
  obtain ⟨c, -, -, hw, hc⟩ | ⟨hlow, hhigh, hquote, hback, hw⟩ | ⟨h, hw⟩ | ⟨h, hw⟩ := written_cases n
  · rw [hw]
    exact stringRest_short (hc opening r)
  · rw [hw]
    exact stringRest_plain hlow hhigh hquote hback r
  · rw [hw]
    exact stringRest_unit h hr he
  · rw [hw]
    exact stringRest_pair h hn hr

theorem ends_written (hn : n < 0x110000) (hlow : isLowSurrogate n = false) (hr : r ≠ []) :
    Ends (written n ++ r) := by
  have hunit {k : Nat} {u : Text} (hk : k < 0x10000) (hkl : isLowSurrogate k = false)
      (hu : u ≠ []) : Ends (unitEscape k ++ u) := by
    intro v hv
    rw [← (List.cons.inj (List.cons.inj hv).2).2]
    exact ⟨k, unit?_hex hk hu, hkl⟩
  obtain ⟨c, hc, -, hw, -⟩ | ⟨-, hhigh, -, hback, hw⟩ | ⟨h, hw⟩ | ⟨h, hw⟩ := written_cases n
  · rw [hw]
    intro v hv
    exact absurd (List.cons.inj (List.cons.inj hv).2).1 hc
  · have hc : (Char.ofNat n).toNat = n := Text.val_ofNat (by omega)
    rw [hw]
    exact ends_of_ne (fun h => hback (by rw [← hc, h]; rfl)) r
  · rw [hw]
    exact hunit h hlow hr
  · rw [hw, List.append_assoc]
    refine hunit (by omega) ?_ (by simp [unitEscape])
    simp only [isLowSurrogate, Bool.and_eq_false_iff, decide_eq_false_iff_not]
    omega

theorem stringRest_writeString (h : ps.Whole) (r : Text) :
    stringRest opening (ps.flatMap written ++ '"' :: r) = .ok (ps, r) := by
  induction h with
  | nil => rw [List.flatMap_nil, List.nil_append, stringRest, if_pos rfl]
  | @cons n ps hn hpair hps ih =>
    have hne : ps.flatMap written ++ '"' :: r ≠ [] := by simp
    rw [List.flatMap_cons, List.append_assoc, stringRest_written hn hne, ih]
    · rfl
    · intro hhigh
      cases hps with
      | nil => exact ends_of_ne (by decide) r
      | @cons m ps hm _ _ =>
        rw [List.flatMap_cons, List.append_assoc]
        exact ends_written hm (hpair hhigh m rfl) (by simp)

/-! The code points of a string that is read are whole. -/

theorem hexDigit?_lt {c : Char} {d : Nat} (h : hexDigit? c = some d) : d < 16 := by
  unfold hexDigit? at h
  split at h
  case isTrue hc =>
    simp only [Text.isAsciiDigit, Bool.and_eq_true, decide_eq_true_eq] at hc
    obtain rfl := Option.some.inj h
    have hhigh : c.toNat ≤ 0x39 := hc.2
    omega
  case isFalse =>
    split at h
    case isTrue hc =>
      simp only [Bool.and_eq_true, decide_eq_true_eq] at hc
      obtain rfl := Option.some.inj h
      have hhigh : c.toNat ≤ 0x66 := hc.2
      omega
    case isFalse =>
      split at h
      case isTrue hc =>
        simp only [Bool.and_eq_true, decide_eq_true_eq] at hc
        obtain rfl := Option.some.inj h
        have hhigh : c.toNat ≤ 0x46 := hc.2
        omega
      case isFalse => cases h

theorem unit?_some (h : unit? t = some n) : n < 0x10000 ∧ 4 < t.length := by
  unfold unit? at h
  split at h
  case h_1 a b c d e r =>
    simp only [bind, Option.bind_eq_some_iff, pure, Option.some.injEq] at h
    obtain ⟨a', ha, b', hb, c', hc, d', hd, rfl⟩ := h
    have := hexDigit?_lt ha
    have := hexDigit?_lt hb
    have := hexDigit?_lt hc
    have := hexDigit?_lt hd
    exact ⟨by omega, by simp⟩
  case h_2 => cases h

theorem escape_unicode_cases {u : Text} {size : Nat}
    (h : escape opening ('u' :: u) = .ok (n, size)) :
    (unit? u = some n ∧ size = 5 ∧ (isHighSurrogate n = true →
      ∀ v, u.drop 4 = '\\' :: 'u' :: v → ∀ low, unit? v = some low → isLowSurrogate low = false)) ∨
      0x10000 ≤ n ∧ n < 0x110000 := by
  simp only [escape] at h
  split at h
  case h_1 => cases h
  case h_2 high hhigh =>
    split at h
    case h_1 v hv =>
      split at h
      case isTrue hpair =>
        have hsurrogate := (Bool.and_eq_true_iff.mp hpair).1
        split at h
        case h_1 => cases h
        case h_2 low hlow =>
          split at h
          case isTrue hsecond =>
            right
            obtain ⟨rfl, -⟩ := Prod.mk.inj (Except.ok.inj h)
            -- both halves of a pair, of which neither is kept
            simp only [isHighSurrogate, Bool.and_eq_true, decide_eq_true_eq] at hsurrogate
            simp only [isLowSurrogate, Bool.and_eq_true, decide_eq_true_eq] at hsecond
            omega
          case isFalse hsecond =>
            left
            obtain ⟨rfl, rfl⟩ := Prod.mk.inj (Except.ok.inj h)
            refine ⟨hhigh, rfl, fun _ v' hv' low' hlow' => ?_⟩
            rw [hv] at hv'
            obtain rfl := (List.cons.inj (List.cons.inj hv').2).2
            rw [hlow] at hlow'
            obtain rfl := Option.some.inj hlow'
            simpa using hsecond
      case isFalse hpair =>
        left
        obtain ⟨rfl, rfl⟩ := Prod.mk.inj (Except.ok.inj h)
        refine ⟨hhigh, rfl, fun hsurrogate v' hv' low' hlow' => ?_⟩
        rw [hv] at hv'
        obtain rfl := (List.cons.inj (List.cons.inj hv').2).2
        simp [hsurrogate, (unit?_some hlow').2] at hpair
    case h_2 hno =>
      left
      obtain ⟨rfl, rfl⟩ := Prod.mk.inj (Except.ok.inj h)
      exact ⟨hhigh, rfl, fun _ v' hv' => absurd hv' (hno v')⟩

theorem escape_cases {size : Nat} (h : escape opening r = .ok (n, size)) :
    (∃ u, r = 'u' :: u ∧ unit? u = some n ∧ size = 5 ∧ (isHighSurrogate n = true →
      ∀ v, u.drop 4 = '\\' :: 'u' :: v → ∀ low, unit? v = some low → isLowSurrogate low = false)) ∨
      0x10000 ≤ n ∧ n < 0x110000 ∨ n < 0x80 := by
  by_cases hu : r.head? = some 'u'
  · obtain ⟨u, rfl⟩ := List.head?_eq_some_iff.mp hu
    obtain hunit | hpair := escape_unicode_cases h
    · exact .inl ⟨u, rfl, hunit⟩
    · exact .inr (.inl hpair)
  · right; right
    unfold escape at h
    split at h
    case h_1 => cases h
    case h_2 => exact absurd rfl hu
    case h_3 c r _ =>
      split at h
      case h_1 d hd =>
        obtain ⟨rfl, -⟩ := Prod.mk.inj (Except.ok.inj h)
        obtain ⟨l₁, l₂, hl, -⟩ := List.lookup_eq_some_iff.mp hd
        have hall : ∀ e ∈ "\"\\/bfnrt".toList.zip "\"\\/\x08\x0c\n\r\t".toList,
            e.2.toNat < 0x80 := by
          decide
        exact hall (c, d) (by rw [hl]; simp)
      case h_2 => cases h

theorem not_isLowSurrogate (h : n < 0xD800 ∨ 0xDFFF < n) : isLowSurrogate n = false := by
  simp only [isLowSurrogate, Bool.and_eq_false_iff, decide_eq_false_iff_not]
  omega

theorem not_isHighSurrogate (h : n < 0xD800 ∨ 0xDFFF < n) : isHighSurrogate n = false := by
  simp only [isHighSurrogate, Bool.and_eq_false_iff, decide_eq_false_iff_not]
  omega

theorem char_range (c : Char) : c.toNat < 0xD800 ∨ 0xDFFF < c.toNat ∧ c.toNat < 0x110000 :=
  c.valid

theorem exists_of_map {e : Except Stop (Points × Text)} {qs : Points} {v : Text}
    (h : (e.map fun x => (n :: x.1, x.2)) = .ok (qs, v)) :
    ∃ ps, e = .ok (ps, v) ∧ qs = n :: ps := by
  cases e with
  | error e => cases h
  | ok x =>
    obtain ⟨rfl, rfl⟩ := Prod.mk.inj (Except.ok.inj h)
    exact ⟨x.1, rfl, rfl⟩

theorem unit?_of_stringRest {v : Text} (h : stringRest opening t = .ok (m :: ps, v))
    (hm : isLowSurrogate m = true) : ∃ u, t = '\\' :: 'u' :: u ∧ unit? u = some m := by
  unfold stringRest at h
  split at h
  case h_1 => cases h
  case h_2 c r =>
    split at h
    · cases h
    · split at h
      case isTrue hc =>
        split at h
        case h_1 => cases h
        case h_2 n size hescape =>
          obtain ⟨qs, -, hcons⟩ := exists_of_map h
          obtain ⟨rfl, -⟩ := List.cons.inj hcons
          obtain ⟨u, rfl, hunit, -⟩ | ⟨hlow, -⟩ | hlow := escape_cases hescape
          · exact ⟨u, by rw [hc], hunit⟩
          · rw [not_isLowSurrogate (by omega)] at hm
            cases hm
          · rw [not_isLowSurrogate (by omega)] at hm
            cases hm
      case isFalse =>
        split at h
        · cases h
        · obtain ⟨qs, -, hcons⟩ := exists_of_map h
          obtain ⟨rfl, -⟩ := List.cons.inj hcons
          rw [not_isLowSurrogate ((char_range c).imp_right And.left)] at hm
          cases hm

theorem whole_of_stringRest {v : Text} (h : stringRest opening t = .ok (ps, v)) : ps.Whole := by
  fun_induction stringRest opening t generalizing ps v with
  | case1 => cases h
  | case2 =>
    obtain ⟨rfl, -⟩ := Prod.mk.inj (Except.ok.inj h)
    exact .nil
  | case3 r e => cases h
  | case4 r n size hescape _ ih =>
    obtain ⟨qs, hrest, rfl⟩ := exists_of_map h
    obtain ⟨u, rfl, hunit, rfl, hnot⟩ | ⟨hlow, hhigh⟩ | hlow := escape_cases hescape
    · refine .cons (Nat.lt_trans (unit?_some hunit).1 (by decide)) (fun hn m hm => ?_) (ih hrest)
      obtain ⟨qs, rfl⟩ := List.head?_eq_some_iff.mp hm
      refine Bool.eq_false_iff.mpr fun hlow => ?_
      obtain ⟨w, hw, hsecond⟩ := unit?_of_stringRest hrest hlow
      rw [hnot hn w hw m hsecond] at hlow
      cases hlow
    · refine .cons hhigh (fun hn => ?_) (ih hrest)
      rw [not_isHighSurrogate (by omega)] at hn
      cases hn
    · refine .cons (by omega) (fun hn => ?_) (ih hrest)
      rw [not_isHighSurrogate (by omega)] at hn
      cases hn
  | case5 => cases h
  | case6 c r _ _ _ ih =>
    obtain ⟨qs, hrest, rfl⟩ := exists_of_map h
    refine .cons ?_ (fun hn => ?_) (ih hrest)
    · have := char_range c
      omega
    · rw [not_isHighSurrogate ((char_range c).imp_right And.left)] at hn
      cases hn

theorem whole_ofText (t : Text) : (Points.ofText t).Whole := by
  induction t with
  | nil => exact .nil
  | cons c t ih =>
    refine .cons ?_ (fun hn => ?_) ih
    · have := char_range c
      omega
    · rw [not_isHighSurrogate ((char_range c).imp_right And.left)] at hn
      cases hn

end MarkdownFences.Json
