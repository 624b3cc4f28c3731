import MarkdownFences.Proofs.Text.Trim
import MarkdownFences.Proofs.Text.Utf8
import MarkdownFences.Text.Case

namespace MarkdownFences.Text

/-- A text put together from parts that stand for the characters of another in turn. -/
inductive Spelled (R : Char → Text → Prop) : Text → Text → Prop
  | nil : Spelled R [] []
  | cons {c : Char} {x s t : Text} : R c x → Spelled R s t → Spelled R (c :: s) (x ++ t)

def Keeps (R : Char → Text → Prop) (p : Char → Bool) : Prop :=
  ∀ c x, R c x → x ≠ [] ∧ ∀ d ∈ x, p d = p c

namespace Spelled

variable {R : Char → Text → Prop} {p : Char → Bool} {s t s' t' : Text} {c : Char}

theorem append (h : Spelled R s t) (h' : Spelled R s' t') : Spelled R (s ++ s') (t ++ t') := by
  induction h with
  | nil => exact h'
  | cons hc _ ih =>
    rw [List.cons_append, List.append_assoc]
    exact .cons hc ih

theorem reverse (h : Spelled R s t) :
    Spelled (fun c x => R c x.reverse) s.reverse t.reverse := by
  induction h with
  | nil => exact .nil
  | @cons c x s t hc _ ih =>
    have hlast : Spelled (fun c x => R c x.reverse) [c] x.reverse := by
      have h := Spelled.cons (R := fun c x => R c x.reverse) (x := x.reverse)
        (by rwa [List.reverse_reverse]) .nil
      rwa [List.append_nil] at h
    rw [List.reverse_cons, List.reverse_append]
    exact ih.append hlast

theorem mem (h : Spelled R s t) (hc : c ∈ s) : ∃ x, R c x ∧ ∀ d ∈ x, d ∈ t := by
  induction h with
  | nil => cases hc
  | @cons b x s t hb _ ih =>
    obtain rfl | hc := List.mem_cons.mp hc
    · exact ⟨x, hb, fun d hd => List.mem_append_left t hd⟩
    · obtain ⟨y, hy, hmem⟩ := ih hc
      exact ⟨y, hy, fun d hd => List.mem_append_right x (hmem d hd)⟩

theorem takeWhile (hp : Keeps R p) (h : Spelled R s t) :
    Spelled R (s.takeWhile p) (t.takeWhile p) := by
  induction h with
  | nil => exact .nil
  | @cons c x s t hc _ ih =>
    obtain ⟨hne, hx⟩ := hp c x hc
    cases hpc : p c with
    | true =>
      rw [List.takeWhile_cons_of_pos hpc,
        List.takeWhile_append_of_pos fun d hd => (hx d hd).trans hpc]
      exact .cons hc ih
    | false =>
      obtain ⟨d, r, rfl⟩ := List.exists_cons_of_ne_nil hne
      have hd : p d = false := (hx d List.mem_cons_self).trans hpc
      rw [List.takeWhile_cons_of_neg (by simp [hpc]), List.cons_append,
        List.takeWhile_cons_of_neg (by simp [hd])]
      exact .nil

theorem dropWhile (hp : Keeps R p) (h : Spelled R s t) :
    Spelled R (s.dropWhile p) (t.dropWhile p) := by
  induction h with
  | nil => exact .nil
  | @cons c x s t hc hst ih =>
    obtain ⟨hne, hx⟩ := hp c x hc
    cases hpc : p c with
    | true =>
      rwa [List.dropWhile_cons_of_pos hpc,
        List.dropWhile_append_of_pos fun d hd => (hx d hd).trans hpc]
    | false =>
      have hkept : (x ++ t).dropWhile p = x ++ t := by
        obtain ⟨d, r, rfl⟩ := List.exists_cons_of_ne_nil hne
        have hd : p d = false := (hx d List.mem_cons_self).trans hpc
        exact List.dropWhile_cons_of_neg (by simp [hd])
      rw [List.dropWhile_cons_of_neg (by simp [hpc]), hkept]
      exact .cons hc hst

theorem dropEnding (hp : Keeps R p) (h : Spelled R s t) :
    Spelled R (Text.dropEnding p s) (Text.dropEnding p t) := by
  have hp' : Keeps (fun c x => R c x.reverse) p := by
    intro c x hc
    obtain ⟨hne, hx⟩ := hp c x.reverse hc
    exact ⟨by simpa using hne, fun d hd => hx d (List.mem_reverse.mpr hd)⟩
  have hdrop := (h.reverse.dropWhile hp').reverse
  simp only [List.reverse_reverse] at hdrop
  exact hdrop

end Spelled

theorem Keeps.not {R : Char → Text → Prop} {p : Char → Bool} (h : Keeps R p) :
    Keeps R fun c => !p c := by
  intro c x hc
  obtain ⟨hne, hx⟩ := h c x hc
  exact ⟨hne, fun d hd => congrArg (!·) (hx d hd)⟩

def isSmallSigma (c : Char) : Bool := c == '\u03C3' || c == '\u03C2'

/-- How a character can be written in lower case. What becomes of a capital sigma depends on its
place. -/
def IsLowerForm (c : Char) (x : Text) : Prop :=
  if c = '\u03A3' then ∃ d, isSmallSigma d = true ∧ x = [d] else x = lowerChar c

theorem isLowerForm_lower (c : Char) (back r : Text) : IsLowerForm c
    (if c = '\u03A3' then [if casedNext back && !casedNext r then '\u03C2' else '\u03C3']
      else lowerChar c) := by
  rw [IsLowerForm]
  split
  · refine ⟨_, ?_, rfl⟩
    split <;> rfl
  · rfl

theorem spelled_lowerAfter (back t : Text) : Spelled IsLowerForm t (lowerAfter back t) := by
  induction t generalizing back with
  | nil => exact .nil
  | cons c r ih => exact .cons (isLowerForm_lower c back r) (ih (c :: back))

theorem spelled_lower (t : Text) : Spelled IsLowerForm t (lower t) := spelled_lowerAfter [] t

/-- Only a capital sigma leaves a choice. -/
theorem Spelled.eq_of_isLowerForm {s t t' : Text} (h : Spelled IsLowerForm s t)
    (hsigma : ∀ c ∈ t, isSmallSigma c = false) (h' : Spelled IsLowerForm s t') : t' = t := by
  induction h generalizing t' with
  | nil =>
    cases h'
    rfl
  | @cons c x s t hc _ ih =>
    obtain ⟨hx, ht⟩ := List.forall_mem_append.mp hsigma
    cases h' with
    | @cons _ x' _ t' hc' hst' =>
      rw [ih ht hst']
      rw [IsLowerForm] at hc hc'
      split at hc
      case isTrue =>
        obtain ⟨d, hd, rfl⟩ := hc
        rw [hx d List.mem_cons_self] at hd
        cases hd
      case isFalse hne =>
        rw [if_neg hne] at hc'
        rw [hc, hc']

/-- A character that has no lower-case form other than itself and is in that of no other. -/
def IsUncased (d : Char) : Prop :=
  isAsciiLetter d = false ∧ d ∉ ['\x00', '\u0130', '\u0307', '\u03A3', '\u03C2', '\u03C3'] ∧
    ∀ r ∈ lowerRuns, (d.toNat < r.1 ∨ r.2.1 < d.toNat) ∧
      (d.toNat < r.2.2.2 ∨ r.2.2.2 + (r.2.1 - r.1) < d.toNat)

instance (d : Char) : Decidable (IsUncased d) := inferInstanceAs (Decidable (_ ∧ _ ∧ _))

theorem exists_of_image? {runs : CaseRuns} {n m : Nat} (h : runs.image? n = some m) :
    ∃ r ∈ runs, r.1 ≤ n ∧ n ≤ r.2.1 ∧ m = r.2.2.2 + (n - r.1) := by
  obtain ⟨r, hr, rfl⟩ := Option.map_eq_some_iff.mp h
  have hfits := List.find?_some hr
  simp only [Bool.and_eq_true, decide_eq_true_eq] at hfits
  exact ⟨r, List.mem_of_find?_eq_some hr, hfits.1.1, hfits.1.2, rfl⟩

theorem toNat_ofNat_cases (n : Nat) : (Char.ofNat n).toNat = n ∨ Char.ofNat n = '\x00' := by
  by_cases h : n.isValidChar
  · exact .inl (val_ofNat h)
  · rw [Char.ofNat, dif_neg h]
    exact .inr rfl

variable {c d : Char}

theorem eq_of_toNat {n : Nat} (h : c.toNat = n) : c = Char.ofNat n := by
  rw [← h, Char.ofNat_toNat]

theorem isAsciiLetter_lower (h : isAsciiUpper c = true) :
    isAsciiLetter (Char.ofNat (c.toNat + 32)) = true := by
  have hsmall : ∀ n < 26, isAsciiLetter (Char.ofNat (65 + n + 32)) = true := by decide
  simp only [isAsciiUpper, Bool.and_eq_true, decide_eq_true_eq, Char.le_def,
    UInt32.le_iff_toNat_le] at h
  have hlow : 65 ≤ c.toNat := h.1
  have hhigh : c.toNat ≤ 90 := h.2
  have hc := hsmall (c.toNat - 65) (by omega)
  rwa [Nat.add_sub_cancel' hlow] at hc

theorem lowerChar_ne_nil (c : Char) : lowerChar c ≠ [] := by
  rw [lowerChar]
  split
  case isTrue => exact List.cons_ne_nil _ _
  case isFalse =>
    split
    case isTrue => exact List.cons_ne_nil _ _
    case isFalse => split <;> exact List.cons_ne_nil _ _

theorem lowerChar_of_isUncased (h : IsUncased d) : lowerChar d = [d] := by
  obtain ⟨hletter, hmarks, hruns⟩ := h
  have hupper : isAsciiUpper d = false := (Bool.or_eq_false_iff.mp hletter).1
  have hdotted : d.toNat ≠ 0x130 := fun he => hmarks (by rw [eq_of_toNat he]; decide)
  have himage : lowerRuns.image? d.toNat = none := by
    cases hm : lowerRuns.image? d.toNat with
    | none => rfl
    | some m =>
      obtain ⟨r, hr, hlow, hhigh, -⟩ := exists_of_image? hm
      have hapart := (hruns r hr).1
      omega
  simp [lowerChar, hupper, hdotted, himage]

theorem eq_of_mem_lowerChar (h : IsUncased d) (hd : d ∈ lowerChar c) : c = d := by
  obtain ⟨hletter, hmarks, hruns⟩ := h
  rw [lowerChar] at hd
  split at hd
  case isTrue hupper =>
    rw [List.mem_singleton.mp hd, isAsciiLetter_lower hupper] at hletter
    cases hletter
  case isFalse =>
    split at hd
    case isTrue => exact (List.mem_singleton.mp hd).symm
    case isFalse =>
      split at hd
      case isTrue =>
        obtain rfl | hd := List.mem_cons.mp hd
        · cases hletter
        · rw [List.mem_singleton.mp hd] at hmarks
          exact absurd (by decide) hmarks
      case isFalse =>
        cases hm : lowerRuns.image? c.toNat with
        | none =>
          rw [hm] at hd
          exact (List.mem_singleton.mp hd).symm
        | some m =>
          obtain ⟨r, hr, hlow, hhigh, hrun⟩ := exists_of_image? hm
          rw [hm] at hd
          obtain hnat | hnull := toNat_ofNat_cases m
          · have hapart := (hruns r hr).2
            rw [List.mem_singleton.mp hd, Option.map_some, Option.getD_some, hnat] at hapart
            omega
          · rw [List.mem_singleton.mp hd, Option.map_some, Option.getD_some, hnull] at hmarks
            exact absurd List.mem_cons_self hmarks

namespace IsLowerForm

variable {x : Text}

theorem ne_nil (h : IsLowerForm c x) : x ≠ [] := by
  rw [IsLowerForm] at h
  split at h
  case isTrue =>
    obtain ⟨d, -, rfl⟩ := h
    exact List.cons_ne_nil d []
  case isFalse =>
    rw [h]
    exact lowerChar_ne_nil c

theorem eq_singleton (h : IsLowerForm c x) (hc : IsUncased c) : x = [c] := by
  rw [IsLowerForm, if_neg] at h
  · rw [h, lowerChar_of_isUncased hc]
  · rintro rfl
    exact hc.2.1 (by decide)

theorem eq_of_mem (h : IsLowerForm c x) (hd : IsUncased d) (hmem : d ∈ x) : c = d := by
  rw [IsLowerForm] at h
  split at h
  case isTrue =>
    obtain ⟨e, he, rfl⟩ := h
    obtain rfl := List.mem_singleton.mp hmem
    rw [isSmallSigma, Bool.or_eq_true, beq_iff_eq, beq_iff_eq] at he
    exact absurd (by obtain rfl | rfl := he <;> decide) hd.2.1
  case isFalse =>
    rw [h] at hmem
    exact eq_of_mem_lowerChar hd hmem

end IsLowerForm

theorem keeps_of_isUncased {p : Char → Bool} (h : ∀ d, p d = true → IsUncased d) :
    Keeps IsLowerForm p := by
  refine fun c x hx => ⟨hx.ne_nil, fun d hd => ?_⟩
  cases hc : p c with
  | true =>
    rw [hx.eq_singleton (h c hc)] at hd
    rw [List.mem_singleton.mp hd, hc]
  | false =>
    cases hpd : p d with
    | false => rfl
    | true => rw [← hc, hx.eq_of_mem (h d hpd) hd, hpd]

theorem isUncased_of_blankPoints : ∀ n ∈ blankPoints, IsUncased (Char.ofNat n) := by
  decide +kernel

theorem keeps_isBlank : Keeps IsLowerForm isBlank := by
  refine keeps_of_isUncased fun d hd => ?_
  have h := isUncased_of_blankPoints d.toNat (mem_blankPoints hd)
  rwa [Char.ofNat_toNat] at h

end MarkdownFences.Text
