import MarkdownFences.Proofs.Text.Lower
import MarkdownFences.Remote.Prompt

namespace MarkdownFences.Remote

open Text

def bareWord (t : Text) : Text := dropEnding isDecoration ((firstWord t).dropWhile isDecoration)

def Names (l : Language) (w : Text) : Prop := w = l.tag ∨ l = .bash ∧ w = "sh".toList

/-- An answer that names a language: its first word does so in some case, between decoration. -/
def Answers (t : Text) (l : Language) : Prop :=
  ∃ u p w q r, t = u ++ (p ++ (w ++ (q ++ r))) ∧ (∀ c ∈ u, isBlank c = true) ∧
    (∀ c ∈ p, isDecoration c = true) ∧ (∀ c ∈ q, isDecoration c = true) ∧
    (∀ c, r.head? = some c → isBlank c = true) ∧ Names l (lower w)

variable {s t u p w q r : Text} {l : Language} {c : Char}

theorem isUncased_of_isDecoration (h : isDecoration c = true) : IsUncased c := by
  have hall : [tick, '\x27', '"', '.', ',', ':'].all (IsUncased ·) = true := by decide +kernel
  exact of_decide_eq_true (List.all_eq_true.mp hall c (List.contains_iff_mem.mp h))

theorem keeps_isDecoration : Keeps IsLowerForm isDecoration :=
  keeps_of_isUncased fun _ => isUncased_of_isDecoration

theorem isBlank_of_isDecoration (h : isDecoration c = true) : isBlank c = false := by
  cases hc : isBlank c with
  | false => rfl
  | true =>
    have hno : [tick, '\x27', '"', '.', ',', ':'].contains c = false :=
      contains_of_isBlank (by decide) c hc
    rw [isDecoration, hno] at h
    cases h

theorem Names.isAsciiLower (h : Names l w) (hc : c ∈ w) : Text.isAsciiLower c = true := by
  have htag : l.tag.all Text.isAsciiLower = true := by cases l <;> decide
  have hshort : "sh".toList.all Text.isAsciiLower = true := by decide
  obtain rfl | ⟨-, rfl⟩ := h
  · exact List.all_eq_true.mp htag c hc
  · exact List.all_eq_true.mp hshort c hc

theorem Names.ne_nil (h : Names l w) : w ≠ [] := by
  obtain rfl | ⟨-, rfl⟩ := h
  · cases l <;> decide
  · decide

theorem Names.isBlank (h : Names l w) (hc : c ∈ w) : Text.isBlank c = false :=
  isBlank_of_isWordChar (by simp [isWordChar, isAlphanumeric, isAsciiLetter, h.isAsciiLower hc])

theorem Names.isDecoration (h : Names l w) (hc : c ∈ w) : Remote.isDecoration c = false := by
  cases hd : Remote.isDecoration c with
  | false => rfl
  | true =>
    have hletter := (isUncased_of_isDecoration hd).1
    rw [isAsciiLetter, h.isAsciiLower hc, Bool.or_true] at hletter
    cases hletter

theorem answer?_eq_some (t : Text) (l : Language) :
    answer? t = some l ↔ Names l (bareWord (lower (trim t))) := by
  rw [answer?, ← bareWord, Names]
  split
  case isTrue h =>
    rw [h]
    cases l <;> decide
  case isFalse h =>
    rw [Language.ofTag?_eq_some_iff]
    exact (or_iff_left fun hshort => h hshort.2).symm

theorem spelled_bareWord (h : Spelled IsLowerForm s t) :
    Spelled IsLowerForm (bareWord s) (bareWord t) :=
  (((h.dropWhile keeps_isBlank).takeWhile keeps_isBlank.not).dropWhile
    keeps_isDecoration).dropEnding keeps_isDecoration

theorem names_iff_lower (h : Spelled IsLowerForm s t) : Names l t ↔ Names l (lower s) := by
  have hsigma {w : Text} (hw : Names l w) : ∀ c ∈ w, isSmallSigma c = false := by
    intro c hc
    have hlower := hw.isAsciiLower hc
    cases hs : isSmallSigma c with
    | false => rfl
    | true =>
      rw [isSmallSigma, Bool.or_eq_true, beq_iff_eq, beq_iff_eq] at hs
      obtain rfl | rfl := hs <;> exact absurd hlower (by decide)
  constructor
  · intro ht
    rwa [h.eq_of_isLowerForm (hsigma ht) (spelled_lower s)]
  · intro hs
    rwa [(spelled_lower s).eq_of_isLowerForm (hsigma hs) h]

theorem plain_of_names (h : Names l (lower w)) (hc : c ∈ w) :
    isBlank c = false ∧ isDecoration c = false := by
  obtain ⟨x, hx, hmem⟩ := (spelled_lower w).mem hc
  obtain ⟨d, hd⟩ := List.exists_mem_of_ne_nil x hx.ne_nil
  constructor
  · rw [← (keeps_isBlank c x hx).2 d hd]
    exact h.isBlank (hmem d hd)
  · rw [← (keeps_isDecoration c x hx).2 d hd]
    exact h.isDecoration (hmem d hd)

theorem ne_nil_of_names (h : Names l (lower w)) : w ≠ [] := by
  rintro rfl
  exact h.ne_nil rfl

theorem bareWord_decorated (hu : ∀ c ∈ u, isBlank c = true) (hp : ∀ c ∈ p, isDecoration c = true)
    (hne : w ≠ []) (hw : ∀ c ∈ w, isBlank c = false ∧ isDecoration c = false)
    (hq : ∀ c ∈ q, isDecoration c = true) (hr : ∀ c, r.head? = some c → isBlank c = true) :
    bareWord (u ++ (p ++ (w ++ (q ++ r)))) = w := by
  have hword : firstWord (u ++ ((p ++ (w ++ q)) ++ r)) = p ++ (w ++ q) := by
    refine firstWord_padded hu (by simp [hne]) ?_ hr
    simp only [List.mem_append]
    rintro c (hc | hc | hc)
    · exact isBlank_of_isDecoration (hp c hc)
    · exact (hw c hc).1
    · exact isBlank_of_isDecoration (hq c hc)
  simp only [List.append_assoc] at hword
  have hfront : (w ++ q).dropWhile isDecoration = w ++ q := by
    obtain ⟨c, s, rfl⟩ := List.exists_cons_of_ne_nil hne
    exact List.dropWhile_cons_of_neg (by simp [(hw c List.mem_cons_self).2])
  rw [bareWord, hword, List.dropWhile_append_of_pos hp, hfront, dropEnding_append hq]
  exact dropEnding_eq_self fun c hc => (hw c (List.mem_of_getLast? hc)).2

theorem exists_bareWord (t : Text) : ∃ u p q r, t = u ++ (p ++ (bareWord t ++ (q ++ r))) ∧
    (∀ c ∈ u, isBlank c = true) ∧ (∀ c ∈ p, isDecoration c = true) ∧
    (∀ c ∈ q, isDecoration c = true) ∧ ∀ c, r.head? = some c → isBlank c = true := by
  obtain ⟨u, r, ht, hu, hr⟩ := exists_firstWord t
  obtain ⟨q, hq, hword⟩ := exists_dropEnding isDecoration ((firstWord t).dropWhile isDecoration)
  refine ⟨u, (firstWord t).takeWhile isDecoration, q, r, ?_, hu,
    List.all_eq_true.mp List.all_takeWhile, hq, hr⟩
  rw [← List.append_assoc (bareWord t), bareWord, ← hword, ← List.append_assoc (List.takeWhile _ _),
    List.takeWhile_append_dropWhile]
  exact ht

theorem answer?_eq_some_iff (t : Text) (l : Language) : answer? t = some l ↔ Answers t l := by
  have hspelled := spelled_bareWord (spelled_lower (trim t))
  have hbare : bareWord (trim t) = bareWord t := by rw [bareWord, firstWord_trim, ← bareWord]
  rw [answer?_eq_some, names_iff_lower hspelled, hbare]
  constructor
  · intro h
    obtain ⟨u, p, q, r, ht, hu, hp, hq, hr⟩ := exists_bareWord t
    exact ⟨u, p, bareWord t, q, r, ht, hu, hp, hq, hr, h⟩
  · rintro ⟨u, p, w, q, r, rfl, hu, hp, hq, hr, h⟩
    rwa [bareWord_decorated hu hp (ne_nil_of_names h) (fun c hc => plain_of_names h hc) hq hr]

/-- The answers that are understood are those that name a language, and no others. -/
theorem answers_understood (t : Text) :
    (∀ l, answer? t = some l ↔ Answers t l) ∧ (answer? t = none ↔ ∀ l, ¬ Answers t l) := by
  refine ⟨answer?_eq_some_iff t, ?_⟩
  simp only [← answer?_eq_some_iff, Option.eq_none_iff_forall_ne_some, ne_eq]

-- the Kelvin sign is a capital letter k
example : answer? "\u2003'MAR\u212ADOWN`:\nis my guess".toList = some .markdown := by decide +kernel

example : answer? "```\nbash".toList = none := by decide +kernel

end MarkdownFences.Remote
