import MarkdownFences.Proofs.Pattern.Reads
import MarkdownFences.Proofs.Text.Lines
import MarkdownFences.Proofs.Text.Trim

namespace MarkdownFences.Text.Pattern

def isWord (c : Option Char) : Bool := (c.map isWordChar).getD false

def isMark (c : Option Char) : Bool := c.any (!isBlank ·)

variable {p q : Pattern} {ps : List Pattern} {back back' : Option Char}
  {t u v part rest rest' : Text}

theorem isWord_behind (h : isWord back = isWord back') (part : Text) :
    isWord (behind back part) = isWord (behind back' part) := by
  cases hl : part.getLast? with
  | none => simpa [behind, hl] using h
  | some c => simp [behind, hl]

theorem isWord_head?_append (h : isWord rest.head? = isWord rest'.head?) (part : Text) :
    isWord (part ++ rest).head? = isWord (part ++ rest').head? := by
  cases part with
  | nil => exact h
  | cons c part => rfl

theorem isWord_of_isBlank {c : Char} (h : isBlank c = true) : isWord (some c) = false := by
  cases hw : isWordChar c with
  | false => exact hw
  | true => cases h.symm.trans (isBlank_of_isWordChar hw)

theorem isWord_head?_append_of (h : isWord rest'.head? = false) (rest : Text) :
    isWord (rest ++ rest').head? = isWord rest.head? := by
  cases rest with
  | nil => exact h
  | cons c rest => rfl

theorem isWord_head?_dropWhile (t : Text) :
    isWord (t.dropWhile (· != '\n')).head? = false := by
  have h := List.head?_dropWhile_not (· != '\n') t
  cases hd : (t.dropWhile (· != '\n')).head? with
  | none => rfl
  | some c =>
    obtain rfl : c = '\n' := by simpa [hd] using h
    exact isWord_of_isBlank rfl

theorem isWord_head?_blank (hv : ∀ c ∈ v, isBlank c = true) : isWord v.head? = false := by
  cases v with
  | nil => rfl
  | cons c v => exact isWord_of_isBlank (hv c List.mem_cons_self)

theorem isWord_getLast?_blank (hu : ∀ c ∈ u, isBlank c = true) : isWord u.getLast? = false := by
  cases hl : u.getLast? with
  | none => rfl
  | some c => exact isWord_of_isBlank (hu c (List.mem_of_getLast? hl))

theorem isMark_head?_append (h : isMark part.head? = true) (rest : Text) :
    isMark (part ++ rest).head? = true := by
  cases part with
  | nil => cases h
  | cons c part => exact h

theorem isMark_getLast?_append (h : isMark part.getLast? = true) (front : Text) :
    isMark (front ++ part).getLast? = true := by
  cases hl : part.getLast? with
  | none => simp [hl, isMark] at h
  | some c => simpa [List.getLast?_append, hl] using h

theorem eq_append_of_isMark_head? {s front : Text} (hu : ∀ c ∈ u, isBlank c = true)
    (h : u ++ t = front ++ s) (hs : isMark s.head? = true) :
    ∃ front', front = u ++ front' ∧ t = front' ++ s := by
  obtain ⟨x, hx, ht⟩ | ⟨x, rfl, rfl⟩ := List.append_eq_append_iff.mp h
  · exact ⟨x, hx, ht⟩
  · cases x with
    | nil => exact ⟨[], by simp, rfl⟩
    | cons c x =>
      have hc := hu c (by simp)
      simp [isMark, hc] at hs

theorem eq_append_of_isMark_getLast? {s : Text} (hv : ∀ c ∈ v, isBlank c = true)
    (h : t ++ v = s ++ rest) (hs : isMark s.getLast? = true) :
    ∃ rest', rest = rest' ++ v ∧ t = s ++ rest' := by
  obtain ⟨x, rfl, rfl⟩ | ⟨x, ht, hx⟩ := List.append_eq_append_iff.mp h
  · cases hl : x.getLast? with
    | none =>
      obtain rfl := List.getLast?_eq_none_iff.mp hl
      exact ⟨[], rfl, by simp⟩
    | some c =>
      have hc := hv c (List.mem_append_left _ (List.mem_of_getLast? hl))
      simp [isMark, List.getLast?_append, hl, hc] at hs
  · exact ⟨x, hx, ht⟩

/-- Of what stands before a part the pattern sees at most whether a word character is there. -/
def LooseBehind (p : Pattern) : Prop := ∀ ⦃back back' part rest⦄, isWord back = isWord back' →
  p.Reads back part rest → p.Reads back' part rest

/-- Of what stands around a part the pattern sees at most whether word characters are next to it. -/
structure Loose (p : Pattern) : Prop where
  back : LooseBehind p
  rest {back : Option Char} {part rest rest' : Text} (h : isWord rest.head? = isWord rest'.head?)
    (hp : p.Reads back part rest) : p.Reads back part rest'

/-- The pattern reads no part that begins with white space, and not the empty one. -/
def Opens (p : Pattern) : Prop := ∀ ⦃back part rest⦄, p.Reads back part rest → isMark part.head?

/-- The pattern reads no part that ends with white space, and not the empty one. -/
def Closes (p : Pattern) : Prop := ∀ ⦃back part rest⦄, p.Reads back part rest → isMark part.getLast?

theorem LooseBehind.seq (hp : LooseBehind p) (hq : LooseBehind q) : LooseBehind (seq p q) := by
  rintro back back' part rest h ⟨v, w, rfl, hv, hw⟩
  exact ⟨v, w, rfl, hp h hv, hq (isWord_behind h v) hw⟩

theorem LooseBehind.many (hp : LooseBehind p) : LooseBehind (many p) := by
  intro back back' part rest h hrow
  induction hrow generalizing back' with
  | nil back rest => exact .nil back' rest
  | cons hne hpart _ ih => exact .cons hne (hp h hpart) (ih (isWord_behind h _))

theorem loose_empty : Loose empty := ⟨fun _ _ _ _ _ h => h, fun _ h => h⟩

theorem loose_one (accepts : Char → Bool) : Loose (one accepts) :=
  ⟨fun _ _ _ _ _ h => h, fun _ h => h⟩

theorem loose_wordEdge : Loose wordEdge := by
  constructor
  · rintro back back' part rest h ⟨rfl, hp⟩
    exact ⟨rfl, by rwa [Place.atWordEdge, ← isWord, ← h]⟩
  · rintro back part rest rest' h ⟨rfl, hp⟩
    exact ⟨rfl, by rwa [Place.atWordEdge, ← isWord, ← isWord, ← h]⟩

theorem Loose.seq (hp : Loose p) (hq : Loose q) : Loose (seq p q) where
  back := hp.back.seq hq.back
  rest := by
    rintro back part rest rest' h ⟨v, w, rfl, hv, hw⟩
    exact ⟨v, w, rfl, hp.rest (isWord_head?_append h w) hv, hq.rest h hw⟩

theorem Loose.many (hp : Loose p) : Loose (many p) where
  back := hp.back.many
  rest := by
    intro back part rest rest' h hrow
    induction hrow with
    | nil back rest => exact .nil back rest'
    | cons hne hpart _ ih => exact .cons hne (hp.rest (isWord_head?_append h _) hpart) (ih h)

theorem loose_sequence (h : ∀ p ∈ ps, Loose p) : Loose (sequence ps) := by
  induction ps with
  | nil => exact loose_empty
  | cons p ps ih =>
    have hseq := (h p List.mem_cons_self).seq (ih fun q hq => h q (List.mem_cons_of_mem p hq))
    exact ⟨fun _ _ _ _ h hp => reads_sequence_cons.mpr (hseq.back h (reads_sequence_cons.mp hp)),
      fun h hp => reads_sequence_cons.mpr (hseq.rest h (reads_sequence_cons.mp hp))⟩

theorem loose_choice (h : ∀ p ∈ ps, Loose p) : Loose (choice ps) := by
  constructor
  · intro back back' part rest hw hp
    obtain ⟨p, hmem, hp⟩ := reads_choice.mp hp
    exact reads_choice.mpr ⟨p, hmem, (h p hmem).back hw hp⟩
  · intro back part rest rest' hw hp
    obtain ⟨p, hmem, hp⟩ := reads_choice.mp hp
    exact reads_choice.mpr ⟨p, hmem, (h p hmem).rest hw hp⟩

theorem loose_literal (s : String) : Loose (literal s) :=
  loose_sequence fun _ hp => by
    obtain ⟨c, -, rfl⟩ := List.mem_map.mp hp
    exact loose_one _

theorem loose_words (ss : List String) : Loose (words ss) :=
  loose_choice fun _ hp => by
    obtain ⟨s, -, rfl⟩ := List.mem_map.mp hp
    exact loose_literal s

theorem opens_char {c : Char} (h : isBlank c = false) : Opens (char c) := by
  intro back part rest hp
  obtain rfl := reads_char.mp hp
  simp [isMark, h]

theorem closes_char {c : Char} (h : isBlank c = false) : Closes (char c) := by
  intro back part rest hp
  obtain rfl := reads_char.mp hp
  simp [isMark, h]

theorem opens_literal {s : String} (h : isMark s.toList.head? = true) : Opens (literal s) := by
  intro back part rest hp
  rwa [reads_literal.mp hp]

theorem closes_literal {s : String} (h : isMark s.toList.getLast? = true) : Closes (literal s) := by
  intro back part rest hp
  rwa [reads_literal.mp hp]

theorem opens_words {ss : List String} (h : ∀ s ∈ ss, isMark s.toList.head? = true) :
    Opens (words ss) := by
  intro back part rest hp
  obtain ⟨s, hs, rfl⟩ := reads_words.mp hp
  exact h s hs

theorem closes_words {ss : List String} (h : ∀ s ∈ ss, isMark s.toList.getLast? = true) :
    Closes (words ss) := by
  intro back part rest hp
  obtain ⟨s, hs, rfl⟩ := reads_words.mp hp
  exact h s hs

theorem Opens.seq (hp : Opens p) (q : Pattern) : Opens (seq p q) := by
  rintro back part rest ⟨v, w, rfl, hv, -⟩
  exact isMark_head?_append (hp hv) w

theorem Opens.holds_seq (hq : Opens q) (test : Place → Bool) : Opens (.seq (holds test) q) := by
  rintro back part rest ⟨v, w, rfl, ⟨rfl, -⟩, hw⟩
  exact hq hw

theorem Closes.seq (hq : Closes q) (p : Pattern) : Closes (.seq p q) := by
  rintro back part rest ⟨v, w, rfl, -, hw⟩
  exact isMark_getLast?_append (hq hw) v

theorem Closes.seq_holds (hp : Closes p) (test : Place → Bool) : Closes (.seq p (holds test)) := by
  rintro back part rest ⟨v, w, rfl, hv, rfl, -⟩
  rw [List.append_nil]
  exact hp hv

theorem opens_choice (h : ∀ p ∈ ps, Opens p) : Opens (choice ps) := by
  intro back part rest hp
  obtain ⟨p, hmem, hp⟩ := reads_choice.mp hp
  exact h p hmem hp

theorem closes_choice (h : ∀ p ∈ ps, Closes p) : Closes (choice ps) := by
  intro back part rest hp
  obtain ⟨p, hmem, hp⟩ := reads_choice.mp hp
  exact h p hmem hp

theorem Loose.searchFrom_eq (hp : Loose p) (h : isWord back = isWord back') (t : Text) :
    (p.searchFrom back t).isSome = (p.searchFrom back' t).isSome := by
  rw [Bool.eq_iff_iff, searchFrom_iff, searchFrom_iff]
  constructor
  · rintro ⟨front, part, rest, rfl, hr⟩
    exact ⟨front, part, rest, rfl, hp.back (isWord_behind h front) hr⟩
  · rintro ⟨front, part, rest, rfl, hr⟩
    exact ⟨front, part, rest, rfl, hp.back (isWord_behind h.symm front) hr⟩

theorem Opens.searchFrom_blank_append (hp : Opens p) (hu : ∀ c ∈ u, isBlank c = true)
    (back : Option Char) (t : Text) :
    (p.searchFrom back (u ++ t)).isSome = (p.searchFrom (behind back u) t).isSome := by
  rw [Bool.eq_iff_iff, searchFrom_iff, searchFrom_iff]
  constructor
  · rintro ⟨front, part, rest, ht, hr⟩
    obtain ⟨front', rfl, rfl⟩ := eq_append_of_isMark_head? hu ht (isMark_head?_append (hp hr) rest)
    exact ⟨front', part, rest, rfl, by rwa [behind_append] at hr⟩
  · rintro ⟨front, part, rest, rfl, hr⟩
    exact ⟨u ++ front, part, rest, by simp, by rwa [behind_append]⟩

theorem Closes.searchFrom_append_blank (hp : Closes p)
    (hrest : ∀ {back part rest rest'}, isWord rest.head? = isWord rest'.head? →
      p.Reads back part rest → p.Reads back part rest')
    (hv : ∀ c ∈ v, isBlank c = true) (back : Option Char) (t : Text) :
    (p.searchFrom back (t ++ v)).isSome = (p.searchFrom back t).isSome := by
  have hhead (rest : Text) : isWord (rest ++ v).head? = isWord rest.head? :=
    isWord_head?_append_of (isWord_head?_blank hv) rest
  rw [Bool.eq_iff_iff, searchFrom_iff, searchFrom_iff]
  constructor
  · rintro ⟨front, part, rest, ht, hr⟩
    rw [← List.append_assoc] at ht
    obtain ⟨rest', rfl, rfl⟩ :=
      eq_append_of_isMark_getLast? hv ht (isMark_getLast?_append (hp hr) front)
    exact ⟨front, part, rest', List.append_assoc .., hrest (hhead rest') hr⟩
  · rintro ⟨front, part, rest, rfl, hr⟩
    exact ⟨front, part, rest ++ v, by simp, hrest (hhead rest).symm hr⟩

/-- A pattern to which white space around a text makes no difference. -/
structure Firm (p : Pattern) : Prop where
  loose : Loose p
  opens : Opens p
  closes : Closes p

theorem firm_words {ss : List String}
    (h : ∀ s ∈ ss, isMark s.toList.head? = true ∧ isMark s.toList.getLast? = true) :
    Firm (words ss) :=
  ⟨loose_words ss, opens_words fun s hs => (h s hs).1, closes_words fun s hs => (h s hs).2⟩

theorem Firm.choice (h : ∀ p ∈ ps, Firm p) : Firm (choice ps) :=
  ⟨loose_choice fun p hp => (h p hp).loose, opens_choice fun p hp => (h p hp).opens,
    closes_choice fun p hp => (h p hp).closes⟩

/-- White space around a text does not change whether the pattern occurs in it. -/
theorem Firm.occursIn_padded (hp : Firm p) (hu : ∀ c ∈ u, isBlank c = true)
    (hv : ∀ c ∈ v, isBlank c = true) (t : Text) : p.occursIn (u ++ (t ++ v)) = p.occursIn t := by
  have hw : isWord (behind none u) = isWord none := by
    rw [behind_none]
    exact isWord_getLast?_blank hu
  rw [occursIn, hp.opens.searchFrom_blank_append hu, hp.loose.searchFrom_eq hw,
    hp.closes.searchFrom_append_blank hp.loose.rest hv, occursIn]

end MarkdownFences.Text.Pattern
