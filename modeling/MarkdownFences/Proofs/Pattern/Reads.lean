import MarkdownFences.Text.Pattern

namespace MarkdownFences.Text.Pattern

def behind (back : Option Char) (part : Text) : Option Char := part.getLast?.or back

@[simp]
theorem behind_nil (back : Option Char) : behind back [] = back := rfl

theorem behind_none (part : Text) : behind none part = part.getLast? := Option.or_none

@[simp]
theorem behind_append (back : Option Char) (part part' : Text) :
    behind back (part ++ part') = behind (behind back part) part' := by
  rw [behind, behind, behind, List.getLast?_append, Option.or_assoc]

theorem behind_cons (back : Option Char) (c : Char) (part : Text) :
    behind back (c :: part) = behind (some c) part :=
  behind_append back [c] part

/-- Some parts in a row, none of them empty. -/
inductive InARow (reads : Option Char → Text → Text → Prop) : Option Char → Text → Text → Prop
  | nil (back : Option Char) (rest : Text) : InARow reads back [] rest
  | cons {back : Option Char} {part more rest : Text} (hne : part ≠ [])
      (hpart : reads back part (more ++ rest)) (hmore : InARow reads (behind back part) more rest) :
      InARow reads back (part ++ more) rest

/-- The pattern matches a part that stands behind one character and in front of the rest. -/
def Reads : Pattern → Option Char → Text → Text → Prop
  | empty, _, part, _ => part = []
  | one accepts, _, part, _ => ∃ c, part = [c] ∧ accepts c = true
  | seq p q, back, part, rest =>
    ∃ v w, part = v ++ w ∧ Reads p back v (w ++ rest) ∧ Reads q (behind back v) w rest
  | alt p q, back, part, rest => Reads p back part rest ∨ Reads q back part rest
  | many p, back, part, rest => InARow (Reads p) back part rest
  | holds test, back, part, rest => part = [] ∧ test ⟨back, rest⟩ = true
  | ahead p, back, part, rest => part = [] ∧ ∃ v w, rest = v ++ w ∧ Reads p back v w
  | notAhead p, back, part, rest => part = [] ∧ ¬ ∃ v w, rest = v ++ w ∧ Reads p back v w

/-- A matcher succeeds exactly if its continuation does after some part. -/
def Finds (m : Matcher) (reads : Option Char → Text → Text → Prop) : Prop :=
  ∀ back t k, (m ⟨back, t⟩ k).isSome = true ↔
    ∃ part rest, t = part ++ rest ∧ reads back part rest ∧
      (k ⟨behind back part, rest⟩).isSome = true

variable {m : Matcher} {reads : Option Char → Text → Text → Prop} {p q : Pattern}
variable {back : Option Char} {t part rest : Text} {k : Place → Option Place}

theorem isSome_repeated (m : Matcher) (n : Nat) (x : Place) (k : Place → Option Place) :
    (repeated m (n + 1) x k).isSome = ((m x fun y => repeated m n y k).isSome || (k x).isSome) := by
  rw [repeated]
  cases m x fun y => repeated m n y k <;> rfl

theorem isSome_alt (p q : Pattern) (x : Place) (k : Place → Option Place) :
    ((alt p q).matchAt x k).isSome = ((p.matchAt x k).isSome || (q.matchAt x k).isSome) := by
  rw [matchAt]
  cases p.matchAt x k <;> rfl

theorem isSome_searchFrom (p : Pattern) (back : Option Char) (c : Char) (r : Text) :
    (p.searchFrom back (c :: r)).isSome =
      ((p.matchAt ⟨back, c :: r⟩ some).isSome || (p.searchFrom (some c) r).isSome) := by
  rw [searchFrom]
  cases p.matchAt ⟨back, c :: r⟩ some <;> rfl

theorem repeated_sound (hm : Finds m reads) {n : Nat}
    (h : (repeated m n ⟨back, t⟩ k).isSome = true) :
    ∃ part rest, t = part ++ rest ∧ InARow reads back part rest ∧
      (k ⟨behind back part, rest⟩).isSome = true := by
  induction n generalizing back t with
  | zero => exact ⟨[], t, rfl, .nil back t, h⟩
  | succ n ih =>
    rw [isSome_repeated, Bool.or_eq_true] at h
    obtain h | h := h
    · obtain ⟨v, u, rfl, hv, hmore⟩ := (hm _ _ _).mp h
      obtain ⟨w, rest, rfl, hrow, hk⟩ := ih hmore
      by_cases hne : v = []
      · subst hne
        exact ⟨w, rest, rfl, hrow, hk⟩
      · exact ⟨v ++ w, rest, (List.append_assoc v w rest).symm, .cons hne hv hrow, by
          rwa [behind_append]⟩
    · exact ⟨[], t, rfl, .nil back t, h⟩

theorem repeated_complete (hm : Finds m reads) (h : InARow reads back part rest) {n : Nat}
    (hn : part.length ≤ n) (hk : (k ⟨behind back part, rest⟩).isSome = true) :
    (repeated m n ⟨back, part ++ rest⟩ k).isSome = true := by
  induction h generalizing n with
  | nil back rest =>
    cases n with
    | zero => exact hk
    | succ n =>
      rw [isSome_repeated, Bool.or_eq_true]
      exact .inr hk
  | @cons back v w rest hne hv hrow ih =>
    have hpos := List.length_pos_iff.mpr hne
    rw [List.length_append] at hn
    obtain ⟨n, rfl⟩ : ∃ i, n = i + 1 := Nat.exists_eq_add_one_of_ne_zero (by omega)
    rw [isSome_repeated, Bool.or_eq_true]
    rw [behind_append] at hk
    exact .inl ((hm _ _ _).mpr ⟨v, w ++ rest, List.append_assoc v w rest, hv, ih (by omega) hk⟩)

theorem Finds.isSome_iff (hm : Finds m reads) (back : Option Char) (t : Text) :
    (m ⟨back, t⟩ some).isSome = true ↔ ∃ part rest, t = part ++ rest ∧ reads back part rest := by
  simp [hm back t some]

theorem finds_test {test : Place → Bool} {P : Option Char → Text → Prop}
    (htest : ∀ back t, test ⟨back, t⟩ = true ↔ P back t) :
    Finds (fun x k => if test x then k x else none)
      fun back part rest => part = [] ∧ P back rest := by
  intro back t k
  dsimp only
  split
  case isTrue ht =>
    refine ⟨fun h => ⟨[], t, rfl, ⟨rfl, (htest back t).mp ht⟩, h⟩, ?_⟩
    rintro ⟨part, rest, rfl, ⟨rfl, -⟩, h⟩
    exact h
  case isFalse ht =>
    refine iff_of_false nofun ?_
    rintro ⟨part, rest, rfl, ⟨rfl, h⟩, -⟩
    exact ht ((htest back _).mpr h)

/-- What backtracking finds is what the pattern reads. -/
theorem matchAt_finds (p : Pattern) : Finds p.matchAt p.Reads := by
  induction p with
  | empty =>
    intro back t k
    refine ⟨fun h => ⟨[], t, rfl, rfl, h⟩, ?_⟩
    rintro ⟨part, rest, rfl, rfl, h⟩
    exact h
  | one accepts =>
    intro back t k
    cases t with
    | nil =>
      refine iff_of_false nofun ?_
      rintro ⟨part, rest, ht, ⟨c, rfl, -⟩, -⟩
      cases ht
    | cons c r =>
      simp only [matchAt]
      split
      case isTrue hc =>
        refine ⟨fun h => ⟨[c], r, rfl, ⟨c, rfl, hc⟩, h⟩, ?_⟩
        rintro ⟨part, rest, ht, ⟨d, rfl, -⟩, h⟩
        obtain ⟨rfl, rfl⟩ := List.cons.inj ht
        exact h
      case isFalse hc =>
        refine iff_of_false nofun ?_
        rintro ⟨part, rest, ht, ⟨d, rfl, hd⟩, -⟩
        obtain ⟨rfl, rfl⟩ := List.cons.inj ht
        exact hc hd
  | seq p q ihp ihq =>
    intro back t k
    rw [matchAt, ihp]
    constructor
    · rintro ⟨v, u, rfl, hv, h⟩
      obtain ⟨w, rest, rfl, hw, hk⟩ := (ihq _ _ _).mp h
      refine ⟨v ++ w, rest, (List.append_assoc v w rest).symm, ⟨v, w, rfl, hv, hw⟩, ?_⟩
      rwa [behind_append]
    · rintro ⟨part, rest, rfl, ⟨v, w, rfl, hv, hw⟩, hk⟩
      rw [behind_append] at hk
      exact ⟨v, w ++ rest, List.append_assoc v w rest, hv, (ihq _ _ _).mpr ⟨w, rest, rfl, hw, hk⟩⟩
  | alt p q ihp ihq =>
    intro back t k
    rw [isSome_alt, Bool.or_eq_true, ihp, ihq]
    constructor
    · rintro (⟨part, rest, ht, h, hk⟩ | ⟨part, rest, ht, h, hk⟩)
      · exact ⟨part, rest, ht, .inl h, hk⟩
      · exact ⟨part, rest, ht, .inr h, hk⟩
    · rintro ⟨part, rest, ht, h | h, hk⟩
      · exact .inl ⟨part, rest, ht, h, hk⟩
      · exact .inr ⟨part, rest, ht, h, hk⟩
  | many p ih =>
    intro back t k
    rw [matchAt]
    refine ⟨repeated_sound ih, ?_⟩
    rintro ⟨part, rest, rfl, h, hk⟩
    exact repeated_complete ih h (by simp) hk
  | holds test => exact finds_test fun _ _ => Iff.rfl
  | ahead p ih => exact finds_test ih.isSome_iff
  | notAhead p ih =>
    -- the two branches stand the other way round
    have hswap : (notAhead p).matchAt =
        fun x k => if !(p.matchAt x some).isSome then k x else none := by
      funext x k
      rw [matchAt]
      cases (p.matchAt x some).isSome <;> rfl
    rw [hswap]
    refine finds_test fun back t => ?_
    rw [Bool.not_eq_true', ← Bool.not_eq_true, ih.isSome_iff]

theorem matchAt_iff : (p.matchAt ⟨back, t⟩ some).isSome = true ↔
    ∃ part rest, t = part ++ rest ∧ p.Reads back part rest :=
  (matchAt_finds p).isSome_iff back t

theorem startsText_iff : p.startsText t = true ↔
    ∃ part rest, t = part ++ rest ∧ p.Reads none part rest :=
  matchAt_iff

theorem searchFrom_iff (back : Option Char) (t : Text) : (p.searchFrom back t).isSome = true ↔
    ∃ front part rest, t = front ++ (part ++ rest) ∧ p.Reads (behind back front) part rest := by
  induction t generalizing back with
  | nil =>
    rw [searchFrom, matchAt_iff]
    constructor
    · rintro ⟨part, rest, ht, h⟩
      exact ⟨[], part, rest, ht, h⟩
    · rintro ⟨front, part, rest, ht, h⟩
      obtain rfl : front = [] := (List.append_eq_nil_iff.mp ht.symm).1
      exact ⟨part, rest, ht, h⟩
  | cons c r ih =>
    rw [isSome_searchFrom, Bool.or_eq_true, matchAt_iff]
    refine (or_congr_right (ih (some c))).trans ⟨?_, ?_⟩
    · rintro (⟨part, rest, ht, h⟩ | ⟨front, part, rest, rfl, h⟩)
      · exact ⟨[], part, rest, ht, h⟩
      · exact ⟨c :: front, part, rest, rfl, by rwa [behind_cons]⟩
    · rintro ⟨front, part, rest, ht, h⟩
      cases front with
      | nil => exact .inl ⟨part, rest, ht, h⟩
      | cons d front =>
        obtain ⟨rfl, rfl⟩ := List.cons.inj ht
        rw [behind_cons] at h
        exact .inr ⟨front, part, rest, rfl, h⟩

theorem occursIn_iff : p.occursIn t = true ↔
    ∃ front part rest, t = front ++ (part ++ rest) ∧ p.Reads front.getLast? part rest := by
  rw [occursIn, searchFrom_iff]
  simp only [behind_none]

theorem occursIn_one (accepts : Char → Bool) (t : Text) :
    (one accepts).occursIn t = t.any accepts := by
  rw [Bool.eq_iff_iff, occursIn_iff, List.any_eq_true]
  constructor
  · rintro ⟨front, part, rest, rfl, c, rfl, hc⟩
    exact ⟨c, by simp, hc⟩
  · rintro ⟨c, hmem, hc⟩
    obtain ⟨front, rest, rfl⟩ := List.append_of_mem hmem
    exact ⟨front, [c], rest, rfl, c, rfl, hc⟩

theorem reads_sequence_cons {ps : List Pattern} : (sequence (p :: ps)).Reads back part rest ↔
    ∃ v w, part = v ++ w ∧ p.Reads back v (w ++ rest) ∧
      (sequence ps).Reads (behind back v) w rest := by
  cases ps with
  | nil => simp [sequence, Reads]
  | cons q ps => rfl

theorem reads_choice {ps : List Pattern} :
    (choice ps).Reads back part rest ↔ ∃ p ∈ ps, p.Reads back part rest := by
  induction ps with
  | nil => simp [choice, Reads]
  | cons p ps ih =>
    cases ps with
    | nil => simp [choice]
    | cons q ps =>
      rw [choice, Reads, ih]
      simp

theorem reads_char {c : Char} : (char c).Reads back part rest ↔ part = [c] := by
  simp [char, Reads]

theorem reads_literal {s : String} : (literal s).Reads back part rest ↔ part = s.toList := by
  rw [literal]
  induction s.toList generalizing back part with
  | nil => rfl
  | cons c cs ih =>
    rw [List.map_cons, reads_sequence_cons]
    simp [reads_char, ih]

theorem reads_words {ss : List String} :
    (words ss).Reads back part rest ↔ ∃ s ∈ ss, part = s.toList := by
  rw [words, reads_choice]
  constructor
  · rintro ⟨p, hp, h⟩
    obtain ⟨s, hs, rfl⟩ := List.mem_map.mp hp
    exact ⟨s, hs, reads_literal.mp h⟩
  · rintro ⟨s, hs, h⟩
    exact ⟨literal s, List.mem_map_of_mem hs, reads_literal.mpr h⟩

theorem reads_many_one {accepts : Char → Bool} :
    (many (one accepts)).Reads back part rest ↔ ∀ c ∈ part, accepts c = true := by
  constructor
  · intro h
    induction h with
    | nil back rest => exact List.forall_mem_nil _
    | cons hne hpart _ ih =>
      obtain ⟨c, rfl, hc⟩ := hpart
      exact List.forall_mem_cons.mpr ⟨hc, ih⟩
  · intro h
    induction part generalizing back with
    | nil => exact .nil back rest
    | cons c part ih =>
      obtain ⟨hc, hpart⟩ := List.forall_mem_cons.mp h
      exact .cons (List.cons_ne_nil c []) ⟨c, rfl, hc⟩ (ih hpart)

theorem reads_many1_one {accepts : Char → Bool} : (many1 (one accepts)).Reads back part rest ↔
    part ≠ [] ∧ ∀ c ∈ part, accepts c = true := by
  constructor
  · rintro ⟨v, w, rfl, ⟨c, rfl, hc⟩, hw⟩
    exact ⟨List.cons_ne_nil c w, List.forall_mem_cons.mpr ⟨hc, reads_many_one.mp hw⟩⟩
  · rintro ⟨hne, h⟩
    obtain ⟨c, r, rfl⟩ := List.exists_cons_of_ne_nil hne
    obtain ⟨hc, hr⟩ := List.forall_mem_cons.mp h
    exact ⟨[c], r, rfl, ⟨c, rfl, hc⟩, reads_many_one.mpr hr⟩

def Meets (p : Pattern) (back : Option Char) (t : Text) : Prop :=
  ∃ part rest, t = part ++ rest ∧ p.Reads back part rest

theorem meets_sequence_cons {ps : List Pattern} : (sequence (p :: ps)).Meets back t ↔
    ∃ v r, t = v ++ r ∧ p.Reads back v r ∧ (sequence ps).Meets (behind back v) r := by
  constructor
  · rintro ⟨part, rest, rfl, h⟩
    obtain ⟨v, w, rfl, hv, hw⟩ := reads_sequence_cons.mp h
    exact ⟨v, w ++ rest, List.append_assoc v w rest, hv, w, rest, rfl, hw⟩
  · rintro ⟨v, r, rfl, hv, w, rest, rfl, hw⟩
    exact ⟨v ++ w, rest, (List.append_assoc v w rest).symm,
      reads_sequence_cons.mpr ⟨v, w, rfl, hv, hw⟩⟩

theorem meets_one_cons {accepts : Char → Bool} {ps : List Pattern} :
    (sequence (one accepts :: ps)).Meets back t ↔
      ∃ c r, t = c :: r ∧ accepts c = true ∧ (sequence ps).Meets (some c) r := by
  rw [meets_sequence_cons]
  constructor
  · rintro ⟨v, r, rfl, ⟨c, rfl, hc⟩, h⟩
    exact ⟨c, r, rfl, hc, h⟩
  · rintro ⟨c, r, rfl, hc, h⟩
    exact ⟨[c], r, rfl, ⟨c, rfl, hc⟩, h⟩

theorem meets_optional_cons {ps : List Pattern} : (sequence (optional p :: ps)).Meets back t ↔
    (sequence (p :: ps)).Meets back t ∨ (sequence ps).Meets back t := by
  rw [meets_sequence_cons, meets_sequence_cons]
  constructor
  · rintro ⟨v, r, rfl, hv | rfl, h⟩
    · exact .inl ⟨v, r, rfl, hv, h⟩
    · exact .inr h
  · rintro (⟨v, r, rfl, hv, h⟩ | h)
    · exact ⟨v, r, rfl, .inl hv, h⟩
    · exact ⟨[], t, rfl, .inr rfl, h⟩

theorem meets_notAhead_cons {ps : List Pattern} : (sequence (notAhead p :: ps)).Meets back t ↔
    ¬ p.Meets back t ∧ (sequence ps).Meets back t := by
  rw [meets_sequence_cons]
  constructor
  · rintro ⟨v, r, rfl, ⟨rfl, hnot⟩, h⟩
    exact ⟨hnot, h⟩
  · rintro ⟨hnot, h⟩
    exact ⟨[], t, rfl, ⟨rfl, hnot⟩, h⟩

theorem meets_many_one {accepts : Char → Bool} : (sequence [many (one accepts)]).Meets back t :=
  ⟨[], t, rfl, .nil back t⟩

end MarkdownFences.Text.Pattern
