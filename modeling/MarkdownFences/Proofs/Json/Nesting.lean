import MarkdownFences.Proofs.Json.Objects

namespace MarkdownFences.Json

mutual

/-- How deep the containers of a value stand in one another. -/
def Value.depth : Value → Nat
  | .array items => itemsDepth items + 1
  | .object members => membersDepth members + 1
  | _ => 0

def itemsDepth : List Value → Nat
  | [] => 0
  | v :: vs => max v.depth (itemsDepth vs)

def membersDepth : List (Points × Value) → Nat
  | [] => 0
  | (_, v) :: ms => max v.depth (membersDepth ms)

end

/-- A reading, given so many levels, needs a number of them for its result. With fewer it stops at
a container. -/
def Needs {α : Type} (reading : Nat → Except Stop α) (depth : Nat) (a : α) : Prop :=
  ∀ levels, (depth ≤ levels → reading levels = .ok a) ∧
    (levels < depth → ∃ e, reading levels = .error (.tooDeep e))

variable {α β : Type} {reading : Nat → Except Stop α} {next : Nat → α → Except Stop β}
variable {d e n : Nat} {a : α} {b : β}

theorem needs_pure (a : α) : Needs (fun _ => .ok a) 0 a := fun _ => ⟨fun _ => rfl, nofun⟩

theorem Needs.bind (h : Needs reading d a) (hnext : Needs (fun n => next n a) e b) :
    Needs (fun n => (reading n).bind (next n)) (max d e) b := by
  intro levels
  constructor
  · intro hle
    simp only [(h levels).1 (by omega)]
    exact (hnext levels).1 (by omega)
  · intro hlt
    by_cases hd : levels < d
    · obtain ⟨c, hc⟩ := (h levels).2 hd
      exact ⟨c, by simp only [hc]; rfl⟩
    · simp only [(h levels).1 (by omega)]
      exact (hnext levels).2 (by omega)

theorem Needs.map (h : Needs reading d a) (f : α → β) :
    Needs (fun n => (reading n).map f) d (f a) := by
  intro levels
  constructor
  · intro hle
    simp only [(h levels).1 hle]
    rfl
  · intro hlt
    obtain ⟨c, hc⟩ := (h levels).2 hlt
    exact ⟨c, by simp only [hc]; rfl⟩

theorem Needs.succ {outer : Nat → Except Stop α} (h : Needs reading d a)
    (hzero : ∃ e, outer 0 = .error (.tooDeep e)) (hsucc : ∀ n, outer (n + 1) = reading n) :
    Needs outer (d + 1) a := by
  intro levels
  cases levels with
  | zero => exact ⟨nofun, fun _ => hzero⟩
  | succ n =>
    rw [hsucc]
    exact ⟨fun hle => (h n).1 (by omega), fun hlt => (h n).2 (by omega)⟩

section Parts

variable {t r : Text} {v : Value}

theorem items_needs
    (hv : ∀ {t v r}, value n t = .ok (v, r) → Needs (fun m => value m t) v.depth (v, r))
    {fuel : Nat} {vs : List Value} (h : items (value n) fuel t = .ok (vs, r)) :
    Needs (fun m => items (value m) fuel t) (itemsDepth vs) (vs, r) := by
  induction fuel generalizing t vs r with
  | zero => cases h
  | succ fuel ih =>
    simp only [items] at h ⊢
    obtain ⟨⟨v, r₁⟩, hi, h⟩ := bind_eq_ok.mp h
    dsimp only at h
    split at h
    case h_1 r₂ hs =>
      obtain ⟨rfl, rfl⟩ := Prod.mk.inj (Except.ok.inj h)
      refine (hv hi).bind ?_
      simp only [hs]
      exact needs_pure _
    case h_2 r₂ hs =>
      obtain ⟨y, hrest, h⟩ := bind_eq_ok.mp h
      obtain ⟨rfl, rfl⟩ := Prod.mk.inj (Except.ok.inj h)
      refine (hv hi).bind ?_
      simp only [hs]
      exact (ih hrest).map fun y => (v :: y.1, y.2)
    case h_3 => cases h

theorem members_needs
    (hv : ∀ {t v r}, value n t = .ok (v, r) → Needs (fun m => value m t) v.depth (v, r))
    {fuel : Nat} {ms : List (Points × Value)} (h : members (value n) fuel t = .ok (ms, r)) :
    Needs (fun m => members (value m) fuel t) (membersDepth ms) (ms, r) := by
  induction fuel generalizing t ms r with
  | zero => cases h
  | succ fuel ih =>
    obtain ⟨u, rfl, hreads⟩ := readsMembers h
    cases hreads with
    | @last key v _ _ _ _ hkey hcolon hi hs =>
      simp only [members, hkey, bind, Except.bind, hcolon]
      refine (hv hi).bind ?_
      simp only [hs]
      exact needs_pure _
    | @more key v _ _ _ _ _ _ hkey hcolon hi hs hrest =>
      simp only [members, hkey, bind, Except.bind, hcolon]
      refine (hv hi).bind ?_
      simp only [hs]
      exact (ih hrest).map fun y => ((key, v) :: y.1, y.2)

theorem depth_of_wordOrNumber (h : wordOrNumber t = .ok (v, r)) : v.depth = 0 := by
  unfold wordOrNumber at h
  split at h
  case h_1 w hw =>
    obtain ⟨rfl, -⟩ := Prod.mk.inj (Except.ok.inj h)
    have hwords : ∀ w ∈ words, w.2.depth = 0 := by simp [words, Value.depth]
    exact hwords w (List.mem_of_find?_eq_some hw)
  case h_2 =>
    obtain ⟨l, rfl⟩ := number_cases h
    rfl

theorem needs_plain {inner : Option (Reader Value)} (ha : t.head? ≠ some '[')
    (ho : t.head? ≠ some '\x7b') (h : valueOf inner t = .ok (v, r)) :
    Needs (fun m => value m t) v.depth (v, r) := by
  have hsame : ∀ inner', valueOf inner' t = valueOf inner t := by
    intro inner'
    unfold valueOf
    split <;> simp_all
  have hdepth : v.depth = 0 := by
    unfold valueOf at h
    split at h
    case h_1 u =>
      obtain ⟨x, -, hx⟩ := ok_of_map h
      obtain ⟨rfl, -⟩ := Prod.mk.inj hx
      rfl
    case h_2 => exact absurd rfl ha
    case h_3 => exact absurd rfl ho
    case h_4 => exact depth_of_wordOrNumber h
  rw [hdepth]
  intro m
  refine ⟨fun _ => ?_, nofun⟩
  cases m with
  | zero => exact (hsame _).trans h
  | succ m => exact (hsame _).trans h

/-- A value is read exactly with as many levels as its containers take. -/
theorem value_needs (h : value n t = .ok (v, r)) : Needs (fun m => value m t) v.depth (v, r) := by
  -- on the levels that were enough, as the parts of a container are read with one less
  induction n generalizing t v r with
  | zero =>
    refine needs_plain (fun ha => ?_) (fun ho => ?_) h
    · obtain ⟨u, rfl⟩ := List.head?_eq_some_iff.mp ha
      cases h
    · obtain ⟨u, rfl⟩ := List.head?_eq_some_iff.mp ho
      cases h
  | succ n ih =>
    by_cases ha : t.head? = some '['
    · obtain ⟨u, rfl⟩ := List.head?_eq_some_iff.mp ha
      simp only [value, valueOf] at h
      split at h
      case h_1 w hs =>
        obtain ⟨rfl, rfl⟩ := Prod.mk.inj (Except.ok.inj h)
        refine Needs.succ (needs_pure (Value.array [], w)) ⟨⟨.array⟩, rfl⟩ fun m => ?_
        simp only [value, valueOf, hs]
      case h_2 hs =>
        obtain ⟨x, hi, hx⟩ := ok_of_map h
        obtain ⟨rfl, rfl⟩ := Prod.mk.inj hx
        refine Needs.succ ((items_needs ih hi).map fun x => (Value.array x.1, x.2))
          ⟨⟨.array⟩, rfl⟩ fun m => ?_
        simp only [value, valueOf]
    · by_cases ho : t.head? = some '\x7b'
      · obtain ⟨u, rfl⟩ := List.head?_eq_some_iff.mp ho
        simp only [value, valueOf] at h
        split at h
        case h_1 w hs =>
          obtain ⟨rfl, rfl⟩ := Prod.mk.inj (Except.ok.inj h)
          refine Needs.succ (needs_pure (Value.object [], w)) ⟨⟨.object⟩, rfl⟩ fun m => ?_
          simp only [value, valueOf, hs]
        case h_2 hs =>
          obtain ⟨x, hm, hx⟩ := ok_of_map h
          obtain ⟨rfl, rfl⟩ := Prod.mk.inj hx
          refine Needs.succ ((members_needs ih hm).map fun x => (Value.object x.1, x.2))
            ⟨⟨.object⟩, rfl⟩ fun m => ?_
          simp only [value, valueOf]
      · exact needs_plain ha ho h

end Parts

def IsTooDeep (t : Text) : Prop := ∃ e, read t = .error (.tooDeep e)

/-- A text writes a value, whatever its depth. -/
def Writes (t : Text) (v : Value) : Prop :=
  ∃ levels r, value levels (skipSpace t) = .ok (v, r) ∧ skipSpace r = []

theorem isTooDeep_iff {t : Text} {v : Value} (h : Writes t v) :
    IsTooDeep t ↔ nestingLimit < v.depth := by
  obtain ⟨levels, r, hv, hr⟩ := h
  obtain ⟨hshallow, hdeep⟩ := value_needs hv nestingLimit
  constructor
  · rintro ⟨e, he⟩
    refine Nat.lt_of_not_le fun hle => ?_
    simp only [read, hshallow hle, hr] at he
    cases he
  · intro hlt
    obtain ⟨e, he⟩ := hdeep hlt
    exact ⟨e, by simp only [read, he, refusalAt]⟩

theorem value_bracket {t : Text} {e : Stop} (h : value n ('[' :: t) = .error e) :
    value (n + 1) ('[' :: '[' :: t) = .error e := by
  change (items (value n) (('[' :: t).length + 1) ('[' :: t)).map _ = _
  simp only [items, h, bind, Except.bind, Except.map]

theorem value_brackets (n : Nat) (t : Text) :
    value n ('[' :: (List.replicate n '[' ++ t)) = .error (.tooDeep ⟨.array⟩) := by
  induction n with
  | zero => rfl
  | succ n ih => exact value_bracket ih

theorem read_brackets (t : Text) :
    read ('[' :: (List.replicate nestingLimit '[' ++ t)) = .error (.tooDeep ⟨.array⟩) := by
  have hskip : skipSpace ('[' :: (List.replicate nestingLimit '[' ++ t)) =
      '[' :: (List.replicate nestingLimit '[' ++ t) := rfl
  simp only [read, hskip, value_brackets, refusalAt]

end MarkdownFences.Json
