import MarkdownFences.Proofs.Json.Strings
import MarkdownFences.Proofs.Result

namespace MarkdownFences.Json

theorem value_null (levels : Nat) (r : Text) :
    value levels ('n' :: 'u' :: 'l' :: 'l' :: r) = .ok (.null, r) := by
  cases levels <;> rfl

variable {levels n : Nat} {k : Points}

theorem members_last (hk : k.Whole) (r : Text) :
    members (value levels) (n + 1) (writeString k ++ ": null\n\x7d".toList ++ r) =
      .ok ([(k, .null)], r) := by
  have hwrite : writeString k ++ ": null\n\x7d".toList ++ r =
      '"' :: (k.flatMap written ++ '"' :: (": null\n\x7d".toList ++ r)) := by
    simp [writeString]
  have hnull : value levels (skipSpace (' ' :: 'n' :: 'u' :: 'l' :: 'l' :: '\n' :: '\x7d' :: r)) =
      .ok (.null, '\n' :: '\x7d' :: r) :=
    value_null levels _
  rw [hwrite, members, stringRest_writeString hk]
  change ((value levels (skipSpace (' ' :: 'n' :: 'u' :: 'l' :: 'l' :: '\n' :: '\x7d' :: r))).bind
    fun _ => _) = _
  rw [hnull]
  rfl

theorem members_more (hk : k.Whole) (t : Text) :
    members (value levels) (n + 1) (writeString k ++ ": null,\n".toList ++ t) =
      (members (value levels) n (skipSpace t)).map fun x => ((k, .null) :: x.1, x.2) := by
  have hwrite : writeString k ++ ": null,\n".toList ++ t =
      '"' :: (k.flatMap written ++ '"' :: (": null,\n".toList ++ t)) := by
    simp [writeString]
  have hnull : value levels (skipSpace (' ' :: 'n' :: 'u' :: 'l' :: 'l' :: ',' :: '\n' :: t)) =
      .ok (.null, ',' :: '\n' :: t) :=
    value_null levels _
  rw [hwrite, members, stringRest_writeString hk]
  change ((value levels (skipSpace (' ' :: 'n' :: 'u' :: 'l' :: 'l' :: ',' :: '\n' :: t))).bind
    fun _ => _) = _
  rw [hnull]
  change ((members (value levels) n (skipSpace ('\n' :: t))).bind fun _ => _) = _
  have hskip : skipSpace ('\n' :: t) = skipSpace t := rfl
  rw [hskip]
  cases members (value levels) n (skipSpace t) <;> rfl

/-- How the members of an object are read that begin with the name behind a quote: a member and the
closing brace, or a member, a comma and more of them. -/
inductive ReadsMembers (item : Reader Value) (n : Nat) (u : Text) :
    List (Points × Value) → Text → Prop
  | last {key : Points} {v : Value} {r₀ r₁ r₂ r : Text}
      (hkey : stringRest ('"' :: u) u = .ok (key, r₀)) (hcolon : skipSpace r₀ = ':' :: r₁)
      (hv : item (skipSpace r₁) = .ok (v, r₂)) (hs : skipSpace r₂ = '\x7d' :: r) :
      ReadsMembers item n u [(key, v)] r
  | more {key : Points} {v : Value} {r₀ r₁ r₂ r₃ r : Text} {ms : List (Points × Value)}
      (hkey : stringRest ('"' :: u) u = .ok (key, r₀)) (hcolon : skipSpace r₀ = ':' :: r₁)
      (hv : item (skipSpace r₁) = .ok (v, r₂)) (hs : skipSpace r₂ = ',' :: r₃)
      (hrest : members item n (skipSpace r₃) = .ok (ms, r)) :
      ReadsMembers item n u ((key, v) :: ms) r

theorem readsMembers {item : Reader Value} {t r : Text} {ms : List (Points × Value)}
    (h : members item (n + 1) t = .ok (ms, r)) :
    ∃ u, t = '"' :: u ∧ ReadsMembers item n u ms r := by
  unfold members at h
  split at h
  case h_2 => cases h
  case h_1 u =>
    obtain ⟨⟨key, r₀⟩, hkey, h⟩ := bind_eq_ok.mp h
    dsimp only at h
    split at h
    case h_2 => cases h
    case h_1 r₁ hcolon =>
      obtain ⟨⟨v, r₂⟩, hv, h⟩ := bind_eq_ok.mp h
      dsimp only at h
      split at h
      case h_1 r₃ hs =>
        obtain ⟨rfl, rfl⟩ := Prod.mk.inj (Except.ok.inj h)
        exact ⟨u, rfl, .last hkey hcolon hv hs⟩
      case h_2 r₃ hs =>
        obtain ⟨⟨ms, r⟩, hrest, h⟩ := bind_eq_ok.mp h
        obtain ⟨rfl, rfl⟩ := Prod.mk.inj (Except.ok.inj h)
        exact ⟨u, rfl, .more hkey hcolon hv hs hrest⟩
      case h_3 => cases h

theorem whole_of_members {item : Reader Value} {t r : Text} {ms : List (Points × Value)}
    (h : members item n t = .ok (ms, r)) : ∀ m ∈ ms, m.1.Whole := by
  induction n generalizing t ms r with
  | zero => cases h
  | succ n ih =>
    obtain ⟨u, rfl, hreads⟩ := readsMembers h
    cases hreads with
    | last hkey => exact List.forall_mem_singleton.mpr (whole_of_stringRest hkey)
    | more hkey _ _ _ hrest =>
      exact List.forall_mem_cons.mpr ⟨whole_of_stringRest hkey, ih hrest⟩

theorem number_cases {t r : Text} {v : Value} (h : number t = .ok (v, r)) : ∃ l, v = .number l := by
  unfold number at h
  extract_lets sign u whole at h
  split at h
  case isTrue => cases h
  case isFalse =>
    split at h
    case isTrue => cases h
    case isFalse => exact ⟨_, (Prod.mk.inj (Except.ok.inj h)).1.symm⟩

theorem whole_of_valueOf {inner : Option (Reader Value)} {t r : Text}
    {ms : List (Points × Value)} (h : valueOf inner t = .ok (.object ms, r)) :
    ∀ m ∈ ms, m.1.Whole := by
  unfold valueOf at h
  split at h
  case h_1 u =>
    obtain ⟨x, -, hx⟩ := ok_of_map h
    cases hx
  case h_2 =>
    split at h
    case h_1 => cases h
    case h_2 item =>
      split at h
      case h_1 => cases h
      case h_2 v _ =>
        obtain ⟨x, -, hx⟩ := ok_of_map h
        cases hx
  case h_3 =>
    split at h
    case h_1 => cases h
    case h_2 item =>
      split at h
      case h_1 =>
        obtain ⟨hms, -⟩ := Prod.mk.inj (Except.ok.inj h)
        obtain rfl := Value.object.inj hms
        exact nofun
      case h_2 v _ =>
        obtain ⟨x, hm, hx⟩ := ok_of_map h
        obtain rfl := Value.object.inj (Prod.mk.inj hx).1
        exact whole_of_members hm
  case h_4 =>
    unfold wordOrNumber at h
    split at h
    case h_1 w hw =>
      obtain ⟨hms, -⟩ := Prod.mk.inj (Except.ok.inj h)
      have hmem := List.mem_of_find?_eq_some hw
      simp only [words, List.mem_cons, List.not_mem_nil, or_false] at hmem
      obtain rfl | rfl | rfl | rfl | rfl | rfl := hmem <;> cases hms
    case h_2 =>
      obtain ⟨l, hl⟩ := number_cases h
      cases hl

end MarkdownFences.Json
