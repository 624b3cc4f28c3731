import MarkdownFences.Proofs.Json.Objects
import MarkdownFences.Proofs.Text.FileText
import MarkdownFences.ValidationCache

namespace MarkdownFences.ValidationCache

open Json

variable {keys : List Points}

theorem members_memberLines (levels : Nat) (hw : ∀ k ∈ keys, k.Whole) (hne : keys ≠ [])
    {n : Nat} (hn : keys.length ≤ n) (r : Text) :
    members (value levels) n (skipSpace (memberLines keys ++ '\x7d' :: r)) =
      .ok (keys.map fun k => (k, .null), r) := by
  induction keys generalizing n with
  | nil => exact absurd rfl hne
  | cons k keys ih =>
    obtain ⟨n, rfl⟩ : ∃ m, n = m + 1 := Nat.exists_eq_add_one_of_ne_zero
      (Nat.ne_of_gt (Nat.lt_of_lt_of_le (Nat.succ_pos keys.length) hn))
    obtain ⟨hk, hkeys⟩ := List.forall_mem_cons.mp hw
    have hskip (u : Text) : skipSpace ("  ".toList ++ (writeString k ++ u)) = writeString k ++ u :=
      rfl
    cases keys with
    | nil =>
      have hline : memberLines [k] ++ '\x7d' :: r =
          "  ".toList ++ (writeString k ++ (": null\n\x7d".toList ++ r)) := by
        simp [memberLines]
      rw [hline, hskip, ← List.append_assoc]
      exact members_last hk r
    | cons l keys =>
      have hline : memberLines (k :: l :: keys) ++ '\x7d' :: r =
          "  ".toList ++ (writeString k ++ (": null,\n".toList ++
            (memberLines (l :: keys) ++ '\x7d' :: r))) := by
        simp [memberLines]
      have hrest := ih hkeys (List.cons_ne_nil l keys) (Nat.le_of_succ_le_succ hn)
      rw [hline, hskip, ← List.append_assoc]
      apply (members_more hk _).trans
      rw [hrest]
      rfl

theorem exists_memberLines (k : Points) (ks : List Points) :
    ∃ u, memberLines (k :: ks) = ' ' :: ' ' :: '"' :: u := by
  cases ks <;> exact ⟨_, rfl⟩

theorem length_le_memberLines (keys : List Points) :
    3 * keys.length ≤ (memberLines keys).length := by
  induction keys with
  | nil => exact Nat.le_refl 0
  | cons k keys ih =>
    cases keys with
    | nil => simp [memberLines]
    | cons l keys =>
      simp only [memberLines, List.length_append, List.length_cons] at ih ⊢
      simp
      omega

theorem read_members (hw : ∀ k ∈ keys, k.Whole) (hne : keys ≠ []) :
    Json.read ("\x7b\n".toList ++ memberLines keys ++ "\x7d".toList) =
      .ok (.object (keys.map fun k => (k, .null))) := by
  obtain ⟨k, ks, rfl⟩ := List.exists_cons_of_ne_nil hne
  obtain ⟨u, hu⟩ := exists_memberLines k ks
  obtain ⟨levels, hlevels⟩ : ∃ n, nestingLimit = n + 1 := ⟨_, rfl⟩
  have hmembers := members_memberLines levels hw hne
    (n := (skipSpace (memberLines (k :: ks) ++ ['\x7d'])).length + 1) ?_ []
  · have hopen : skipSpace ("\x7b\n".toList ++ memberLines (k :: ks) ++ "\x7d".toList) =
        '\x7b' :: '\n' :: (memberLines (k :: ks) ++ ['\x7d']) :=
      rfl
    have hvalue : value nestingLimit ('\x7b' :: '\n' :: (memberLines (k :: ks) ++ ['\x7d'])) =
        .ok (.object ((k :: ks).map fun k => (k, .null)), []) := by
      have hskip : skipSpace ('\n' :: (memberLines (k :: ks) ++ ['\x7d'])) =
          skipSpace (memberLines (k :: ks) ++ ['\x7d']) :=
        rfl
      rw [hlevels, value, valueOf, hskip]
      split
      case h_1 r hr =>
        rw [hu] at hr
        exact absurd (List.cons.inj hr).1 (by decide)
      case h_2 =>
        rw [hmembers]
        rfl
    rw [Json.read, hopen, hvalue]
    rfl
  · have hlength := length_le_memberLines (k :: ks)
    have hskip : skipSpace (' ' :: ' ' :: '"' :: u ++ ['\x7d']) = '"' :: u ++ ['\x7d'] := rfl
    rw [hu] at hlength ⊢
    rw [hskip]
    simp only [List.length_cons, List.length_append, List.length_nil] at hlength ⊢
    omega

section Control

variable {c : Char}

/-! Control characters are never written as such within a string. -/

theorem not_mem_hex (hc : c.toNat < 0x20) (width n : Nat) : c ∉ Text.hex width n := by
  have hdigit : ∀ d < 16, 0x20 ≤ (Text.hexDigit d).toNat := by decide
  induction width generalizing n with
  | zero => exact List.not_mem_nil
  | succ width ih =>
    rw [Text.hex, List.mem_append, List.mem_singleton, not_or]
    refine ⟨ih (n / 16), ?_⟩
    rintro rfl
    exact Nat.not_le.mpr hc (hdigit (n % 16) (Nat.mod_lt n (by decide)))

theorem not_mem_written (hc : c.toNat < 0x20) (n : Nat) : c ∉ written n := by
  have hne {d : Char} (hd : 0x20 ≤ d.toNat) : c ≠ d := by
    rintro rfl
    exact Nat.not_le.mpr hc hd
  have hunit (k : Nat) : c ∉ unitEscape k := by
    rw [unitEscape, List.mem_cons, List.mem_cons, not_or, not_or]
    exact ⟨hne (by decide), hne (by decide), not_mem_hex hc 4 k⟩
  obtain ⟨d, -, hd, hw, -⟩ | ⟨hlow, hhigh, -, -, hw⟩ | ⟨-, hw⟩ | ⟨-, hw⟩ := written_cases n
  · rw [hw, List.mem_cons, List.mem_singleton, not_or]
    exact ⟨hne (by decide), hne hd⟩
  · have hval : (Char.ofNat n).toNat = n := Text.val_ofNat (by omega)
    rw [← hval] at hlow
    rw [hw, List.mem_singleton]
    exact hne hlow
  · rw [hw]
    exact hunit n
  · rw [hw]
    exact fun h => (List.mem_append.mp h).elim (hunit _) (hunit _)

theorem not_mem_writeString (hc : c.toNat < 0x20) (k : Points) : c ∉ writeString k := by
  have hquote : c ≠ '"' := by
    rintro rfl
    exact absurd hc (by decide)
  simp [writeString, not_mem_written hc, hquote]

end Control

theorem not_mem_memberLines (keys : List Points) : '\r' ∉ memberLines keys := by
  have hstring := not_mem_writeString (c := '\r') (by decide)
  induction keys with
  | nil => exact List.not_mem_nil
  | cons k keys ih =>
    cases keys with
    | nil => simp [memberLines, hstring]
    | cons l keys => simp [memberLines, hstring, ih]

theorem not_mem_fileText (keys : List Points) : '\r' ∉ fileText keys := by
  rw [fileText]
  split
  · decide
  · simp [not_mem_memberLines]

theorem whole_of_keysOf {t : Text} (h : keysOf t = .ok (some keys)) : ∀ k ∈ keys, k.Whole := by
  have hcontainer (levels : Nat) : ∃ inner, value levels = valueOf inner := by
    cases levels <;> exact ⟨_, rfl⟩
  obtain ⟨inner, hinner⟩ := hcontainer nestingLimit
  unfold keysOf at h
  split at h
  case h_1 ms hread =>
    obtain rfl := Option.some.inj (Except.ok.inj h)
    intro k hk
    rw [List.mem_eraseDups] at hk
    obtain ⟨m, hm, rfl⟩ := List.mem_map.mp hk
    rw [Json.read, hinner] at hread
    split at hread
    case h_1 => cases hread
    case h_2 v r hv =>
      split at hread
      case h_1 =>
        obtain rfl := Except.ok.inj hread
        exact whole_of_valueOf hv m hm
      case h_2 => cases hread
  case h_2 => cases h
  case h_3 => cases h

theorem keysOf_fileText (hw : ∀ k ∈ keys, k.Whole) :
    ∃ ks, keysOf (Text.ofFileText (fileText keys)) = .ok (some ks) ∧ ∀ k, k ∈ ks ↔ k ∈ keys := by
  rw [Text.ofFileText_eq_self (not_mem_fileText keys)]
  cases keys with
  | nil => exact ⟨[], rfl, fun k => Iff.rfl⟩
  | cons l keys =>
    have hsort {k : Points} :
        k ∈ (l :: keys).mergeSort (fun a b => !before b a) ↔ k ∈ l :: keys :=
      List.mem_mergeSort
    have hne : (l :: keys).mergeSort (fun a b => !before b a) ≠ [] :=
      List.ne_nil_of_mem (hsort.mpr List.mem_cons_self)
    have hread := read_members (fun k hk => hw k (hsort.mp hk)) hne
    refine ⟨_, by rw [keysOf, fileText, List.isEmpty_cons, if_neg Bool.false_ne_true, hread],
      fun k => ?_⟩
    rw [List.mem_eraseDups, List.map_map]
    simp

end MarkdownFences.ValidationCache
