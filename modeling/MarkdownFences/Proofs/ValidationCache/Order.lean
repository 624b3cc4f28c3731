import MarkdownFences.Proofs.ValidationCache.File
import Mathlib.Data.List.Lex
import Mathlib.Data.List.Sort

namespace MarkdownFences

theorem Store.write_error {s : Store} {p : Path} {bytes : List UInt8} {e : StoreError}
    (h : s.write p bytes = .error e) (bytes' : List UInt8) : s.write p bytes' = .error e := by
  rw [write] at h ⊢
  cases hr : s.resolve p with
  | error e' =>
    rw [hr] at h
    exact h
  | ok names =>
    rw [hr] at h
    simp only [bind, Except.bind] at h ⊢
    split at h
    · exact h
    · cases h

namespace ValidationCache

open Json (Points)

variable {c d : ValidationCache} {s : Store}

theorem before_iff {a b : Points} : before a b = true ↔ a < b := by
  induction a generalizing b with
  | nil =>
    cases b with
    | nil => exact ⟨nofun, fun h => absurd h (lt_irrefl _)⟩
    | cons y b => exact ⟨fun _ => List.nil_lt_cons y b, fun _ => rfl⟩
  | cons x a ih =>
    cases b with
    | nil => exact ⟨nofun, fun h => absurd h (List.not_lt_nil _)⟩
    | cons y b =>
      rw [before, List.cons_lt_cons_iff, ← ih, Bool.or_eq_true, Bool.and_eq_true, decide_eq_true_eq,
        beq_iff_eq]

theorem not_before_iff {a b : Points} : (!before b a) = true ↔ a ≤ b := by
  rw [Bool.not_eq_true', ← Bool.not_eq_true, before_iff, not_lt]

theorem fileText_perm {ks ls : List Points} (h : ks.Perm ls) : fileText ks = fileText ls := by
  have hsort : (ks.mergeSort fun a b => !before b a) = ls.mergeSort fun a b => !before b a := by
    have hsorted (ps : List Points) :
        (ps.mergeSort fun a b => !before b a).Pairwise fun a b => (!before b a) = true := by
      refine List.pairwise_mergeSort (fun a b c hab hbc => ?_) (fun a b => ?_) ps
      · rw [not_before_iff] at hab hbc ⊢
        exact hab.trans hbc
      · rw [Bool.or_eq_true, not_before_iff, not_before_iff]
        exact le_total a b
    refine List.Perm.eq_of_pairwise (fun a b _ _ hab hba => ?_) (hsorted ks) (hsorted ls) ?_
    · rw [not_before_iff] at hab hba
      exact le_antisymm hab hba
    · exact (List.mergeSort_perm ks _).trans (h.trans (List.mergeSort_perm ls _).symm)
  rw [fileText, fileText, hsort, h.isEmpty_eq]

theorem save_congr (hp : d.path = c.path) (he : d.enabled = c.enabled) (hd : d.dirty = c.dirty)
    (hk : c.enabled = true → d.keys.Perm c.keys) (s : Store) :
    (d.save s).map (·.2.1) = (c.save s).map (·.2.1) := by
  rw [save, save, hp, he, hd]
  cases hdirty : c.enabled && c.dirty with
  | false => rfl
  | true =>
    rw [fileText_perm (hk (Bool.and_eq_true_iff.mp hdirty).1)]
    split
    · split
      · rfl
      · rfl
      · split <;> rfl
    · rfl

theorem save_ok_of (hp : d.path = c.path) (he : d.enabled = c.enabled)
    (hd : d.dirty = true → c.dirty = true) {saved : ValidationCache × Store × List Log.Entry}
    (h : c.save s = .ok saved) : ∃ saved', d.save s = .ok saved' := by
  rw [save] at h
  rw [save, hp, he]
  split
  case h_2 => exact ⟨_, rfl⟩
  case h_1 path hdirty hpath =>
    obtain ⟨henabled, hdirty⟩ := Bool.and_eq_true_iff.mp hdirty
    rw [henabled, hd hdirty, hpath] at h
    simp only [Bool.and_self] at h
    cases hmake : s.makeDirectory path.parent with
    | error e =>
      rw [hmake] at h
      cases e <;> first
        | exact ⟨_, rfl⟩
        | cases h
    | ok made =>
      rw [hmake] at h
      cases hwrite : made.write path (Text.toUtf8 (fileText d.keys)) with
      | error e =>
        simp only [Store.write_error hwrite] at h
        simp only [hwrite]
        cases e <;> first
          | exact ⟨_, rfl⟩
          | cases h
      | ok written =>
        simp only [hwrite]
        exact ⟨_, rfl⟩

end ValidationCache

end MarkdownFences
