import MarkdownFences.Groups
import Mathlib.Data.List.Induction
import Mathlib.Data.List.Perm.Basic

namespace MarkdownFences

theorem nodup_eraseDups {κ : Type} [BEq κ] [LawfulBEq κ] (ks : List κ) : ks.eraseDups.Nodup := by
  match ks with
  | [] => exact .nil
  | k :: ks =>
    rw [List.eraseDups_cons]
    refine List.nodup_cons.mpr ⟨fun hmem => ?_, nodup_eraseDups _⟩
    simp at hmem
termination_by ks.length
decreasing_by exact Nat.lt_succ_of_le (List.length_filter_le _ _)

variable {α κ : Type} [DecidableEq κ] {key : α → κ} {ks : List κ} {k : κ}

theorem eraseDups_concat_of_mem (h : k ∈ ks) : (ks ++ [k]).eraseDups = ks.eraseDups := by
  simp [List.eraseDups_append, List.removeAll, h]

theorem eraseDups_concat_of_not_mem (h : k ∉ ks) :
    (ks ++ [k]).eraseDups = ks.eraseDups ++ [k] := by
  simp [List.eraseDups_append, List.removeAll, h, List.eraseDups_cons]

def withKey (key : α → κ) (xs : List α) (k : κ) : List α := xs.filter fun x => key x = k

/-- Items taken apart by their keys: every key once, where it comes first, and with it what has
it. -/
def groupsBy (key : α → κ) (xs : List α) : List (κ × List α) :=
  (xs.map key).eraseDups.map fun k => (k, withKey key xs k)

variable {x : α} {xs : List α}

theorem withKey_concat_self (h : key x = k) :
    withKey key (xs ++ [x]) k = withKey key xs k ++ [x] := by
  simp [withKey, List.filter_append, h]

theorem withKey_concat_of_ne (h : key x ≠ k) : withKey key (xs ++ [x]) k = withKey key xs k := by
  simp [withKey, List.filter_append, h]

theorem withKey_eq_nil (h : k ∉ xs.map key) : withKey key xs k = [] := by
  rw [withKey, List.filter_eq_nil_iff]
  intro x hx hk
  exact h (of_decide_eq_true hk ▸ List.mem_map_of_mem hx)

theorem addBy_of_mem (hks : ks.Nodup) (h : key x ∈ ks) :
    addBy key x (ks.map fun k => (k, withKey key xs k)) =
      ks.map fun k => (k, withKey key (xs ++ [x]) k) := by
  induction ks with
  | nil => cases h
  | cons k ks ih =>
    obtain ⟨hk, hks⟩ := List.nodup_cons.mp hks
    rw [List.map_cons, List.map_cons, addBy]
    split
    case isTrue heq =>
      have hrest : (ks.map fun k => (k, withKey key xs k)) =
          ks.map fun k => (k, withKey key (xs ++ [x]) k) := by
        refine List.map_congr_left fun m hm => ?_
        have hne : key x ≠ m := by
          rintro rfl
          exact hk (heq ▸ hm)
        rw [withKey_concat_of_ne hne]
      rw [withKey_concat_self heq.symm, hrest]
    case isFalse hne =>
      rw [withKey_concat_of_ne (Ne.symm hne),
        ih hks ((List.mem_cons.mp h).resolve_left (Ne.symm hne))]

theorem addBy_of_not_mem (h : key x ∉ ks) :
    addBy key x (ks.map fun k => (k, withKey key xs k)) =
      (ks.map fun k => (k, withKey key (xs ++ [x]) k)) ++ [(key x, [x])] := by
  induction ks with
  | nil => rfl
  | cons k ks ih =>
    obtain ⟨hne, hks⟩ := List.ne_and_not_mem_of_not_mem_cons h
    rw [List.map_cons, List.map_cons, addBy, if_neg (Ne.symm hne), ih hks,
      withKey_concat_of_ne hne, List.cons_append]

theorem addBy_groupsBy (key : α → κ) (x : α) (xs : List α) :
    addBy key x (groupsBy key xs) = groupsBy key (xs ++ [x]) := by
  rw [groupsBy, groupsBy, List.map_append, List.map_singleton]
  by_cases h : key x ∈ xs.map key
  · rw [eraseDups_concat_of_mem h]
    exact addBy_of_mem (nodup_eraseDups _) (List.mem_eraseDups.mpr h)
  · rw [eraseDups_concat_of_not_mem h, List.map_append, List.map_singleton,
      withKey_concat_self rfl, withKey_eq_nil h, List.nil_append]
    exact addBy_of_not_mem fun hmem => h (List.mem_eraseDups.mp hmem)

theorem collectBy_eq (key : α → κ) (xs : List α) : collectBy key xs = groupsBy key xs := by
  rw [collectBy]
  induction xs using List.reverseRecOn with
  | nil => rfl
  | append_singleton xs x ih =>
    rw [List.foldl_append, ih]
    exact addBy_groupsBy key x xs

theorem perm_withKey (hks : ks.Nodup) (h : ∀ x ∈ xs, key x ∈ ks) :
    (ks.flatMap (withKey key xs)).Perm xs := by
  induction ks generalizing xs with
  | nil =>
    obtain rfl : xs = [] := List.eq_nil_iff_forall_not_mem.mpr fun x hx => by cases h x hx
    exact List.Perm.refl _
  | cons k ks ih =>
    obtain ⟨hk, hks⟩ := List.nodup_cons.mp hks
    -- the items with other keys are those that the keys after the first one have
    let others := xs.filter fun x => !decide (key x = k)
    have hothers : ∀ m ∈ ks, withKey key xs m = withKey key others m := by
      intro m hm
      rw [withKey, withKey, List.filter_filter]
      refine List.filter_congr fun x _ => ?_
      by_cases hx : key x = m
      · have hne : m ≠ k := fun he => hk (he ▸ hm)
        simp [hx, hne]
      · simp [hx]
    have hmem : ∀ x ∈ others, key x ∈ ks := by
      intro x hx
      obtain ⟨hx, hne⟩ := List.mem_filter.mp hx
      exact (List.mem_cons.mp (h x hx)).resolve_left (by simpa using hne)
    rw [List.flatMap_cons, List.flatMap_congr hothers]
    exact (List.Perm.append_left _ (ih hks hmem)).trans (List.filter_append_perm _ xs)

theorem perm_groupsBy (key : α → κ) (xs : List α) :
    ((groupsBy key xs).flatMap (·.2)).Perm xs := by
  rw [groupsBy, List.flatMap_map]
  exact perm_withKey (nodup_eraseDups _) fun x hx =>
    List.mem_eraseDups.mpr (List.mem_map_of_mem hx)

theorem map_fst_groupsBy (key : α → κ) (xs : List α) :
    (groupsBy key xs).map (·.1) = (xs.map key).eraseDups := by
  simp only [groupsBy, List.map_map, Function.comp_def, List.map_id']

end MarkdownFences
