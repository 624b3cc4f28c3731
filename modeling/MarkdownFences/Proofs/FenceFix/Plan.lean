import MarkdownFences.Proofs.FenceFix.Attempt
import MarkdownFences.Proofs.Groups.FirstSeen

namespace MarkdownFences.FenceFix

structure Grouped (fs : List FenceFix) (groups : List (Path × List FenceFix)) : Prop where
  own : ∀ g ∈ groups, ∀ f ∈ g.2, f.file = g.1
  ne_nil : ∀ g ∈ groups, g.2 ≠ []
  nodup : (groups.map (·.1)).Nodup
  perm : (groups.flatMap (·.2)).Perm fs

variable {fs : List FenceFix} {f : FenceFix}

theorem plan_eq (fs : List FenceFix) :
    plan fs = (groupsBy file fs).map fun g => (g.1, descending g.2) := by
  rw [plan, collectBy_eq]

theorem map_fst_plan (fs : List FenceFix) : (plan fs).map (·.1) = (fs.map file).eraseDups := by
  rw [plan_eq, List.map_map, ← map_fst_groupsBy]
  rfl

theorem mem_plan {g : Path × List FenceFix} :
    g ∈ plan fs ↔ g.1 ∈ fs.map file ∧ g.2 = descending (withKey file fs g.1) := by
  obtain ⟨p, fixes⟩ := g
  simp only [plan_eq, groupsBy, List.mem_map, List.mem_eraseDups, Prod.mk.injEq]
  constructor
  · rintro ⟨_, ⟨q, hq, rfl⟩, rfl, rfl⟩
    exact ⟨hq, rfl⟩
  · rintro ⟨hp, rfl⟩
    exact ⟨(p, withKey file fs p), ⟨p, hp, rfl⟩, rfl, rfl⟩

theorem grouped_plan (fs : List FenceFix) : Grouped fs (plan fs) where
  own := by
    intro g hg f hf
    rw [(mem_plan.mp hg).2, mem_descending] at hf
    exact of_decide_eq_true (List.mem_filter.mp hf).2
  ne_nil := by
    intro g hg
    obtain ⟨hfile, hfixes⟩ := mem_plan.mp hg
    obtain ⟨f, hf, hfg⟩ := List.mem_map.mp hfile
    rw [hfixes]
    exact List.ne_nil_of_mem (mem_descending.mpr (List.mem_filter.mpr ⟨hf, decide_eq_true hfg⟩))
  nodup := by
    rw [map_fst_plan]
    exact nodup_eraseDups _
  perm := by
    rw [plan_eq, List.flatMap_map]
    exact (List.Perm.flatMap_left _ fun g _ => List.mergeSort_perm g.2 _).trans
      (perm_groupsBy file fs)

theorem mem_of_mem_plan {g : Path × List FenceFix} (hg : g ∈ plan fs) (hf : f ∈ g.2) : f ∈ fs :=
  (grouped_plan fs).perm.subset (List.mem_flatMap.mpr ⟨g, hg, hf⟩)

end MarkdownFences.FenceFix
