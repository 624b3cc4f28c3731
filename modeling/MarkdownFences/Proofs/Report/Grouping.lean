import MarkdownFences.Proofs.FenceFix.Plan
import MarkdownFences.Proofs.Path.Normal
import MarkdownFences.Report.Lines
import Mathlib.Data.List.Nodup

namespace MarkdownFences

/-- Files in the order in which they are first named: none twice, nor two that are written alike. -/
structure FirstNamed (named files : List Path) : Prop where
  eq : files = named.eraseDups
  nodup : files.Nodup
  written : (∀ p ∈ named, p.Normal) → (files.map Path.text).Nodup

theorem firstNamed_eraseDups (named : List Path) : FirstNamed named named.eraseDups where
  eq := rfl
  nodup := nodup_eraseDups named
  written := by
    intro hnormal
    refine List.Nodup.map_on (fun p hp q hq htext => ?_) (nodup_eraseDups named)
    exact (hnormal p (List.mem_eraseDups.mp hp)).text_inj
      (hnormal q (List.mem_eraseDups.mp hq)) htext

namespace FenceFix

/-- Fixes from the last line to the first, those of one line in the order in which they were
given. -/
structure FromLast (given fixes : List FenceFix) : Prop where
  perm : fixes.Perm given
  descending : fixes.Pairwise fun a b => b.line ≤ a.line
  ties : ∀ n, (fixes.filter fun f => f.line == n) = given.filter fun f => f.line == n

theorem fromLast_descending (fs : List FenceFix) : FromLast fs (descending fs) where
  perm := List.mergeSort_perm fs _
  descending := pairwise_descending fs
  ties := filter_line_descending fs

end FenceFix

namespace Issue

theorem byFile_eq (is : List Issue) : byFile is = groupsBy file is := collectBy_eq file is

theorem mem_byFile {is : List Issue} {g : Path × List Issue} (h : g ∈ byFile is) :
    g.2 = withKey file is g.1 := by
  rw [byFile_eq, groupsBy] at h
  obtain ⟨p, -, rfl⟩ := List.mem_map.mp h
  rfl

def fileLines (is : List Issue) (p : Path) : List Text :=
  p.text :: ((withKey file is p).map render ++ [[]])

theorem sectionLines_eq {is : List Issue} (h : is ≠ []) : sectionLines is =
    s!"⚠ Found {is.length} structural issue(s):".toList :: [] ::
      (is.map file).eraseDups.flatMap (fileLines is) := by
  rw [sectionLines, if_neg (by simpa using h), byFile_eq, groupsBy, List.flatMap_map]
  rfl

end Issue

/-- Grouping loses nothing. A plan has each file once, in the order in which fixes first name it,
and with it all its fixes from the last line to the first; issues are grouped by files in the same
way and keep their order; and a section writes under the name of each file its issues, of which
every one is written once. -/
theorem grouping_keeps_all (fs : List FenceFix) (is : List Issue) :
    (FirstNamed (fs.map (·.file)) ((FenceFix.plan fs).map (·.1)) ∧
      ∀ g ∈ FenceFix.plan fs, FenceFix.FromLast (fs.filter fun f => f.file = g.1) g.2) ∧
    (FirstNamed (is.map (·.file)) ((Issue.byFile is).map (·.1)) ∧
      ∀ g ∈ Issue.byFile is, g.2 = is.filter fun i => i.file = g.1) ∧
    Issue.sectionLines [] = [] ∧
    (is ≠ [] → Issue.sectionLines is =
      s!"⚠ Found {is.length} structural issue(s):".toList :: [] ::
        (is.map (·.file)).eraseDups.flatMap fun p =>
          p.text :: ((is.filter fun i => i.file = p).map Issue.render ++ [[]])) ∧
    ((is.map (·.file)).eraseDups.flatMap fun p => is.filter fun i => i.file = p).Perm is := by
  refine ⟨⟨?_, fun g hg => ?_⟩, ⟨?_, fun g hg => Issue.mem_byFile hg⟩, rfl, Issue.sectionLines_eq,
    ?_⟩
  · rw [FenceFix.map_fst_plan]
    exact firstNamed_eraseDups _
  · rw [(FenceFix.mem_plan.mp hg).2]
    exact FenceFix.fromLast_descending _
  · rw [Issue.byFile_eq, map_fst_groupsBy]
    exact firstNamed_eraseDups _
  · have h := perm_groupsBy Issue.file is
    rw [groupsBy, List.flatMap_map] at h
    exact h

/-- Fixes and issues of two files in turn. One file is named in two ways; it has two fixes for one
line, and a fix for a line that no text has. -/
theorem grouping_keeps_all_interleaved :
    let a := Path.ofString "a.md"
    let b := Path.ofString "docs/b.md"
    let fix (p : Path) (n : Int) (tag : String) : FenceFix := ⟨p, n, tag.toList⟩
    let fs := [fix a 3 "json", fix b 0 "bash", fix (.ofString "./a.md") 7 "text", fix b (-1) "text",
      fix a 3 "bash"]
    let missing : StructuralIssue :=
      ⟨.missingLanguage, b, 1, some 3, some "ls".toList, none, some 0⟩
    let wrong : LanguageIssue :=
      ⟨.incorrectLanguage, a, 4, 6, "js".toList, "json".toList, "1".toList, 3⟩
    let is := [Issue.structural missing, .language wrong, .structural { missing with line := 9 }]
    (FenceFix.plan fs = [(a, [fs[2], fs[0], fs[4]]), (b, [fs[1], fs[3]])] ∧
      FenceFix.FromLast (fs.filter fun f => f.file = a) [fs[2], fs[0], fs[4]]) ∧
    ((∀ p ∈ is.map (·.file), p.Normal) ∧ (((Issue.byFile is).map (·.1)).map Path.text).Nodup) ∧
    (is ≠ [] ∧ Issue.sectionLines is = ["⚠ Found 3 structural issue(s):".toList, [],
      "docs/b.md".toList, is[0].render, is[2].render, [], "a.md".toList, is[1].render, []]) := by
  intro a b fix fs missing wrong is
  have hall := grouping_keeps_all fs is
  have hplan : FenceFix.plan fs = [(a, [fs[2], fs[0], fs[4]]), (b, [fs[1], fs[3]])] := by
    have hgroups : groupsBy (·.file) fs = [(a, [fs[0], fs[2], fs[4]]), (b, [fs[1], fs[3]])] := by
      decide
    rw [FenceFix.plan_eq, hgroups]
    simp [FenceFix.descending, List.mergeSort, fs, fix]
  have hnormal : ∀ p ∈ is.map (·.file), p.Normal := by
    simp [is, missing, wrong, Issue.file, a, b, Path.ofString, Path.normal_ofText]
  have hne : is ≠ [] := by simp [is]
  refine ⟨⟨hplan, hall.1.2 (a, _) (hplan ▸ List.mem_cons_self)⟩,
    ⟨hnormal, hall.2.1.1.written hnormal⟩, hne, ?_⟩
  rw [hall.2.2.2.1 hne]
  decide

end MarkdownFences
