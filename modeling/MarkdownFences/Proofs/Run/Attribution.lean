import MarkdownFences.Proofs.Check.Headers
import MarkdownFences.Proofs.Run.Frame
import MarkdownFences.Proofs.Run.Independence
import MarkdownFences.Proofs.Run.Pass

namespace MarkdownFences.Run

open Mark (Attributed ofIssues header?)

variable {τ ρ : Type} {job : Job} {o : Opinions τ ρ} {s : Store} {x : Examination τ ρ}
variable {limit : Nat}

def Examination.shown (limit : Nat) (delay : Nat → Block → Nat) (x : Examination τ ρ) :
    List LanguageIssue :=
  Check.issuesOf (Admission.endings (x.check.worker delay) limit 0 x.state x.scan.blocks)

theorem Examination.issues_checkAll (limit : Nat) (delay : Nat → Block → Nat)
    (x : Examination τ ρ) : (x.checkAll limit delay).findings.filterMap (·.issue) =
      (Admission.run (x.check.worker delay) limit 0 x.state x.scan.blocks).outcomes.filterMap
        Check.issue? := by
  rw [findings, List.filterMap_filterMap]
  rfl

theorem Examination.shown_perm (hl : 0 < limit) (delay : Nat → Block → Nat)
    (x : Examination τ ρ) :
    (x.shown limit delay).Perm ((x.checkAll limit delay).findings.filterMap (·.issue)) := by
  rw [issues_checkAll, ← Check.issuesOf_zipIdx]
  exact (Admission.endings_perm hl 0 x.state x.scan.blocks).filterMap _

theorem headed_of_prepare (h : prepare job o s = .ok x) : x.state.headed = [] := by
  obtain ⟨⟨cache, told⟩, -, h⟩ := ok_of_bind h
  obtain ⟨intake, -, h⟩ := ok_of_bind h
  rw [← Except.ok.inj h]

theorem grouped_blocks {ps : List Path} (h : ps.Nodup) (s : Store) :
    Grouped ((scanAll (documentsOf s ps)).blocks.map (·.file)) := by
  rw [(scanAll_documentsOf s ps).2]
  induction ps with
  | nil => exact fun p q hs => by simp at hs
  | cons p ps ih =>
    have hfile (q : Path) : ∀ b ∈ (scanAll (documentsOf s [q])).blocks, b.file = q := by
      intro b hb
      obtain ⟨d, hd, hbd⟩ := mem_blocks_scanAll.mp hb
      obtain ⟨q', hq, hread⟩ := List.mem_filterMap.mp hd
      obtain rfl := List.mem_singleton.mp hq
      rw [Scan.file_of_mem_blocks hbd, path_of_read (toOption_eq_some.mp hread)]
    obtain ⟨hp, hps⟩ := List.nodup_cons.mp h
    rw [List.flatMap_cons, List.map_append]
    refine Grouped.append (p := p) ?_ ?_ (ih hps)
    · exact List.forall_mem_map.mpr (hfile p)
    · intro hmem
      obtain ⟨b, hb, rfl⟩ := List.mem_map.mp hmem
      obtain ⟨q, hq, hb⟩ := List.mem_flatMap.mp hb
      exact hp (hfile q b hb ▸ hq)

theorem grouped_shown (hl : 0 < limit) (h : x.Ready job o s) (hpaths : job.paths.Nodup)
    {delay : Nat → Block → Nat}
    (hturn : Admission.endings (x.check.worker delay) limit 0 x.state x.scan.blocks =
      (Admission.run (x.check.worker delay) limit 0 x.state x.scan.blocks).outcomes.zipIdx) :
    Grouped ((x.shown limit delay).map (·.file)) := by
  have hfiles := Check.files_sublist (Admission.outcomes_forall₂
    (x.check.worker_respects delay x.state.cache) hl 0 ⟨rfl, rfl⟩ x.scan.blocks)
  rw [Examination.shown, hturn, Check.issuesOf_zipIdx]
  refine Grouped.sublist ?_ hfiles
  rw [h.scan, (readAll_eq h.intake).1]
  exact grouped_blocks hpaths s

/-- While blocks are checked the issues are put on the console in the order in which the checks
come to their ends, and the name of a file once, before the first of its issues. So each issue
stands below the name of its file just if no other file comes between two issues of one file, which
is so where checks cannot get past each other and no path is given twice. -/
theorem issues_attributed_iff (hl : 0 < job.settings.concurrency) (hx : prepare job o s = .ok x)
    (delay : Nat → Block → Nat) :
    let y := x.checkAll job.settings.concurrency delay
    let shown := x.shown job.settings.concurrency delay
    examine job o delay s = .ok y ∧
      shown.Perm (y.findings.filterMap (·.issue)) ∧
      y.state.console.lines = x.state.console.lines ++ (ofIssues [] shown).map Mark.text ∧
      ((ofIssues [] shown).filterMap header?).Nodup ∧
      (Attributed (ofIssues [] shown) ↔ Grouped (shown.map (·.file))) ∧
      (job.paths.Nodup → o.advisor = none ∨ job.settings.concurrency = 1 →
        Attributed (ofIssues [] shown)) := by
  intro y shown
  have hready := ready_of_prepare hx
  have hshows := Check.run_shows hl x.check delay x.state x.scan.blocks
  refine ⟨by rw [examine, hx]; rfl, x.shown_perm hl delay, ?_, Mark.nodup_headers .nil shown,
    Mark.attributed_ofIssues shown, fun hpaths halone => (Mark.attributed_ofIssues shown).mpr ?_⟩
  · rw [← headed_of_prepare hx]
    exact hshows.lines
  · refine grouped_shown hl hready hpaths ?_
    obtain ho | hone := halone
    · have hnone : x.check.classifier.advisor = none := by
        rw [hready.check]
        exact ho
      exact Admission.endings_of_neverWaits (Check.neverWaits hnone delay) hl 0 x.state _
    · rw [hone]
      exact Admission.endings_of_one _ 0 x.state _

def pairStore : Store where
  nodes := [(["a.md".toList], .file (Text.toUtf8
      "```json\nls -la\n```\n```bash\nprintf hello\n```\n```json\nmkdir -p x\n```\n".toList)),
    (["b.md".toList], .file (Text.toUtf8 "```json\nls -la\n```\n".toList))]

def pairJob (limit : Nat) : Job :=
  { fixJob with
    paths := [.ofString "a.md", .ofString "b.md"]
    settings := { Settings.default with cacheEnabled := false, concurrency := limit }
    fix := false
    digest := Digest.ofText }

theorem issues_attributed_two_files :
    ∃ x, prepare (pairJob 10) (.skipped () : Opinions Unit Unit) pairStore = .ok x ∧
      (x.shown 10 fun _ _ => 0).length = 4 ∧
      Attributed (ofIssues [] (x.shown 10 fun _ _ => 0)) := by
  have hissues : ((prepare (pairJob 10) (.skipped () : Opinions Unit Unit) pairStore).map fun x =>
      ((x.passAll fun _ _ => 0).findings.filterMap (·.issue)).length) = .ok 4 := by
    decide +kernel
  obtain ⟨x, hx, hlength⟩ := ok_of_map hissues
  obtain ⟨-, hperm, -, -, -, hattributed⟩ :=
    issues_attributed_iff (by decide) hx fun _ _ => 0
  rw [Examination.checkAll_eq_passAll (by rw [(ready_of_prepare hx).check]; rfl) (by decide)]
    at hperm
  exact ⟨x, hx, hperm.length_eq.trans hlength, hattributed (by decide) (.inl rfl)⟩

def sharedIssue (p : Path) : LanguageIssue :=
  ⟨.incorrectLanguage, p, 1, 3, "json".toList, "bash".toList, "ls -la".toList, 0⟩

def lateIssue : LanguageIssue :=
  ⟨.incorrectLanguage, .ofString "a.md", 7, 9, "json".toList, "bash".toList, "mkdir -p x".toList, 6⟩

/-- The language of the block in the second file is known while the third block of the first one
still waits for its answer. -/
theorem late_issue_below_other_file :
    ∃ x, prepare (pairJob 2) (.given (.waiting fun _ => .ok (some .bash)) () : Opinions Unit Text)
        pairStore = .ok x ∧
      (x.checkAll 2 fun _ _ => 1).state.console.lines = x.state.console.lines ++
        ["a.md".toList, (Issue.language (sharedIssue (.ofString "a.md"))).render,
          "b.md".toList, (Issue.language (sharedIssue (.ofString "b.md"))).render,
          (Issue.language lateIssue).render] ∧
      lateIssue ∈ (x.checkAll 2 fun _ _ => 1).findings.filterMap (·.issue) ∧
      ¬ Attributed (ofIssues [] (x.shown 2 fun _ _ => 1)) := by
  let shown := [sharedIssue (.ofString "a.md"), sharedIssue (.ofString "b.md"), lateIssue]
  have hrun : ((prepare (pairJob 2)
      (.given (.waiting fun _ => .ok (some .bash)) () : Opinions Unit Text) pairStore).map fun x =>
        let w := (x.check.worker fun _ _ => 1).listing
        let t := Admission.advance w 14 (Admission.initial 2 0 (x.state, []) x.scan.blocks)
        (Check.issuesOf t.shared.2, (Admission.step w t).isNone)) = .ok (shown, true) := by
    decide +kernel
  obtain ⟨x, hx, hshown⟩ := ok_of_map hrun
  obtain ⟨hissues, hend⟩ := Prod.mk.inj hshown
  have hshown : x.shown 2 (fun _ _ => 1) = shown := by
    rw [Examination.shown, Admission.endings, Admission.run,
      Admission.finish_eq_advance (Option.isNone_iff_eq_none.mp hend)]
    exact hissues
  have hlines := (Check.run_shows Nat.two_pos x.check (fun _ _ => 1) x.state x.scan.blocks).lines
  have hmem : lateIssue ∈ x.shown 2 fun _ _ => 1 := by
    rw [hshown]
    exact List.mem_cons_of_mem _ (List.mem_cons_of_mem _ List.mem_cons_self)
  refine ⟨x, hx, ?_, (x.shown_perm Nat.two_pos _).subset hmem, ?_⟩
  · refine hlines.trans (congrArg _ ?_)
    rw [headed_of_prepare hx]
    change (ofIssues [] (x.shown 2 _)).map Mark.text = _
    rw [hshown]
    decide +kernel
  · rw [Mark.attributed_ofIssues, hshown]
    intro hgrouped
    have hfile := hgrouped (.ofString "a.md") (.ofString "b.md") (.refl _)
    revert hfile
    decide

end MarkdownFences.Run
