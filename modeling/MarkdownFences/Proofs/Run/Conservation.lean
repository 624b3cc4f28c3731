import MarkdownFences.Proofs.Check.Balance
import MarkdownFences.Proofs.Run.Clears
import MarkdownFences.Proofs.Run.Independence

namespace MarkdownFences

namespace Issue

def place : Issue → Path × Option Int
  | .structural i => i.place
  | .language i => i.place

def kind : Issue → IssueKind
  | .structural i => i.kind
  | .language i => i.kind

end Issue

namespace Run

variable {τ ρ : Type} {job : Job} {o : Opinions τ ρ} {delay : Nat → Block → Nat}
variable {duration : Binary64} {s : Store} {x : Examination τ ρ} {r : Result τ}

/-! What is found: every issue that a tag removes has its fix, or its check failed. -/

/-- The blocks without a tag whose check failed. -/
def Examination.undetected (x : Examination τ ρ) : List Block :=
  Check.undetected x.scan.blocks x.results

section Findings

variable (h : x.Of job o delay s) (hl : 0 < job.settings.concurrency)

include h hl

theorem Examination.Of.comesTo :
    List.Forall₂ (fun b r => ∀ f, r = .ok f → x.check.ComesTo b f) x.scan.blocks x.results := by
  obtain ⟨start, -, -, -, hresults⟩ := h.run
  rw [hresults]
  exact Admission.outcomes_forall₂ (x.check.worker_respects delay start.cache) hl 0 ⟨rfl, rfl⟩ _

theorem Examination.Of.fixes_eq (hfix : job.fix = true) :
    x.fixes = x.results.filterMap Check.fix? := by
  have hk : x.check.fix = true := by rw [h.check, hfix]
  have hfindings : ∀ f ∈ x.findings, f.IsSound ∧ f.block ∈ x.scan.blocks := by
    intro f hf
    obtain ⟨i, hi, hq⟩ := List.getElem_of_mem (mem_findings.mp hf)
    obtain ⟨hlength, hcomes⟩ := List.forall₂_iff_get.mp (h.comesTo hl)
    have hcomes := hcomes i (hlength ▸ hi) hi f hq
    refine ⟨hcomes.isSound hk, ?_⟩
    cases hcomes.isOf <;> exact List.getElem_mem _
  rw [Examination.fixes, Scan.fixes_eq (fun f hf => (hfindings f hf).1), Examination.findings,
    List.filterMap_filterMap]
  · rfl
  · intro f hf hb
    rw [h.scan]
    exact (tellsMissing_scanAll _).mem_untagged (h.scan ▸ (hfindings f hf).2) hb

theorem Examination.Of.balance (hfix : job.fix = true) :
    (x.fixes.map FenceFix.place ++ x.undetected.map Block.place).Perm
      ((x.findings.filterMap (·.issue)).map LanguageIssue.place ++
        (x.scan.issues.filter (·.kind == .missingLanguage)).map StructuralIssue.place) := by
  have hk : x.check.fix = true := by rw [h.check, hfix]
  have hbalance := Check.balance_all hk (h.comesTo hl)
  have hmissing : x.scan.TellsMissing := h.scan ▸ tellsMissing_scanAll _
  rw [h.fixes_eq hl hfix, hmissing, List.map_map, Examination.findings, List.filterMap_filterMap]
  exact hbalance

end Findings

theorem Examination.Of.kind_of_language (h : x.Of job o delay s) {i : LanguageIssue}
    (hi : i ∈ x.findings.filterMap (·.issue)) : i.kind = .incorrectLanguage := by
  obtain ⟨f, hf, hfi⟩ := List.mem_filterMap.mp hi
  obtain ⟨b, -, hof⟩ := h.isOf hf
  cases hof with
  | clean => cases hfi
  | untagged l hb => cases hfi
  | mismatch declared l j hj =>
    obtain rfl := Option.some.inj hfi
    exact (Block.place_of_mismatch hj).2

/-! What is repaired: every fix of a plan is made or skipped, or its file failed. -/

def Accounts (g : Path × List FenceFix) (q : Except Failure FileFix) : Prop :=
  Concerns g q ∧ ∀ f, q = .ok f → f.fixed + f.skipped = g.2.length

theorem accounts_repair {g : Path × List FenceFix} (ht : ∀ f ∈ g.2, Fence.IsTag f.tag)
    (readOnly : List Path) (s : Store) : Accounts g (repair readOnly s g).2 := by
  refine ⟨concerns_repair readOnly s g, fun f hf => ?_⟩
  rw [repair] at hf
  obtain ⟨told, e, hfile⟩ | ⟨t, o, told, s', -, ho, hfile, -⟩ :=
    Repair.file_cases readOnly s g.1 g.2
  · rw [hfile] at hf
    cases hf
  · rw [hfile] at hf
    obtain rfl := Except.ok.inj hf
    exact FenceFix.fixed_add_skipped ht ho

section Repairs

variable {gs : List (Path × List FenceFix)} {qs : List (Except Failure FileFix)} {R : Report}

instance (R : Report) : DecidablePred (FailedAt R) := fun p =>
  inferInstanceAs (Decidable (∃ e ∈ R.failures, e.operation = .write ∧ e.file = p))

def Tells (R : Report) (g : Path × List FenceFix) (q : Except Failure FileFix) : Prop :=
  FailedAt R g.1 ↔ ∃ e, q = .error e

theorem tells_repairs {R₀ : Report} (h : List.Forall₂ Concerns gs qs)
    (hgs : (gs.map (·.1)).Nodup) (h₀ : ∀ p, ¬ FailedAt R₀ p)
    (hR : R.failures = R₀.failures ++ qs.filterMap failed?) : List.Forall₂ (Tells R) gs qs := by
  obtain ⟨hlength, hzip⟩ := List.forall₂_iff_zip.mp h
  have hfst : (gs.zip qs).map Prod.fst = gs := List.map_fst_zip (Nat.le_of_eq hlength)
  have hsnd : (gs.zip qs).map Prod.snd = qs := List.map_snd_zip (Nat.le_of_eq hlength.symm)
  have hinj := List.inj_on_of_nodup_map (f := fun c => c.1.1) (l := gs.zip qs) (by
    rwa [← hfst, List.map_map] at hgs)
  refine List.forall₂_iff_zip.mpr ⟨hlength, fun {g q} hgq => ?_⟩
  constructor
  · rintro ⟨e, he, hop, hfile⟩
    rw [hR] at he
    obtain he | he := List.mem_append.mp he
    · exact absurd ⟨e, he, hop, hfile⟩ (h₀ g.1)
    · obtain ⟨q', hq', hqe⟩ := List.mem_filterMap.mp he
      rw [← hsnd] at hq'
      obtain ⟨⟨g', q'⟩, hmem, rfl⟩ := List.mem_map.mp hq'
      cases q' with
      | ok f => cases hqe
      | error e' =>
        obtain rfl := Option.some.inj hqe
        have hsame : g'.1 = g.1 := (hzip hmem).1.symm.trans hfile
        exact ⟨e', (Prod.mk.inj (hinj hmem hgq hsame)).2.symm⟩
  · rintro ⟨e, rfl⟩
    obtain ⟨hfile, hop⟩ := hzip hgq
    refine ⟨e, ?_, hop, hfile⟩
    rw [hR]
    exact List.mem_append_right _ (List.mem_filterMap.mpr ⟨_, (List.of_mem_zip hgq).2, rfl⟩)

theorem countP_failedAt {g : Path × List FenceFix} (hown : ∀ f ∈ g.2, f.file = g.1) :
    g.2.countP (fun f => FailedAt R f.file) = if FailedAt R g.1 then g.2.length else 0 := by
  split
  case isTrue hg => exact List.countP_eq_length.mpr fun f hf => by simpa [hown f hf] using hg
  case isFalse hg => exact List.countP_eq_zero.mpr fun f hf => by simpa [hown f hf] using hg

theorem tally_repairs (ha : List.Forall₂ Accounts gs qs) (ht : List.Forall₂ (Tells R) gs qs)
    (hown : ∀ g ∈ gs, ∀ f ∈ g.2, f.file = g.1) :
    tally (·.fixed) (qs.filterMap Except.toOption) +
        tally (·.skipped) (qs.filterMap Except.toOption) +
        (gs.flatMap (·.2)).countP (fun f => FailedAt R f.file) = (gs.flatMap (·.2)).length := by
  induction ha with
  | nil => rfl
  | @cons g q gs qs hq _ ih =>
    obtain ⟨htells, ht⟩ := List.forall₂_cons.mp ht
    obtain ⟨hg, hown⟩ := List.forall_mem_cons.mp hown
    have ih := ih ht hown
    rw [List.flatMap_cons, List.countP_append, List.length_append, countP_failedAt hg]
    cases q with
    | error e =>
      rw [if_pos (htells.mpr ⟨e, rfl⟩)]
      simp only [List.filterMap_cons, Except.toOption]
      omega
    | ok f =>
      have hf := hq.2 f rfl
      rw [if_neg fun hfailed => by obtain ⟨e, he⟩ := htells.mp hfailed; cases he]
      simp only [List.filterMap_cons, Except.toOption, tally]
      omega

end Repairs

theorem exists_repairs (hfix : job.fix = true) (hx : examine job o delay s = .ok x)
    (hr : run job o delay duration s = .ok r) :
    ∃ qs, List.Forall₂ Accounts (FenceFix.plan x.fixes) qs ∧
      List.Forall₂ (Tells r.report) (FenceFix.plan x.fixes) qs ∧
      r.report = { x.report job duration with
        failures := (x.report job duration).failures ++ qs.filterMap failed?
        fixes := qs.filterMap Except.toOption } := by
  have hof := examine_of hx
  obtain ⟨made, told, -, -, hreport⟩ := saves_of_run hx hr
  simp only [planOf, hfix, if_true] at hreport
  have haccounts : List.Forall₂ Accounts (FenceFix.plan x.fixes)
      (repairAll job.readOnly made (FenceFix.plan x.fixes)).2 :=
    repairAll_forall₂ (fun g hg s => accounts_repair
      (fun f hf => hof.isTag (FenceFix.mem_of_mem_plan hg hf)) job.readOnly s) made
  refine ⟨_, haccounts, ?_, hreport⟩
  exact tells_repairs (haccounts.imp fun _ _ h => h.1) (FenceFix.grouped_plan x.fixes).nodup
    (not_failedAt hof) (congrArg Report.failures hreport)

theorem eq_zero_of_tally {α : Type} {count : α → Nat} {xs : List α} (h : tally count xs = 0) :
    ∀ x ∈ xs, count x = 0 := by
  induction xs with
  | nil => exact nofun
  | cons x xs ih =>
    rw [tally] at h
    exact List.forall_mem_cons.mpr ⟨by omega, ih (by omega)⟩

theorem fixes_of_repairs {R : Report} {gs : List (Path × List FenceFix)}
    {qs : List (Except Failure FileFix)} (ha : List.Forall₂ Accounts gs qs)
    (ht : List.Forall₂ (Tells R) gs qs) (hR : R.failures = [])
    (h0 : ∀ f ∈ qs.filterMap Except.toOption, f.skipped = 0) :
    qs.filterMap Except.toOption = gs.map fun g => ⟨g.1, g.2.length, 0⟩ := by
  induction ha with
  | nil => rfl
  | @cons g q gs qs hq _ ih =>
    obtain ⟨htells, hrest⟩ := List.forall₂_cons.mp ht
    cases q with
    | error e =>
      obtain ⟨f, hf, -⟩ := htells.mpr ⟨e, rfl⟩
      rw [hR] at hf
      cases hf
    | ok f =>
      simp only [List.filterMap_cons, Except.toOption] at h0 ⊢
      obtain ⟨hskipped, h0⟩ := List.forall_mem_cons.mp h0
      have hsum := hq.2 f rfl
      have hfile : f.file = g.1 := hq.1
      rw [hskipped, Nat.add_zero] at hsum
      rw [ih hrest h0, List.map_cons, ← hsum, ← hfile, ← hskipped]

theorem length_fixes (hfix : job.fix = true) (hx : examine job o delay s = .ok x)
    (hr : run job o delay duration s = .ok r) :
    r.report.totalFixed + tally (·.skipped) r.report.fixes +
      x.fixes.countP (fun f => FailedAt r.report f.file) = x.fixes.length := by
  obtain ⟨qs, haccounts, htells, hreport⟩ := exists_repairs hfix hx hr
  have hplan := FenceFix.grouped_plan x.fixes
  have htally := tally_repairs haccounts htells hplan.own
  rw [hplan.perm.countP_eq, hplan.perm.length_eq] at htally
  rw [Report.totalFixed, congrArg Report.fixes hreport]
  exact htally

theorem issues_of_run (hfix : job.fix = true) (hx : examine job o delay s = .ok x)
    (hr : run job o delay duration s = .ok r) :
    r.report.structuralIssues = x.scan.issues ∧
      r.report.languageIssues = x.findings.filterMap (·.issue) := by
  obtain ⟨qs, -, -, hreport⟩ := exists_repairs hfix hx hr
  rw [hreport]
  exact ⟨rfl, rfl⟩

theorem fixableIssues_eq (hfix : job.fix = true) (hl : 0 < job.settings.concurrency)
    (hx : examine job o delay s = .ok x) (hr : run job o delay duration s = .ok r) :
    x.fixes.length + x.undetected.length = r.report.fixableIssues := by
  obtain ⟨hstructural, hlanguage⟩ := issues_of_run hfix hx hr
  have hlength := ((examine_of hx).balance hl hfix).length_eq
  simp only [List.length_append, List.length_map, ← List.countP_eq_length_filter] at hlength
  rw [Report.fixableIssues, hstructural, hlanguage]
  exact hlength

/-- Of the issues that a tag removes, each is fixed, or its fix is skipped, or its file could not
be written, or no tag was found for its block because the check failed. So a run that found issues
and leaves nothing to do found only issues of this kind, and made one fix for each. -/
theorem fixes_conserved (hfix : job.fix = true) (hl : 0 < job.settings.concurrency)
    (hx : examine job o delay s = .ok x) (hr : run job o delay duration s = .ok r) :
    r.report.totalFixed + tally (·.skipped) r.report.fixes +
        x.fixes.countP (fun f => FailedAt r.report f.file) + x.undetected.length =
      r.report.fixableIssues ∧
    (r.report.exitCode = 0 → r.report.totalIssues ≠ 0 →
      r.report.failures = [] ∧
      (∀ i ∈ r.report.issues, i.kind = .missingLanguage ∨ i.kind = .incorrectLanguage) ∧
      (∀ f ∈ r.report.fixes, f.skipped = 0) ∧
      r.report.fixes = (FenceFix.plan x.fixes).map (fun g => ⟨g.1, g.2.length, 0⟩) ∧
      (x.fixes.map FenceFix.place).Perm (r.report.issues.map Issue.place)) := by
  have hof := examine_of hx
  have hfixes := length_fixes hfix hx hr
  have hissues := fixableIssues_eq hfix hl hx hr
  refine ⟨by omega, fun hexit hfound => ?_⟩
  obtain ⟨hfailures, hmissing⟩ := Report.exitCode_eq_zero hexit
  have hfixed := Report.fixableIssues_le hexit hfound
  -- everything was fixed, so nothing is left for the other three
  have h0 : tally (·.skipped) r.report.fixes = 0 := by omega
  have hskipped := eq_zero_of_tally h0
  have hnone : x.undetected = [] := List.eq_nil_of_length_eq_zero (by omega)
  obtain ⟨hstructural, hlanguage⟩ := issues_of_run hfix hx hr
  refine ⟨hfailures, ?_, hskipped, ?_, ?_⟩
  · intro i hi
    obtain hi | hi := List.mem_append.mp hi
    · obtain ⟨j, hj, rfl⟩ := List.mem_map.mp hi
      exact .inl (hmissing j hj)
    · obtain ⟨j, hj, rfl⟩ := List.mem_map.mp hi
      rw [hlanguage] at hj
      exact .inr (hof.kind_of_language hj)
  · obtain ⟨qs, haccounts, htells, hreport⟩ := exists_repairs hfix hx hr
    rw [congrArg Report.fixes hreport] at hskipped ⊢
    exact fixes_of_repairs haccounts htells hfailures hskipped
  · have hbalance := hof.balance hl hfix
    rw [hnone, List.map_nil, List.append_nil,
      List.filter_eq_self.mpr fun i hi => by simpa using hmissing i (hstructural ▸ hi)] at hbalance
    rw [Report.issues, List.map_append, List.map_map, List.map_map, hstructural, hlanguage]
    exact hbalance.trans List.perm_append_comm

/-- Three files with one block each: in the second one the fix finds no fence, and the third one
cannot be written. -/
def mixedJob : Job :=
  { fixJob with
    paths := [.ofString "a.md", .ofString "b.md", .ofString "c.md"]
    readOnly := [.ofString "c.md"] }

def mixedStore : Store where
  nodes := [(["a.md".toList], .file (Text.toUtf8 "```\n```\n".toList)),
    (["b.md".toList], .file (Text.toUtf8 "\r\r```\n```\n".toList)),
    (["c.md".toList], .file (Text.toUtf8 "```\n```\n".toList))]

theorem fixes_conserved_mixed :
    (∃ x r, examine mixedJob (.skipped () : Opinions Unit Unit) (fun _ _ => 0) mixedStore = .ok x ∧
      run mixedJob (.skipped () : Opinions Unit Unit) (fun _ _ => 0) (.ofInt 0) mixedStore = .ok r ∧
      r.report.totalFixed = 1 ∧ tally (·.skipped) r.report.fixes = 1 ∧
      x.fixes.countP (fun f => FailedAt r.report f.file) = 1 ∧ x.undetected = [] ∧
      r.report.fixableIssues = 3) ∧
    ∃ r, fixRun crlfText = .ok r ∧ r.report.exitCode = 0 ∧
      r.report.fixes = [⟨.ofString "a.md", 1, 0⟩] := by
  constructor
  · have hrun : ((examine mixedJob (.skipped () : Opinions Unit Unit) (fun _ _ => 0)
        mixedStore).bind fun x => (x.conclude mixedJob (.ofInt 0) mixedStore).map fun r =>
          (r.report.totalFixed, tally (·.skipped) r.report.fixes,
            x.fixes.countP (fun f => FailedAt r.report f.file), x.undetected)) =
        .ok (1, 1, 1, []) := by
      rw [examine_eq_pass rfl (by decide)]
      decide +kernel
    obtain ⟨x, hx, hrun⟩ := ok_of_bind hrun
    obtain ⟨r, hr, hcounts⟩ := ok_of_map hrun
    rw [← run_eq_conclude hx] at hr
    simp only [Prod.mk.injEq] at hcounts
    obtain ⟨hfixed, hskipped, hfailed, hundetected⟩ := hcounts
    have hsum := (fixes_conserved rfl (by decide) hx hr).1
    rw [hfixed, hskipped, hfailed, hundetected] at hsum
    exact ⟨x, r, hx, hr, hfixed, hskipped, hfailed, hundetected, hsum.symm⟩
  · obtain ⟨x, r, hx, hfixes, hr, hexit, -⟩ := exists_fixRun_crlf
    have hissues : (fixRun crlfText).map (·.report.totalIssues) = .ok 1 := by
      rw [fixRun_eq]
      decide +kernel
    rw [hr] at hissues
    have hissues : r.report.totalIssues = 1 := Except.ok.inj hissues
    have hfound : r.report.totalIssues ≠ 0 := by omega
    obtain ⟨-, -, -, hfixed, -⟩ := (fixes_conserved rfl (by decide) hx hr).2 hexit hfound
    rw [hfixes] at hfixed
    exact ⟨r, hr, hexit, hfixed.trans (by decide +kernel)⟩

end Run

end MarkdownFences
