import MarkdownFences.Proofs.Run.Examination
import MarkdownFences.Proofs.Run.Fixing

namespace MarkdownFences.Run

variable {τ ρ : Type} {job : Job} {o : Opinions τ ρ} {delay : Nat → Block → Nat}
variable {duration : Binary64} {s : Store} {x : Examination τ ρ} {r : Result τ}

theorem run_eq_conclude (hx : examine job o delay s = .ok x) :
    run job o delay duration s = x.conclude job duration s := by
  rw [run, hx]
  rfl

theorem conclude_saves (h : x.conclude job duration s = .ok r) :
    ∃ made told, x.state.cache.save s = .ok (r.cache, made, told) ∧
      r.report = (settleIssues job made (x.report job duration) x.fixes).report ∧
      r.store = (settleIssues job made (x.report job duration) x.fixes).store := by
  rw [Examination.conclude] at h
  cases hs : x.state.cache.save s with
  | error e => simp [hs, bind, Except.bind] at h
  | ok saved =>
    obtain ⟨cache, made, told⟩ := saved
    simp only [hs, mapError_ok, bind, Except.bind, pure, Except.pure, Except.ok.injEq] at h
    subst h
    exact ⟨made, told, rfl, rfl, rfl⟩

theorem settleIssues_store (hfix : job.fix = false) (s : Store) (report : Report)
    (fixes : List FenceFix) : (settleIssues job s report fixes).store = s := by
  rw [settleIssues, hfix]
  split <;> rfl

section Settle

variable {made : Store} {report : Report} {fixes : List FenceFix}

theorem Fixing.Made.start (h : ∀ p, ¬ FailedAt report p) (lines : List Text)
    (log : List Log.Entry) : Fixing.Made s report [] ⟨s, report, lines, log⟩ :=
  ⟨.refl s, rfl, rfl, fun _ he => he, fun _ he => .inl he, fun p hp => absurd hp (h p),
    fun _ bytes hn => ⟨[], bytes, hn, .inl ⟨rfl, rfl⟩, by simp⟩⟩

theorem fixAll_made (h : ∀ p, ¬ FailedAt report p) (ht : ∀ f ∈ fixes, Fence.IsTag f.tag)
    (hr : ∀ f ∈ fixes, ∃ names, s.resolve f.file = .ok names) (readOnly : List Path) :
    (fixAll readOnly s report fixes).Made s report (FenceFix.plan fixes) := by
  have hplan := FenceFix.grouped_plan fixes
  have hstart : Fixing.Made s report [] ⟨s, report, [[], "Fixing code blocks...".toList], []⟩ :=
    .start h _ _
  have hmade : ((FenceFix.plan fixes).zipIdx.foldl
      (Fixing.fixFile readOnly (FenceFix.plan fixes).length)
      ⟨s, report, [[], "Fixing code blocks...".toList], []⟩).Made s report
        (FenceFix.plan fixes) := by
    refine hstart.foldl (FenceFix.plan fixes) 0 hplan.nodup
      (fun g hg f hf => ht f (FenceFix.mem_of_mem_plan hg hf)) fun g hg => ?_
    obtain ⟨f, hf⟩ := List.exists_mem_of_ne_nil _ (hplan.ne_nil g hg)
    rw [← hplan.own g hg f hf]
    exact hr f (FenceFix.mem_of_mem_plan hg hf)
  exact ⟨hmade.shape, hmade.structural, hmade.language, hmade.kept, hmade.added, hmade.failed,
    hmade.file⟩

theorem fixes_eq_nil (hl : ∀ f ∈ fixes, ∃ b, report.Lists b) (h0 : report.totalIssues = 0) :
    fixes = [] := by
  refine List.eq_nil_iff_forall_not_mem.mpr fun f hf => ?_
  obtain ⟨hs, hlang⟩ := Nat.add_eq_zero_iff.mp h0
  rw [List.length_eq_zero_iff] at hs hlang
  obtain ⟨b, ⟨i, hi, -⟩ | ⟨i, hi, -⟩⟩ := hl f hf
  · rw [hs] at hi
    cases hi
  · rw [hlang] at hi
    cases hi

theorem settleIssues_made (hfix : job.fix = true) (h : ∀ p, ¬ FailedAt report p)
    (ht : ∀ f ∈ fixes, Fence.IsTag f.tag) (hl : ∀ f ∈ fixes, ∃ b, report.Lists b)
    (hr : ∀ f ∈ fixes, ∃ names, s.resolve f.file = .ok names) :
    (settleIssues job s report fixes).Made s report (FenceFix.plan fixes) := by
  rw [settleIssues]
  split
  case isTrue h0 =>
    rw [fixes_eq_nil hl h0]
    exact .start h [] []
  case isFalse =>
    exact fixAll_made h ht hr job.readOnly

end Settle

theorem not_failedAt (h : x.Of job o delay s) (p : Path) :
    ¬ FailedAt (x.report job duration) p := by
  rintro ⟨e, he, hop, -⟩
  obtain he | he := List.mem_append.mp he
  · rw [((readAll_of h.intake).failures e he).1] at hop
    cases hop
  · rw [validate_of_mem_failures he] at hop
    cases hop

theorem made_of_run (hfix : job.fix = true) (hx : examine job o delay s = .ok x)
    (hr : run job o delay duration s = .ok r) :
    ∃ cache made told y, x.state.cache.save s = .ok (cache, made, told) ∧ r.report = y.report ∧
      r.store = y.store ∧
      Fixing.Made made (x.report job duration) (FenceFix.plan x.fixes) y := by
  have hof := examine_of hx
  rw [run_eq_conclude hx] at hr
  obtain ⟨made, told, hsave, hreport, hstore⟩ := conclude_saves hr
  refine ⟨r.cache, made, told, _, hsave, hreport, hstore, settleIssues_made hfix (not_failedAt hof)
    (fun f hf => hof.isTag hf) ?_ ?_⟩
  · intro f hf
    obtain ⟨b, -, hl, -⟩ := hof.exists_block duration hf
    exact ⟨b, hl⟩
  · intro f hf
    obtain ⟨names, hnames⟩ := hof.exists_names hf
    exact ⟨names, (ValidationCache.save_grows hsave).resolve hnames⟩

theorem conclude_of_clean {c : ValidationCache} {told : List Log.Entry} {made : Store}
    (hsave : x.state.cache.save s = .ok (c, made, told)) (hissues : x.scan.issues = [])
    (hfailures : x.intake.failures = []) {bs : List Block}
    (hresults : x.results = bs.map fun b => .ok (.clean b)) :
    ∃ r, x.conclude job duration s = .ok r ∧ r.report.structuralIssues = [] ∧
      r.report.languageIssues = [] ∧ r.report.failures = [] ∧ r.report.exitCode = 0 := by
  have hlanguage : x.findings.filterMap (·.issue) = [] := by
    refine List.filterMap_eq_nil_iff.mpr fun f hf => ?_
    rw [mem_findings, hresults] at hf
    obtain ⟨b, -, hb⟩ := List.mem_map.mp hf
    obtain rfl := Except.ok.inj hb
    rfl
  have hnone : x.failures = [] := by
    rw [Examination.failures, hresults]
    refine List.filterMap_eq_nil_iff.mpr fun ⟨b, q⟩ hmem => ?_
    obtain ⟨b', -, rfl⟩ := List.mem_map.mp (List.of_mem_zip hmem).2
    rfl
  have hstructural : (x.report job duration).structuralIssues = [] := hissues
  have hlang : (x.report job duration).languageIssues = [] := hlanguage
  have hfail : (x.report job duration).failures = [] :=
    List.append_eq_nil_iff.mpr ⟨hfailures, hnone⟩
  have hzero : (x.report job duration).totalIssues = 0 := by
    rw [Report.totalIssues, hstructural, hlang]
    rfl
  have hexit : (x.report job duration).exitCode = 0 := by
    rw [Report.exitCode, hfail, hzero]
    rfl
  rw [Examination.conclude]
  simp only [hsave, mapError_ok, bind, Except.bind, settleIssues, hzero, if_true]
  exact ⟨_, rfl, hstructural, hlang, hfail, hexit⟩

end MarkdownFences.Run
