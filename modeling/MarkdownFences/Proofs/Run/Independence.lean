import MarkdownFences.Proofs.Check.Interleaving
import MarkdownFences.Proofs.Run.Repairs
import MarkdownFences.Proofs.Run.Sources
import MarkdownFences.Proofs.ValidationCache.Order
import MarkdownFences.Proofs.ValidationCache.Reload

namespace MarkdownFences

/-- The job for one file, with one check at a time. -/
def Job.alone (job : Job) (p : Path) : Job :=
  { job with paths := [p], settings := { job.settings with concurrency := 1 } }

def Job.limited (job : Job) (limit : Nat) : Job :=
  { job with settings := { job.settings with concurrency := limit } }

namespace Run

open Check (Apart Passes Stored)

variable {τ ρ : Type} {job : Job} {o : Opinions τ ρ} {delay : Nat → Block → Nat}
variable {duration : Binary64} {s : Store} {x : Examination τ ρ} {r : Result τ}
variable {f : Text → Except Fault (Option Language)} {c₀ : ValidationCache} {i : Intake}

theorem Examination.Of.conclude (h : x.Of job o delay s)
    {saved : ValidationCache × Store × List Log.Entry} (hsave : x.state.cache.save s = .ok saved)
    (duration : Binary64) :
    ∃ r, x.conclude job duration s = .ok r ∧
      r.store = (repairAll job.readOnly saved.2.1 (planOf job x.fixes)).1 ∧
      r.report = { x.report job duration with
        failures := (x.report job duration).failures ++
          (repairAll job.readOnly saved.2.1 (planOf job x.fixes)).2.filterMap failed?
        fixes := (repairAll job.readOnly saved.2.1 (planOf job x.fixes)).2.filterMap
          Except.toOption } := by
  obtain ⟨cache, made, told⟩ := saved
  have hhas : (settleIssues job made (x.report job duration) x.fixes).Has (x.report job duration)
      (repairAll job.readOnly made (planOf job x.fixes)) :=
    settleIssues_has fun g hg => by
      obtain ⟨b, -, hl, -⟩ := h.exists_block duration hg
      exact ⟨b, hl⟩
  rw [Examination.conclude]
  simp only [hsave, mapError_ok, bind, Except.bind, pure, Except.pure]
  exact ⟨_, rfl, hhas.store, hhas.report⟩

theorem saves_of_run (hx : examine job o delay s = .ok x)
    (hr : run job o delay duration s = .ok r) :
    ∃ made told, x.state.cache.save s = .ok (r.cache, made, told) ∧
      r.store = (repairAll job.readOnly made (planOf job x.fixes)).1 ∧
      r.report = { x.report job duration with
        failures := (x.report job duration).failures ++
          (repairAll job.readOnly made (planOf job x.fixes)).2.filterMap failed?
        fixes := (repairAll job.readOnly made (planOf job x.fixes)).2.filterMap
          Except.toOption } := by
  rw [run_eq_conclude hx] at hr
  obtain ⟨made, told, hsave, -⟩ := conclude_saves hr
  obtain ⟨r', hr', hstore, hreport⟩ := (examine_of hx).conclude hsave duration
  obtain rfl : r = r' := Except.ok.inj (hr.symm.trans hr')
  exact ⟨made, told, hsave, hstore, hreport⟩

def ruling (job : Job) (o : Opinions τ ρ) (f : Text → Except Fault (Option Language))
    (c₀ : ValidationCache) (b : Block) : Except Fault Finding :=
  Check.ruling ⟨⟨job.digest, o.advisor⟩, job.fix, job.settings.lenient, 0⟩ f c₀ b

/-- An examination whose checks came to what they come to by themselves. -/
structure Examination.Rules (job : Job) (o : Opinions τ ρ)
    (f : Text → Except Fault (Option Language)) (c₀ : ValidationCache) (i : Intake)
    (x : Examination τ ρ) : Prop where
  intake : x.intake = i
  scan : x.scan = scanAll i.documents
  advisor : x.check.classifier.advisor = o.advisor
  results : x.results = (scanAll i.documents).blocks.map (ruling job o f c₀)
  cache : Stored job.digest c₀
    (fun b => b ∈ (scanAll i.documents).blocks ∧ Passes b (ruling job o f c₀ b)) x.state.cache

theorem exists_rules {told : List Log.Entry} (hl : 0 < job.settings.concurrency)
    (hf : (⟨job.digest, o.advisor⟩ : Classifier τ ρ).Opines f)
    (hload : (cacheOf job).load s = .ok (c₀, told)) (hread : readAll s job.paths = .ok i)
    (ha : Apart job.digest (scanAll i.documents).blocks) (delay : Nat → Block → Nat) :
    ∃ x, examine job o delay s = .ok x ∧ x.Of job o delay s ∧ x.Rules job o f c₀ i := by
  obtain ⟨y, hprepare, hready, hintake, hcache⟩ := prepare_ok hload hread o
  have hx : examine job o delay s = .ok (y.checkAll job.settings.concurrency delay) := by
    rw [examine, hprepare]
    rfl
  have hscan : y.scan = scanAll i.documents := by rw [hready.scan, hintake]
  have hcheck := hready.check
  have hruling : y.check.ruling f c₀ = ruling job o f c₀ := by
    rw [hcheck]
    rfl
  have hdigest : y.check.classifier.digest = job.digest := by rw [hcheck]
  have hf : y.check.classifier.Opines f := by
    rw [hcheck]
    exact hf
  have ha : Apart y.check.classifier.digest y.scan.blocks := by
    rw [hdigest, hscan]
    exact ha
  obtain ⟨hresults, hstored⟩ := Check.run_rulings hf ha hl delay y.state
    (congrArg Memo.entries hready.memo)
  rw [hcache, hruling, hscan] at hresults hstored
  rw [hdigest] at hstored
  refine ⟨_, hx, examine_of hx, hintake, hscan, by rw [Examination.checkAll, hcheck], ?_, ?_⟩
  · rw [Examination.checkAll, hscan]
    exact hresults
  · rw [Examination.checkAll, hscan]
    exact hstored

def issueOf (job : Job) (o : Opinions τ ρ) (f : Text → Except Fault (Option Language))
    (c₀ : ValidationCache) (b : Block) : Option LanguageIssue :=
  (ruling job o f c₀ b).toOption.bind (·.issue)

def failureOf (job : Job) (o : Opinions τ ρ) (f : Text → Except Fault (Option Language))
    (c₀ : ValidationCache) (b : Block) : Option Failure :=
  match ruling job o f c₀ b with
  | .ok _ => none
  | .error e => some ⟨b.file, .validate, e.message⟩

namespace Examination.Rules

theorem issues_eq (h : x.Rules job o f c₀ i) (duration : Binary64) :
    (x.report job duration).languageIssues =
      (scanAll i.documents).blocks.filterMap (issueOf job o f c₀) := by
  rw [report, findings, h.results, List.filterMap_map, List.filterMap_filterMap]
  rfl

theorem failures_eq (h : x.Rules job o f c₀ i) :
    x.failures = (scanAll i.documents).blocks.filterMap (failureOf job o f c₀) := by
  rw [failures, h.scan, h.results, ← List.map_prod_left_eq_zip, List.filterMap_map]
  refine List.filterMap_congr fun b _ => ?_
  rw [Function.comp_apply]
  unfold failureOf
  cases ruling job o f c₀ b <;> rfl

theorem report_limited {limit : Nat} {y : Examination τ ρ} (h : x.Rules job o f c₀ i)
    (h' : y.Rules (job.limited limit) o f c₀ i) (duration duration' : Binary64) :
    y.fixes = x.fixes ∧
      y.report (job.limited limit) duration' = { x.report job duration with
        concurrency := limit, duration := duration'
        memoStats := y.state.classifier.memo.stats, cacheStats := y.state.cache.stats } := by
  have hintake : y.intake = x.intake := h'.intake.trans h.intake.symm
  have hscan : y.scan = x.scan := h'.scan.trans h.scan.symm
  have hresults : y.results = x.results := h'.results.trans h.results.symm
  have hadvisor := h'.advisor.trans h.advisor.symm
  constructor
  · simp only [fixes, findings, hscan, hresults]
  · simp only [report, findings, failures, hintake, hscan, hresults, hadvisor]
    rfl

end Examination.Rules

theorem Apart.mono {digest : Text → Text} {bs cs : List Block} (h : Apart digest bs)
    (hs : cs ⊆ bs) : Apart digest cs :=
  ⟨fun a ha b hb => h.contents a (hs ha) b (hs hb), fun a ha b hb => h.keys a (hs ha) b (hs hb)⟩

theorem parts_of_run (hl : 0 < job.settings.concurrency)
    (hf : (⟨job.digest, o.advisor⟩ : Classifier τ ρ).Opines f) (hx : examine job o delay s = .ok x)
    (ha : Apart job.digest x.scan.blocks) (hr : run job o delay duration s = .ok r) :
    ∃ c₀ told i saved, (cacheOf job).load s = .ok (c₀, told) ∧ readAll s job.paths = .ok i ∧
      x.Rules job o f c₀ i ∧ x.state.cache.save s = .ok saved ∧
      r.store = (repairAll job.readOnly saved.2.1 (planOf job x.fixes)).1 ∧
      r.report = { x.report job duration with
        failures := (x.report job duration).failures ++
          (repairAll job.readOnly saved.2.1 (planOf job x.fixes)).2.filterMap failed?
        fixes := (repairAll job.readOnly saved.2.1 (planOf job x.fixes)).2.filterMap
          Except.toOption } := by
  have hof := examine_of hx
  obtain ⟨start, -, ⟨told, hload⟩, -⟩ := hof.run
  rw [hof.scan] at ha
  obtain ⟨y, hy, -, hrules⟩ := exists_rules hl hf hload hof.intake ha delay
  obtain rfl : x = y := Except.ok.inj (hx.symm.trans hy)
  obtain ⟨made, told', hsave, hstore, hreport⟩ := saves_of_run hx hr
  exact ⟨start.cache, told, x.intake, _, hload, hof.intake, hrules, hsave, hstore, hreport⟩

theorem nodup_of_load {told : List Log.Entry} (h : (cacheOf job).load s = .ok (c₀, told)) :
    c₀.keys.Nodup :=
  ValidationCache.load_nodup h .nil

/-- Nothing but the number of checks at a time, the time that the run takes and the counts of the
caches tells one run from another one with other delays. -/
theorem run_limited (hl : 0 < job.settings.concurrency)
    (hf : (⟨job.digest, o.advisor⟩ : Classifier τ ρ).Opines f) (hx : examine job o delay s = .ok x)
    (ha : Apart job.digest x.scan.blocks) (hr : run job o delay duration s = .ok r) {limit : Nat}
    (hlimit : 0 < limit) (delay' : Nat → Block → Nat) (duration' : Binary64) :
    ∃ r' memoStats cacheStats, run (job.limited limit) o delay' duration' s = .ok r' ∧
      r'.store = r.store ∧
      r'.report = { r.report with
        concurrency := limit, duration := duration', memoStats, cacheStats } := by
  obtain ⟨c₀, told, i, saved, hload, hread, hrules, hsave, hstore, hreport⟩ :=
    parts_of_run hl hf hx ha hr
  rw [hrules.scan] at ha
  have hlimit : 0 < (job.limited limit).settings.concurrency := hlimit
  obtain ⟨y, hy, hof', hrules'⟩ := exists_rules hlimit hf hload hread ha delay'
  have hc := hrules.cache
  have hc' : Stored job.digest c₀
      (fun b => b ∈ (scanAll i.documents).blocks ∧ Passes b (ruling job o f c₀ b)) y.state.cache :=
    hrules'.cache
  have hsame := ValidationCache.save_congr (hc'.path.trans hc.path.symm)
    (hc'.enabled.trans hc.enabled.symm) (hc.dirty_eq hc')
    (fun he => hc.perm hc' (nodup_of_load hload) (hc.enabled.symm.trans he)) s
  rw [hsave] at hsame
  obtain ⟨saved', hsave', hmade⟩ := ok_of_map hsame
  obtain ⟨r', hr', hstore', hreport'⟩ := hof'.conclude hsave' duration'
  obtain ⟨hfixes, hlimited⟩ := hrules.report_limited hrules' duration duration'
  rw [hmade, hfixes] at hstore' hreport'
  refine ⟨r', y.state.classifier.memo.stats, y.state.cache.stats, (run_eq_conclude hy).trans hr',
    hstore'.trans hstore.symm, ?_⟩
  rw [hreport', hreport, hlimited]
  rfl

theorem run_alone {told : List Log.Entry} (hf : (⟨job.digest, o.advisor⟩ : Classifier τ ρ).Opines f)
    (hload : (cacheOf job).load s = .ok (c₀, told)) (hread : readAll s job.paths = .ok i)
    (hrules : x.Rules job o f c₀ i) (ha : Apart job.digest (scanAll i.documents).blocks)
    {saved : ValidationCache × Store × List Log.Entry} (hsave : x.state.cache.save s = .ok saved)
    {p : Path} (hp : p ∈ job.paths) (delay₁ : Nat → Block → Nat) (duration₁ : Binary64) :
    ∃ q, run (job.alone p) o delay₁ duration₁ s = .ok q ∧
      q.report.structuralIssues = (scanAll (documentsOf s [p])).issues ∧
      q.report.languageIssues =
        (scanAll (documentsOf s [p])).blocks.filterMap (issueOf job o f c₀) := by
  obtain ⟨j, hj⟩ := readAll_alone hread hp
  have hdocuments := (readAll_eq hj).1
  have hsub : (scanAll j.documents).blocks ⊆ (scanAll i.documents).blocks := by
    rw [hdocuments, (readAll_eq hread).1, (scanAll_documentsOf s job.paths).2]
    exact fun b hb => List.mem_flatMap.mpr ⟨p, hp, hb⟩
  have hl : 0 < (job.alone p).settings.concurrency := Nat.one_pos
  obtain ⟨y, hy, hof, hrules'⟩ := exists_rules hl hf hload hj (Apart.mono ha hsub) delay₁
  have hc := hrules.cache
  have hc' : Stored job.digest c₀
      (fun b => b ∈ (scanAll j.documents).blocks ∧ Passes b (ruling job o f c₀ b)) y.state.cache :=
    hrules'.cache
  have hdirty (hd : y.state.cache.dirty = true) : x.state.cache.dirty = true :=
    hc.dirty.mpr ((hc'.dirty.mp hd).imp_right fun ⟨he, b, hb, hk⟩ =>
      ⟨he, b, ⟨hsub hb.1, hb.2⟩, hk⟩)
  obtain ⟨saved', hsave'⟩ := ValidationCache.save_ok_of (hc'.path.trans hc.path.symm)
    (hc'.enabled.trans hc.enabled.symm) hdirty hsave
  obtain ⟨q, hq, -, hreport⟩ := hof.conclude hsave' duration₁
  refine ⟨q, (run_eq_conclude hy).trans hq, ?_, ?_⟩
  · rw [hreport, ← hdocuments, ← hrules'.scan]
    rfl
  · rw [hreport, ← hdocuments]
    exact hrules'.issues_eq duration₁

theorem exists_forall₂ {α β : Type} {R : α → β → Prop} {as : List α}
    (h : ∀ a ∈ as, ∃ b, R a b) : ∃ bs, List.Forall₂ R as bs := by
  induction as with
  | nil => exact ⟨[], .nil⟩
  | cons a as ih =>
    obtain ⟨⟨b, hb⟩, has⟩ := List.forall_mem_cons.mp h
    obtain ⟨bs, hbs⟩ := ih has
    exact ⟨b :: bs, .cons hb hbs⟩

theorem flatMap_of_forall₂ {α β γ : Type} {g : α → List γ} {h : β → List γ} {as : List α}
    {bs : List β} (hab : List.Forall₂ (fun a b => h b = g a) as bs) :
    as.flatMap g = bs.flatMap h := by
  induction hab with
  | nil => rfl
  | cons heq _ ih => rw [List.flatMap_cons, List.flatMap_cons, heq, ih]

/-- What is reported does not depend on how many checks go on at a time nor on how long they take,
and files do not interfere, where answers depend on the content alone: the issues are those of each
file by itself, in order; the failures are those of reading in the order of the paths, those of
checks in the order of the blocks and those of writing in the order of the plan; and the files end
up the same. -/
theorem run_independent (hl : 0 < job.settings.concurrency)
    (hf : (⟨job.digest, o.advisor⟩ : Classifier τ ρ).Opines f) (hx : examine job o delay s = .ok x)
    (ha : Apart job.digest x.scan.blocks) (hr : run job o delay duration s = .ok r) :
    (∀ (delay₁ : Path → Nat → Block → Nat) (duration₁ : Path → Binary64), ∃ rs,
      List.Forall₂ (fun p q => run (job.alone p) o (delay₁ p) (duration₁ p) s = .ok q)
        job.paths rs ∧
      r.report.structuralIssues = rs.flatMap (·.report.structuralIssues) ∧
      r.report.languageIssues = rs.flatMap (·.report.languageIssues)) ∧
    (∃ c₀ told qs, (cacheOf job).load s = .ok (c₀, told) ∧
      x.scan = scanAll (documentsOf s job.paths) ∧
      List.Forall₂ Concerns (planOf job x.fixes) qs ∧
      r.report.failures = readFailures s job.paths ++
        x.scan.blocks.filterMap (failureOf job o f c₀) ++ qs.filterMap failed? ∧
      r.report.fixes = qs.filterMap Except.toOption) ∧
    ∀ limit, 0 < limit → ∀ (delay' : Nat → Block → Nat) (duration' : Binary64),
      ∃ r' memoStats cacheStats, run (job.limited limit) o delay' duration' s = .ok r' ∧
        r'.store = r.store ∧
        r'.report = { r.report with
          concurrency := limit, duration := duration', memoStats, cacheStats } := by
  obtain ⟨c₀, told, i, saved, hload, hread, hrules, hsave, -, hreport⟩ :=
    parts_of_run hl hf hx ha hr
  obtain ⟨hdocuments, hfailures⟩ := readAll_eq hread
  refine ⟨fun delay₁ duration₁ => ?_, ?_, fun limit hlimit delay' duration' =>
    run_limited hl hf hx ha hr hlimit delay' duration'⟩
  · rw [hrules.scan] at ha
    obtain ⟨rs, hrs⟩ := exists_forall₂ fun p hp =>
      run_alone hf hload hread hrules ha hsave hp (delay₁ p) (duration₁ p)
    obtain ⟨hissues, hblocks⟩ := scanAll_documentsOf s job.paths
    refine ⟨rs, hrs.imp fun _ _ h => h.1, ?_, ?_⟩
    · rw [← flatMap_of_forall₂ (hrs.imp fun _ _ h => h.2.1), ← hissues, ← hdocuments,
        ← hrules.scan, hreport]
      rfl
    · rw [← flatMap_of_forall₂ (hrs.imp fun _ _ h => h.2.2), ← List.filterMap_flatMap, ← hblocks,
        ← hdocuments, ← hrules.issues_eq duration, hreport]
  · refine ⟨c₀, told, _, hload, by rw [hrules.scan, hdocuments],
      concerns_repairAll job.readOnly saved.2.1 (planOf job x.fixes), ?_, ?_⟩
    · rw [hreport, ← hfailures, hrules.scan, ← hrules.failures_eq, ← hrules.intake]
      rfl
    · rw [hreport]

/-- Two files with three blocks and one that is not there, an advisor that lets one wait for its
answers and has none for one of the blocks, and a cache. -/
theorem run_independent_two_files :
    let store : Store :=
      ⟨[(["a.md".toList], .file (Text.toUtf8 "```\nls\n```\n```\nno\n```\n".toList)),
        (["b.md".toList], .file (Text.toUtf8 "```bash\nls\n```\n".toList))]⟩
    let job : Job :=
      ⟨["b.md", "c.md", "a.md"].map Path.ofString, .default, true, none, false, id, []⟩
    let answer : Text → Except Fault (Option Language) := fun t =>
      if t = "no".toList then .error ⟨"RuntimeError", .other, none, []⟩ else .ok (some .bash)
    let o : Opinions Unit Text := .given (.waiting answer) ()
    ∃ x r, examine job o (fun i _ => 3 - i) store = .ok x ∧ Apart job.digest x.scan.blocks ∧
      run job o (fun i _ => 3 - i) (.ofInt 0) store = .ok r ∧
      ∀ limit, 0 < limit →
        ∃ r', run (job.limited limit) o (fun _ _ => 0) (.ofInt 0) store = .ok r' ∧
        r'.store = r.store := by
  intro store job answer o
  have hf : (⟨job.digest, o.advisor⟩ : Classifier Unit Text).Opines answer :=
    Advisor.waiting_answers answer
  have hmissing : store.read job.settings.cachePath =
      .error (.missing job.settings.cachePath) := by decide +kernel
  obtain ⟨told, hload⟩ := ValidationCache.load_unreadable (c := cacheOf job) rfl hmissing
  have hok : (readAll store job.paths).isOk = true := by decide +kernel
  cases hread : readAll store job.paths with
  | error e => rw [hread] at hok; cases hok
  | ok i =>
    have ha : Apart job.digest (scanAll i.documents).blocks := by
      rw [(readAll_eq hread).1]
      exact ⟨fun _ _ _ _ h => h, by decide +kernel⟩
    obtain ⟨x, hx, hof, hrules⟩ :=
      exists_rules (by decide) hf hload hread ha fun i _ => 3 - i
    obtain ⟨c, made, told', hsave⟩ := ValidationCache.save_ok (c := x.state.cache)
      (fun _ path hp => by
        rw [hof.cache_place.1] at hp
        rw [← Option.some.inj hp]
        decide +kernel) store
    obtain ⟨r, hr, -⟩ := hof.conclude hsave (.ofInt 0)
    have hr := (run_eq_conclude hx).trans hr
    rw [← hrules.scan] at ha
    refine ⟨x, r, hx, ha, hr, fun limit hlimit => ?_⟩
    obtain ⟨r', _, _, hr', hstore, -⟩ :=
      (run_independent (by decide) hf hx ha hr).2.2 limit hlimit (fun _ _ => 0) (.ofInt 0)
    exact ⟨r', hr', hstore⟩

end Run

end MarkdownFences
