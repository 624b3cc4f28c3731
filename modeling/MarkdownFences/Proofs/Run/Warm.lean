import MarkdownFences.Proofs.Check.Warm
import MarkdownFences.Proofs.Run.Marks
import MarkdownFences.Proofs.Run.Transparency

namespace MarkdownFences.Run

open Check (Apart Passes Stored SameKeys Warms)
open ValidationCache (key)

variable {τ ρ τ' ρ' : Type} {job : Job} {o : Opinions τ ρ} {o' : Opinions τ' ρ'}
variable {delay delay' : Nat → Block → Nat} {duration duration' : Binary64} {s s' : Store}
variable {x : Examination τ ρ} {y : Examination τ' ρ'} {r : Result τ}

theorem reload_of_stored {c c₀ c₁ c₂ : ValidationCache} {told told₁ : List Log.Entry} {made : Store}
    {path : Path} {digest : Text → Text} {passed : Block → Prop} (he : c.enabled = true)
    (hp : c.path = some path) (hw : ∀ q ∈ c.keys, q.Whole)
    (hload : c.load s = .ok (c₀, told)) (hstored : Stored digest c₀ passed c₁)
    (hsave : c₁.save s = .ok (c₂, made, told₁)) (hsaved : c₂.dirty = false)
    (hread : s'.read path = made.read path) :
    ∃ c' told', c.load s' = .ok (c', told') ∧ ∀ q, q ∈ c'.keys ↔ q ∈ c₁.keys := by
  obtain ⟨hpath₀, henabled₀⟩ := ValidationCache.load_path hload
  have hpath : c₁.path = some path := hstored.path.trans (hpath₀.trans hp)
  obtain ⟨hclean, rfl⟩ | hfile := ValidationCache.save_written hpath hsave hsaved
  · have hsame : c.load s' = c.load made := by
      refine ValidationCache.load_congr fun path' hp' => ?_
      obtain rfl := Option.some.inj (hp.symm.trans hp')
      exact hread
    refine ⟨c₀, told, hsame.trans hload, fun q => ⟨fun hq => hstored.subset hq, fun hq => ?_⟩⟩
    obtain hq | ⟨b, hb, rfl⟩ := hstored.new q hq
    · exact hq
    · by_contra hnew
      rw [hstored.dirty.mpr (.inr ⟨henabled₀.trans he, b, hb, hnew⟩)] at hclean
      cases hclean
  · have hwhole : ∀ q ∈ c₁.keys, q.Whole := by
      intro q hq
      obtain hq | ⟨b, -, rfl⟩ := hstored.new q hq
      · exact ValidationCache.whole_of_load hw hload q hq
      · exact Json.whole_ofText _
    obtain ⟨ks, told', hload', hmem⟩ := ValidationCache.load_saved he hp hwhole (hread.trans hfile)
    exact ⟨_, told', hload', hmem⟩

theorem unfixed_of_run (hfix : job.fix = false) (hx : examine job o delay s = .ok x)
    (hr : run job o delay duration s = .ok r) :
    ∃ made told, x.state.cache.save s = .ok (r.cache, made, told) ∧ r.store = made ∧
      r.report = x.report job duration := by
  obtain ⟨made, told, hsave, hstore, hreport⟩ := saves_of_run hx hr
  have hplan : planOf job x.fixes = [] := by
    rw [planOf, hfix]
    rfl
  rw [hplan] at hstore hreport
  refine ⟨made, told, hsave, hstore, hreport.trans ?_⟩
  simp [repairAll, Examination.report]

theorem zip_of_rules {f : Text → Except Fault (Option Language)} {c₀ : ValidationCache} {i : Intake}
    (h : x.Rules job o f c₀ i) : x.scan.blocks.zip x.results =
      (scanAll i.documents).blocks.map fun b => (b, ruling job o f c₀ b) := by
  rw [h.scan, h.results, List.map_prod_left_eq_zip]

section Warm

variable {f : Text → Except Fault (Option Language)} {c₀ c : ValidationCache} {i : Intake}
variable (hwarm : Warms (checker job o) f c₀ (scanAll i.documents).blocks c)
variable (ha : Apart job.digest (scanAll i.documents).blocks)
variable (h : x.Rules job o f c₀ i) (h' : y.Rules job o' f c i)

include hwarm ha h h'

theorem results_of_warm : y.results = x.results := by
  rw [h.results, h'.results]
  exact List.map_congr_left fun b hb => hwarm.ruling_eq ha hb

theorem report_of_warm (duration duration' : Binary64) :
    (y.report job duration').structuralIssues = (x.report job duration).structuralIssues ∧
      (y.report job duration').languageIssues = (x.report job duration).languageIssues ∧
      (y.report job duration').failures = (x.report job duration).failures := by
  have hresults := results_of_warm hwarm ha h h'
  have hscan : y.scan = x.scan := h'.scan.trans h.scan.symm
  have hintake : y.intake = x.intake := h'.intake.trans h.intake.symm
  simp only [Examination.report, Examination.findings, Examination.failures, hresults, hscan,
    hintake, and_self]

theorem cache_of_warm (hy : y.Of job o' delay' s') (ho : o'.advisor = none)
    (hl : 0 < job.settings.concurrency) (hd : c.dirty = false) (hstats : c.stats = .none)
    {told : List Log.Entry} (hload : (cacheOf job).load s' = .ok (c, told)) :
    y.state.cache.dirty = false ∧ y.state.cache.stats =
      ⟨(x.scan.blocks.zip x.results).countP fun e => Passes e.1 e.2,
        (x.scan.blocks.zip x.results).countP fun e =>
          e.1.tag.isSome && !decide (Passes e.1 e.2)⟩ := by
  have hdigest : y.check.classifier.digest = job.digest := by rw [hy.check]
  obtain ⟨start, -, ⟨told', hload'⟩, hstate, hresults⟩ := hy.exists_pass ho hl
  obtain rfl : c = start.cache := (Prod.mk.inj (Except.ok.inj (hload.symm.trans hload'))).1
  have hlists {b : Block} (hb : b ∈ (scanAll i.documents).blocks) (ht : b.tag.isSome = true) :
      start.cache.lists job.digest b = true ↔ Passes b (ruling job o f c₀ b) :=
    hwarm.lists_iff ha hb ht
  have hzip := zip_of_rules h
  have hpassed : ∀ e ∈ y.scan.blocks.zip ((y.check.worker delay').pass start 0 y.scan.blocks).2,
      Passes e.1 e.2 → start.cache.lists y.check.classifier.digest e.1 = true := by
    rw [← hresults, results_of_warm hwarm ha h h', h'.scan, ← h.scan, hzip, hdigest]
    intro e he hpass
    obtain ⟨b, hb, rfl⟩ := List.mem_map.mp he
    exact (hlists hb hpass.1).mpr hpass
  have hsame : SameKeys start.cache start.cache := ⟨rfl, rfl, rfl, rfl⟩
  obtain ⟨hkept, hcounts⟩ := Check.pass_warm y.check delay' hwarm.enabled hd hsame hpassed
  rw [← hstate] at hkept hcounts
  refine ⟨hkept.dirty.trans hd, hcounts.trans ?_⟩
  rw [hstats, h'.scan, hdigest, hzip, List.countP_map, List.countP_map, CacheStats.none,
    Nat.zero_add, Nat.zero_add]
  refine congrArg₂ CacheStats.mk (List.countP_congr fun b hb => ?_)
    (List.countP_congr fun b hb => ?_)
  · rw [Bool.and_eq_true, Function.comp_apply, decide_eq_true_eq]
    exact ⟨fun ⟨ht, hlist⟩ => (hlists hb ht).mp hlist,
      fun hpass => ⟨hpass.1, (hlists hb hpass.1).mpr hpass⟩⟩
  · rw [Bool.and_eq_true, Function.comp_apply, Bool.and_eq_true, Bool.not_eq_true',
      Bool.not_eq_true', decide_eq_false_iff_not, and_congr_right_iff]
    intro ht
    rw [← hlists hb ht, Bool.not_eq_true]

end Warm

/-- A run without second opinions and without fixes, and a second one that finds the files as they
were and the file of the cache as the first one has written it: it reports the same, its hits are
the blocks with a tag that passed the first time and its misses are the others, and it writes
nothing. -/
theorem warm_run_hits_passed (ho : o.advisor = none) (o' : Opinions τ' ρ')
    (ho' : o'.advisor = none) (hl : 0 < job.settings.concurrency) (hfix : job.fix = false)
    (he : job.settings.cacheEnabled = true) (hx : examine job o delay s = .ok x)
    (ha : Apart job.digest x.scan.blocks) (hr : run job o delay duration s = .ok r)
    (hsaved : r.cache.dirty = false) (hfiles : ∀ p ∈ job.paths, s'.readText p = s.readText p)
    (hcache : s'.read job.settings.cachePath = r.store.read job.settings.cachePath)
    (delay' : Nat → Block → Nat) (duration' : Binary64) :
    ∃ r', run job o' delay' duration' s' = .ok r' ∧
      r'.report.structuralIssues = r.report.structuralIssues ∧
      r'.report.languageIssues = r.report.languageIssues ∧
      r'.report.failures = r.report.failures ∧
      r'.report.cacheStats.hits =
        (x.scan.blocks.zip x.results).countP (fun e => Passes e.1 e.2) ∧
      r'.report.cacheStats.misses =
        (x.scan.blocks.zip x.results).countP (fun e => e.1.tag.isSome && !decide (Passes e.1 e.2)) ∧
      r'.store = s' := by
  have hf : (⟨job.digest, o.advisor⟩ : Classifier τ ρ).Opines fun _ => .ok none :=
    Classifier.opines_none ho
  have hf' : (⟨job.digest, o'.advisor⟩ : Classifier τ' ρ').Opines fun _ => .ok none :=
    Classifier.opines_none ho'
  obtain ⟨c₀, told, i, -, hload, hread, hrules, -⟩ := parts_of_run hl hf hx ha hr
  obtain ⟨made, told₁, hsave, hstore, hreport⟩ := unfixed_of_run hfix hx hr
  have hon : (cacheOf job).enabled = true := (enabled_cacheOf job).trans he
  rw [hstore] at hcache
  obtain ⟨c, told', hload', hkeys⟩ :=
    reload_of_stored hon rfl nofun hload hrules.cache hsave hsaved hcache
  rw [hrules.scan] at ha
  have hbefore : c₀.enabled = true := (ValidationCache.load_path hload).2.trans hon
  -- the second run begins with the keys that the first one has ended with
  have hwarm : Warms (checker job o) (fun _ => .ok none) c₀ (scanAll i.documents).blocks c :=
    ⟨hbefore, (ValidationCache.load_path hload').2.trans hon, fun q =>
      (hkeys q).trans (hrules.cache.mem_iff hbefore)⟩
  obtain ⟨y, hy, hof, hrules'⟩ :=
    exists_rules hl hf' hload' ((readAll_congr hfiles).trans hread) ha delay'
  obtain ⟨hdirty, hstats⟩ := ValidationCache.load_counts hload'
  obtain ⟨hclean, hcounts⟩ :=
    cache_of_warm hwarm ha hrules hrules' hof ho' hl (hdirty rfl) hstats hload'
  have hnothing := ValidationCache.save_clean (s := s') hclean
  obtain ⟨r', hr', -⟩ := hof.conclude hnothing duration'
  have hr' := (run_eq_conclude hy).trans hr'
  obtain ⟨made', told₂, hsave', hstore', hreport'⟩ := unfixed_of_run hfix hy hr'
  rw [hnothing] at hsave'
  obtain ⟨-, rfl, -⟩ := by simpa only [Except.ok.injEq, Prod.mk.injEq] using hsave'
  obtain ⟨hstructural, hlanguage, hfailures⟩ :=
    report_of_warm hwarm ha hrules hrules' duration duration'
  refine ⟨r', hr', ?_⟩
  rw [cacheStats_of_run hy hr', hcounts, hreport, hreport']
  exact ⟨hstructural, hlanguage, hfailures, rfl, rfl, hstore'⟩

def warmStore : Store :=
  fixStore "```bash\ncd x\n```\n```json\ncd x\n```\n```\ncd x\n```\n".toList

def warmJob : Job := { markJob with fix := false }

def warmRun (s : Store) : Except Fault (Result Unit) :=
  run warmJob (.skipped () : Opinions Unit Unit) (fun _ _ => 0) (.ofInt 0) s

theorem warm_run_hits_passed_three_blocks :
    ∃ r r', warmRun warmStore = .ok r ∧ warmRun r.store = .ok r' ∧
      r.report.cacheStats = ⟨0, 2⟩ ∧ r'.report.cacheStats = ⟨1, 1⟩ ∧
      r.report.languageIssues.length = 1 ∧
      r'.report.languageIssues = r.report.languageIssues ∧ r'.store = r.store := by
  have hruns : (((prepare warmJob (.skipped () : Opinions Unit Unit) warmStore).map
      (·.passAll fun _ _ => 0)).bind fun x => (x.conclude warmJob (.ofInt 0) warmStore).map fun r =>
        (((x.scan.blocks.zip x.results).countP fun e => Passes e.1 e.2,
          (x.scan.blocks.zip x.results).countP fun e =>
            e.1.tag.isSome && !decide (Passes e.1 e.2)),
          r.report.cacheStats, r.report.languageIssues.length, r.cache.dirty,
          decide (r.store.readText (.ofString "a.md") = warmStore.readText (.ofString "a.md")))) =
      .ok ((1, 1), ⟨0, 2⟩, 1, false, true) := by
    decide +kernel
  rw [← examine_eq_pass rfl (by decide)] at hruns
  obtain ⟨x, hx, hends⟩ := ok_of_bind hruns
  obtain ⟨r, hr, hseen⟩ := ok_of_map hends
  simp only [Prod.mk.injEq] at hseen
  obtain ⟨⟨hhits, hmisses⟩, hfirst, hissues, hsaved, hread⟩ := hseen
  have ha : Apart warmJob.digest x.scan.blocks := by
    rw [(examine_of hx).scan, (readAll_eq (examine_of hx).intake).1]
    exact ⟨fun _ _ _ _ h => h, by decide +kernel⟩
  have hfiles : ∀ p ∈ warmJob.paths, r.store.readText p = warmStore.readText p := by
    intro p hp
    rw [List.mem_singleton.mp hp]
    exact of_decide_eq_true hread
  have hr := (run_eq_conclude hx).trans hr
  obtain ⟨r', hr', -, hlanguage, -, hhits', hmisses', hstore⟩ :=
    warm_run_hits_passed rfl (.skipped () : Opinions Unit Unit) rfl (by decide) rfl rfl hx ha hr
      hsaved hfiles rfl (fun _ _ => 0) (.ofInt 0)
  refine ⟨r, r', hr, hr', hfirst, ?_, hissues, hlanguage, hstore⟩
  exact congrArg₂ CacheStats.mk (hhits'.trans hhits) (hmisses'.trans hmisses)

end MarkdownFences.Run
