import MarkdownFences.Proofs.Run.Clears

namespace MarkdownFences.Run

variable {τ ρ τ₂ ρ₂ : Type} {job : Job} {o : Opinions τ ρ} {delay : Nat → Block → Nat}
variable {duration : Binary64} {s : Store} {x : Examination τ ρ} {r : Result τ}

theorem run_of_clean {ds : List Document} {cache : ValidationCache} {told : List Log.Entry}
    (ho : o.advisor = none) (hlimit : 0 < job.settings.concurrency)
    (hcache : job.settings.cacheEnabled = true → '\x00' ∉ job.settings.cachePath.text)
    (hload : (cacheOf job).load s = .ok (cache, told))
    (hread : readAll s job.paths = .ok ⟨ds, [], []⟩) (hissues : (scanAll ds).issues = [])
    (hclean : ∀ (k : Check τ ρ) (start : Check.State τ), k.classifier = ⟨job.digest, o.advisor⟩ →
      k.lenient = job.settings.lenient → start.memo = [] → start.cache = cache →
        ((k.worker delay).pass start 0 (scanAll ds).blocks).2 =
          (scanAll ds).blocks.map fun b => .ok (.clean b)) :
    ∃ r, run job o delay duration s = .ok r ∧ r.report.structuralIssues = [] ∧
      r.report.languageIssues = [] ∧ r.report.failures = [] ∧ r.report.exitCode = 0 := by
  obtain ⟨y, hprepare, hready, hintake, hstart⟩ := prepare_ok hload hread o
  have hcheck := hready.check
  have hscan : y.scan = scanAll ds := by rw [hready.scan, hintake]
  have hexamine : examine job o delay s = .ok (y.passAll delay) := by
    rw [examine_eq_pass ho hlimit, hprepare]
    rfl
  have hplace := (Check.pass_cache y.check delay y.state 0 y.scan.blocks).1
  obtain ⟨hpath, henabled⟩ := ValidationCache.load_path hload
  have hsave : ∃ c made told', (y.passAll delay).state.cache.save s = .ok (c, made, told') := by
    refine ValidationCache.save_ok (fun hon path hp => ?_) s
    have hon : job.settings.cacheEnabled = true := by
      have hon := hplace.2.symm.trans hon
      rwa [hstart, henabled, enabled_cacheOf] at hon
    have hp := hplace.1.symm.trans hp
    rw [hstart, hpath] at hp
    obtain rfl := Option.some.inj hp
    exact hcache hon
  obtain ⟨c, made, told', hsave⟩ := hsave
  rw [run_eq_conclude hexamine]
  have hresults : (y.passAll delay).results = (scanAll ds).blocks.map fun b => .ok (.clean b) := by
    have hpass := hclean y.check y.state (by rw [hcheck]) (by rw [hcheck])
      (congrArg Memo.entries hready.memo) hstart
    rw [← hscan] at hpass ⊢
    exact hpass
  refine conclude_of_clean hsave ?_ ?_ hresults
  · have hy : (y.passAll delay).scan = y.scan := rfl
    rw [hy, hscan, hissues]
  · have hy : (y.passAll delay).intake = y.intake := rfl
    rw [hy, hintake]

/-- A run with fixes that leaves nothing to do, without second opinions and with digests that tell
the contents of the blocks apart, is followed by a run that finds nothing: as long as carriage
returns stand at the ends of lines only, as far as there are fixes, and the cache is kept in none of
the files that are checked. -/
theorem rerun_clean (hfix : job.fix = true) (ho : o.advisor = none)
    (hlimit : 0 < job.settings.concurrency) (hx : examine job o delay s = .ok x)
    (hr : run job o delay duration s = .ok r) (hexit : r.report.exitCode = 0)
    (hdigest : ∀ a ∈ x.scan.blocks, ∀ b ∈ x.scan.blocks,
      job.digest a.content = job.digest b.content → a.content = b.content)
    (hcache : job.settings.cacheEnabled = true → '\x00' ∉ job.settings.cachePath.text ∧
      ∀ p ∈ job.paths, r.store.resolve job.settings.cachePath ≠ s.resolve p)
    (hplain : ∀ f ∈ x.fixes, ∀ raw, s.readText f.file = .ok raw →
      Text.IsPlainTo (f.line.toNat + 1) raw)
    (o₂ : Opinions τ₂ ρ₂) (ho₂ : o₂.advisor = none) (delay₂ : Nat → Block → Nat)
    (duration₂ : Binary64) :
    ∃ r₂, run { job with fix := false } o₂ delay₂ duration₂ r.store = .ok r₂ ∧
      r₂.report.structuralIssues = [] ∧ r₂.report.languageIssues = [] ∧
      r₂.report.failures = [] ∧ r₂.report.exitCode = 0 := by
  have h : Clears job o delay duration s x r :=
    ⟨hfix, ho, hlimit, hx, hr, hexit, hdigest, fun he => (hcache he).2, hplain⟩
  obtain ⟨start, hmemo, hload, hstate, hpass⟩ := h.exists_start
  obtain ⟨ds, hread, hissues, hrel⟩ := h.exists_documents
  obtain ⟨again, told, hload₂, hkeys⟩ := h.reload hload hstate
  obtain ⟨told₁, hload⟩ := hload
  have hon : again.enabled = start.cache.enabled :=
    (ValidationCache.load_path hload₂).2.trans (ValidationCache.load_path hload).2.symm
  have hchecker := h.of.check
  refine run_of_clean ho₂ hlimit (fun he => (hcache he).1) hload₂ (readAll_eq_ok hread) hissues
    fun k start₂ hk hlenient hmemo₂ hcache₂ => ?_
  rw [← h.settled.1] at hpass
  refine Check.pass_again ?_ ?_ ?_ ?_ ?_ delay delay₂ h.digests ?_ ?_ ?_ ?_ ?_ ?_ hpass
  · rw [hchecker, ho]
  · rw [hk, ho₂]
  · rw [hk, hchecker]
  · rw [hlenient, hchecker]
  · rw [hchecker, hfix]
  · rw [hchecker]
    exact hrel
  · exact fun f hf => List.mem_map_of_mem (h.mem_blocks hf)
  · rw [hmemo]
    exact Classifier.recalls_nil _ _ _
  · rw [hmemo₂]
    exact Classifier.recalls_nil _ _ _
  · rw [hcache₂, hon]
  · exact fun _ => hcache₂ ▸ hkeys

theorem rerun_clean_crlf : ∃ r r₂, fixRun crlfText = .ok r ∧ r.report.exitCode = 0 ∧
    run { fixJob with fix := false } (.skipped () : Opinions Unit Unit) (fun _ _ => 0) (.ofInt 0)
      r.store = .ok r₂ ∧ r₂.report.exitCode = 0 := by
  obtain ⟨x, r, hx, hfixes, hr, hexit, hplain⟩ := exists_fixRun_crlf
  have hread : (fixStore crlfText).readText (.ofString "a.md") = .ok crlfText := by decide +kernel
  obtain ⟨r₂, hr₂, -, -, -, hexit₂⟩ := rerun_clean rfl rfl (by decide) hx hr hexit
    (fun _ _ _ _ heq => heq) nofun (fun f hf raw hraw => by
      rw [hfixes, List.mem_singleton] at hf
      rw [hf, hread] at hraw
      rwa [hf, ← Except.ok.inj hraw]) (.skipped () : Opinions Unit Unit) rfl (fun _ _ => 0)
    (.ofInt 0)
  exact ⟨r, r₂, hr, hexit, hr₂, hexit₂⟩

/-- The tag that was written on a closing fence, since a lone carriage return is a line end for the
scan only, is still missing where it belongs. -/
theorem rerun_misses_tag :
    let raw := "x\r```\n```\n".toList
    ∃ r r₂, fixRun raw = .ok r ∧ r.report.exitCode = 0 ∧
      run { fixJob with fix := false } (.skipped () : Opinions Unit Unit) (fun _ _ => 0) (.ofInt 0)
        r.store = .ok r₂ ∧ r₂.report.structuralIssues ≠ [] ∧ r₂.report.exitCode = 1 := by
  intro raw
  have hfirst : ((fixRun raw).map fun r => (r.report.exitCode, r.store)) =
      .ok (0, fixStore "x\r```\n```text\n".toList) := by
    rw [fixRun_eq]
    decide +kernel
  have hsecond : ((run { fixJob with fix := false } (.skipped () : Opinions Unit Unit)
      (fun _ _ => 0) (.ofInt 0) (fixStore "x\r```\n```text\n".toList)).map fun r =>
        (r.report.structuralIssues.length, r.report.exitCode)) = .ok (1, 1) := by
    rw [run, examine_eq_pass rfl (by decide)]
    decide +kernel
  obtain ⟨r, hr, hfirst⟩ := ok_of_map hfirst
  obtain ⟨hexit, hstore⟩ := Prod.mk.inj hfirst
  rw [← hstore] at hsecond
  obtain ⟨r₂, hr₂, hsecond⟩ := ok_of_map hsecond
  obtain ⟨hlength, hexit₂⟩ := Prod.mk.inj hsecond
  refine ⟨r, r₂, hr, hexit, hr₂, fun hnil => ?_, hexit₂⟩
  rw [hnil] at hlength
  cases hlength

end MarkdownFences.Run
