import MarkdownFences.Proofs.Check.Marking
import MarkdownFences.Proofs.Run.Frame
import MarkdownFences.Proofs.Run.Independence

namespace MarkdownFences.Run

open Admission (Course Move Moves)
open Check (Adds Passed Passes)
open ValidationCache (key)

variable {τ ρ : Type} {job : Job} {o : Opinions τ ρ} {delay : Nat → Block → Nat}
variable {duration : Binary64} {s s' : Store} {x : Examination τ ρ} {r : Result τ}

theorem Examination.Of.exists_moves (h : x.Of job o delay s)
    (hl : 0 < job.settings.concurrency) :
    ∃ start : Check.State τ, (∃ told, (cacheOf job).load s = .ok (start.cache, told)) ∧
      Moves (x.check.worker delay) x.scan.blocks (Course.start start x.scan.blocks)
        ⟨x.state, x.results.map .done⟩ := by
  obtain ⟨start, -, hload, hstate, hresults⟩ := h.run
  refine ⟨start, hload, ?_⟩
  rw [hstate, hresults]
  exact Admission.moves_run hl 0 start x.scan.blocks

theorem cacheStats_of_run (hx : examine job o delay s = .ok x)
    (hr : run job o delay duration s = .ok r) : r.report.cacheStats = x.state.cache.stats := by
  obtain ⟨made, told, -, -, hreport⟩ := saves_of_run hx hr
  exact congrArg Report.cacheStats hreport

theorem run_ends_of_examine (hnull : '\x00' ∉ job.settings.cachePath.text)
    (hx : examine job o delay s = .ok x) (duration : Binary64) :
    ∃ r, run job o delay duration s = .ok r := by
  have hof := examine_of hx
  obtain ⟨cache, made, told, hsave⟩ := ValidationCache.save_ok (c := x.state.cache)
    (fun _ path hp => by
      rw [hof.cache_place.1] at hp
      rw [← Option.some.inj hp]
      exact hnull) s
  obtain ⟨r, hr, -⟩ := hof.conclude hsave duration
  exact ⟨r, (run_eq_conclude hx).trans hr⟩

section Disabled

variable (he : job.settings.cacheEnabled = false)

include he

theorem examine_uncached (h : ∀ p ∈ job.paths, s'.readText p = s.readText p) :
    examine job o delay s' = examine job o delay s := by
  have hoff : (cacheOf job).enabled = false := (enabled_cacheOf job).trans he
  have hload (u : Store) := ValidationCache.load_disabled (s := u) hoff
  rw [cacheOf] at hload
  simp only [examine, prepare, hload, readAll_congr h]

theorem run_uncached (hcache : x.state.cache = cacheOf job) (hx : examine job o delay s = .ok x)
    (hr : run job o delay duration s = .ok r) :
    r.cache = cacheOf job ∧ r.report.cacheStats = .none ∧
      r.store = (settleIssues job s (x.report job duration) x.fixes).store := by
  have hoff : (cacheOf job).enabled = false := (enabled_cacheOf job).trans he
  have hstats := cacheStats_of_run hx hr
  rw [run_eq_conclude hx] at hr
  obtain ⟨made, told, hsave, -, hstore⟩ := conclude_saves hr
  rw [hcache, ValidationCache.save_disabled hoff] at hsave
  obtain ⟨hsame, rfl, -⟩ := by simpa only [Except.ok.injEq, Prod.mk.injEq] using hsave
  rw [hcache] at hstats
  exact ⟨hsame.symm, hstats, hstore⟩

end Disabled

/-- Whatever the advisor answers and whichever check goes on next, the keys in the cache are at any
time those that it was loaded with and those of the blocks with a tag whose checks have ended
without an issue, and each is put in by the step that ends the check. A cache that is not enabled
stays empty and uncounted, and its file has no part in the run. -/
theorem cache_holds_passed (hl : 0 < job.settings.concurrency)
    (hx : examine job o delay s = .ok x) :
    ∃ start : Check.State τ, (∃ told, (cacheOf job).load s = .ok (start.cache, told)) ∧
      let w := x.check.worker delay
      let bs := x.scan.blocks
      Moves w bs (Course.start start bs) ⟨x.state, x.results.map .done⟩ ∧
      (job.settings.cacheEnabled = true →
        (∀ y, Moves w bs (Course.start start bs) y →
          (∀ q, q ∈ y.shared.cache.keys ↔
            q ∈ start.cache.keys ∨ ∃ b, Passed bs y.stages b ∧ q = key job.digest b) ∧
          ∀ z, Move w bs y z → Adds job.digest bs y z) ∧
        ∀ duration r, run job o delay duration s = .ok r →
          ∀ q, q ∈ r.cache.keys ↔ q ∈ start.cache.keys ∨
            ∃ c ∈ bs.zip x.results, Passes c.1 c.2 ∧ q = key job.digest c.1) ∧
      (job.settings.cacheEnabled = false →
        (∀ y, Moves w bs (Course.start start bs) y → y.shared.cache = cacheOf job) ∧
        (∀ s', (∀ p ∈ job.paths, s'.readText p = s.readText p) →
          examine job o delay s' = .ok x) ∧
        ∀ duration r, run job o delay duration s = .ok r →
          r.cache = cacheOf job ∧ r.report.cacheStats = .none ∧
            r.store = (settleIssues job s (x.report job duration) x.fixes).store ∧
            (job.fix = false → r.store = s)) := by
  have hof := examine_of hx
  obtain ⟨start, ⟨told, hload⟩, hmoves⟩ := hof.exists_moves hl
  have hdigest : x.check.classifier.digest = job.digest := by rw [hof.check]
  have hstart : start.cache.enabled = job.settings.cacheEnabled :=
    (ValidationCache.load_path hload).2.trans (enabled_cacheOf job)
  refine ⟨start, ⟨told, hload⟩, hmoves, fun he => ?_, fun he => ?_⟩
  · have hheld {y : Course (Check.State τ) (Check.Pending ρ) Finding}
        (hy : Moves (x.check.worker delay) x.scan.blocks (Course.start start x.scan.blocks) y)
        (q : Json.Points) : q ∈ y.shared.cache.keys ↔ q ∈ start.cache.keys ∨
          ∃ b, Passed x.scan.blocks y.stages b ∧ q = key job.digest b := by
      rw [← hdigest]
      exact (Check.Marking.of_moves hy).cache.mem_iff (hstart.trans he)
    refine ⟨fun y hy => ⟨hheld hy, fun z hz => ?_⟩, fun duration r hr q => ?_⟩
    · rw [← hdigest]
      exact ((Check.Marking.of_moves hy).marks hz).adds
    · obtain ⟨made, told', hsave, -⟩ := saves_of_run hx hr
      rw [ValidationCache.save_keys hsave, hheld hmoves q]
      refine or_congr_right ⟨?_, ?_⟩
      · rintro ⟨b, hb, rfl⟩
        obtain ⟨c, hc, rfl, hpass⟩ := Check.passed_done_iff.mp hb
        exact ⟨c, hc, hpass, rfl⟩
      · rintro ⟨c, hc, hpass, rfl⟩
        exact ⟨c.1, Check.passed_done_iff.mpr ⟨c, hc, rfl, hpass⟩, rfl⟩
  · have hoff : (cacheOf job).enabled = false := (enabled_cacheOf job).trans he
    rw [ValidationCache.load_disabled hoff] at hload
    have hsame : start.cache = cacheOf job := (Prod.mk.inj (Except.ok.inj hload)).1.symm
    have hkept {y : Course (Check.State τ) (Check.Pending ρ) Finding}
        (hy : Moves (x.check.worker delay) x.scan.blocks (Course.start start x.scan.blocks) y) :
        y.shared.cache = cacheOf job :=
      (Check.cache_of_disabled (hsame ▸ hoff) hy).trans hsame
    refine ⟨fun y hy => hkept hy, fun s' h => (examine_uncached he h).trans hx,
      fun duration r hr => ?_⟩
    obtain ⟨hcache, hstats, hstore⟩ := run_uncached he (hkept hmoves) hx hr
    exact ⟨hcache, hstats, hstore, fun hfix => hstore.trans (settleIssues_store hfix _ _ _)⟩

def markStore : Store :=
  fixStore "```bash\nls\n```\n```python\nls\n```\n```\nls\n```\n```bash\nno\n```\n".toList

def markJob : Job := { fixJob with settings := .default }

def markOpinions : Opinions Unit Text :=
  .given (.waiting fun t =>
    if t = "no".toList then .error ⟨"RuntimeError", .other, none, []⟩ else .ok (some .bash)) ()

theorem cache_holds_passed_mixed :
    (∃ x r, examine markJob markOpinions (fun i _ => 3 - i) markStore = .ok x ∧
      (x.results.map (·.isOk), x.fixes.length) = ([true, true, true, false], 2) ∧
      run markJob markOpinions (fun i _ => 3 - i) (.ofInt 0) markStore = .ok r ∧
      ∀ q, q ∈ r.cache.keys ↔
        q = key id ⟨.ofString "a.md", 0, 2, "ls".toList, some "bash".toList⟩) ∧
    ∃ r, fixRun crlfText = .ok r ∧ r.cache = cacheOf fixJob ∧ r.report.cacheStats = .none := by
  constructor
  · obtain ⟨x, hx, hseen⟩ : ∃ x, examine markJob markOpinions (fun i _ => 3 - i) markStore = .ok x ∧
        (((x.scan.blocks.zip x.results).filter fun c => Passes c.1 c.2).map fun c => key id c.1,
          x.results.map (·.isOk), x.fixes.length) =
        ([key id ⟨.ofString "a.md", 0, 2, "ls".toList, some "bash".toList⟩],
          [true, true, true, false], 2) :=
      examine_of_steps (n := 40) (by decide +kernel)
    obtain ⟨hpassed, hresults⟩ := Prod.mk.inj hseen
    have hof := examine_of hx
    obtain ⟨start, ⟨told, hload⟩, -, henabled, -⟩ := cache_holds_passed (by decide) hx
    have hmissing : markStore.read markJob.settings.cachePath =
        .error (.missing markJob.settings.cachePath) := by decide +kernel
    obtain ⟨told', hnone⟩ := ValidationCache.load_unreadable (c := cacheOf markJob) rfl hmissing
    have hempty : start.cache = cacheOf markJob :=
      (Prod.mk.inj (Except.ok.inj (hload.symm.trans hnone))).1
    obtain ⟨r, hr⟩ := run_ends_of_examine (by decide +kernel) hx (.ofInt 0)
    refine ⟨x, r, hx, hresults, hr, fun q => ?_⟩
    rw [(henabled rfl).2 _ r hr q, ← List.mem_singleton, ← hpassed, hempty, List.mem_map]
    constructor
    · rintro (hq | ⟨c, hc, hpass, rfl⟩)
      · cases hq
      · exact ⟨c, List.mem_filter.mpr ⟨hc, decide_eq_true hpass⟩, rfl⟩
    · rintro ⟨c, hc, rfl⟩
      obtain ⟨hc, hpass⟩ := List.mem_filter.mp hc
      exact .inr ⟨c, hc, of_decide_eq_true hpass, rfl⟩
  · obtain ⟨x, r, hx, -, hr, -⟩ := exists_fixRun_crlf
    obtain ⟨start, -, -, -, hdisabled⟩ := cache_holds_passed (by decide) hx
    obtain ⟨hcache, hstats, -⟩ := (hdisabled rfl).2.2 _ r hr
    exact ⟨r, hr, hcache, hstats⟩

end MarkdownFences.Run
