import MarkdownFences.Proofs.Check.Display
import MarkdownFences.Proofs.Run.Attribution
import MarkdownFences.Proofs.Run.Marks

namespace MarkdownFences

@[simp] theorem Console.emitAll_interactive (c : Console) (ts : List Text) :
    (c.emitAll ts).interactive = c.interactive := by
  induction ts generalizing c with
  | nil => rfl
  | cons t ts ih => exact ih (c.emit t)

namespace Run

open Admission (Course Moves)

variable {τ ρ : Type} {job : Job} {o : Opinions τ ρ} {delay : Nat → Block → Nat}
variable {duration : Binary64} {s : Store} {x : Examination τ ρ} {r : Result τ}

theorem uncounted_of_prepare (h : prepare job o s = .ok x) :
    x.state.processed = 0 ∧ x.state.console.interactive = job.interactive := by
  obtain ⟨⟨cache, told⟩, -, h⟩ := ok_of_bind h
  obtain ⟨intake, -, h⟩ := ok_of_bind h
  rw [← Except.ok.inj h]
  refine ⟨rfl, ?_⟩
  simp only [Console.emitAll_interactive]
  rfl

theorem languageIssues_of_run (hx : examine job o delay s = .ok x)
    (hr : run job o delay duration s = .ok r) :
    r.report.languageIssues = x.results.filterMap Check.issue? := by
  obtain ⟨made, told, -, -, hreport⟩ := saves_of_run hx hr
  rw [hreport]
  exact List.filterMap_filterMap

/-- Whatever the limit, whichever check goes on next and whichever fails, what has been put on the
console by then are the issues found so far, each once, below the names of their files, each once,
and where somebody watches the numbers of the checks that have ended. When all have ended these are
the issues that the report lists, and a number for each block. -/
theorem issues_displayed (hl : 0 < job.settings.concurrency) (hx : prepare job o s = .ok x)
    (delay : Nat → Block → Nat) :
    let y := x.checkAll job.settings.concurrency delay
    let bs := x.scan.blocks
    let start := Course.start x.state bs
    examine job o delay s = .ok y ∧
      Moves (x.check.worker delay) bs start ⟨y.state, y.results.map .done⟩ ∧
      (∀ z, Moves (x.check.worker delay) bs start z → ∃ rs,
        z.shared.console.queue = x.state.console.queue ++ rs ∧
          x.check.Displays job.interactive rs z.results) ∧
      ∀ duration r, run job o delay duration s = .ok r → ∃ rs ms,
        y.state.console.queue = x.state.console.queue ++ rs ∧
          rs.filterMap Record.line? = ms.map Mark.text ∧
          Mark.Announces ms r.report.languageIssues ∧
          rs.filterMap Record.tick? =
            if job.interactive then (List.range bs.length).map fun n =>
              s!"  [{n + 1}/{bs.length}] Validating blocks...".toList
            else [] := by
  intro y bs start
  have hy : examine job o delay s = .ok y := by
    rw [examine, hx]
    rfl
  obtain ⟨hprocessed, hinteractive⟩ := uncounted_of_prepare hx
  have hdisplays (z : Course (Check.State τ) (Check.Pending ρ) Finding)
      (hz : Moves (x.check.worker delay) bs start z) : ∃ rs,
      z.shared.console.queue = x.state.console.queue ++ rs ∧
        x.check.Displays job.interactive rs z.results := by
    rw [← hinteractive]
    exact Check.displays_of_moves (headed_of_prepare hx) hprocessed hz
  have hend : Moves (x.check.worker delay) bs start ⟨y.state, y.results.map .done⟩ :=
    Admission.moves_run hl 0 x.state bs
  refine ⟨hy, hend, hdisplays, fun duration r hr => ?_⟩
  obtain ⟨rs, hqueue, ⟨ms, hlines, hannounces⟩, hticks⟩ := hdisplays _ hend
  have hlength : y.results.length = bs.length := Admission.length_outcomes hl 0 x.state bs
  have htotal : x.check.total = bs.length := by rw [(ready_of_prepare hx).check]
  rw [Course.results_done] at hannounces hticks
  rw [hlength] at hticks
  refine ⟨rs, ms, hqueue, hlines, ?_, ?_⟩
  · rwa [languageIssues_of_run hy hr]
  · rw [hticks, ← htotal]
    rfl

def watchedJob : Job := { pairJob 2 with interactive := true, digest := id }

def watchedOpinions : Opinions Unit Text :=
  .given (.waiting fun t =>
    if t = "mkdir -p x".toList then .error ⟨"RuntimeError", .other, none, []⟩
    else .ok (some .bash)) ()

theorem issues_displayed_failing_check :
    let is := [sharedIssue (.ofString "a.md"), sharedIssue (.ofString "b.md")]
    ∃ x r rs ms, prepare watchedJob watchedOpinions pairStore = .ok x ∧
      (x.checkAll 2 fun _ _ => 1).results.map (·.isOk) = [true, true, false, true] ∧
      run watchedJob watchedOpinions (fun _ _ => 1) (.ofInt 0) pairStore = .ok r ∧
      r.report.languageIssues = is ∧
      (x.checkAll 2 fun _ _ => 1).state.console.queue = x.state.console.queue ++ rs ∧
      rs.filterMap Record.line? = ms.map Mark.text ∧ Mark.Announces ms is ∧
      rs.filterMap Record.tick? =
        ["  [1/4] Validating blocks...".toList, "  [2/4] Validating blocks...".toList,
          "  [3/4] Validating blocks...".toList, "  [4/4] Validating blocks...".toList] := by
  intro is
  obtain ⟨y, hy, hseen⟩ : ∃ y,
      examine watchedJob watchedOpinions (fun _ _ => 1) pairStore = .ok y ∧
        (y.scan.blocks.length, y.results.map (·.isOk), y.results.filterMap Check.issue?) =
          (4, [true, true, false, true], is) := examine_of_steps (n := 16) (by decide +kernel)
  obtain ⟨x, hx, rfl⟩ := ok_of_map hy
  obtain ⟨hblocks, hseen⟩ := Prod.mk.inj hseen
  obtain ⟨hresults, hissues⟩ := Prod.mk.inj hseen
  obtain ⟨r, hr⟩ := run_ends_of_examine (by decide +kernel) hy (.ofInt 0)
  obtain ⟨rs, ms, hqueue, hlines, hannounces, hticks⟩ :=
    (issues_displayed (by decide) hx fun _ _ => 1).2.2.2 _ r hr
  have hreport := (languageIssues_of_run hy hr).trans hissues
  refine ⟨x, r, rs, ms, hx, hresults, hr, hreport, hqueue, hlines, ?_, ?_⟩
  · rwa [← hreport]
  · rw [hticks, show x.scan.blocks.length = 4 from hblocks]
    decide +kernel

end Run

end MarkdownFences
