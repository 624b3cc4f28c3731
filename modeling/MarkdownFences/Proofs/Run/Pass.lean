import MarkdownFences.Proofs.Check.Unadvised
import MarkdownFences.Proofs.Run.Examination

namespace MarkdownFences.Run

variable {τ ρ : Type} {job : Job} {o : Opinions τ ρ} {delay : Nat → Block → Nat} {s : Store}
variable {x : Examination τ ρ}

def Examination.passAll (delay : Nat → Block → Nat) (x : Examination τ ρ) : Examination τ ρ :=
  let p := (x.check.worker delay).pass x.state 0 x.scan.blocks
  { x with state := p.1, results := p.2 }

theorem Examination.checkAll_eq_passAll (h : x.check.classifier.advisor = none) {limit : Nat}
    (hl : 0 < limit) (delay : Nat → Block → Nat) : x.checkAll limit delay = x.passAll delay := by
  obtain ⟨hs, hr⟩ := Admission.run_eq_pass (Check.neverWaits h delay) hl 0 x.state x.scan.blocks
  rw [checkAll, passAll, hs, hr]

/-- Without an advisor it does not matter how many checks may go on at a time. -/
theorem examine_eq_pass (ho : o.advisor = none) (hl : 0 < job.settings.concurrency)
    (delay : Nat → Block → Nat) :
    examine job o delay s = (prepare job o s).map (·.passAll delay) := by
  rw [examine]
  cases hp : prepare job o s with
  | error e => rfl
  | ok x =>
    have ha : x.check.classifier.advisor = none := by
      rw [(ready_of_prepare hp).check]
      exact ho
    rw [Except.map, Except.map, Examination.checkAll_eq_passAll ha hl]

theorem examine_of_steps {β : Type} [DecidableEq β] {n : Nat} {g : Examination τ ρ → β} {v : β}
    (h : ((prepare job o s).map fun x =>
      let w := x.check.worker delay
      let t := Admission.advance w n
        (Admission.initial job.settings.concurrency 0 x.state x.scan.blocks)
      (Admission.step w t).isNone &&
        decide (g { x with state := t.shared, results := t.outcomes } = v)) = .ok true) :
    ∃ x, examine job o delay s = .ok x ∧ g x = v := by
  obtain ⟨y, hy, hsteps⟩ := ok_of_map h
  obtain ⟨hend, hv⟩ := Bool.and_eq_true_iff.mp hsteps
  refine ⟨y.checkAll job.settings.concurrency delay, ?_, ?_⟩
  · rw [examine, hy]
    rfl
  · rw [Examination.checkAll, Admission.run,
      Admission.finish_eq_advance (Option.isNone_iff_eq_none.mp hend)]
    exact of_decide_eq_true hv

theorem eq_map_ok {ε α : Type} {rs : List (Except ε α)} (h : ∀ r ∈ rs, ∃ a, r = .ok a) :
    rs = (rs.filterMap Except.toOption).map .ok := by
  induction rs with
  | nil => rfl
  | cons r rs ih =>
    obtain ⟨⟨a, rfl⟩, hrs⟩ := List.forall_mem_cons.mp h
    exact congrArg (List.cons (Except.ok a)) (ih hrs)

namespace Examination.Of

theorem exists_pass (h : x.Of job o delay s) (ho : o.advisor = none)
    (hl : 0 < job.settings.concurrency) : ∃ start : Check.State τ, start.memo = [] ∧
      (∃ told, (cacheOf job).load s = .ok (start.cache, told)) ∧
      x.state = ((x.check.worker delay).pass start 0 x.scan.blocks).1 ∧
      x.results = ((x.check.worker delay).pass start 0 x.scan.blocks).2 := by
  obtain ⟨start, hmemo, hload, hstate, hresults⟩ := h.run
  have ha : x.check.classifier.advisor = none := by
    rw [h.check]
    exact ho
  obtain ⟨hs, hr⟩ := Admission.run_eq_pass (Check.neverWaits ha delay) hl 0 start x.scan.blocks
  exact ⟨start, congrArg Memo.entries hmemo, hload, hstate.trans hs, hresults.trans hr⟩

theorem results_eq (hlength : x.results.length = x.scan.blocks.length) (h : x.failures = []) :
    x.results = x.findings.map .ok := by
  rw [Examination.failures, List.filterMap_eq_nil_iff] at h
  refine eq_map_ok fun r hr => ?_
  obtain ⟨i, hi, rfl⟩ := List.getElem_of_mem hr
  have hmem : (x.scan.blocks[i], x.results[i]) ∈ x.scan.blocks.zip x.results :=
    List.mem_iff_getElem.mpr ⟨i, by simp; omega, by simp⟩
  have hnone := h _ hmem
  cases hf : x.results[i] with
  | ok f => exact ⟨f, rfl⟩
  | error e => rw [hf] at hnone; cases hnone

end Examination.Of

end MarkdownFences.Run
