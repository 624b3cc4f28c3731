import MarkdownFences.Proofs.Admission.Course

namespace MarkdownFences

namespace Worker

variable {σ ι ρ α : Type}

/-- Each unit ends as given, whatever the others do meanwhile. -/
structure Delivers (w : Worker σ ι ρ α) (outcome : Nat → ι → Except Fault α) : Prop where
  start : ∀ s s' i x r, w.start s i x = (s', .done r) → r = outcome i x
  finish : ∀ s s' i x p, w.start s i x = (s', .waiting p) → ∀ t, (w.finish t i x p).2 = outcome i x

/-- Units that yield for the given rounds and then end as given. -/
def yielding (delay : Nat → ι → Nat) (outcome : Nat → ι → Except Fault α) :
    Worker Unit ι Unit α where
  delay
  start s _ _ := (s, .waiting ())
  finish s i x _ := (s, outcome i x)
  failed s _ _ := s

theorem yielding_delivers (delay : Nat → ι → Nat) (outcome : Nat → ι → Except Fault α) :
    (yielding delay outcome).Delivers outcome where
  start _ _ _ _ _ h := by cases h
  finish _ _ _ _ _ _ _ := rfl

end Worker

namespace Admission

variable {σ ι ρ α : Type} {w : Worker σ ι ρ α} {items : List ι} {limit : Nat}
variable {outcome : Nat → ι → Except Fault α}

def Stage.Meets (w : Worker σ ι ρ α) (outcome : Nat → ι → Except Fault α) (i : Nat) (x : ι) :
    Stage ρ α → Prop
  | .idle => True
  | .waiting p => ∀ s, (w.finish s i x p).2 = outcome i x
  | .done r => r = outcome i x

theorem meets_move (hw : w.Delivers outcome) {c d : Course σ ρ α}
    (h : c.Each (Stage.Meets w outcome) items) (hm : Move w items c d) :
    d.Each (Stage.Meets w outcome) items := by
  cases hm with
  | ends hx _ hs =>
    refine h.set hx ?_ _
    exact hw.start _ _ _ _ _ hs
  | waits hx _ hs =>
    refine h.set hx ?_ _
    exact hw.finish _ _ _ _ _ hs
  | goesOn hx hi hf =>
    refine h.set hx ?_ _
    have hp := h _ _ _ hx hi c.shared
    rw [hf] at hp
    exact hp

theorem outcomes_run (hw : w.Delivers outcome) (hl : 0 < limit) (peak : Nat) (shared : σ)
    (items : List ι) :
    (run w limit peak shared items).outcomes = items.zipIdx.map fun x => outcome x.2 x.1 := by
  have hmeets := run_induction (Course.Each (Stage.Meets w outcome) items) hl
    (Course.each_start (fun _ _ => trivial) shared items) (fun _ _ h hm => meets_move hw h hm) peak
  exact outcomes_eq_zipIdx hl (fun _ _ _ hr => hr) hmeets

theorem unitResults_eq {s : State σ ι ρ α} (h : s.results = s.outcomes.map some) :
    s.unitResults = s.outcomes.zipIdx.map fun x => UnitResult.of x.2 x.1 := by
  rw [State.unitResults, h, List.zipIdx_map, List.filterMap_map, ← List.filterMap_eq_map]
  rfl

/-- At any time the units at work are those that were let in and have not ended, and they are no
more than the limit. In the end each unit has been let in once, in order, and has one result of
its own, and nobody is at work. -/
theorem run_accounts (hw : w.Delivers outcome) (hl : 0 < limit) (peak : Nat) (shared : σ)
    (items : List ι) :
    (∀ s, Reachable w limit peak shared items s →
      s.inFlight = s.working.length ∧ s.inFlight ≤ limit ∧ ∀ e ∈ s.entered, e.2 ≤ limit) ∧
    ∃ s, s = run w limit peak shared items ∧ Reachable w limit peak shared items s ∧
      step w s = none ∧ s.inFlight = 0 ∧ s.entered.map (·.1) = List.range items.length ∧
      s.unitResults.length = items.length ∧
      ∀ i x, items[i]? = some x →
        (∀ a, outcome i x = .ok a → s.unitResults[i]? = some ⟨i, .completed, some a, none⟩) ∧
        (∀ e, outcome i x = .error e → s.unitResults[i]? = some ⟨i, .failed, none, some e⟩) := by
  refine ⟨fun s hs => ⟨hs.balanced.inFlight_eq, hs.balanced.inFlight_le, hs.balanced.entered⟩, ?_⟩
  have hr := reachable_run w limit peak shared items
  have hnone := step_finish w (initial limit peak shared items)
  obtain ⟨hentered, -, -, hin, -⟩ := hr.balanced.final hl hnone
  have hresults := unitResults_eq (results_run (w := w) hl peak shared items)
  rw [outcomes_run hw hl] at hresults
  refine ⟨_, rfl, hr, hnone, hin, hentered, by simp [hresults], fun i x hx => ?_⟩
  have hi : (run w limit peak shared items).unitResults[i]? =
      some (UnitResult.of i (outcome i x)) := by
    simp [hresults, hx]
  rw [hi]
  exact ⟨fun a ha => by rw [ha]; rfl, fun e he => by rw [he]; rfl⟩

/-- Three units with two tokens, of which the second fails. -/
theorem run_accounts_failure_between :
    let fault : Fault := ⟨"RuntimeError", .other, none, "bad block".toList⟩
    let outcome : Nat → Nat → Except Fault Nat := fun _ x => if x = 2 then .error fault else .ok x
    let w := Worker.yielding (fun i _ => 3 - i) outcome
    w.Delivers outcome ∧ 0 < 2 ∧
      (∀ s, Reachable w 2 0 () [1, 2, 3] s → s.inFlight = s.working.length ∧ s.inFlight ≤ 2) ∧
      ∃ s, s = run w 2 0 () [1, 2, 3] ∧ s.inFlight = 0 ∧ s.entered.map (·.1) = [0, 1, 2] ∧
        s.unitResults[0]? = some ⟨0, .completed, some 1, none⟩ ∧
        s.unitResults[1]? = some ⟨1, .failed, none, some fault⟩ ∧
        s.unitResults[2]? = some ⟨2, .completed, some 3, none⟩ := by
  intro fault outcome w
  have hw : w.Delivers outcome := Worker.yielding_delivers _ outcome
  obtain ⟨hreach, s, hs, -, -, hin, hentered, -, hresults⟩ :=
    run_accounts hw (by decide : 0 < 2) 0 () [1, 2, 3]
  refine ⟨hw, by decide, fun s hs => ⟨(hreach s hs).1, (hreach s hs).2.1⟩, s, hs, hin, hentered,
    ?_, ?_, ?_⟩
  · exact (hresults 0 1 rfl).1 1 rfl
  · exact (hresults 1 2 rfl).2 fault rfl
  · exact (hresults 2 3 rfl).1 3 rfl

end Admission

end MarkdownFences
