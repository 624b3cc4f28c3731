import MarkdownFences.Proofs.Admission.Delivery
import MarkdownFences.Proofs.Admission.Pass

namespace MarkdownFences

def Worker.Yields {σ ι ρ α : Type} (w : Worker σ ι ρ α) (items : List ι) : Prop :=
  ∀ i x, items[i]? = some x → 0 < w.delay i x ∧ ∀ s, ∃ s' p, w.start s i x = (s', .waiting p)

theorem Worker.yielding_yields {ι α : Type} {delay : Nat → ι → Nat}
    {outcome : Nat → ι → Except Fault α} {items : List ι}
    (h : ∀ i x, items[i]? = some x → 0 < delay i x) : (yielding delay outcome).Yields items :=
  fun i x hx => ⟨h i x hx, fun s => ⟨s, (), rfl⟩⟩

namespace Admission

variable {σ ι ρ α : Type} {w : Worker σ ι ρ α} {s t : State σ ι ρ α} {items : List ι} {item : ι}
variable {e : Event ι ρ} {es : List (Event ι ρ)} {limit n index : Nat}

namespace Balanced

theorem entered_eq {coming going : List Nat} (h : Balanced limit n coming going s) :
    s.entered.map (·.1) = List.range s.entered.length := by
  have horder := h.order
  simp only [List.append_assoc] at horder
  have htake := congrArg (List.take s.entered.length) horder
  rw [List.take_left' (by simp), List.take_range] at htake
  have hle : s.entered.length ≤ n := by
    have hlength := congrArg List.length horder
    simp only [List.length_append, List.length_map, List.length_range] at hlength
    omega
  rwa [Nat.min_eq_left hle] at htake

/-- As long as a unit waits for a token every token is with a unit at work or has been handed to
one that is about to start. -/
theorem working_add_handed (h : Balanced limit n [] [] s) (hq : s.queue ≠ []) :
    s.working.length + (handed s.events).length = limit := by
  have htokens := h.tokens
  rw [h.idle hq, List.length_nil] at htokens
  rw [← h.inFlight_eq]
  omega

theorem inFlight_le_min {going : List Nat} (h : Balanced limit n [] going s) :
    s.inFlight ≤ min limit n := by
  have htokens := h.tokens
  have hsub : Admission.inside s.events ++ going ⊆ List.range n := fun i hi =>
    List.mem_range.mpr (h.lt_of_entered ((h.inside i).mp (List.mem_append.mp hi)).1)
  have hlength := (List.subperm_of_subset h.nodup hsub).length_le
  rw [List.length_append, ← h.inFlight, List.length_range] at hlength
  omega

end Balanced

section Peak

@[simp] theorem peak_leave (w : Worker σ ι ρ α) (s : State σ ι ρ α) (index : Nat)
    (r : Except Fault α) : (leave w s index r).peak = s.peak := by
  cases hq : s.queue with
  | nil => rw [leave_nil hq]
  | cons q queue => rw [leave_cons hq]

@[simp] theorem inFlight_leave (w : Worker σ ι ρ α) (s : State σ ι ρ α) (index : Nat)
    (r : Except Fault α) : (leave w s index r).inFlight = s.inFlight - 1 := by
  cases hq : s.queue with
  | nil => rw [leave_nil hq]
  | cons q queue => rw [leave_cons hq]

theorem enter_counts (w : Worker σ ι ρ α) (s : State σ ι ρ α) (index : Nat) (item : ι) :
    (enter w s index item).peak = max s.peak (s.inFlight + 1) ∧
      (enter w s index item).inFlight ≤ s.inFlight + 1 := by
  rw [enter]
  generalize w.start s.shared index item = x
  obtain ⟨shared, turn⟩ := x
  cases turn with
  | done r => simp
  | waiting p => cases w.delay index item <;> simp

theorem peak_le_handle (w : Worker σ ι ρ α) (s : State σ ι ρ α) (e : Event ι ρ) :
    s.peak ≤ (handle w s e).peak := by
  cases e with
  | arrival index item =>
    rw [handle]
    split
    · exact (enter_counts w _ index item).1 ▸ Nat.le_max_left _ _
    · exact Nat.le_refl _
  | admitted index item => exact (enter_counts w s index item).1 ▸ Nat.le_max_left _ _
  | wake index item rounds p =>
    cases rounds with
    | zero =>
      have hpeak := peak_leave w { s with shared := (w.finish s.shared index item p).1 } index
        (w.finish s.shared index item p).2
      exact Nat.le_of_eq hpeak.symm
    | succ rounds => exact Nat.le_refl _

end Peak

/-- The most units that have been at work at a time are no less than there are now, and no more
than there can be. -/
structure Peaks (limit n : Nat) (s : State σ ι ρ α) : Prop where
  low : s.inFlight ≤ s.peak
  high : s.peak ≤ min limit n

namespace Peaks

theorem enter (h : Peaks limit n s) (hb : Balanced limit n [index] [] s) (item : ι) :
    Peaks limit n (enter w s index item) := by
  obtain ⟨hpeak, hin⟩ := enter_counts w s index item
  refine ⟨?_, ?_⟩
  · rw [hpeak]
    exact Nat.le_trans hin (Nat.le_max_right _ _)
  · rw [hpeak]
    exact Nat.max_le.mpr ⟨h.high, (hb.started s.shared s.peak).inFlight_le_min⟩

theorem handle (h : Peaks limit n { s with events := e :: es })
    (hb : Balanced limit n [] [] { s with events := e :: es }) :
    Peaks limit n (handle w { s with events := es } e) := by
  cases e with
  | arrival index item =>
    rw [Admission.handle]
    split
    case h_1 tokens ht hq =>
      have hrest : Peaks limit n { s with tokens, events := es } := ⟨h.low, h.high⟩
      exact hrest.enter (hb.arrive ht hq) item
    case h_2 => exact ⟨h.low, h.high⟩
  | admitted index item =>
    have hrest : Peaks limit n { s with events := es } := ⟨h.low, h.high⟩
    exact hrest.enter hb.letIn item
  | wake index item rounds p =>
    cases rounds with
    | zero =>
      refine ⟨?_, ?_⟩
      · rw [Admission.handle, peak_leave, inFlight_leave]
        exact Nat.le_trans (Nat.sub_le _ _) h.low
      · rw [Admission.handle, peak_leave]
        exact h.high
    | succ rounds => exact ⟨h.low, h.high⟩

theorem full (h : Peaks limit n s) (hb : Balanced limit n [] [] s) (hhanded : handed s.events = [])
    (ht : s.tokens = 0) : min limit n ≤ s.peak := by
  have htokens := hb.tokens
  simp only [ht, hhanded, List.length_nil, Nat.zero_add, Nat.add_zero] at htokens
  rw [← htokens]
  exact Nat.le_trans (Nat.min_le_left _ _) h.low

end Peaks

/-- Units have yet to arrive and nobody has ended, or as many have been at work at a time as can
be. -/
def Fills (limit n : Nat) (s : State σ ι ρ α) : Prop :=
  (arriving s.events ≠ [] ∧ s.inFlight = s.entered.length) ∨ min limit n ≤ s.peak

section Yields

variable (hy : w.Yields items)

include hy

theorem enter_of_yields (hx : items[index]? = some item) (s : State σ ι ρ α) :
    ∃ shared rounds p, enter w s index item = { s with
      shared, events := s.events ++ [.wake index item rounds p], inFlight := s.inFlight + 1
      peak := max s.peak (s.inFlight + 1), entered := s.entered ++ [(index, s.inFlight + 1)] } := by
  obtain ⟨hdelay, hstart⟩ := hy index item hx
  obtain ⟨shared, p, hstart⟩ := hstart s.shared
  obtain ⟨rounds, hrounds⟩ := Nat.exists_eq_add_one_of_ne_zero (Nat.pos_iff_ne_zero.mp hdelay)
  refine ⟨shared, rounds, p, ?_⟩
  rw [enter, hstart]
  simp only [hrounds]

theorem Fills.arrive {tokens : Nat} (hx : items[index]? = some item)
    (hin : s.inFlight = s.entered.length) (hhanded : handed s.events = []) (hq : s.queue = [])
    (hb : Balanced limit n [index] [] { s with tokens }) :
    Fills limit n (enter w { s with tokens } index item) := by
  obtain ⟨shared, rounds, p, henter⟩ := enter_of_yields hy hx { s with tokens }
  rw [henter]
  by_cases hlast : arriving s.events = []
  · have hall : s.inFlight + 1 = n := by
      simpa [hhanded, hlast, hq, ← hin] using congrArg List.length hb.order
    refine .inr ?_
    rw [← hall]
    exact Nat.le_trans (Nat.min_le_right _ _) (Nat.le_max_right _ _)
  · refine .inl ⟨?_, ?_⟩
    · simpa using hlast
    · simpa using hin

theorem Fills.handle (h : Fills limit n { s with events := e :: es })
    (hp : Peaks limit n { s with events := e :: es })
    (hb : Balanced limit n [] [] { s with events := e :: es })
    {stages : List (Stage ρ α)} (he : e.Fits items stages) :
    Fills limit n (handle w { s with events := es } e) := by
  -- once the peak is reached it stays; before, nothing can happen but arrivals
  obtain ⟨hcoming, hin⟩ | hfull := h
  case inr => exact .inr (Nat.le_trans hfull (peak_le_handle w { s with events := es } e))
  case inl =>
    cases e with
    | arrival index item =>
      have hhanded := hb.first hcoming
      rw [Admission.handle]
      split
      case h_1 tokens ht hq =>
        exact Fills.arrive (s := { s with events := es }) hy he hin hhanded hq (hb.arrive ht hq)
      case h_2 hnone =>
        exact .inr (hp.full hb hhanded
          ((Balanced.no_token_or_queue hnone).elim id fun hq => hb.idle hq))
    | admitted index item => exact absurd (hb.arriving_eq_nil rfl) hcoming
    | wake index item rounds p => exact absurd (hb.arriving_eq_nil rfl) hcoming

/-- In a run of its own the peak is found as soon as all units have arrived or no token is left. -/
theorem Reachable.fills {shared : σ} (h : Reachable w limit 0 shared items s) :
    Peaks limit items.length s ∧ Fills limit items.length s := by
  induction h with
  | start =>
    refine ⟨⟨Nat.le_refl 0, Nat.zero_le _⟩, ?_⟩
    cases items with
    | nil => exact .inr (Nat.min_le_right _ _)
    | cons item items => exact .inl ⟨List.cons_ne_nil _ _, rfl⟩
  | @next s t hr hs ih =>
    obtain ⟨hp, hf⟩ := ih
    obtain ⟨c, -, htracks⟩ := hr.exists_course
    have hb := hr.balanced
    obtain ⟨s, e, es, rfl, rfl⟩ := step_eq_some hs
    exact ⟨hp.handle hb, hf.handle hy hp hb (htracks.events e List.mem_cons_self)⟩

theorem peak_run (hl : 0 < limit) (shared : σ) :
    (run w limit 0 shared items).peak = min limit items.length := by
  have hr := reachable_run w limit 0 shared items
  obtain ⟨hp, hf⟩ := hr.fills hy
  obtain ⟨-, hevents, -⟩ := hr.balanced.final hl (step_finish w _)
  refine Nat.le_antisymm hp.high (hf.resolve_left fun h => h.1 ?_)
  rw [hevents]
  rfl

end Yields

/-- Units are let in in their order, and as long as one of them waits for a token none is left
unused. Where each unit yields, as many are at one time at work as there can be. -/
theorem run_saturates (w : Worker σ ι ρ α) (hl : 0 < limit) (shared : σ) (items : List ι) :
    let final := run w limit 0 shared items
    (∀ peak s, Reachable w limit peak shared items s →
      s.entered.map (·.1) = List.range s.entered.length ∧
      s.entered.map (·.1) ++ handed s.events ++ s.queue.map (·.1) ++ arriving s.events =
        List.range items.length ∧
      (s.queue ≠ [] → s.working.length + (handed s.events).length = limit)) ∧
    Reachable w limit 0 shared items final ∧ step w final = none ∧
      final.entered.map (·.1) = List.range items.length ∧
      (w.Yields items → final.peak = min limit items.length) := by
  intro final
  have hr : Reachable w limit 0 shared items final := reachable_run w limit 0 shared items
  have hend : step w final = none := step_finish w (initial limit 0 shared items)
  refine ⟨fun peak s h => ?_, hr, hend, (hr.balanced.final hl hend).1,
    fun hy => peak_run hy hl shared⟩
  have horder := h.balanced.order
  rw [List.append_nil] at horder
  exact ⟨h.balanced.entered_eq, horder, h.balanced.working_add_handed⟩

/-- Four units with two tokens, of which the second fails. When the first one has ended its token
has been handed to the third, and the fourth waits. -/
theorem run_saturates_failure_between :
    let fault : Fault := ⟨"RuntimeError", .other, none, "bad block".toList⟩
    let outcome : Nat → Nat → Except Fault Nat := fun _ x => if x = 2 then .error fault else .ok x
    let w := Worker.yielding (fun i _ => 2 * i + 1) outcome
    let items := [1, 2, 3, 4]
    w.Yields items ∧ 0 < 2 ∧
      (∃ s, Reachable w 2 0 () items s ∧ s.working = [1] ∧ handed s.events = [2] ∧
        s.queue.map (·.1) = [3] ∧ s.working.length + (handed s.events).length = 2) ∧
      (run w 2 0 () items).entered.map (·.1) = [0, 1, 2, 3] ∧ (run w 2 0 () items).peak = 2 := by
  intro fault outcome w items
  have hy : w.Yields items := Worker.yielding_yields fun i _ _ => Nat.succ_pos (2 * i)
  obtain ⟨hreach, -, -, hentered, hpeak⟩ := run_saturates w (by decide : 0 < 2) () items
  have hsome : Reachable w 2 0 () items (advance w 5 (initial 2 0 () items)) :=
    .next (.next (.next (.next (.next .start rfl) rfl) rfl) rfl) rfl
  exact ⟨hy, by decide, ⟨_, hsome, rfl, rfl, rfl, (hreach 0 _ hsome).2.2 (by decide)⟩, hentered,
    hpeak hy⟩

end Admission

end MarkdownFences
