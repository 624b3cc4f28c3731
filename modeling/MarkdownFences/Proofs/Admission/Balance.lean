import MarkdownFences.Admission
import Mathlib.Data.List.Nodup

namespace MarkdownFences

def Worker.noted {σ ι ρ α : Type} (w : Worker σ ι ρ α) (s : σ) (index : Nat) : Except Fault α → σ
  | .error e => w.failed s index e
  | .ok _ => s

namespace Admission

variable {σ ι ρ α : Type} {w : Worker σ ι ρ α} {s t : State σ ι ρ α} {limit n index : Nat}

inductive Reachable (w : Worker σ ι ρ α) (limit peak : Nat) (shared : σ) (items : List ι) :
    State σ ι ρ α → Prop where
  | start : Reachable w limit peak shared items (initial limit peak shared items)
  | next {s t : State σ ι ρ α} : Reachable w limit peak shared items s → step w s = some t →
      Reachable w limit peak shared items t

theorem Reachable.finish {limit peak : Nat} {shared : σ} {items : List ι}
    (h : Reachable w limit peak shared items s) :
    Reachable w limit peak shared items (finish w s) := by
  fun_induction Admission.finish w s with
  | case1 s hs => exact h
  | case2 s t hs ih => exact ih (h.next hs)

theorem step_finish (w : Worker σ ι ρ α) (s : State σ ι ρ α) : step w (finish w s) = none := by
  fun_induction Admission.finish w s with
  | case1 s hs => exact hs
  | case2 s t hs ih => exact ih

theorem step_eq_some (h : step w s = some t) :
    ∃ (s₀ : State σ ι ρ α) (e : Event ι ρ) (es : List (Event ι ρ)),
      s = { s₀ with events := e :: es } ∧ t = handle w { s₀ with events := es } e := by
  rw [step] at h
  cases he : s.events with
  | nil => rw [he] at h; cases h
  | cons e es =>
    rw [he] at h
    exact ⟨s, e, es, by rw [← he], (Option.some.inj h).symm⟩

theorem events_of_step_none (h : step w s = none) : s.events = [] := by
  rw [step] at h
  cases he : s.events with
  | nil => rfl
  | cons e es => rw [he] at h; cases h

theorem leave_nil (hq : s.queue = []) (r : Except Fault α) :
    leave w s index r = { s with
      shared := w.noted s.shared index r, tokens := s.tokens + 1, inFlight := s.inFlight - 1
      results := s.results.set index (some r) } := by
  cases r <;> simp [leave, hq, Worker.noted]

theorem leave_cons {i : Nat} {x : ι} {queue : List (Nat × ι)} (hq : s.queue = (i, x) :: queue)
    (r : Except Fault α) :
    leave w s index r = { s with
      shared := w.noted s.shared index r, events := s.events ++ [.admitted i x], queue
      inFlight := s.inFlight - 1, results := s.results.set index (some r) } := by
  cases r <;> simp [leave, hq, Worker.noted]

def Event.arriving? : Event ι ρ → Option Nat
  | .arrival index _ => some index
  | _ => none

def Event.handed? : Event ι ρ → Option Nat
  | .admitted index _ => some index
  | _ => none

def Event.inside? : Event ι ρ → Option Nat
  | .wake index _ _ _ => some index
  | _ => none

def arriving (es : List (Event ι ρ)) : List Nat := es.filterMap Event.arriving?

def handed (es : List (Event ι ρ)) : List Nat := es.filterMap Event.handed?

def inside (es : List (Event ι ρ)) : List Nat := es.filterMap Event.inside?

@[simp] theorem arriving_nil : arriving ([] : List (Event ι ρ)) = [] := rfl

@[simp] theorem handed_nil : handed ([] : List (Event ι ρ)) = [] := rfl

@[simp] theorem inside_nil : inside ([] : List (Event ι ρ)) = [] := rfl

@[simp] theorem arriving_append (es fs : List (Event ι ρ)) :
    arriving (es ++ fs) = arriving es ++ arriving fs :=
  List.filterMap_append

@[simp] theorem handed_append (es fs : List (Event ι ρ)) :
    handed (es ++ fs) = handed es ++ handed fs :=
  List.filterMap_append

@[simp] theorem inside_append (es fs : List (Event ι ρ)) :
    inside (es ++ fs) = inside es ++ inside fs :=
  List.filterMap_append

section Cons

variable (x : ι) (rounds : Nat) (p : ρ) (es : List (Event ι ρ))

@[simp] theorem arriving_arrival : arriving (.arrival index x :: es) = index :: arriving es := rfl

@[simp] theorem arriving_admitted : arriving (.admitted index x :: es) = arriving es := rfl

@[simp] theorem arriving_wake : arriving (.wake index x rounds p :: es) = arriving es := rfl

@[simp] theorem handed_arrival : handed (.arrival index x :: es) = handed es := rfl

@[simp] theorem handed_admitted : handed (.admitted index x :: es) = index :: handed es := rfl

@[simp] theorem handed_wake : handed (.wake index x rounds p :: es) = handed es := rfl

@[simp] theorem inside_arrival : inside (.arrival index x :: es) = inside es := rfl

@[simp] theorem inside_admitted : inside (.admitted index x :: es) = inside es := rfl

@[simp] theorem inside_wake : inside (.wake index x rounds p :: es) = index :: inside es := rfl

end Cons

/-- The books of a run of `n` units. Of the units that the event at hand is about, `coming` have a
token and have yet to start, and `going` have started and have yet to end. -/
structure Balanced (limit n : Nat) (coming going : List Nat) (s : State σ ι ρ α) : Prop where
  order : s.entered.map (·.1) ++ coming ++ handed s.events ++ s.queue.map (·.1) ++
    arriving s.events = List.range n
  front : s.events.Pairwise fun a b => b.arriving?.isSome → a.arriving?.isSome
  first : arriving s.events ≠ [] → handed s.events = []
  tokens : s.tokens + s.inFlight + (handed s.events).length + coming.length = limit
  idle : s.queue ≠ [] → s.tokens = 0
  inFlight : s.inFlight = (inside s.events).length + going.length
  inside : ∀ i, i ∈ inside s.events ∨ i ∈ going ↔
    i ∈ s.entered.map (·.1) ∧ s.results[i]? = some none
  nodup : (Admission.inside s.events ++ going).Nodup
  fresh : ∀ i < n, i ∉ s.entered.map (·.1) → s.results[i]? = some none
  results : s.results.length = n
  entered : ∀ e ∈ s.entered, e.2 ≤ limit

namespace Balanced

theorem withShared {coming going : List Nat} (h : Balanced limit n coming going s) (shared : σ) :
    Balanced limit n coming going { s with shared } :=
  ⟨h.order, h.front, h.first, h.tokens, h.idle, h.inFlight, h.inside, h.nodup, h.fresh, h.results,
    h.entered⟩

theorem inside_of_result (h : Balanced limit n [] [index] s) (r : Except Fault α) (i : Nat) :
    i ∈ Admission.inside s.events ↔
      i ∈ s.entered.map (·.1) ∧ (s.results.set index (some r))[i]? = some none := by
  have hn : index ∉ Admission.inside s.events :=
    fun hi => List.disjoint_of_nodup_append h.nodup hi (List.mem_singleton_self index)
  by_cases hi : i = index
  · subst hi
    rw [List.getElem?_set]
    split
    · split <;> simp [hn]
    · simp_all
  · rw [List.getElem?_set_ne (Ne.symm hi), ← h.inside i]
    simp [hi]

theorem fresh_of_result (h : Balanced limit n [] [index] s) (r : Except Fault α) {i : Nat}
    (hlt : i < n) (hi : i ∉ s.entered.map (·.1)) :
    (s.results.set index (some r))[i]? = some none := by
  have hne : index ≠ i := by
    rintro rfl
    exact hi ((h.inside index).mp (.inr (List.mem_singleton_self index))).1
  rw [List.getElem?_set_ne hne]
  exact h.fresh i hlt hi

theorem leave (h : Balanced limit n [] [index] s) (hq : s.queue ≠ [] → arriving s.events = [])
    (r : Except Fault α) : Balanced limit n [] [] (leave w s index r) := by
  have hinside := h.inside_of_result r
  have hfresh : ∀ i < n, i ∉ s.entered.map (·.1) →
      (s.results.set index (some r))[i]? = some none := fun _ => h.fresh_of_result r
  have hin := h.inFlight
  have htokens := h.tokens
  simp only [List.length_singleton, List.length_nil, Nat.add_zero] at hin htokens
  cases hqueue : s.queue with
  | nil =>
    rw [leave_nil hqueue]
    refine ⟨h.order, h.front, h.first, ?_, fun hne => absurd hqueue hne, ?_, ?_, ?_, hfresh, ?_,
      h.entered⟩
    · simp only [List.length_nil]
      omega
    · simp only [List.length_nil]
      omega
    · simpa using hinside
    · simpa using (List.nodup_append.mp h.nodup).1
    · simpa using h.results
  | cons q queue =>
    rw [leave_cons hqueue]
    have htokens0 := h.idle (by simp [hqueue])
    have harriving := hq (by simp [hqueue])
    refine ⟨?_, ?_, ?_, ?_, fun _ => htokens0, ?_, ?_, ?_, hfresh, ?_, h.entered⟩
    · simpa [hqueue, harriving] using h.order
    · refine List.pairwise_append.mpr ⟨h.front, List.pairwise_singleton _ _, ?_⟩
      simp [Event.arriving?]
    · exact fun hne => absurd harriving (by simpa using hne)
    · simp only [handed_append, handed_admitted, handed_nil, List.length_append,
        List.length_singleton, List.length_nil]
      omega
    · simp only [inside_append, inside_admitted, inside_nil, List.append_nil, List.length_nil]
      omega
    · simpa using hinside
    · simpa using (List.nodup_append.mp h.nodup).1
    · simpa using h.results

theorem lt_of_coming {going : List Nat} (h : Balanced limit n [index] going s) : index < n := by
  rw [← List.mem_range, ← h.order]
  simp

theorem not_mem_entered {going : List Nat} (h : Balanced limit n [index] going s) :
    index ∉ s.entered.map (·.1) := by
  have hrange := List.nodup_range (n := n)
  rw [← h.order] at hrange
  simp only [List.append_assoc, List.singleton_append] at hrange
  exact fun hi => List.disjoint_of_nodup_append hrange hi List.mem_cons_self

theorem started (h : Balanced limit n [index] [] s) (shared : σ) (peak : Nat) :
    Balanced limit n [] [index] { s with
      shared, inFlight := s.inFlight + 1, peak
      entered := s.entered ++ [(index, s.inFlight + 1)] } := by
  have hnew := h.not_mem_entered
  have hresult := h.fresh index h.lt_of_coming hnew
  have hn : index ∉ Admission.inside s.events := fun hi => hnew ((h.inside index).mp (.inl hi)).1
  have htokens := h.tokens
  have hin := h.inFlight
  simp only [List.length_singleton, List.length_nil, Nat.add_zero] at htokens hin
  refine ⟨?_, h.front, h.first, ?_, h.idle, ?_, fun i => ?_, ?_, fun i hlt hi => ?_, h.results, ?_⟩
  · simpa using h.order
  · simp only [List.length_nil]
    omega
  · simp only [List.length_singleton]
    omega
  · have hi := h.inside i
    simp only [List.not_mem_nil, or_false] at hi
    rw [hi]
    simp only [List.map_append, List.map_cons, List.map_nil, List.mem_append, List.mem_singleton]
    constructor
    · rintro (⟨he, hr⟩ | rfl)
      · exact ⟨.inl he, hr⟩
      · exact ⟨.inr rfl, hresult⟩
    · rintro ⟨he | rfl, hr⟩
      · exact .inl ⟨he, hr⟩
      · exact .inr rfl
  · refine List.nodup_append.mpr ⟨by simpa using h.nodup, List.nodup_singleton index, ?_⟩
    rintro i hi j hj rfl
    exact hn (List.mem_singleton.mp hj ▸ hi)
  · simp only [List.map_append, List.mem_append, not_or] at hi
    exact h.fresh i hlt hi.1
  · refine List.forall_mem_append.mpr ⟨h.entered, List.forall_mem_singleton.mpr ?_⟩
    omega

theorem wait (h : Balanced limit n [] [index] s) (item : ι) (rounds : Nat) (p : ρ) :
    Balanced limit n [] [] { s with events := s.events ++ [.wake index item rounds p] } := by
  refine ⟨?_, ?_, ?_, ?_, h.idle, ?_, fun i => ?_, ?_, h.fresh, h.results, h.entered⟩
  · simpa using h.order
  · refine List.pairwise_append.mpr ⟨h.front, List.pairwise_singleton _ _, ?_⟩
    simp [Event.arriving?]
  · simpa using h.first
  · simpa using h.tokens
  · simpa using h.inFlight
  · simpa using h.inside i
  · simpa using h.nodup

theorem enter (h : Balanced limit n [index] [] s) (hq : s.queue ≠ [] → arriving s.events = [])
    (item : ι) : Balanced limit n [] [] (enter w s index item) := by
  rw [Admission.enter]
  generalize w.start s.shared index item = x
  obtain ⟨shared, turn⟩ := x
  have hstarted := h.started shared (max s.peak (s.inFlight + 1))
  cases turn with
  | done r => exact hstarted.leave hq r
  | waiting p =>
    cases w.delay index item with
    | zero =>
      simp only
      exact (hstarted.withShared _).leave hq _
    | succ rounds => exact hstarted.wait item rounds p

theorem arriving_eq_nil {e : Event ι ρ} {es : List (Event ι ρ)}
    (h : Balanced limit n [] [] { s with events := e :: es }) (he : e.arriving? = none) :
    arriving es = [] := by
  refine List.filterMap_eq_nil_iff.mpr fun e' he' => ?_
  have hfront := (List.pairwise_cons.mp h.front).1 e' he'
  rw [he] at hfront
  cases ha : e'.arriving? with
  | none => rfl
  | some i => simp [ha] at hfront

theorem arrive {item : ι} {es : List (Event ι ρ)} {tokens : Nat}
    (h : Balanced limit n [] [] { s with events := .arrival index item :: es })
    (ht : s.tokens = tokens + 1) (hq : s.queue = []) :
    Balanced limit n [index] [] { s with tokens, events := es } := by
  have hhanded : handed es = [] := by simpa using h.first (by simp)
  have htokens := h.tokens
  simp only [hhanded, handed_arrival, List.length_nil, Nat.add_zero] at htokens
  refine ⟨?_, (List.pairwise_cons.mp h.front).2, fun _ => hhanded, ?_, fun hne => absurd hq hne,
    ?_, ?_, ?_, h.fresh, h.results, h.entered⟩
  · simpa [hhanded, hq] using h.order
  · simp only [hhanded, List.length_nil, List.length_singleton]
    omega
  · simpa using h.inFlight
  · simpa using h.inside
  · simpa using h.nodup

theorem lineUp {item : ι} {es : List (Event ι ρ)}
    (h : Balanced limit n [] [] { s with events := .arrival index item :: es })
    (hnone : s.tokens = 0 ∨ s.queue ≠ []) :
    Balanced limit n [] [] { s with queue := s.queue ++ [(index, item)], events := es } := by
  have hhanded : handed es = [] := by simpa using h.first (by simp)
  refine ⟨?_, (List.pairwise_cons.mp h.front).2, fun _ => hhanded, ?_, fun _ => ?_, ?_, ?_, ?_,
    h.fresh, h.results, h.entered⟩
  · simpa [hhanded] using h.order
  · simpa using h.tokens
  · exact hnone.elim id fun hq => h.idle hq
  · simpa using h.inFlight
  · simpa using h.inside
  · simpa using h.nodup

theorem letIn {item : ι} {es : List (Event ι ρ)}
    (h : Balanced limit n [] [] { s with events := .admitted index item :: es }) :
    Balanced limit n [index] [] { s with events := es } := by
  have harriving := h.arriving_eq_nil rfl
  have htokens := h.tokens
  simp only [handed_admitted, List.length_cons, List.length_nil, Nat.add_zero] at htokens
  refine ⟨?_, (List.pairwise_cons.mp h.front).2, fun hne => absurd harriving hne, ?_, h.idle, ?_,
    ?_, ?_, h.fresh, h.results, h.entered⟩
  · simpa using h.order
  · simp only [List.length_singleton]
    omega
  · simpa using h.inFlight
  · simpa using h.inside
  · simpa using h.nodup

theorem goOn {item : ι} {rounds : Nat} {p : ρ} {es : List (Event ι ρ)}
    (h : Balanced limit n [] [] { s with events := .wake index item rounds p :: es }) :
    Balanced limit n [] [index] { s with events := es } := by
  have harriving := h.arriving_eq_nil rfl
  refine ⟨?_, (List.pairwise_cons.mp h.front).2, fun hne => absurd harriving hne, ?_, h.idle, ?_,
    fun i => ?_, ?_, h.fresh, h.results, h.entered⟩
  · simpa using h.order
  · simpa using h.tokens
  · simpa using h.inFlight
  · have hi := h.inside i
    simp only [inside_wake, List.mem_cons, List.not_mem_nil, or_false] at hi
    rw [← hi, List.mem_singleton, Or.comm]
  · have hnodup := h.nodup
    simp only [inside_wake, List.append_nil] at hnodup
    exact (List.perm_append_singleton index (Admission.inside es)).nodup_iff.mpr hnodup

theorem no_token_or_queue {tokens : Nat} {queue : List (Nat × ι)}
    (h : ∀ m, tokens = m + 1 → queue = [] → False) : tokens = 0 ∨ queue ≠ [] := by
  refine Decidable.or_iff_not_imp_left.mpr fun ht hq => ?_
  obtain ⟨m, ht⟩ := Nat.exists_eq_add_one_of_ne_zero ht
  exact h m ht hq

theorem handle {e : Event ι ρ} {es : List (Event ι ρ)}
    (h : Balanced limit n [] [] { s with events := e :: es }) :
    Balanced limit n [] [] (handle w { s with events := es } e) := by
  cases e with
  | arrival index item =>
    rw [Admission.handle]
    split
    case h_1 tokens ht hq => exact (h.arrive ht hq).enter (fun hne => absurd hq hne) item
    case h_2 hnone => exact h.lineUp (no_token_or_queue hnone)
  | admitted index item => exact h.letIn.enter (fun _ => h.arriving_eq_nil rfl) item
  | wake index item rounds p =>
    cases rounds with
    | zero => exact (h.goOn.withShared _).leave (fun _ => h.arriving_eq_nil rfl) _
    | succ rounds => exact h.goOn.wait item rounds p

theorem step (h : Balanced limit n [] [] s) (hs : step w s = some t) :
    Balanced limit n [] [] t := by
  obtain ⟨s, e, es, rfl, rfl⟩ := step_eq_some hs
  exact h.handle

end Balanced

theorem balanced_initial (limit peak : Nat) (shared : σ) (items : List ι) :
    Balanced limit items.length [] [] (initial limit peak shared items : State σ ι ρ α) := by
  have harrival : ∀ e ∈ (initial limit peak shared items : State σ ι ρ α).events,
      ∃ i x, e = .arrival i x := by
    intro e he
    obtain ⟨x, -, rfl⟩ := List.mem_map.mp he
    exact ⟨x.2, x.1, rfl⟩
  have harriving : arriving (initial limit peak shared items : State σ ι ρ α).events =
      List.range items.length := by
    simp only [initial, arriving, List.filterMap_map]
    rw [List.range_eq_range', ← List.zipIdx_map_snd 0 items, ← List.filterMap_eq_map]
    rfl
  have hhanded : handed (initial limit peak shared items : State σ ι ρ α).events = [] := by
    refine List.filterMap_eq_nil_iff.mpr fun e he => ?_
    obtain ⟨i, x, rfl⟩ := harrival e he
    rfl
  have hinside : inside (initial limit peak shared items : State σ ι ρ α).events = [] := by
    refine List.filterMap_eq_nil_iff.mpr fun e he => ?_
    obtain ⟨i, x, rfl⟩ := harrival e he
    rfl
  refine ⟨?_, ?_, fun _ => hhanded, ?_, nofun, ?_, fun i => ?_, ?_, fun i hi _ => ?_, ?_, nofun⟩
  · rw [harriving, hhanded]
    rfl
  · refine List.pairwise_of_forall_mem_list fun a ha b hb _ => ?_
    obtain ⟨i, x, rfl⟩ := harrival a ha
    rfl
  · rw [hhanded]
    rfl
  · rw [hinside]
    rfl
  · rw [hinside]
    simp [initial]
  · rw [hinside]
    exact List.nodup_nil
  · simp [initial, hi]
  · simp [initial]

theorem Reachable.balanced {peak : Nat} {shared : σ} {items : List ι}
    (h : Reachable w limit peak shared items s) : Balanced limit items.length [] [] s := by
  induction h with
  | start => exact balanced_initial limit peak shared items
  | next _ hs ih => exact ih.step hs

def State.working (s : State σ ι ρ α) : List Nat :=
  (s.entered.map (·.1)).filter fun i => s.results[i]?.join.isNone

namespace Balanced

theorem nodup_entered {going : List Nat} (h : Balanced limit n [] going s) :
    (s.entered.map (·.1)).Nodup := by
  have hrange := List.nodup_range (n := n)
  rw [← h.order] at hrange
  simp only [List.append_assoc] at hrange
  exact (List.nodup_append.mp hrange).1

theorem lt_of_entered {going : List Nat} (h : Balanced limit n [] going s) {i : Nat}
    (hi : i ∈ s.entered.map (·.1)) : i < n := by
  rw [← List.mem_range, ← h.order]
  simp [hi]

theorem inFlight_eq (h : Balanced limit n [] [] s) : s.inFlight = s.working.length := by
  have hmem (i : Nat) : i ∈ Admission.inside s.events ↔ i ∈ s.working := by
    have hi := h.inside i
    simp only [List.not_mem_nil, or_false] at hi
    rw [hi, State.working, List.mem_filter]
    refine and_congr_right fun he => ?_
    have hlt := h.lt_of_entered he
    rw [← h.results] at hlt
    rw [List.getElem?_eq_getElem hlt]
    cases s.results[i] <;> simp
  have hperm := (List.perm_ext_iff_of_nodup (by simpa using h.nodup)
    (h.nodup_entered.filter _)).mpr hmem
  rw [h.inFlight, hperm.length_eq]
  rfl

theorem inFlight_le (h : Balanced limit n [] [] s) : s.inFlight ≤ limit := by
  have htokens := h.tokens
  omega

theorem final (h : Balanced limit n [] [] s) (hl : 0 < limit) (hs : Admission.step w s = none) :
    s.entered.map (·.1) = List.range n ∧ s.events = [] ∧ s.queue = [] ∧ s.inFlight = 0 ∧
      ∀ i < n, ∃ r, s.results[i]? = some (some r) := by
  have hevents := events_of_step_none hs
  have hin := h.inFlight
  have htokens := h.tokens
  rw [hevents] at hin htokens
  simp only [inside_nil, handed_nil, List.length_nil, Nat.add_zero] at hin htokens
  have hqueue : s.queue = [] := by
    refine Decidable.byContradiction fun hq => ?_
    have ht := h.idle hq
    omega
  have horder := h.order
  rw [hevents, hqueue] at horder
  simp only [handed_nil, arriving_nil, List.map_nil, List.append_nil] at horder
  refine ⟨horder, hevents, hqueue, hin, fun i hi => ?_⟩
  have hlt := hi
  rw [← h.results] at hlt
  rw [List.getElem?_eq_getElem hlt]
  cases hr : s.results[i] with
  | some r => exact ⟨r, rfl⟩
  | none =>
    have hinside := h.inside i
    rw [hevents, horder, List.getElem?_eq_getElem hlt, hr] at hinside
    simp [hi] at hinside

end Balanced

end Admission

end MarkdownFences
