import MarkdownFences.Proofs.Admission.Course
import MarkdownFences.Proofs.Admission.Pass

namespace MarkdownFences

variable {σ ι ρ α : Type}

/-- The same work with a list of what has come to its end, each result with the number of its
unit. -/
def Worker.listing (w : Worker σ ι ρ α) : Worker (σ × List (Except Fault α × Nat)) ι ρ α where
  delay := w.delay
  start s i x :=
    match w.start s.1 i x with
    | (t, .done r) => ((t, s.2 ++ [(r, i)]), .done r)
    | (t, .waiting p) => ((t, s.2), .waiting p)
  finish s i x p :=
    let (t, r) := w.finish s.1 i x p
    ((t, s.2 ++ [(r, i)]), r)
  failed s i e := (w.failed s.1 i e, s.2)

namespace Worker

variable {w : Worker σ ι ρ α} {s : σ × List (Except Fault α × Nat)} {t : σ} {i : Nat} {x : ι}

theorem start_listing_done {r : Except Fault α} (h : w.start s.1 i x = (t, .done r)) :
    w.listing.start s i x = ((t, s.2 ++ [(r, i)]), .done r) := by
  simp only [listing, h]

theorem start_listing_waiting {p : ρ} (h : w.start s.1 i x = (t, .waiting p)) :
    w.listing.start s i x = ((t, s.2), .waiting p) := by
  simp only [listing, h]

end Worker

namespace Admission

variable {w : Worker σ ι ρ α} {items : List ι} {limit n : Nat}

/-- The results of a run in the order in which the units come to their ends. -/
def endings (w : Worker σ ι ρ α) (limit peak : Nat) (shared : σ) (items : List ι) :
    List (Except Fault α × Nat) :=
  (run w.listing limit peak (shared, []) items).shared.2

section Forget

variable {s : State (σ × List (Except Fault α × Nat)) ι ρ α}

def State.forget (s : State (σ × List (Except Fault α × Nat)) ι ρ α) : State σ ι ρ α :=
  ⟨s.shared.1, s.tokens, s.events, s.queue, s.inFlight, s.peak, s.entered, s.results⟩

theorem noted_listing (s : σ × List (Except Fault α × Nat)) (i : Nat) (r : Except Fault α) :
    w.listing.noted s i r = (w.noted s.1 i r, s.2) := by
  cases r <;> rfl

theorem forget_leave (s : State (σ × List (Except Fault α × Nat)) ι ρ α) (i : Nat)
    (r : Except Fault α) : (leave w.listing s i r).forget = leave w s.forget i r := by
  cases hq : s.queue with
  | nil => rw [leave_nil hq, leave_nil (s := s.forget) hq, noted_listing]; rfl
  | cons q queue => rw [leave_cons hq, leave_cons (s := s.forget) hq, noted_listing]; rfl

theorem forget_enter (s : State (σ × List (Except Fault α × Nat)) ι ρ α) (i : Nat) (x : ι) :
    (enter w.listing s i x).forget = enter w s.forget i x := by
  have hshared : s.forget.shared = s.shared.1 := rfl
  have hdelay : w.listing.delay = w.delay := rfl
  cases hs : w.start s.shared.1 i x with
  | mk t turn =>
    cases turn with
    | done r =>
      simp only [enter, hshared, hs, Worker.start_listing_done hs]
      exact forget_leave _ i r
    | waiting p =>
      simp only [enter, hshared, hdelay, hs, Worker.start_listing_waiting hs]
      cases w.delay i x with
      | zero => exact forget_leave _ i _
      | succ rounds => rfl

theorem forget_handle (s : State (σ × List (Except Fault α × Nat)) ι ρ α) (e : Event ι ρ) :
    (handle w.listing s e).forget = handle w s.forget e := by
  cases e with
  | arrival i x =>
    have htokens : s.forget.tokens = s.tokens := rfl
    have hqueue : s.forget.queue = s.queue := rfl
    rw [handle, handle, htokens, hqueue]
    cases s.tokens with
    | zero => rfl
    | succ tokens =>
      cases s.queue with
      | nil => exact forget_enter _ i x
      | cons q queue => rfl
  | admitted i x => exact forget_enter s i x
  | wake i x rounds p =>
    cases rounds with
    | zero => exact forget_leave _ i _
    | succ rounds => rfl

theorem forget_step (s : State (σ × List (Except Fault α × Nat)) ι ρ α) :
    (step w.listing s).map State.forget = step w s.forget := by
  have hevents : s.forget.events = s.events := rfl
  rw [step, step, hevents]
  cases s.events with
  | nil => rfl
  | cons e es => exact congrArg some (forget_handle _ e)

theorem forget_finish (s : State (σ × List (Except Fault α × Nat)) ι ρ α) :
    (finish w.listing s).forget = finish w s.forget := by
  fun_induction finish w.listing s with
  | case1 s hs =>
    have hstep := forget_step (w := w) s
    rw [hs] at hstep
    exact (finish_of_none hstep.symm).symm
  | case2 s t hs ih =>
    have hstep := forget_step (w := w) s
    rw [hs] at hstep
    rw [finish_of_some hstep.symm, ih]

theorem forget_run (w : Worker σ ι ρ α) (limit peak : Nat) (shared : σ) (items : List ι) :
    (run w.listing limit peak (shared, []) items).forget = run w limit peak shared items :=
  forget_finish _

end Forget

inductive Ending (w : Worker σ ι ρ α) (items : List ι) (c : Course σ ρ α) :
    List (Except Fault α × Nat) → Course σ ρ α → Prop where
  | ends {i : Nat} {x : ι} {shared : σ} {r : Except Fault α} :
      items[i]? = some x → c.stages[i]? = some .idle → w.start c.shared i x = (shared, .done r) →
      Ending w items c [(r, i)] ⟨w.noted shared i r, c.stages.set i (.done r)⟩
  | waits {i : Nat} {x : ι} {shared : σ} {p : ρ} :
      items[i]? = some x → c.stages[i]? = some .idle →
      w.start c.shared i x = (shared, .waiting p) →
      Ending w items c [] ⟨shared, c.stages.set i (.waiting p)⟩
  | goesOn {i : Nat} {x : ι} {p : ρ} {shared : σ} {r : Except Fault α} :
      items[i]? = some x → c.stages[i]? = some (.waiting p) →
      w.finish c.shared i x p = (shared, r) →
      Ending w items c [(r, i)] ⟨w.noted shared i r, c.stages.set i (.done r)⟩

theorem Move.exists_ending {c d : Course σ ρ α} (h : Move w items c d) :
    ∃ es, Ending w items c es d := by
  cases h with
  | ends hx hi hs => exact ⟨_, .ends hx hi hs⟩
  | waits hx hi hs => exact ⟨_, .waits hx hi hs⟩
  | goesOn hx hi hs => exact ⟨_, .goesOn hx hi hs⟩

theorem Ending.results {c d : Course σ ρ α} {es : List (Except Fault α × Nat)}
    (h : Ending w items c es d) : d.results.Perm (c.results ++ es.map (·.1)) := by
  have hset {i : Nat} {stage : Stage ρ α} (hi : c.stages[i]? = some stage)
      (hnone : stage.result? = none) (stage' : Stage ρ α) :
      ((c.stages.set i stage').filterMap Stage.result?).Perm
        (c.stages.filterMap Stage.result? ++ stage'.result?.toList) := by
    have hperm := filterMap_set_perm (f := Stage.result?) hi stage'
    rwa [hnone, Option.toList_none, List.append_nil] at hperm
  cases h with
  | ends hx hi hs => exact hset hi rfl _
  | waits hx hi hs => exact hset hi rfl _
  | goesOn hx hi hs => exact hset hi rfl _

def Course.forget (c : Course (σ × List (Except Fault α × Nat)) ρ α) : Course σ ρ α :=
  ⟨c.shared.1, c.stages⟩

theorem Move.ending {c d : Course (σ × List (Except Fault α × Nat)) ρ α}
    (h : Move w.listing items c d) :
    ∃ es, Ending w items c.forget es d.forget ∧ d.shared.2 = c.shared.2 ++ es := by
  cases h with
  | @ends i x shared r hx hi hs =>
    cases hw : w.start c.shared.1 i x with
    | mk t turn =>
      cases turn with
      | done r' =>
        rw [Worker.start_listing_done hw] at hs
        obtain ⟨rfl, hr⟩ := Prod.mk.inj hs
        obtain rfl := Turn.done.inj hr
        rw [noted_listing]
        exact ⟨[(r', i)], .ends hx hi hw, rfl⟩
      | waiting p =>
        rw [Worker.start_listing_waiting hw] at hs
        cases hs
  | @waits i x shared p hx hi hs =>
    cases hw : w.start c.shared.1 i x with
    | mk t turn =>
      cases turn with
      | done r =>
        rw [Worker.start_listing_done hw] at hs
        cases hs
      | waiting p' =>
        rw [Worker.start_listing_waiting hw] at hs
        obtain ⟨rfl, hp⟩ := Prod.mk.inj hs
        obtain rfl := Turn.waiting.inj hp
        exact ⟨[], .waits hx hi hw, (List.append_nil _).symm⟩
  | @goesOn i x p shared r hx hi hs =>
    obtain ⟨rfl, rfl⟩ := Prod.mk.inj hs
    rw [noted_listing]
    exact ⟨[_], .goesOn hx hi rfl, rfl⟩

theorem endings_induction {shared : σ}
    (I : Course σ ρ α → List (Except Fault α × Nat) → Prop) (hl : 0 < limit)
    (hstart : I (Course.start shared items) [])
    (hstep : ∀ c es fs d, I c es → Ending w items c fs d → I d (es ++ fs)) (peak : Nat) :
    I ⟨(run w limit peak shared items).shared,
      (run w limit peak shared items).outcomes.map .done⟩ (endings w limit peak shared items) := by
  let J : Course (σ × List (Except Fault α × Nat)) ρ α → Prop := fun c => I c.forget c.shared.2
  have hbegin : J (Course.start (shared, []) items) := hstart
  have hmove (c d : Course (σ × List (Except Fault α × Nat)) ρ α) (hc : J c)
      (hm : Move w.listing items c d) : J d := by
    obtain ⟨es, hes, hd⟩ := hm.ending
    have hI := hstep _ _ _ _ hc hes
    rw [← hd] at hI
    exact hI
  rw [← forget_run w limit peak shared items]
  exact run_induction J hl hbegin hmove peak

/-- These and no others have come to their ends. -/
structure Lists (es : List (Except Fault α × Nat)) (stages : List (Stage ρ α)) : Prop where
  nodup : es.Nodup
  mem : ∀ r i, (r, i) ∈ es ↔ stages[i]? = some (.done r)

theorem Lists.set {es : List (Except Fault α × Nat)} {stages : List (Stage ρ α)}
    (h : Lists es stages) {i : Nat} {stage : Stage ρ α} (hi : stages[i]? = some stage)
    (hstage : ∀ r, stage ≠ .done r) (r : Except Fault α) :
    Lists (es ++ [(r, i)]) (stages.set i (.done r)) := by
  have hnew (r : Except Fault α) : (r, i) ∉ es := fun hmem =>
    hstage r (Option.some.inj (hi.symm.trans ((h.mem r i).mp hmem)))
  refine ⟨?_, fun r' j => ?_⟩
  · refine List.nodup_append.mpr ⟨h.nodup, List.nodup_singleton _, ?_⟩
    rintro e he e' he' rfl
    rw [List.mem_singleton.mp he'] at he
    exact hnew r he
  · rw [List.mem_append, List.mem_singleton, List.getElem?_set]
    by_cases hj : i = j
    · subst hj
      have hlt := (List.getElem?_eq_some_iff.mp hi).1
      simp [hnew, hlt, eq_comm]
    · simp [hj, Ne.symm hj, h.mem]

theorem lists_endings (hl : 0 < limit) (peak : Nat) (shared : σ) (items : List ι) :
    Lists (endings w limit peak shared items)
      ((run w limit peak shared items).outcomes.map (.done : _ → Stage ρ α)) := by
  refine endings_induction (fun c es => Lists es c.stages) hl ⟨List.nodup_nil, ?_⟩ ?_ peak
  · intro r i
    simp [Course.start, List.getElem?_replicate]
  · intro c es fs d h hstep
    cases hstep with
    | ends hx hi hs => exact h.set hi (fun _ hr => by cases hr) _
    | @waits i x shared p hx hi hs =>
      rw [List.append_nil]
      refine ⟨h.nodup, fun r j => ?_⟩
      rw [h.mem]
      by_cases hj : i = j
      · subst hj
        rw [hi, List.getElem?_set_self (List.getElem?_eq_some_iff.mp hi).1]
        simp
      · rw [List.getElem?_set_ne hj]
    | goesOn hx hi hs => exact h.set hi (fun _ hr => by cases hr) _

theorem nodup_zipIdx (rs : List (Except Fault α)) : rs.zipIdx.Nodup := by
  refine List.Nodup.of_map Prod.snd ?_
  rw [List.zipIdx_map_snd]
  exact List.nodup_range'

theorem endings_perm (hl : 0 < limit) (peak : Nat) (shared : σ) (items : List ι) :
    (endings w limit peak shared items).Perm
      (run w limit peak shared items).outcomes.zipIdx := by
  have hlists := lists_endings (w := w) hl peak shared items
  refine (List.perm_ext_iff_of_nodup hlists.nodup (nodup_zipIdx _)).mpr fun e => ?_
  obtain ⟨r, i⟩ := e
  rw [hlists.mem, List.mk_mem_zipIdx_iff_getElem?]
  simp

/-! Where units cannot get past each other the order is that of the items. -/

section InTurn

variable {s : State (σ × List (Except Fault α × Nat)) ι ρ α} {i : Nat}

/-- All that were let in have come to their ends in that order, but for one that may be at work. -/
def InTurn (s : State (σ × List (Except Fault α × Nat)) ι ρ α) : Prop :=
  s.shared.2.map Prod.snd ++ inside s.events = s.entered.map (·.1)

theorem InTurn.leave (h : InTurn s) (i : Nat) (r : Except Fault α) :
    InTurn (leave w.listing s i r) := by
  cases hq : s.queue with
  | nil =>
    rw [leave_nil hq, noted_listing]
    exact h
  | cons q queue =>
    rw [leave_cons hq, noted_listing]
    simpa [InTurn] using h

theorem InTurn.enter (h : InTurn s) (hin : inside s.events = []) (i : Nat) (x : ι) :
    InTurn (enter w.listing s i x) := by
  have hentered : s.shared.2.map Prod.snd = s.entered.map (·.1) := by
    rw [← h, hin, List.append_nil]
  have hdelay : w.listing.delay = w.delay := rfl
  cases hs : w.start s.shared.1 i x with
  | mk t turn =>
    cases turn with
    | done r =>
      simp only [Admission.enter, Worker.start_listing_done hs]
      exact InTurn.leave (by simp [InTurn, hin, hentered]) i r
    | waiting p =>
      simp only [Admission.enter, Worker.start_listing_waiting hs, hdelay]
      cases w.delay i x with
      | zero => exact InTurn.leave (by simp [InTurn, hin, hentered, Worker.listing]) i _
      | succ rounds => simp [InTurn, hin, hentered]

theorem Balanced.nobody_inside {coming going : List Nat} (h : Balanced 1 n coming going s)
    (hone : 0 < coming.length + going.length) : Admission.inside s.events = [] := by
  have htokens := h.tokens
  have hin := h.inFlight
  exact List.eq_nil_of_length_eq_zero (by omega)

theorem InTurn.handle {e : Event ι ρ} {es : List (Event ι ρ)}
    (h : InTurn { s with events := e :: es })
    (hb : Balanced 1 n [] [] { s with events := e :: es }) :
    InTurn (handle w.listing { s with events := es } e) := by
  cases e with
  | arrival i x =>
    rw [Admission.handle]
    split
    case h_1 tokens ht hq =>
      refine InTurn.enter ?_ ((hb.arrive ht hq).nobody_inside Nat.one_pos) i x
      exact h
    case h_2 => exact h
  | admitted i x =>
    refine InTurn.enter ?_ (hb.letIn.nobody_inside Nat.one_pos) i x
    exact h
  | wake i x rounds p =>
    have hin : inside es = [] := hb.goOn.nobody_inside Nat.one_pos
    have hentered : s.shared.2.map Prod.snd ++ [i] = s.entered.map (·.1) := by
      rw [← h]
      simp [hin]
    cases rounds with
    | zero => exact InTurn.leave (by simp [InTurn, hin, hentered, Worker.listing]) i _
    | succ rounds => simpa [InTurn, Admission.handle, hin] using hentered

theorem Reachable.inTurn {peak : Nat} {shared : σ}
    (h : Reachable w.listing 1 peak (shared, []) items s) : InTurn s := by
  induction h with
  | start =>
    have hb := balanced_initial (ρ := ρ) (α := α) 1 peak
      ((shared, []) : σ × List (Except Fault α × Nat)) items
    have hin := hb.inFlight
    exact List.eq_nil_of_length_eq_zero (by simpa [initial, InTurn] using hin.symm)
  | @next s t hr hs ih =>
    have hb := hr.balanced
    obtain ⟨s, e, es, rfl, rfl⟩ := step_eq_some hs
    exact InTurn.handle ih hb

end InTurn

theorem endings_of_one (w : Worker σ ι ρ α) (peak : Nat) (shared : σ) (items : List ι) :
    endings w 1 peak shared items = (run w 1 peak shared items).outcomes.zipIdx := by
  have hr := reachable_run w.listing 1 peak (shared, []) items
  obtain ⟨hentered, hevents, -⟩ := hr.balanced.final Nat.one_pos (step_finish _ _)
  have hturn := hr.inTurn
  rw [InTurn, hevents, hentered, inside_nil, List.append_nil] at hturn
  change (endings w 1 peak shared items).map Prod.snd = List.range items.length at hturn
  have hperm := endings_perm (w := w) Nat.one_pos peak shared items
  refine List.ext_getElem hperm.length_eq fun i hi hi' => ?_
  have hsnd : (endings w 1 peak shared items)[i].2 = i := by
    have hget := List.getElem_of_eq hturn ((List.length_map _).symm ▸ hi)
    rw [List.getElem_map, List.getElem_range] at hget
    exact hget
  have hmem := hperm.subset (List.getElem_mem hi)
  rw [List.mem_zipIdx_iff_getElem?, hsnd] at hmem
  rw [List.getElem_zipIdx]
  refine Prod.ext ?_ ?_
  · obtain ⟨hlt, hget⟩ := List.getElem?_eq_some_iff.mp hmem
    exact hget.symm
  · simpa using hsnd

theorem pass_listing (w : Worker σ ι ρ α) (s : σ × List (Except Fault α × Nat)) (i : Nat)
    (items : List ι) :
    w.listing.pass s i items = (((w.pass s.1 i items).1, s.2 ++ (w.pass s.1 i items).2.zipIdx i),
      (w.pass s.1 i items).2) := by
  induction items generalizing s i with
  | nil => simp [Worker.pass]
  | cons x items ih =>
    have hattend : w.listing.attend s i x =
        (((w.attend s.1 i x).1, s.2 ++ [((w.attend s.1 i x).2, i)]), (w.attend s.1 i x).2) := by
      cases hs : w.start s.1 i x with
      | mk t turn =>
        cases turn <;> simp only [Worker.attend, Worker.listing, hs]
    have hvisit : w.listing.visit s i x =
        (((w.visit s.1 i x).1, s.2 ++ [((w.visit s.1 i x).2, i)]), (w.visit s.1 i x).2) := by
      rw [Worker.visit, Worker.visit, hattend]
      cases w.attend s.1 i x with
      | mk t r => cases r <;> rfl
    rw [Worker.pass_cons, Worker.pass_cons, hvisit, ih]
    simp [List.zipIdx_cons]

theorem endings_of_neverWaits (hw : w.NeverWaits) (hl : 0 < limit) (peak : Nat) (shared : σ)
    (items : List ι) :
    endings w limit peak shared items = (run w limit peak shared items).outcomes.zipIdx := by
  have hlisting : w.listing.NeverWaits := by
    intro s i x
    obtain ⟨r, hr⟩ := hw s.1 i x
    exact ⟨r, congrArg Prod.snd (Worker.start_listing_done (Prod.ext rfl hr))⟩
  rw [endings, (run_eq_pass hlisting hl peak (shared, []) items).1,
    (run_eq_pass hw hl peak shared items).2, pass_listing]
  rfl

end Admission

end MarkdownFences
