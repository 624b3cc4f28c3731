import MarkdownFences.Proofs.Admission.Balance
import Mathlib.Data.List.Perm.Basic
import Mathlib.Logic.Relation

namespace MarkdownFences.Admission

variable {σ ι ρ α : Type} {w : Worker σ ι ρ α} {items : List ι} {s t : State σ ι ρ α}
variable {limit peak index : Nat}

inductive Stage (ρ α : Type) where
  | idle
  | waiting (pending : ρ)
  | done (result : Except Fault α)

def Stage.result? : Stage ρ α → Option (Except Fault α)
  | .done r => some r
  | _ => none

/-- What a run comes to when one forgets who waits for a token and for how long: the shared state
and how far each unit has come. -/
structure Course (σ ρ α : Type) where
  shared : σ
  stages : List (Stage ρ α)

def Course.start (shared : σ) (items : List ι) : Course σ ρ α :=
  ⟨shared, items.map fun _ => .idle⟩

def Course.results (c : Course σ ρ α) : List (Except Fault α) := c.stages.filterMap Stage.result?

theorem Course.results_done (shared : σ) (rs : List (Except Fault α)) :
    (⟨shared, rs.map .done⟩ : Course σ ρ α).results = rs := by
  rw [results, List.filterMap_map]
  exact List.filterMap_some

theorem filterMap_set_perm {β γ : Type} {f : β → Option γ} {l : List β} {i : Nat} {a : β}
    (hi : l[i]? = some a) (b : β) :
    ((l.set i b).filterMap f ++ (f a).toList).Perm (l.filterMap f ++ (f b).toList) := by
  obtain ⟨hlt, rfl⟩ := List.getElem?_eq_some_iff.mp hi
  have hcons (c : β) (rest : List β) :
      (rest.filterMap f ++ (f c).toList).Perm ((c :: rest).filterMap f) := by
    rw [List.filterMap_cons]
    cases f c with
    | none => exact .of_eq (List.append_nil _)
    | some d => exact List.perm_append_singleton d _
  have hset := (List.set_perm_cons_eraseIdx hlt b).filterMap f
  have hold := (List.getElem_cons_eraseIdx_perm hlt).filterMap f
  have hswap : ((l.eraseIdx i).filterMap f ++ (f b).toList ++ (f l[i]).toList).Perm
      ((l.eraseIdx i).filterMap f ++ (f l[i]).toList ++ (f b).toList) := by
    rw [List.append_assoc, List.append_assoc]
    exact List.perm_append_comm.append_left _
  exact ((hset.trans (hcons b _).symm).append_right _).trans
    (hswap.trans (((hcons _ _).trans hold).append_right _))

def Course.Each (P : Nat → ι → Stage ρ α → Prop) (items : List ι) (c : Course σ ρ α) : Prop :=
  ∀ i x (stage : Stage ρ α), items[i]? = some x → c.stages[i]? = some stage → P i x stage

theorem Course.each_start {P : Nat → ι → Stage ρ α → Prop} (h : ∀ i x, P i x .idle) (shared : σ)
    (items : List ι) : (Course.start shared items).Each P items := by
  intro i x stage _ hi
  obtain ⟨_, -, rfl⟩ := List.mem_map.mp (List.mem_of_getElem? hi)
  exact h i x

theorem Course.Each.set {P : Nat → ι → Stage ρ α → Prop} {c : Course σ ρ α} (h : c.Each P items)
    {i : Nat} {x : ι} (hx : items[i]? = some x) {stage : Stage ρ α} (hstage : P i x stage)
    (shared : σ) : Course.Each P items ⟨shared, c.stages.set i stage⟩ := by
  intro j y stage' hy hj
  rw [List.getElem?_set] at hj
  split at hj
  case isFalse => exact h j y stage' hy hj
  case isTrue heq =>
    subst heq
    obtain rfl := Option.some.inj (hx.symm.trans hy)
    split at hj
    · exact Option.some.inj hj ▸ hstage
    · cases hj

theorem Course.Each.of_set {P : Nat → ι → Stage ρ α → Prop} {c d : Course σ ρ α}
    (h : c.Each P items) {i : Nat} {x : ι} (hx : items[i]? = some x) {stage : Stage ρ α}
    (hstage : P i x stage) (hd : d.stages = c.stages.set i stage) : d.Each P items := by
  have hset := h.set hx hstage d.shared
  rwa [← hd] at hset

/-- Any one unit takes its next step. -/
inductive Move (w : Worker σ ι ρ α) (items : List ι) : Course σ ρ α → Course σ ρ α → Prop where
  | ends {c : Course σ ρ α} {i : Nat} {x : ι} {shared : σ} {r : Except Fault α} :
      items[i]? = some x → c.stages[i]? = some .idle → w.start c.shared i x = (shared, .done r) →
      Move w items c ⟨w.noted shared i r, c.stages.set i (.done r)⟩
  | waits {c : Course σ ρ α} {i : Nat} {x : ι} {shared : σ} {p : ρ} :
      items[i]? = some x → c.stages[i]? = some .idle →
      w.start c.shared i x = (shared, .waiting p) →
      Move w items c ⟨shared, c.stages.set i (.waiting p)⟩
  | goesOn {c : Course σ ρ α} {i : Nat} {x : ι} {p : ρ} {shared : σ} {r : Except Fault α} :
      items[i]? = some x → c.stages[i]? = some (.waiting p) →
      w.finish c.shared i x p = (shared, r) →
      Move w items c ⟨w.noted shared i r, c.stages.set i (.done r)⟩

abbrev Moves (w : Worker σ ι ρ α) (items : List ι) :
    Course σ ρ α → Course σ ρ α → Prop :=
  Relation.ReflTransGen (Move w items)

def Event.Fits (items : List ι) (stages : List (Stage ρ α)) : Event ι ρ → Prop
  | .arrival i x => items[i]? = some x
  | .admitted i x => items[i]? = some x
  | .wake i x _ p => items[i]? = some x ∧ stages[i]? = some (.waiting p)

/-- A state of a run and the course it stands for. -/
structure Tracks (items : List ι) (s : State σ ι ρ α) (c : Course σ ρ α) : Prop where
  shared : c.shared = s.shared
  results : s.results = c.stages.map Stage.result?
  idle : ∀ i < items.length, i ∉ s.entered.map (·.1) → c.stages[i]? = some .idle
  events : ∀ e ∈ s.events, e.Fits items c.stages
  queue : ∀ q ∈ s.queue, items[q.1]? = some q.2

theorem Event.Fits.set {stages : List (Stage ρ α)} {e : Event ι ρ} (h : e.Fits items stages)
    {i : Nat} (hi : e.inside? ≠ some i) (stage : Stage ρ α) :
    e.Fits items (stages.set i stage) := by
  cases e with
  | arrival => exact h
  | admitted => exact h
  | wake j x rounds p =>
    refine ⟨h.1, ?_⟩
    rw [List.getElem?_set_ne]
    · exact h.2
    · rintro rfl
      exact hi rfl

theorem fits_set {stages : List (Stage ρ α)} {es : List (Event ι ρ)}
    (h : ∀ e ∈ es, e.Fits items stages) {i : Nat} (hi : i ∉ inside es) (stage : Stage ρ α) :
    ∀ e ∈ es, e.Fits items (stages.set i stage) :=
  fun e he => (h e he).set (fun hei => hi (List.mem_filterMap.mpr ⟨e, he, hei⟩)) stage

theorem map_set_of_eq {stages : List (Stage ρ α)} {i : Nat} (hi : stages[i]? = some .idle)
    {stage : Stage ρ α} (hstage : stage.result? = none) :
    (stages.set i stage).map Stage.result? = stages.map Stage.result? := by
  obtain ⟨hlt, hi⟩ := List.getElem?_eq_some_iff.mp hi
  have hsame : stage.result? = (stages[i]).result? := by
    rw [hi, hstage]
    rfl
  rw [List.map_set, hsame, ← List.getElem_map Stage.result? (h := by simpa using hlt)]
  exact List.set_getElem_self _

namespace Tracks

variable {c : Course σ ρ α}

theorem leave (h : Tracks items s c) (he : index ∈ s.entered.map (·.1))
    (hi : index ∉ inside s.events) (r : Except Fault α) :
    Tracks items (leave w s index r)
      ⟨w.noted c.shared index r, c.stages.set index (.done r)⟩ := by
  have hresults : s.results.set index (some r) =
      (c.stages.set index (.done r)).map Stage.result? := by
    rw [List.map_set, ← h.results]
    rfl
  have hidle (i : Nat) (hlt : i < items.length) (hi : i ∉ s.entered.map (·.1)) :
      (c.stages.set index (.done r))[i]? = some .idle := by
    rw [List.getElem?_set_ne]
    · exact h.idle i hlt hi
    · rintro rfl
      exact hi he
  have hevents := fits_set h.events hi (.done r)
  rw [h.shared]
  cases hqueue : s.queue with
  | nil =>
    rw [leave_nil hqueue]
    exact ⟨rfl, hresults, hidle, hevents, h.queue⟩
  | cons q queue =>
    rw [leave_cons hqueue]
    have hq := h.queue
    rw [hqueue] at hq
    obtain ⟨hq, hqs⟩ := List.forall_mem_cons.mp hq
    refine ⟨rfl, hresults, hidle, ?_, hqs⟩
    exact List.forall_mem_append.mpr ⟨hevents, List.forall_mem_singleton.mpr hq⟩

theorem withShared (h : Tracks items s c) (shared : σ) :
    Tracks items { s with shared } ⟨shared, c.stages⟩ :=
  ⟨rfl, h.results, h.idle, h.events, h.queue⟩

theorem started (h : Tracks items s c) (hidle : c.stages[index]? = some .idle)
    (hi : index ∉ inside s.events) {stage : Stage ρ α} (hstage : stage.result? = none)
    (shared : σ) (inFlight peak count : Nat) :
    Tracks items { s with shared, inFlight, peak, entered := s.entered ++ [(index, count)] }
      ⟨shared, c.stages.set index stage⟩ := by
  refine ⟨rfl, ?_, fun i hlt hi => ?_, fits_set h.events hi stage, h.queue⟩
  · rw [map_set_of_eq hidle hstage]
    exact h.results
  · simp only [List.map_append, List.map_cons, List.map_nil, List.mem_append, List.mem_singleton,
      not_or] at hi
    rw [List.getElem?_set_ne (Ne.symm hi.2)]
    exact h.idle i hlt hi.1

theorem enter {item : ι} (h : Tracks items s c) (hb : Balanced limit items.length [index] [] s)
    (hx : items[index]? = some item) :
    ∃ d, Moves w items c d ∧ Tracks items (enter w s index item) d := by
  have hnew := hb.not_mem_entered
  have hi : index ∉ inside s.events := fun hi => hnew ((hb.inside index).mp (.inl hi)).1
  have hlt : index < items.length := (List.getElem?_eq_some_iff.mp hx).1
  have hidle := h.idle index hlt hnew
  have hin (count : Nat) : index ∈ (s.entered ++ [(index, count)]).map (·.1) := by simp
  rw [Admission.enter, ← h.shared]
  cases hw : w.start c.shared index item with
  | mk shared turn =>
    have hstarted (stage : Stage ρ α) (hstage : stage.result? = none) :=
      h.started hidle hi hstage shared (s.inFlight + 1) (max s.peak (s.inFlight + 1))
        (s.inFlight + 1)
    cases turn with
    | done r =>
      refine ⟨_, .single (.ends hx hidle hw), ?_⟩
      have hs := (hstarted .idle rfl).leave (w := w) (hin _) hi r
      rwa [List.set_set] at hs
    | waiting p =>
      have hwaits := Move.waits hx hidle hw
      have hs := hstarted (.waiting p) rfl
      cases hdelay : w.delay index item with
      | zero =>
        cases hf : w.finish shared index item p with
        | mk shared' r =>
          have hwaiting : (c.stages.set index (.waiting p))[index]? = some (.waiting p) :=
            List.getElem?_set_self (List.getElem?_eq_some_iff.mp hidle).1
          refine ⟨_, .tail (.single hwaits) (.goesOn hx hwaiting hf), ?_⟩
          simp only [hf]
          exact (hs.withShared shared').leave (hin _) hi r
      | succ rounds =>
        refine ⟨_, .single hwaits, hs.shared, hs.results, hs.idle, ?_, hs.queue⟩
        simp only
        refine List.forall_mem_append.mpr ⟨hs.events, List.forall_mem_singleton.mpr ⟨hx, ?_⟩⟩
        exact List.getElem?_set_self (List.getElem?_eq_some_iff.mp hidle).1

theorem handle {e : Event ι ρ} {es : List (Event ι ρ)}
    (h : Tracks items { s with events := e :: es } c)
    (hb : Balanced limit items.length [] [] { s with events := e :: es }) :
    ∃ d, Moves w items c d ∧ Tracks items (handle w { s with events := es } e) d := by
  obtain ⟨he, hes⟩ := List.forall_mem_cons.mp h.events
  cases e with
  | arrival index item =>
    rw [Admission.handle]
    split
    case h_1 tokens ht hq =>
      exact enter ⟨h.shared, h.results, h.idle, hes, h.queue⟩ (hb.arrive ht hq) he
    case h_2 =>
      refine ⟨c, .refl, h.shared, h.results, h.idle, hes, ?_⟩
      exact List.forall_mem_append.mpr ⟨h.queue, List.forall_mem_singleton.mpr he⟩
  | admitted index item =>
    exact enter ⟨h.shared, h.results, h.idle, hes, h.queue⟩ hb.letIn he
  | wake index item rounds p =>
    cases rounds with
    | zero =>
      have hgoing := hb.goOn
      have hin := ((hgoing.inside index).mp (.inr (List.mem_singleton_self index))).1
      have hi : index ∉ inside es := fun hi =>
        List.disjoint_of_nodup_append hgoing.nodup hi (List.mem_singleton_self index)
      rw [Admission.handle]
      cases hf : w.finish s.shared index item p with
      | mk shared r =>
        refine ⟨_, .single (.goesOn he.1 he.2 (h.shared ▸ hf)), ?_⟩
        have hrest : Tracks items { s with events := es } c :=
          ⟨h.shared, h.results, h.idle, hes, h.queue⟩
        exact (hrest.withShared shared).leave hin hi r
    | succ rounds =>
      refine ⟨c, .refl, h.shared, h.results, h.idle, ?_, h.queue⟩
      exact List.forall_mem_append.mpr ⟨hes, List.forall_mem_singleton.mpr he⟩

theorem step (h : Tracks items s c) (hb : Balanced limit items.length [] [] s)
    (hs : step w s = some t) : ∃ d, Moves w items c d ∧ Tracks items t d := by
  obtain ⟨s, e, es, rfl, rfl⟩ := step_eq_some hs
  exact h.handle hb

end Tracks

theorem tracks_start (limit peak : Nat) (shared : σ) (items : List ι) :
    Tracks items (initial limit peak shared items : State σ ι ρ α) (Course.start shared items) := by
  refine ⟨rfl, ?_, fun i hi _ => ?_, fun e he => ?_, nofun⟩
  · simp [initial, Course.start, Stage.result?]
  · simp [Course.start, hi]
  · obtain ⟨⟨item, index⟩, hmem, rfl⟩ := List.mem_map.mp he
    exact List.mem_zipIdx_iff_getElem?.mp hmem

theorem Reachable.exists_course {shared : σ} (h : Reachable w limit peak shared items s) :
    ∃ c, Moves w items (Course.start shared items) c ∧ Tracks items s c := by
  induction h with
  | start => exact ⟨_, .refl, tracks_start limit peak shared items⟩
  | next hr hs ih =>
    obtain ⟨c, hc, htracks⟩ := ih
    obtain ⟨d, hd, htracks⟩ := htracks.step hr.balanced hs
    exact ⟨d, hc.trans hd, htracks⟩

theorem Moves.keeps {I : Course σ ρ α → Prop} (hmove : ∀ c d, I c → Move w items c d → I d)
    {c d : Course σ ρ α} (h : Moves w items c d) (hc : I c) : I d := by
  induction h with
  | refl => exact hc
  | tail _ hm ih => exact hmove _ _ ih hm

theorem map_done_of_forall {stages : List (Stage ρ α)}
    (h : ∀ stage ∈ stages, ∃ r, stage = .done r) :
    ((stages.map Stage.result?).filterMap id).map .done = stages := by
  induction stages with
  | nil => rfl
  | cons stage stages ih =>
    obtain ⟨⟨r, rfl⟩, hstages⟩ := List.forall_mem_cons.mp h
    exact congrArg (.done r :: ·) (ih hstages)

theorem Tracks.all_done {c : Course σ ρ α} (h : Tracks items s c)
    (hdone : ∀ i < items.length, ∃ r, s.results[i]? = some (some r))
    (hl : s.results.length = items.length) : c.stages = s.outcomes.map .done := by
  have hsome : ∀ stage ∈ c.stages, ∃ r, stage = .done r := by
    intro stage hstage
    obtain ⟨i, hi⟩ := List.mem_iff_getElem?.mp hstage
    have hlt := (List.getElem?_eq_some_iff.mp hi).1
    rw [← List.length_map (f := Stage.result?), ← h.results, hl] at hlt
    obtain ⟨r, hr⟩ := hdone i hlt
    rw [h.results, List.getElem?_map, hi] at hr
    cases stage with
    | idle => cases hr
    | waiting => cases hr
    | done r => exact ⟨r, rfl⟩
  rw [State.outcomes, h.results]
  exact (map_done_of_forall hsome).symm

theorem reachable_run (w : Worker σ ι ρ α) (limit peak : Nat) (shared : σ) (items : List ι) :
    Reachable w limit peak shared items (run w limit peak shared items) :=
  Reachable.finish .start

theorem exists_course_run (hl : 0 < limit) (peak : Nat) (shared : σ) (items : List ι) :
    ∃ c, Moves w items (Course.start shared items) c ∧
      Tracks items (run w limit peak shared items) c ∧
      c.stages = (run w limit peak shared items).outcomes.map .done := by
  have hr := reachable_run w limit peak shared items
  obtain ⟨c, hc, htracks⟩ := hr.exists_course
  have hfinal := hr.balanced.final hl (step_finish w _)
  exact ⟨c, hc, htracks, htracks.all_done hfinal.2.2.2.2 hr.balanced.results⟩

theorem moves_run (hl : 0 < limit) (peak : Nat) (shared : σ) (items : List ι) :
    Moves w items (Course.start shared items) ⟨(run w limit peak shared items).shared,
      (run w limit peak shared items).outcomes.map .done⟩ := by
  obtain ⟨c, hc, htracks, hdone⟩ := exists_course_run hl peak shared items
  rw [← htracks.shared, ← hdone]
  exact hc

theorem results_run (hl : 0 < limit) (peak : Nat) (shared : σ) (items : List ι) :
    (run w limit peak shared items).results =
      (run w limit peak shared items).outcomes.map some := by
  obtain ⟨c, -, htracks, hdone⟩ := exists_course_run (w := w) hl peak shared items
  rw [htracks.results, hdone, List.map_map]
  rfl

theorem length_outcomes (hl : 0 < limit) (peak : Nat) (shared : σ) (items : List ι) :
    (run w limit peak shared items).outcomes.length = items.length := by
  rw [← (reachable_run w limit peak shared items).balanced.results, results_run hl,
    List.length_map]

/-- What holds at the start and is kept by every step that any one unit may take holds at the end,
whatever the limit and the delays. -/
theorem run_induction {shared : σ} (I : Course σ ρ α → Prop) (hl : 0 < limit)
    (hstart : I (Course.start shared items)) (hmove : ∀ c d, I c → Move w items c d → I d)
    (peak : Nat) :
    I ⟨(run w limit peak shared items).shared,
      (run w limit peak shared items).outcomes.map .done⟩ :=
  (moves_run hl peak shared items).keeps hmove hstart

section Shadows

variable {σ' : Type} {w' : Worker σ' ι ρ α} {f : σ' → σ}

/-- One worker does what the other does, and what more it keeps is of no account to that. -/
structure Shadows (w' : Worker σ' ι ρ α) (w : Worker σ ι ρ α) (f : σ' → σ) : Prop where
  start : ∀ s i x, (f (w'.start s i x).1, (w'.start s i x).2) = w.start (f s) i x
  finish : ∀ s i x p, (f (w'.finish s i x p).1, (w'.finish s i x p).2) = w.finish (f s) i x p
  failed : ∀ s i e, f (w'.failed s i e) = w.failed (f s) i e

def Course.map (f : σ' → σ) (c : Course σ' ρ α) : Course σ ρ α := ⟨f c.shared, c.stages⟩

namespace Shadows

variable {c d : Course σ' ρ α} {x : Course σ ρ α} (h : Shadows w' w f)

include h

theorem noted (s : σ') (i : Nat) (r : Except Fault α) :
    f (w'.noted s i r) = w.noted (f s) i r := by
  cases r with
  | error e => exact h.failed s i e
  | ok a => rfl

theorem move (hm : Move w' items c d) : Move w items (c.map f) (d.map f) := by
  cases hm with
  | @ends i x shared r hx hi hs =>
    have hstart := h.start c.shared i x
    rw [hs] at hstart
    have hends : Move w items (c.map f) _ := .ends hx hi hstart.symm
    rwa [← h.noted] at hends
  | @waits i x shared p hx hi hs =>
    have hstart := h.start c.shared i x
    rw [hs] at hstart
    exact .waits hx hi hstart.symm
  | @goesOn i x p shared r hx hi hs =>
    have hfinish := h.finish c.shared i x p
    rw [hs] at hfinish
    have hgoes : Move w items (c.map f) _ := .goesOn hx hi hfinish.symm
    rwa [← h.noted] at hgoes

theorem exists_move (hm : Move w items (c.map f) x) : ∃ d, Move w' items c d ∧ d.map f = x := by
  cases hm with
  | @ends i y shared r hy hi hs =>
    obtain ⟨rfl, hturn⟩ := Prod.mk.inj ((h.start c.shared i y).trans hs)
    refine ⟨_, .ends hy hi (Prod.ext rfl hturn), ?_⟩
    rw [Course.map, h.noted]
    rfl
  | @waits i y shared p hy hi hs =>
    obtain ⟨rfl, hturn⟩ := Prod.mk.inj ((h.start c.shared i y).trans hs)
    exact ⟨_, .waits hy hi (Prod.ext rfl hturn), rfl⟩
  | @goesOn i y p shared r hy hi hs =>
    obtain ⟨rfl, rfl⟩ := Prod.mk.inj ((h.finish c.shared i y p).trans hs)
    refine ⟨_, .goesOn hy hi rfl, ?_⟩
    rw [Course.map, h.noted]
    rfl

theorem moves_iff : Moves w items (c.map f) x ↔ ∃ d, Moves w' items c d ∧ d.map f = x := by
  constructor
  · intro hm
    induction hm with
    | refl => exact ⟨c, .refl, rfl⟩
    | tail _ hm ih =>
      obtain ⟨d, hd, rfl⟩ := ih
      obtain ⟨e, he, hx⟩ := h.exists_move hm
      exact ⟨e, hd.tail he, hx⟩
  · rintro ⟨d, hd, rfl⟩
    induction hd with
    | refl => exact .refl
    | tail _ hm ih => exact ih.tail (h.move hm)

end Shadows

end Shadows

theorem outcomes_eq_zipIdx {P : Nat → ι → Stage ρ α → Prop} {outcome : Nat → ι → Except Fault α}
    (hl : 0 < limit) {shared shared' : σ} (hP : ∀ i x r, P i x (.done r) → r = outcome i x)
    (h : Course.Each P items ⟨shared', (run w limit peak shared items).outcomes.map .done⟩) :
    (run w limit peak shared items).outcomes = items.zipIdx.map fun x => outcome x.2 x.1 := by
  have hlength := length_outcomes (w := w) hl peak shared items
  refine List.ext_getElem (by simp [hlength]) fun i hi hi' => ?_
  rw [hlength] at hi
  have hdone := h i items[i] (.done (run w limit peak shared items).outcomes[i])
    (List.getElem?_eq_getElem hi) (by simp [hlength, hi])
  simpa using hP i _ _ hdone

theorem outcomes_eq_map {P : Nat → ι → Stage ρ α → Prop} {outcome : ι → Except Fault α}
    (hl : 0 < limit) {shared shared' : σ} (hP : ∀ i x r, P i x (.done r) → r = outcome x)
    (h : Course.Each P items ⟨shared', (run w limit peak shared items).outcomes.map .done⟩) :
    (run w limit peak shared items).outcomes = items.map outcome := by
  have heach : (run w limit peak shared items).outcomes =
      items.zipIdx.map fun x => outcome x.1 := outcomes_eq_zipIdx hl hP h
  rw [heach]
  conv_rhs => rw [← List.zipIdx_map_fst 0 items, List.map_map]
  rfl

end MarkdownFences.Admission
