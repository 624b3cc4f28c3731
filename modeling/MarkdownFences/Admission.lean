import MarkdownFences.Advisor
import MarkdownFences.Tally

namespace MarkdownFences

/-- What the units of a run do: a unit starts, perhaps waits for some rounds, and finishes. All
act on one shared state, which also takes note of failures. Units are numbered. -/
structure Worker (σ ι ρ α : Type) where
  delay : Nat → ι → Nat
  start : σ → Nat → ι → σ × Turn ρ (Except Fault α)
  finish : σ → Nat → ι → ρ → σ × Except Fault α
  failed : σ → Nat → Fault → σ

namespace Admission

inductive Event (ι ρ : Type) where
  | arrival (index : Nat) (item : ι)
  | admitted (index : Nat) (item : ι)
  | wake (index : Nat) (item : ι) (rounds : Nat) (pending : ρ)

/-- A run in progress. Events happen in order and new ones go to the end; units without a token
wait in a queue; `entered` lists the units let in with the number at work just then. -/
structure State (σ ι ρ α : Type) where
  shared : σ
  tokens : Nat
  events : List (Event ι ρ)
  queue : List (Nat × ι)
  inFlight : Nat
  peak : Nat
  entered : List (Nat × Nat)
  results : List (Option (Except Fault α))

variable {σ ι ρ α : Type}

def leave (w : Worker σ ι ρ α) (s : State σ ι ρ α) (index : Nat) (r : Except Fault α) :
    State σ ι ρ α :=
  let shared := match r with
    | .error e => w.failed s.shared index e
    | .ok _ => s.shared
  let s := { s with
    shared, inFlight := s.inFlight - 1, results := s.results.set index (some r) }
  match s.queue with
  | [] => { s with tokens := s.tokens + 1 }
  | (i, x) :: queue => { s with queue, events := s.events ++ [.admitted i x] }

def enter (w : Worker σ ι ρ α) (s : State σ ι ρ α) (index : Nat) (item : ι) : State σ ι ρ α :=
  let inFlight := s.inFlight + 1
  let (shared, turn) := w.start s.shared index item
  let s := { s with
    shared, inFlight, peak := max s.peak inFlight, entered := s.entered ++ [(index, inFlight)] }
  match turn with
  | .done r => leave w s index r
  | .waiting p =>
    match w.delay index item with
    | 0 =>
      let (shared, r) := w.finish s.shared index item p
      leave w { s with shared } index r
    | rounds + 1 => { s with events := s.events ++ [.wake index item rounds p] }

/-- One event. An arriving unit takes a free token unless others wait already. -/
def handle (w : Worker σ ι ρ α) (s : State σ ι ρ α) : Event ι ρ → State σ ι ρ α
  | .arrival index item =>
    match s.tokens, s.queue with
    | tokens + 1, [] => enter w { s with tokens } index item
    | _, _ => { s with queue := s.queue ++ [(index, item)] }
  | .admitted index item => enter w s index item
  | .wake index item (rounds + 1) p => { s with events := s.events ++ [.wake index item rounds p] }
  | .wake index item 0 p =>
    let (shared, r) := w.finish s.shared index item p
    leave w { s with shared } index r

/-- What is still to happen to a unit, counted so that every event makes it less. -/
def Event.weight (w : Worker σ ι ρ α) : Event ι ρ → Nat
  | .arrival index item => w.delay index item + 4
  | .admitted index item => w.delay index item + 2
  | .wake _ _ rounds _ => rounds + 1

def State.weight (w : Worker σ ι ρ α) (s : State σ ι ρ α) : Nat :=
  tally (Event.weight w) s.events + tally (fun q => w.delay q.1 q.2 + 3) s.queue

theorem weight_leave (w : Worker σ ι ρ α) (s : State σ ι ρ α) (index : Nat)
    (r : Except Fault α) : (leave w s index r).weight w ≤ s.weight w := by
  unfold leave
  cases hq : s.queue with
  | nil => simp [State.weight, hq]
  | cons q queue =>
    obtain ⟨i, x⟩ := q
    simp only [State.weight, hq, tally_append, tally, Event.weight]
    omega

theorem weight_enter (w : Worker σ ι ρ α) (s : State σ ι ρ α) (index : Nat) (item : ι) :
    (enter w s index item).weight w ≤ s.weight w + w.delay index item := by
  unfold enter
  split
  rename_i shared turn _
  cases turn with
  | done r =>
    refine Nat.le_trans (weight_leave w _ index r) ?_
    simp [State.weight]
  | waiting p =>
    cases hd : w.delay index item with
    | zero =>
      simp only
      refine Nat.le_trans (weight_leave w _ index _) ?_
      simp [State.weight]
    | succ n =>
      simp only [State.weight, tally_append, tally, Event.weight]
      omega

theorem weight_handle (w : Worker σ ι ρ α) (s : State σ ι ρ α) (e : Event ι ρ) :
    (handle w s e).weight w < s.weight w + e.weight w := by
  cases e with
  | arrival index item =>
    cases ht : s.tokens with
    | zero =>
      simp only [handle, ht, State.weight, tally_append, tally, Event.weight]
      omega
    | succ n =>
      cases hq : s.queue with
      | nil =>
        simp only [handle, ht, hq]
        refine Nat.lt_of_le_of_lt (weight_enter w _ index item) ?_
        simp only [State.weight, Event.weight, hq]
        omega
      | cons q queue =>
        simp only [handle, ht, hq, State.weight, tally_append, tally, Event.weight]
        omega
  | admitted index item =>
    have h := weight_enter w s index item
    simp only [handle, Event.weight]
    omega
  | wake index item rounds p =>
    cases rounds with
    | zero =>
      simp only [handle]
      refine Nat.lt_of_le_of_lt (weight_leave w _ index _) ?_
      simp only [State.weight, Event.weight]
      omega
    | succ n =>
      simp only [handle, State.weight, tally_append, tally, Event.weight]
      omega

def step (w : Worker σ ι ρ α) (s : State σ ι ρ α) : Option (State σ ι ρ α) :=
  match s.events with
  | [] => none
  | e :: events => some (handle w { s with events } e)

theorem weight_step {w : Worker σ ι ρ α} {s t : State σ ι ρ α} (h : step w s = some t) :
    t.weight w < s.weight w := by
  unfold step at h
  cases he : s.events with
  | nil => simp [he] at h
  | cons e events =>
    simp only [he, Option.some.injEq] at h
    subst h
    have h := weight_handle w { s with events } e
    simp only [State.weight, he, tally] at h ⊢
    omega

def finish (w : Worker σ ι ρ α) (s : State σ ι ρ α) : State σ ι ρ α :=
  match _h : step w s with
  | none => s
  | some t => finish w t
termination_by s.weight w
decreasing_by exact weight_step ‹_›

def initial (limit peak : Nat) (shared : σ) (items : List ι) : State σ ι ρ α where
  shared
  tokens := limit
  events := items.zipIdx.map fun x => .arrival x.2 x.1
  queue := []
  inFlight := 0
  peak
  entered := []
  results := items.map fun _ => none

structure LimitFault where
  limit : Int
  deriving DecidableEq, Repr

def LimitFault.message (f : LimitFault) : Text :=
  s!"concurrency limit must be >= 1, got {f.limit}".toList

def tokensOf (limit : Int) : Except LimitFault Nat :=
  if limit < 1 then .error ⟨limit⟩ else .ok limit.toNat

/-- Runs one unit for each item with at most `limit` of them at work. -/
def run (w : Worker σ ι ρ α) (limit peak : Nat) (shared : σ) (items : List ι) : State σ ι ρ α :=
  finish w (initial limit peak shared items)

def State.outcomes (s : State σ ι ρ α) : List (Except Fault α) := s.results.filterMap id

inductive Status where
  | completed
  | failed
  deriving DecidableEq, Repr

def Status.name : Status → String
  | completed => "completed"
  | failed => "failed"

structure UnitResult (α : Type) where
  index : Nat
  status : Status
  output : Option α
  error : Option Fault
  deriving DecidableEq, Repr

def UnitResult.ok (r : UnitResult α) : Bool := r.status == .completed

def UnitResult.of (index : Nat) : Except Fault α → UnitResult α
  | .ok a => ⟨index, .completed, some a, none⟩
  | .error e => ⟨index, .failed, none, some e⟩

def State.unitResults (s : State σ ι ρ α) : List (UnitResult α) :=
  s.results.zipIdx.filterMap fun x => x.1.map (UnitResult.of x.2)

end Admission

end MarkdownFences
