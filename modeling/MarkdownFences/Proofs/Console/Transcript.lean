import MarkdownFences.Console
import Mathlib.Data.List.Basic

namespace MarkdownFences

/-- A part of what is written: a line, a progress line, or what overwrites one. -/
inductive Piece where
  | line (t : Text)
  | progress (t : Text)
  | clear
  deriving DecidableEq, Repr

namespace Piece

def text : Piece → Text
  | line t => t ++ ['\n']
  | progress t => t ++ ['\r']
  | clear => Console.clear

def isLine : Piece → Bool
  | line _ => true
  | _ => false

end Piece

namespace Record

def line? : Record → Option Text
  | line t => some t
  | progress _ => none

def tick? : Record → Option Text
  | line _ => none
  | progress t => some t

def pieces : Record → List Piece
  | line t => [.line t]
  | progress t => [.progress t, .clear]

/-- The records as they are written one after another until none is to be seen as progress. -/
def transcript (rs : List Record) : Text := (rs.flatMap pieces).flatMap Piece.text

theorem transcript_append (rs qs : List Record) :
    transcript (rs ++ qs) = transcript rs ++ transcript qs := by
  simp only [transcript, List.flatMap_append]

/-- What is queued of the records that are called for: progress is for people who watch. -/
def queued (interactive : Bool) (rs : List Record) : List Record :=
  if interactive then rs else rs.filter (·.line?.isSome)

theorem queued_append (interactive : Bool) (rs qs : List Record) :
    queued interactive (rs ++ qs) = queued interactive rs ++ queued interactive qs := by
  cases interactive with
  | false => exact List.filter_append rs qs
  | true => rfl

theorem transcript_queued_false (rs : List Record) :
    transcript (queued false rs) = (rs.filterMap line?).flatMap (· ++ ['\n']) := by
  induction rs with
  | nil => rfl
  | cons r rs ih =>
    cases r with
    | line t => exact congrArg (t ++ ['\n'] ++ ·) ih
    | progress t => exact ih

theorem lines_of_pieces (rs : List Record) :
    ((rs.flatMap pieces).filter Piece.isLine).flatMap Piece.text =
      transcript (queued false rs) := by
  induction rs with
  | nil => rfl
  | cons r rs ih =>
    cases r with
    | line t => exact congrArg (t ++ ['\n'] ++ ·) ih
    | progress t => exact ih

end Record

namespace Console

open Record (queued transcript)

variable {c : Console} {rs : List Record} {interactive : Bool}

def lines (c : Console) : List Text := c.queue.filterMap Record.line?

theorem lines_emit (c : Console) (t : Text) : (c.emit t).lines = c.lines ++ [t] :=
  List.filterMap_append

theorem lines_progress (c : Console) (t : Text) : (c.progress t).lines = c.lines := by
  rw [progress]
  split
  · exact List.filterMap_append.trans (List.append_nil _)
  · rfl

def take (c : Console) : Console :=
  match c.started, c.queue with
  | true, r :: queue => { c with queue }.write r
  | _, _ => c

/-- What may be done to a console until it is closed: anyone calls, and the consumer goes on by one
record. -/
inductive Act where
  | start
  | emit (t : Text)
  | progress (t : Text)
  | take
  deriving DecidableEq, Repr

def Act.record? : Act → Option Record
  | start => none
  | emit t => some (.line t)
  | progress t => some (.progress t)
  | take => none

def perform (c : Console) : Act → Console
  | .start => c.start
  | .emit t => c.emit t
  | .progress t => c.progress t
  | .take => c.take

def performAll (c : Console) (as : List Act) : Console := as.foldl perform c

@[simp] theorem write_queue (c : Console) (r : Record) : (c.write r).queue = c.queue := by
  cases r <;> cases h : c.shown <;> simp [write, hide, h]

@[simp] theorem write_started (c : Console) (r : Record) : (c.write r).started = c.started := by
  cases r <;> cases h : c.shown <;> simp [write, hide, h]

@[simp] theorem write_interactive (c : Console) (r : Record) :
    (c.write r).interactive = c.interactive := by
  cases r <;> cases h : c.shown <;> simp [write, hide, h]

theorem write_withQueue (c : Console) (queue : List Record) (r : Record) :
    { c with queue }.write r = { c.write r with queue } := by
  cases r <;> cases h : c.shown <;> simp [write, hide, h]

theorem take_cons {r : Record} {queue : List Record} (h : c.started = true)
    (hq : c.queue = r :: queue) : c.take = { c.write r with queue } := by
  rw [take, h, hq, ← write_withQueue]
  exact congrArg (fun started => { c with started, queue }.write r) h.symm

theorem settle_eq_performAll (h : c.started = true) :
    c.settle = c.performAll (List.replicate c.queue.length .take) := by
  rw [settle, if_pos h]
  generalize hq : c.queue = queue
  induction queue generalizing c with
  | nil =>
    change { c with queue := [] } = c
    rw [← hq]
  | cons r queue ih =>
    have hrest := ih (c := c.take) (by rw [take_cons h hq]; exact (write_started c r).trans h)
      (by rw [take_cons h hq])
    rw [List.foldl_cons, List.length_cons, List.replicate_succ, performAll, List.foldl_cons]
    refine Eq.trans ?_ hrest
    rw [take_cons h hq, write_withQueue]

theorem settle_queue (h : c.started = true) : c.settle.queue = [] := by
  have hwrite (rs : List Record) (c : Console) : (rs.foldl write c).queue = c.queue := by
    induction rs generalizing c with
    | nil => rfl
    | cons r rs ih => exact (ih (c.write r)).trans (write_queue c r)
  rw [settle, if_pos h, hwrite]

/-- These records have been written, each as a whole, and a progress line has been overwritten as
soon as another record came, but not before. -/
structure Wrote (c : Console) (rs : List Record) : Prop where
  text : c.written ++ (if c.shown then clear else []) = transcript rs
  shown : c.shown = true ↔ ∃ t, rs.getLast? = some (.progress t)

theorem Wrote.hide (h : Wrote c rs) :
    c.hide.written = transcript rs ∧ c.hide.shown = false := by
  have htext := h.text
  rw [Console.hide]
  cases hs : c.shown with
  | false => simpa [hs] using htext
  | true => simpa [hs] using htext

theorem Wrote.write (h : Wrote c rs) (r : Record) : Wrote (c.write r) (rs ++ [r]) := by
  obtain ⟨htext, hshown⟩ := h.hide
  constructor
  · rw [Record.transcript_append, ← htext]
    cases r with
    | line t => simp [Console.write, hshown, transcript, Record.pieces, Piece.text]
    | progress t => simp [Console.write, transcript, Record.pieces, Piece.text]
  · cases r with
    | line t => simp [Console.write, hshown]
    | progress t => simp [Console.write]

/-- The state of a console after calls for these records: each of them has been written or is still
to be written, in their order, unless nobody is there to see it. -/
structure Keeps (interactive : Bool) (rs : List Record) (c : Console) : Prop where
  watched : c.interactive = interactive
  records : ∃ taken, taken ++ c.queue = queued interactive rs ∧ Wrote c taken

theorem keeps_new (interactive : Bool) : Keeps interactive [] (new interactive) := by
  refine ⟨rfl, [], ?_, ?_, ?_⟩
  · cases interactive <;> rfl
  · rfl
  · simp [new]

namespace Keeps

variable (h : Keeps interactive rs c)

include h

theorem emit (t : Text) : Keeps interactive (rs ++ [.line t]) (c.emit t) := by
  obtain ⟨taken, hrecords, hwrote⟩ := h.records
  refine ⟨h.watched, taken, ?_, hwrote.text, hwrote.shown⟩
  rw [Console.emit, ← List.append_assoc, hrecords, Record.queued_append]
  cases interactive <;> rfl

theorem progress (t : Text) : Keeps interactive (rs ++ [.progress t]) (c.progress t) := by
  obtain ⟨taken, hrecords, hwrote⟩ := h.records
  have hwatched := h.watched
  rw [Console.progress]
  cases interactive with
  | false =>
    rw [if_neg (by simp [hwatched])]
    refine ⟨hwatched, taken, ?_, hwrote⟩
    rw [Record.queued_append]
    exact hrecords.trans (List.append_nil _).symm
  | true =>
    rw [if_pos hwatched]
    refine ⟨hwatched, taken, ?_, hwrote.text, hwrote.shown⟩
    rw [← List.append_assoc, hrecords]
    rfl

theorem take : Keeps interactive rs c.take := by
  obtain ⟨taken, hrecords, hwrote⟩ := h.records
  rw [Console.take]
  split
  case h_1 r queue hstarted hqueue =>
    refine ⟨?_, taken ++ [r], ?_, ?_⟩
    · simpa using h.watched
    · rw [hqueue] at hrecords
      simpa using hrecords
    · have hwrote' : Wrote { c with queue } taken := ⟨hwrote.text, hwrote.shown⟩
      exact hwrote'.write r
  case h_2 => exact h

theorem perform (a : Act) : Keeps interactive (rs ++ a.record?.toList) (c.perform a) := by
  cases a with
  | start =>
    obtain ⟨taken, hrecords, hwrote⟩ := h.records
    rw [Act.record?, Option.toList_none, List.append_nil]
    exact ⟨h.watched, taken, hrecords, hwrote.text, hwrote.shown⟩
  | emit t => exact h.emit t
  | progress t => exact h.progress t
  | take =>
    rw [Act.record?, Option.toList_none, List.append_nil]
    exact h.take

theorem performAll (as : List Act) :
    Keeps interactive (rs ++ as.filterMap Act.record?) (c.performAll as) := by
  induction as generalizing c rs with
  | nil =>
    rw [List.filterMap_nil, List.append_nil]
    exact h
  | cons a as ih =>
    have hrest := ih (h.perform a)
    rw [List.append_assoc] at hrest
    cases ha : a.record? <;> simpa [Console.performAll, ha] using hrest

theorem settle (hs : c.started = true) : Wrote c.settle (queued interactive rs) := by
  have hkeeps := h.performAll (List.replicate c.queue.length .take)
  rw [← settle_eq_performAll hs, List.filterMap_replicate_of_none rfl, List.append_nil] at hkeeps
  obtain ⟨taken, hrecords, hwrote⟩ := hkeeps.records
  rw [settle_queue hs, List.append_nil] at hrecords
  rwa [hrecords] at hwrote

theorem close (hs : c.started = true) : c.close.written = transcript (queued interactive rs) := by
  rw [Console.close, if_pos hs]
  exact (h.settle hs).hide.1

end Keeps

theorem started_performAll {as : List Act} (h : c.started = true ∨ .start ∈ as) :
    (c.performAll as).started = true := by
  induction as generalizing c with
  | nil => exact h.resolve_right List.not_mem_nil
  | cons a as ih =>
    refine ih ?_
    obtain h | h := h
    · refine .inl ?_
      cases a with
      | start => rfl
      | emit t => exact h
      | progress t =>
        rw [perform, progress]
        split <;> exact h
      | take =>
        rw [perform, take]
        split
        · exact (write_started _ _).trans h
        · exact h
    · obtain rfl | h := List.mem_cons.mp h
      · exact .inl rfl
      · exact .inr h

/-- However the calls and the consumer come between each other, what has been written is at any time
the beginning of the calls' records, and in the end it is told by the calls in their order: their
lines alone where nobody watches, and else all of them, each progress line overwritten once, by what
comes next. Without that the two are the same. -/
theorem written_close (interactive : Bool) {as : List Act} (hs : .start ∈ as) :
    let c := (new interactive).performAll as
    let rs := as.filterMap Act.record?
    let ps := rs.flatMap Record.pieces
    let lines := (rs.filterMap Record.line?).flatMap (· ++ ['\n'])
    (∃ taken, taken ++ c.queue = queued interactive rs ∧ Wrote c taken) ∧
      (interactive = false → c.close.written = lines) ∧
      (interactive = true → c.close.written = ps.flatMap Piece.text ∧
        (ps.filter Piece.isLine).flatMap Piece.text = lines) ∧
      ∀ as', .start ∈ as' → as'.filterMap Act.record? = rs →
        ((new interactive).performAll as').close.written = c.close.written := by
  intro c rs ps lines
  have hkeeps (as : List Act) : Keeps interactive (as.filterMap Act.record?)
      ((new interactive).performAll as) := (keeps_new interactive).performAll as
  have hwritten (as : List Act) (h : .start ∈ as) :
      ((new interactive).performAll as).close.written =
        transcript (queued interactive (as.filterMap Act.record?)) :=
    (hkeeps as).close (started_performAll (.inr h))
  have hlines : transcript (queued false rs) = lines := Record.transcript_queued_false rs
  refine ⟨(hkeeps as).records, ?_, ?_, fun as' hs' hsame => ?_⟩
  · rintro rfl
    exact (hwritten as hs).trans hlines
  · rintro rfl
    exact ⟨hwritten as hs, (Record.lines_of_pieces rs).trans hlines⟩
  · rw [hwritten as' hs', hsame, hwritten as hs]

def someActs : List Act :=
  [.emit "a.md".toList, .start, .take, .progress "[1/2]".toList, .progress "[2/2]".toList, .take,
    .emit "done".toList, .take]

theorem written_close_progress :
    .start ∈ someActs ∧
      ((new true).performAll someActs).close.written =
        "a.md\n[1/2]\r".toList ++ clear ++ "[2/2]\r".toList ++ clear ++ "done\n".toList ∧
      ((new false).performAll someActs).close.written = "a.md\ndone\n".toList := by
  have hs : .start ∈ someActs := by decide
  obtain ⟨-, -, hwatched, -⟩ := written_close true hs
  obtain ⟨-, hunwatched, -⟩ := written_close false hs
  refine ⟨hs, (hwatched rfl).1.trans ?_, (hunwatched rfl).trans ?_⟩
  · decide
  · decide

end Console

end MarkdownFences
