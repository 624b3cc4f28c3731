import MarkdownFences.Remote.Service

namespace MarkdownFences.Remote

def Reply.isFailure : Reply → Bool
  | .fault f => f.isOfExchange
  | .response status _ => !(200 ≤ status && status < 300)

/-- How many replies up to the last one are failures. -/
def inARow (rs : List Reply) : Nat := (rs.reverse.takeWhile Reply.isFailure).length

theorem inARow_concat (rs : List Reply) (r : Reply) :
    inARow (rs ++ [r]) = if r.isFailure then inARow rs + 1 else 0 := by
  rw [inARow, List.reverse_concat, List.takeWhile_cons]
  split
  · rfl
  · rfl

namespace Service

variable (s : Service)

theorem tell_breaker : s.tell.1.breaker = s.breaker := by
  rw [tell]
  split <;> rfl

theorem start_of_disabled (h : s.isDisabled = true) (t : Text) :
    s.start t = (s.tell.1, s.tell.2, none) := by
  rw [start, h, if_pos rfl]

theorem start_of_enabled (h : s.isDisabled = false) (t : Text) :
    s.start t = ({ s with calls := s.calls + 1 }, [], some (s.request t)) := by
  rw [start, h]
  rfl

theorem start_breaker (t : Text) : (s.start t).1.breaker = s.breaker := by
  cases h : s.isDisabled with
  | true =>
    rw [s.start_of_disabled h]
    exact s.tell_breaker
  | false => rw [s.start_of_enabled h]

theorem fail_breaker (f : Fault) : (s.fail f).1.breaker = s.breaker := by
  rw [fail]
  split
  · exact tell_breaker _
  · rfl

/-- Only failures of the exchange are held against the service; every other end of it counts as a
success. -/
theorem finish_breaker (r : Reply) :
    (s.finish r).1.breaker = if r.isFailure then s.breaker.fail else s.breaker.succeed := by
  cases r with
  | fault f =>
    rw [finish, Reply.isFailure]
    cases f.isOfExchange with
    | true => exact fail_breaker _ f
    | false =>
      simp only [Bool.false_eq_true, if_false]
      split
      · exact fail_breaker _ f
      · rfl
  | response status body =>
    rw [finish, Reply.isFailure]
    cases 200 ≤ status && status < 300 with
    | false => exact fail_breaker _ _
    | true =>
      simp only [if_true, Bool.not_true, Bool.false_eq_true, if_false]
      split
      · split
        · exact fail_breaker _ _
        · rfl
      · rfl

end Service

/-- A question is begun, or a reply comes to one of those that wait. -/
inductive Event where
  | ask (t : Text)
  | reply (i : Nat) (r : Reply)

/-- A service that is asked from many sides at a time: the requests without a reply so far, and
all that were ever sent. -/
structure Traffic where
  service : Service
  waiting : List Request
  sent : List Request

namespace Traffic

def start (s : Service) : Traffic := ⟨s, [], []⟩

def step (x : Traffic) : Event → Traffic
  | .ask t =>
    let (service, _, q) := x.service.start t
    ⟨service, x.waiting ++ q.toList, x.sent ++ q.toList⟩
  | .reply i r =>
    if i < x.waiting.length then
      ⟨(x.service.finish r).1, x.waiting.eraseIdx i, x.sent⟩
    else x

def run (x : Traffic) (es : List Event) : Traffic := es.foldl step x

/-- The reply that an event brings. There is none where nothing waits for it. -/
def reply? (x : Traffic) : Event → List Reply
  | .ask _ => []
  | .reply i r => if i < x.waiting.length then [r] else []

def received (x : Traffic) : List Event → List Reply
  | [] => []
  | e :: es => x.reply? e ++ (x.step e).received es

variable {x : Traffic} {e : Event} {es : List Event} {rs : List Reply} {n : Nat}

theorem run_cons (x : Traffic) (e : Event) (es : List Event) :
    x.run (e :: es) = (x.step e).run es :=
  rfl

theorem step_ask_of_enabled (h : x.service.isDisabled = false) (t : Text) :
    (x.step (.ask t)).sent = x.sent ++ [x.service.request t] := by
  rw [step, x.service.start_of_enabled h]
  rfl

theorem step_reply {i : Nat} (hi : i < x.waiting.length) (r : Reply) :
    x.step (.reply i r) = ⟨(x.service.finish r).1, x.waiting.eraseIdx i, x.sent⟩ :=
  if_pos hi

section Count

/-- The breaker counts the failures up to the last reply, and is open from the threshold on. -/
structure Counts (n : Nat) (rs : List Reply) (b : Breaker) : Prop where
  threshold : b.threshold = n
  failures : b.failures = inARow rs
  isOpen : b.isOpen = true ↔ n ≤ inARow rs

theorem Counts.reply {b : Breaker} (ht : 0 < n) (h : Counts n rs b) (r : Reply) :
    Counts n (rs ++ [r]) (if r.isFailure then b.fail else b.succeed) := by
  cases hr : r.isFailure with
  | true =>
    have hrow : inARow (rs ++ [r]) = inARow rs + 1 := by rw [inARow_concat, hr, if_pos rfl]
    refine ⟨h.threshold, ?_, ?_⟩
    · rw [hrow, ← h.failures]
      rfl
    · rw [hrow, if_pos rfl, Breaker.fail, Bool.or_eq_true, decide_eq_true_eq, h.isOpen,
        h.threshold, h.failures]
      omega
  | false =>
    have hrow : inARow (rs ++ [r]) = 0 := by
      rw [inARow_concat, hr, if_neg Bool.false_ne_true]
    refine ⟨h.threshold, hrow.symm, ?_⟩
    rw [hrow]
    exact ⟨nofun, fun hle => absurd ht (Nat.not_lt.mpr hle)⟩

theorem Counts.step (ht : 0 < n) (h : Counts n rs x.service.breaker) (e : Event) :
    Counts n (rs ++ x.reply? e) (x.step e).service.breaker := by
  cases e with
  | ask t =>
    rw [reply?, List.append_nil, Traffic.step, x.service.start_breaker]
    exact h
  | reply i r =>
    rw [reply?, Traffic.step]
    split
    · rw [x.service.finish_breaker]
      exact h.reply ht r
    · rw [List.append_nil]
      exact h

theorem Counts.run (ht : 0 < n) (h : Counts n rs x.service.breaker)
    (es : List Event) :
    Counts n (rs ++ x.received es) (x.run es).service.breaker := by
  induction es generalizing x rs with
  | nil =>
    rw [received, List.append_nil]
    exact h
  | cons e es ih =>
    rw [received, ← List.append_assoc, run_cons]
    exact ih (h.step ht e)

end Count

section Disabled

theorem step_ask_of_disabled (h : x.service.isDisabled = true) (t : Text) :
    x.step (.ask t) = ⟨x.service.tell.1, x.waiting, x.sent⟩ := by
  rw [step, x.service.start_of_disabled h]
  simp

theorem step_of_disabled (h : x.service.isDisabled = true)
    (hf : ∀ r ∈ x.reply? e, r.isFailure = true) :
    (x.step e).service.isDisabled = true ∧ (x.step e).sent = x.sent := by
  cases e with
  | ask t =>
    rw [step_ask_of_disabled h, Service.isDisabled, Service.tell_breaker]
    exact ⟨h, rfl⟩
  | reply i r =>
    rw [reply?] at hf
    rw [step]
    split
    case isTrue hi =>
      rw [if_pos hi] at hf
      rw [Service.isDisabled, x.service.finish_breaker, hf r (List.mem_singleton_self r),
        if_pos rfl]
      refine ⟨?_, rfl⟩
      rw [Breaker.fail, Bool.or_eq_true]
      exact .inl h
    case isFalse => exact ⟨h, rfl⟩

theorem run_of_disabled (h : x.service.isDisabled = true)
    (hf : ∀ r ∈ x.received es, r.isFailure = true) :
    (x.run es).service.isDisabled = true ∧ (x.run es).sent = x.sent := by
  induction es generalizing x with
  | nil => exact ⟨h, rfl⟩
  | cons e es ih =>
    obtain ⟨hfirst, hrest⟩ := List.forall_mem_append.mp hf
    obtain ⟨hd, hsent⟩ := step_of_disabled h hfirst
    obtain ⟨hd, hsent'⟩ := ih hd hrest
    exact ⟨hd, hsent'.trans hsent⟩

theorem received_of_disabled (h : x.service.isDisabled = true) (hw : x.waiting = [])
    (es : List Event) : x.received es = [] := by
  induction es generalizing x with
  | nil => rfl
  | cons e es ih =>
    cases e with
    | ask t =>
      rw [received, step_ask_of_disabled h]
      refine ih ?_ hw
      rw [Service.isDisabled, Service.tell_breaker]
      exact h
    | reply i r =>
      have hi : ¬ i < x.waiting.length := by simp [hw]
      rw [received, reply?, if_neg hi, step, if_neg hi]
      exact ih h hw

theorem run_of_success {i : Nat} {r : Reply} (hi : i < x.waiting.length)
    (hr : r.isFailure = false) (t : Text) :
    (x.run [.reply i r, .ask t]).sent = x.sent ++ [(x.service.finish r).1.request t] := by
  have henabled : (x.service.finish r).1.isDisabled = false := by
    rw [Service.isDisabled, x.service.finish_breaker, hr]
    rfl
  rw [run_cons, run_cons, step_reply hi]
  exact step_ask_of_enabled henabled t

theorem waiting_eq_nil_iff (h : x.service.isDisabled = true) :
    (∀ es, (x.run es).sent = x.sent) ↔ x.waiting = [] := by
  constructor
  · intro hsent
    refine Decidable.byContradiction fun hw => ?_
    have hi : 0 < x.waiting.length := List.length_pos_iff.mpr hw
    have hmore := run_of_success (r := .response 200 []) hi rfl []
    rw [hsent] at hmore
    simp at hmore
  · intro hw es
    refine (run_of_disabled h ?_).2
    rw [received_of_disabled h hw]
    exact nofun

end Disabled

/-- The service is disabled while so many replies in a row are failures as the threshold says, the
last one included. Then nothing is sent as long as no reply but failures come back, and nothing is
ever sent again exactly if no request was still waiting for its reply. -/
theorem run_disabled (model : Text) (size : Int) (ht : 0 < n) (es : List Event) :
    let x := start (.new model size n)
    ((x.run es).service.isDisabled = true ↔ n ≤ inARow (x.received es)) ∧
      ((x.run es).service.isDisabled = true →
        (∀ later, (∀ r ∈ (x.run es).received later, r.isFailure = true) →
          ((x.run es).run later).service.isDisabled = true ∧
            ((x.run es).run later).sent = (x.run es).sent) ∧
        ((∀ later, ((x.run es).run later).sent = (x.run es).sent) ↔ (x.run es).waiting = [])) := by
  intro x
  have hstart : Counts n [] x.service.breaker :=
    ⟨rfl, rfl, nofun, fun hle => absurd ht (Nat.not_lt.mpr hle)⟩
  refine ⟨(hstart.run ht es).isOpen, fun h => ⟨fun later hf => ?_, waiting_eq_nil_iff h⟩⟩
  exact run_of_disabled h hf

def refused : Reply := .fault ⟨"ConnectError", .transport, none, "refused".toList⟩

def twoAsked : Traffic :=
  (start (.new "codellama:7b".toList 800 1)).run
    [.ask "ls".toList, .ask "npm install".toList, .reply 0 refused]

theorem run_disabled_two_asked : twoAsked.service.isDisabled = true ∧ twoAsked.waiting.length = 1 ∧
    (twoAsked.run [.reply 0 refused, .ask "git log".toList]).sent.length = 2 := by
  obtain ⟨hdisabled, hlater⟩ := run_disabled "codellama:7b".toList 800 (by decide : 0 < 1)
    [.ask "ls".toList, .ask "npm install".toList, .reply 0 refused]
  have hd : twoAsked.service.isDisabled = true := hdisabled.mpr (by decide)
  have hfailures : ∀ r ∈ twoAsked.received [.reply 0 refused, .ask "git log".toList],
      r.isFailure = true :=
    List.forall_mem_singleton.mpr rfl
  exact ⟨hd, rfl, congrArg List.length ((hlater hd).1 _ hfailures).2⟩

/-- The answer to a request that was sent before the service was disabled enables it again: a third
request is sent. -/
theorem late_answer_enables :
    let answer : Reply := .response 200 (Text.toUtf8 "\x7b\"response\": \"bash\"\x7d".toList)
    twoAsked.service.isDisabled = true ∧ twoAsked.sent.length = 2 ∧
      (twoAsked.run [.reply 0 answer]).service.isDisabled = false ∧
      (twoAsked.run [.reply 0 answer, .ask "git log".toList]).sent.length = 3 := by
  decide +kernel

end Traffic

end MarkdownFences.Remote
