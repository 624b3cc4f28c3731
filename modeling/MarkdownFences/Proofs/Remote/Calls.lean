import MarkdownFences.Proofs.Remote.Traffic
import Mathlib.Data.List.Infix

namespace MarkdownFences.Remote

/-- So many replies, all of them failures. -/
def IsRow (n : Nat) (row : List Reply) : Prop := row.length = n ∧ ∀ r ∈ row, r.isFailure = true

section Row

variable {n : Nat} {rs row : List Reply}

theorem isRow_suffix_iff : (∃ row, row <:+ rs ∧ IsRow n row) ↔ n ≤ inARow rs := by
  rw [inARow]
  constructor
  · rintro ⟨row, ⟨earlier, rfl⟩, rfl, hrow⟩
    have hall : ∀ r ∈ row.reverse, r.isFailure = true := fun r hr => hrow r (List.mem_reverse.mp hr)
    rw [List.reverse_append, List.takeWhile_append_of_pos hall, List.length_append,
      List.length_reverse]
    exact Nat.le_add_right _ _
  · intro hn
    have hlast : (rs.reverse.takeWhile Reply.isFailure).reverse <:+ rs := by
      rw [← List.reverse_prefix, List.reverse_reverse]
      exact List.takeWhile_prefix _
    have hall : ∀ r ∈ rs.reverse.takeWhile Reply.isFailure, r.isFailure = true := fun r hr =>
      List.all_eq_true.mp List.all_takeWhile r hr
    generalize rs.reverse.takeWhile Reply.isFailure = last at hn hlast hall
    have htake : (last.take n).reverse <:+ last.reverse :=
      List.reverse_suffix.mpr (List.take_prefix n last)
    refine ⟨(last.take n).reverse, htake.trans hlast, ?_, fun r hr => ?_⟩
    · rw [List.length_reverse, List.length_take, Nat.min_eq_left hn]
    · exact hall r (List.mem_of_mem_take (List.mem_reverse.mp hr))

theorem isRow_infix_concat {r : Reply} (hrow : row <:+: rs ++ [r]) (h : IsRow n row)
    (hnew : ¬ ∃ row, row <:+: rs ∧ IsRow n row) : n ≤ inARow (rs ++ [r]) := by
  obtain hlast | hold := List.infix_concat_iff.mp hrow
  · exact isRow_suffix_iff.mp ⟨row, hlast, h⟩
  · exact absurd ⟨row, hold, h⟩ hnew

end Row

def Reply.isMalformed : Reply → Bool
  | .fault _ => false
  | .response status body => 200 ≤ status && status < 300 && !(Service.readBody body).isOk

/-- What an exchange can bring: a fault of its own, or a response whose body, where it is good, is
not nested beyond what can be read. -/
def Reply.IsOrdinary : Reply → Prop
  | .fault f => f.isOfExchange = true
  | .response status body => (200 ≤ status && status < 300) = true →
      ∀ f, Service.readBody body = .error f → f.origin = .value

/-- A question, and the reply that it gets if it is sent. -/
structure Call where
  content : Text
  reply : Reply

/-- What a call comes to: the request with its reply if one is sent, what is told, and the
answer. -/
structure Answer where
  exchange : Option (Request × Reply)
  told : List Log.Entry
  language : Except Fault (Option Language)

namespace Service

def call (s : Service) (c : Call) : Service × Answer :=
  match s.start c.content with
  | (s, told, none) => (s, ⟨none, told, .ok none⟩)
  | (s, told, some q) =>
    let (s, told', language) := s.finish c.reply
    (s, ⟨some (q, c.reply), told ++ told', language⟩)

def after (s : Service) (cs : List Call) : Service := cs.foldl (fun s c => (s.call c).1) s

def answers (s : Service) : List Call → List Answer
  | [] => []
  | c :: cs => (s.call c).2 :: (s.call c).1.answers cs

def replies (as : List Answer) : List Reply := as.filterMap fun a => a.exchange.map (·.2)

def log (as : List Answer) : List Log.Entry := as.flatMap (·.told)

def disabledEntry (s : Service) : Log.Entry :=
  ⟨.warning, source, "event=ollama_disabled model=".toList ++
    s.model ++ s!" failures={s.failures} fallback=heuristic".toList⟩

def warnings (es : List Log.Entry) : List Log.Entry := es.filter fun e => e.level == .warning

variable {s : Service} {c : Call} {r : Reply} {n : Nat} {rs : List Reply} {es : List Log.Entry}

/-- What is told of a service that has just become disabled, if it has. -/
def announcement (s : Service) : List Log.Entry := if s.isDisabled then [s.disabledEntry] else []

def announced (s : Service) : Service := { s with told := s.isDisabled }

section Finish

theorem announced_of_enabled (h : s.told = false) (hd : s.isDisabled = false) :
    s.announced = s := by
  rw [announced, hd, ← h]

theorem fail_of_untold (h : s.told = false) (f : Fault) : ∃ (u : Service) (told : _),
    s.fail f = (u.announced, told, .ok none) ∧ warnings told = u.announcement ∧
      u.breaker = s.breaker ∧ u.calls = s.calls ∧ u.failures = s.failures + 1 := by
  let u : Service := { s with failures := s.failures + 1 }
  have hu : u.told = false := h
  have hfail : s.fail f = if u.isDisabled then (u.tell.1, failEntry f :: u.tell.2, .ok none)
      else (u, [failEntry f], .ok none) :=
    rfl
  refine ⟨u, failEntry f :: u.announcement, ?_, ?_, rfl, rfl, rfl⟩
  · rw [hfail, announcement]
    cases hd : u.isDisabled with
    | true => rw [tell, hu, announced, hd]; rfl
    | false => rw [announced_of_enabled hu hd]; rfl
  · rw [announcement]
    split <;> rfl

theorem warnings_interpret (v : Json.Value) : warnings (interpret v).1 = [] := by
  rw [interpret]
  split
  · split <;> rfl
  · rfl

theorem finish_of_untold (h : s.told = false) (hr : r.IsOrdinary) :
    ∃ (u : Service) (told : _) (l : _),
      s.finish r = (u.announced, told, .ok l) ∧ warnings told = u.announcement ∧
        u.breaker = (if r.isFailure then s.breaker.fail else s.breaker.succeed) ∧
        u.calls = s.calls ∧
        u.failures = s.failures + (if r.isFailure || r.isMalformed then 1 else 0) := by
  have hfailed (b : Breaker) (f : Fault) := fail_of_untold (s := { s with breaker := b }) h f
  cases r with
  | fault f =>
    obtain ⟨u, told, heq, hwarnings, hu⟩ := hfailed s.breaker.fail f
    have hf : f.isOfExchange = true := hr
    rw [finish, Reply.isFailure, hf]
    exact ⟨u, told, none, heq, hwarnings, hu⟩
  | response status body =>
    rw [finish, Reply.isFailure, Reply.isMalformed]
    cases hgood : 200 ≤ status && status < 300 with
    | false =>
      obtain ⟨u, told, heq, hwarnings, hu⟩ := hfailed s.breaker.fail (badStatus status)
      exact ⟨u, told, none, heq, hwarnings, hu⟩
    | true =>
      have hvalue := hr hgood
      cases hbody : readBody body with
      | error f =>
        obtain ⟨u, told, heq, hwarnings, hu⟩ := hfailed s.breaker.succeed f
        simp only [hvalue f hbody, if_true]
        exact ⟨u, told, none, heq, hwarnings, hu⟩
      | ok v =>
        refine ⟨{ s with breaker := s.breaker.succeed }, (interpret v).1, (interpret v).2, ?_,
          warnings_interpret v, rfl, rfl, rfl⟩
        rw [announced_of_enabled (s := { s with breaker := s.breaker.succeed }) h rfl]
        rfl

end Finish

section Books

/-- What a service that is asked in turn has written down, by the replies it had and the log. -/
structure Books (n : Nat) (rs : List Reply) (es : List Log.Entry) (s : Service) : Prop where
  counts : Traffic.Counts n rs s.breaker
  row : (∃ row, row <:+: rs ∧ IsRow n row) → s.isDisabled = true
  calls : s.calls = rs.length
  failures : s.failures = rs.countP fun r => r.isFailure || r.isMalformed
  told : s.told = s.isDisabled
  warnings : warnings es = s.announcement

theorem books_new (model : Text) (size : Int) (ht : 0 < n) : Books n [] [] (new model size n) where
  counts := ⟨rfl, rfl, nofun, fun hle => absurd ht (Nat.not_lt.mpr hle)⟩
  row := by
    rintro ⟨row, hrow, hn, -⟩
    rw [List.infix_nil.mp hrow] at hn
    exact absurd ht (Nat.not_lt.mpr (Nat.le_of_eq hn.symm))
  calls := rfl
  failures := rfl
  told := rfl
  warnings := rfl

theorem call_of_disabled (h : s.isDisabled = true) (ht : s.told = s.isDisabled) (c : Call) :
    s.call c = (s, ⟨none, [], .ok none⟩) := by
  rw [call, s.start_of_disabled h, tell, if_pos (ht.trans h)]

theorem call_of_enabled (h : s.isDisabled = false) (c : Call) :
    s.call c = (({ s with calls := s.calls + 1 } : Service).finish c.reply |>.1,
      ⟨some (s.request c.content, c.reply),
        ({ s with calls := s.calls + 1 } : Service).finish c.reply |>.2.1,
        ({ s with calls := s.calls + 1 } : Service).finish c.reply |>.2.2⟩) := by
  rw [call, s.start_of_enabled h]
  rfl

theorem Books.call (ht : 0 < n) (h : Books n rs es s) (hc : c.reply.IsOrdinary) :
    Books n (rs ++ replies [(s.call c).2]) (es ++ (s.call c).2.told) (s.call c).1 ∧
      ∃ l, (s.call c).2.language = .ok l := by
  cases hd : s.isDisabled with
  | true =>
    rw [call_of_disabled hd h.told]
    refine ⟨?_, none, rfl⟩
    rw [List.append_nil]
    have hrs : rs ++ replies [⟨none, [], .ok none⟩] = rs := List.append_nil rs
    rwa [hrs]
  | false =>
    have huntold : ({ s with calls := s.calls + 1 } : Service).told = false := h.told.trans hd
    obtain ⟨u, told, l, heq, hwarnings, hbreaker, hcalls, hfailures⟩ := finish_of_untold huntold hc
    rw [call_of_enabled hd, heq]
    refine ⟨?_, l, rfl⟩
    have hcounts : Traffic.Counts n (rs ++ [c.reply]) u.breaker :=
      hbreaker ▸ h.counts.reply ht c.reply
    have hbefore : ¬ ∃ row, row <:+: rs ∧ IsRow n row := fun hrow => by
      rw [h.row hrow] at hd
      cases hd
    refine ⟨hcounts, ?_, ?_, ?_, rfl, ?_⟩
    · rintro ⟨row, hrow, hn⟩
      exact hcounts.isOpen.mpr (isRow_infix_concat hrow hn hbefore)
    · show u.calls = (rs ++ [c.reply]).length
      rw [hcalls, h.calls, List.length_append, List.length_singleton]
    · show u.failures = (rs ++ [c.reply]).countP _
      rw [hfailures, h.failures, List.countP_append, List.countP_singleton]
    · have hquiet : Service.warnings es = [] := by
        rw [h.warnings, announcement, hd]
        rfl
      rw [Service.warnings, List.filter_append, ← Service.warnings, ← Service.warnings, hquiet,
        hwarnings]
      rfl

theorem Books.after (ht : 0 < n) (h : Books n rs es s) {cs : List Call}
    (hcs : ∀ c ∈ cs, c.reply.IsOrdinary) :
    Books n (rs ++ replies (s.answers cs)) (es ++ log (s.answers cs)) (s.after cs) ∧
      ∀ a ∈ s.answers cs, ∃ l, a.language = .ok l := by
  induction cs generalizing s rs es with
  | nil =>
    rw [answers, replies, log, List.filterMap_nil, List.flatMap_nil, List.append_nil,
      List.append_nil]
    exact ⟨h, List.forall_mem_nil _⟩
  | cons c cs ih =>
    obtain ⟨hc, hcs⟩ := List.forall_mem_cons.mp hcs
    obtain ⟨hbooks, hl⟩ := h.call ht hc
    obtain ⟨hbooks, hls⟩ := ih hbooks hcs
    refine ⟨?_, List.forall_mem_cons.mpr ⟨hl, hls⟩⟩
    have hreplies : replies (s.answers (c :: cs)) =
        replies [(s.call c).2] ++ replies ((s.call c).1.answers cs) :=
      List.filterMap_append (l := [(s.call c).2])
    rw [hreplies, ← List.append_assoc, answers, log, List.flatMap_cons, ← List.append_assoc]
    exact hbooks

theorem after_of_disabled (h : s.isDisabled = true) (ht : s.told = s.isDisabled) (cs : List Call) :
    s.after cs = s := by
  induction cs with
  | nil => rfl
  | cons c cs ih =>
    rw [after, List.foldl_cons, call_of_disabled h ht]
    exact ih

end Books

/-- A service that is asked in turn. A question is sent as long as there were not so many failures
in a row as the threshold says, and the service is disabled while the last replies are such a row:
from then on it stays so and answers nothing. A good response, whatever its body, makes the counting
begin anew. All requests are counted, and so are those that came to nothing, be it by a failure or
by a body that is no JSON. It is told once that the service has become disabled. -/
theorem asked_in_turn (model : Text) (size : Int) (ht : 0 < n) (cs : List Call)
    (hcs : ∀ c ∈ cs, c.reply.IsOrdinary) :
    let s := (new model size n).after cs
    let as := (new model size n).answers cs
    let rs := replies as
    (∀ c, (s.call c).2.exchange.isSome = true ↔ ¬ ∃ row, row <:+: rs ∧ IsRow n row) ∧
      (s.isDisabled = true ↔ ∃ row, row <:+ rs ∧ IsRow n row) ∧
      (s.isDisabled = true → (∀ later, (s.after later).isDisabled = true) ∧
        ∀ c, (s.call c).2.language = .ok none) ∧
      (∀ t status body, s.isDisabled = false → 200 ≤ status → status < 300 →
        (s.call ⟨t, .response status body⟩).1.breaker = .new n) ∧
      s.calls = rs.length ∧
      s.failures = rs.countP (fun r => r.isFailure || r.isMalformed) ∧
      (∀ a ∈ as, ∃ l, a.language = .ok l) ∧
      warnings (log as) = if s.isDisabled then [s.disabledEntry] else [] := by
  intro s as rs
  obtain ⟨h, hanswers⟩ := (books_new model size ht).after ht hcs
  have h : Books n rs (log as) s := h
  have hlast : s.isDisabled = true ↔ ∃ row, row <:+ rs ∧ IsRow n row :=
    h.counts.isOpen.trans isRow_suffix_iff.symm
  refine ⟨fun c => ?_, hlast, fun hd => ⟨fun later => ?_, fun c => ?_⟩, ?_, h.calls, h.failures,
    hanswers, h.warnings⟩
  · cases hd : s.isDisabled with
    | true =>
      obtain ⟨row, hrow, hn⟩ := hlast.mp hd
      rw [call_of_disabled hd h.told]
      exact iff_of_false Bool.false_ne_true fun hno => hno ⟨row, hrow.isInfix, hn⟩
    | false =>
      rw [call_of_enabled hd]
      exact iff_of_true rfl fun hrow => by rw [h.row hrow] at hd; cases hd
  · rwa [after_of_disabled hd h.told]
  · rw [call_of_disabled hd h.told]
  · intro t status body hd hlow hhigh
    have hgood : (Reply.response status body).isFailure = false := by
      simp [Reply.isFailure, hlow, hhigh]
    rw [call_of_enabled hd, finish_breaker, hgood]
    exact congrArg (Breaker.mk · 0 false) h.counts.threshold

def unreadable : Reply := .response 200 (Text.toUtf8 "not json".toList)

theorem isOrdinary_unreadable : unreadable.IsOrdinary := by
  intro _ f hf
  have hvalue : (match readBody (Text.toUtf8 "not json".toList) with
      | .ok _ => false
      | .error f => f.origin == .value) = true := by
    decide +kernel
  rw [hf] at hvalue
  exact eq_of_beq hvalue

/-- Five questions, of which the last is not sent any more: a body that is no JSON keeps the first
failure from being one of a row. -/
theorem asked_in_turn_five_times :
    let calls := [Traffic.refused, unreadable, .response 500 [], Traffic.refused, unreadable].map
      (Call.mk "ls".toList)
    let s := (new "codellama:7b".toList 800 2).after calls
    0 < 2 ∧ (∀ c ∈ calls, c.reply.IsOrdinary) ∧ s.isDisabled = true ∧ s.calls = 4 ∧
      s.failures = 4 ∧ (∀ c, (s.call c).2.exchange.isSome = false) ∧
      warnings (log ((new "codellama:7b".toList 800 2).answers calls)) = [s.disabledEntry] := by
  intro calls s
  have hcalls : ∀ c ∈ calls, c.reply.IsOrdinary := by
    have hfailed : (Reply.response 500 []).IsOrdinary := nofun
    simp only [calls, List.map_cons, List.map_nil, List.forall_mem_cons]
    exact ⟨rfl, isOrdinary_unreadable, hfailed, rfl, isOrdinary_unreadable, nofun⟩
  obtain ⟨hsent, hlast, -, -, -, -, -, hwarnings⟩ :=
    asked_in_turn "codellama:7b".toList 800 (by decide : 0 < 2) calls hcalls
  have hdisabled : s.isDisabled = true := by decide +kernel
  obtain ⟨row, hrow, hn⟩ := hlast.mp hdisabled
  refine ⟨by decide, hcalls, hdisabled, by decide +kernel, by decide +kernel, fun c => ?_, ?_⟩
  · exact Bool.eq_false_iff.mpr fun h => (hsent c).mp h ⟨row, hrow.isInfix, hn⟩
  · exact hwarnings.trans (if_pos hdisabled)

end Service

end MarkdownFences.Remote
