import MarkdownFences.Proofs.Json.Encoding
import MarkdownFences.Proofs.Json.Nesting
import MarkdownFences.Proofs.Remote.Calls

namespace MarkdownFences.Remote

/-- What a reply brings that nothing catches: a fault that is neither one of the exchange nor a
refused value, or a good body in which the reader meets too many levels. -/
inductive Reply.Throws : Reply → Fault → Prop
  | fault {f : Fault} (hf : f.isOfExchange = false) (hv : f.origin ≠ .value) : Throws (.fault f) f
  | body {status : Int} {body : List UInt8} {t : Text} {e : Json.TooDeep} (hlow : 200 ≤ status)
      (hhigh : status < 300) (ht : Json.decode body = .ok t)
      (he : Json.read t = .error (.tooDeep e)) :
      Throws (.response status body) ⟨"nesting", .nesting, none, e.message.toList⟩

namespace Service

variable {s : Service} {c : Call} {r : Reply} {f : Fault} {body : List UInt8}

theorem readBody_cases (h : readBody body = .error f) : f.origin = .value ∨
    ∃ t e, Json.decode body = .ok t ∧ Json.read t = .error (.tooDeep e) ∧
      f = ⟨"nesting", .nesting, none, e.message.toList⟩ := by
  rw [readBody] at h
  cases ht : Json.decode body with
  | error e =>
    rw [ht] at h
    exact .inl (by rw [← Except.error.inj h]; rfl)
  | ok t =>
    simp only [ht] at h
    split at h
    case h_1 => cases h
    case h_2 e he => exact .inr ⟨t, e, rfl, he, (Except.error.inj h).symm⟩
    case h_3 => exact .inl (by rw [← Except.error.inj h]; rfl)

theorem readBody_of_tooDeep {t : Text} {e : Json.TooDeep} (ht : Json.decode body = .ok t)
    (he : Json.read t = .error (.tooDeep e)) :
    readBody body = .error ⟨"nesting", .nesting, none, e.message.toList⟩ := by
  simp only [readBody, ht, he]

theorem fail_answer (s : Service) (f : Fault) : (s.fail f).2.2 = .ok none := by
  rw [fail]
  split <;> rfl

/-- What is thrown is neither counted nor told, and the breaker takes it for a success. -/
theorem finish_of_throws (h : r.Throws f) :
    s.finish r = ({ s with breaker := s.breaker.succeed }, [], .error f) := by
  cases h with
  | fault hf hv => simp only [finish, hf, hv, Bool.false_eq_true, if_false]
  | body hlow hhigh ht he =>
    simp [finish, hlow, hhigh, readBody_of_tooDeep ht he]

theorem throws_of_finish (h : (s.finish r).2.2 = .error f) : r.Throws f := by
  have hfail (u : Service) (g : Fault) : (u.fail g).2.2 ≠ .error f := by
    rw [fail_answer]
    nofun
  cases r with
  | fault g =>
    rw [finish] at h
    split at h
    case isTrue => exact absurd h (hfail _ g)
    case isFalse hf =>
      split at h
      case isTrue => exact absurd h (hfail _ g)
      case isFalse hv =>
        obtain rfl : g = f := Except.error.inj h
        exact .fault (Bool.eq_false_iff.mpr hf) hv
  | response status body =>
    rw [finish] at h
    split at h
    case isTrue hgood =>
      simp only [Bool.and_eq_true, decide_eq_true_eq] at hgood
      cases hbody : readBody body with
      | ok v =>
        rw [hbody] at h
        cases h
      | error g =>
        rw [hbody] at h
        obtain hv | ⟨t, e, ht, he, rfl⟩ := readBody_cases hbody
        · simp only [hv, if_true] at h
          exact absurd h (hfail _ g)
        · obtain rfl := Except.error.inj h
          exact .body hgood.1 hgood.2 ht he
    case isFalse => exact absurd h (hfail _ _)

theorem finish_error_iff : (s.finish r).2.2 = .error f ↔ r.Throws f :=
  ⟨throws_of_finish, fun h => by rw [finish_of_throws h]⟩

theorem call_error_iff :
    (s.call c).2.language = .error f ↔ s.isDisabled = false ∧ c.reply.Throws f := by
  cases hd : s.isDisabled with
  | true =>
    rw [call, s.start_of_disabled hd]
    refine iff_of_false (fun h => ?_) fun h => Bool.noConfusion h.1
    cases h
  | false =>
    rw [call_of_enabled hd, finish_error_iff]
    exact (and_iff_right rfl).symm

theorem throws_body_iff {status : Int} {t : Text} {v : Json.Value} (hlow : 200 ≤ status)
    (hhigh : status < 300) (ht : Json.decode body = .ok t) (hv : Json.Writes t v) :
    (∃ f, (Reply.response status body).Throws f) ↔ Json.nestingLimit < v.depth := by
  rw [← Json.isTooDeep_iff hv]
  constructor
  · rintro ⟨f, _ | ⟨-, -, ht', he⟩⟩
    obtain rfl := Except.ok.inj (ht.symm.trans ht')
    exact ⟨_, he⟩
  · rintro ⟨e, he⟩
    exact ⟨_, .body hlow hhigh ht he⟩

/-- A question is answered, with a language or with none, unless it is sent and its reply throws.
What is thrown then comes through as it is, with nothing counted as a failure and nothing told,
whatever was asked and answered while the question was on its way. A good body that writes a value
throws exactly if the value is deeper than the reader's limit. -/
theorem answered_unless_thrown (s : Service) (c : Call) :
    ((∃ l, (s.call c).2.language = .ok l) ↔ (s.isDisabled = false → ∀ f, ¬ c.reply.Throws f)) ∧
    (∀ f, (s.call c).2.language = .error f ↔ s.isDisabled = false ∧ c.reply.Throws f) ∧
    (s.isDisabled = true → (s.call c).2.exchange = none ∧ (s.call c).2.language = .ok none) ∧
    (s.isDisabled = false → ∀ f, c.reply.Throws f → s.call c =
      ({ s with calls := s.calls + 1, breaker := s.breaker.succeed },
        ⟨some (s.request c.content, c.reply), [], .error f⟩)) ∧
    (∀ (u : Service) f, (u.finish c.reply).2.2 = .error f ↔ c.reply.Throws f) ∧
    ∀ status body t v, 200 ≤ status → status < 300 → Json.decode body = .ok t →
      Json.Writes t v →
        ((∃ f, (Reply.response status body).Throws f) ↔ Json.nestingLimit < v.depth) := by
  refine ⟨?_, fun f => call_error_iff, fun hd => ?_, fun hd f hf => ?_, fun u f => finish_error_iff,
    fun status body t v hlow hhigh ht hv => throws_body_iff hlow hhigh ht hv⟩
  · constructor
    · rintro ⟨l, hl⟩ hd f hf
      rw [call_error_iff.mpr ⟨hd, hf⟩] at hl
      cases hl
    · intro h
      cases hl : (s.call c).2.language with
      | ok l => exact ⟨l, rfl⟩
      | error f =>
        obtain ⟨hd, hf⟩ := call_error_iff.mp hl
        exact absurd hf (h hd f)
  · rw [call, s.start_of_disabled hd]
    exact ⟨rfl, rfl⟩
  · rw [call_of_enabled hd, finish_of_throws hf]

/-- A body that is no JSON, a body two levels deep, and a service that is disabled. -/
theorem answered_unless_thrown_two_levels :
    let s := new "codellama:7b".toList 800 1
    let nested := Reply.response 200 (Text.toUtf8 "[[]]".toList)
    (∃ l, (s.call ⟨"ls".toList, unreadable⟩).2.language = .ok l) ∧ (¬ ∃ f, nested.Throws f) ∧
      (∃ l, (s.call ⟨"ls".toList, nested⟩).2.language = .ok l) ∧
      (((s.call ⟨"ls".toList, Traffic.refused⟩).1).call ⟨"ls".toList, nested⟩).2.exchange =
        none := by
  intro s nested
  have hnested : ¬ ∃ f, nested.Throws f := by
    obtain ⟨-, -, -, -, -, hdeep⟩ := answered_unless_thrown s ⟨"ls".toList, nested⟩
    have hdecode := Json.decode_toUtf8 (t := "[[]]".toList) (by decide) (by decide)
    have hwrites : Json.Writes "[[]]".toList (.array [.array []]) := ⟨2, [], rfl, rfl⟩
    rw [hdeep 200 _ _ _ (by decide) (by decide) hdecode hwrites]
    decide
  obtain ⟨hmalformed, -⟩ := answered_unless_thrown s ⟨"ls".toList, unreadable⟩
  obtain ⟨hshallow, -⟩ := answered_unless_thrown s ⟨"ls".toList, nested⟩
  obtain ⟨-, -, hdisabled, -⟩ := answered_unless_thrown
    (s.call ⟨"ls".toList, Traffic.refused⟩).1 ⟨"ls".toList, nested⟩
  refine ⟨hmalformed.mpr fun _ f hf => ?_, hnested,
    hshallow.mpr fun _ f hf => hnested ⟨f, hf⟩, (hdisabled rfl).1⟩
  cases hf with
  | body hlow hhigh ht he =>
    have hvalue := isOrdinary_unreadable rfl _ (readBody_of_tooDeep ht he)
    cases hvalue

/-- A bad address and a body of brackets that are all left open. -/
theorem open_brackets_thrown :
    let s := new "codellama:7b".toList 800 3
    let body := Text.toUtf8 ('[' :: (List.replicate Json.nestingLimit '[' ++ []))
    let address : Fault := ⟨"InvalidURL", .other, none, "bad url".toList⟩
    (∃ f, (s.call ⟨"ls".toList, .response 200 body⟩).2.language = .error f) ∧
      (s.call ⟨"ls".toList, .fault address⟩).2.language = .error address := by
  intro s body address
  have hdecode : Json.decode body = .ok ('[' :: (List.replicate Json.nestingLimit '[' ++ [])) := by
    refine Json.decode_toUtf8 (fun hmem => ?_) (by simp)
    rw [List.append_nil, ← List.replicate_succ] at hmem
    exact absurd (List.eq_of_mem_replicate hmem) (by decide)
  have hdeep : (Reply.response 200 body).Throws _ :=
    .body (by decide) (by decide) hdecode (Json.read_brackets [])
  exact ⟨⟨_, call_error_iff.mpr ⟨rfl, hdeep⟩⟩, call_error_iff.mpr ⟨rfl, .fault rfl nofun⟩⟩

end Service

end MarkdownFences.Remote
