import MarkdownFences.Proofs.Check.Marking
import MarkdownFences.Proofs.Run.Transparency

namespace MarkdownFences

namespace Run

open ValidationCache (TooDeepAt Unsavable)

variable {τ ρ κ : Type} {job : Job} {o : Opinions τ ρ} {delay : Nat → Block → Nat}
variable {duration : Binary64} {s : Store} {x : Examination τ ρ} {r : Result τ}

theorem Intake.take_ends {p : Path} (hp : '\x00' ∉ p.text) (i : Intake) :
    ∃ j, i.take s p = .ok j := by
  rw [take]
  cases hd : Document.read s p with
  | ok d => exact ⟨_, rfl⟩
  | error e =>
    split
    case h_1 => exact ⟨_, rfl⟩
    case h_2 h =>
      obtain rfl := Except.error.inj h
      exfalso
      rw [Document.read, Store.readText] at hd
      have hne := Store.read_ne_null (s := s) hp
      cases hr : s.read p with
      | error e =>
        rw [hr] at hd hne
        simp only [mapError_error, bind, Except.bind, Except.map, Except.error.injEq,
          ReadError.store.injEq] at hd
        exact hne (congrArg Except.error hd)
      | ok bytes =>
        rw [hr] at hd
        simp only [mapError_ok, bind, Except.bind] at hd
        cases ht : Text.ofUtf8 bytes <;> rw [ht] at hd <;> cases hd
    case h_3 => exact ⟨_, rfl⟩

theorem readAll_ends {ps : List Path} (hp : ∀ p ∈ ps, '\x00' ∉ p.text) :
    ∃ i, readAll s ps = .ok i := by
  have hmore (i : Intake) : ∃ j, ps.foldlM (Intake.take s) i = .ok j := by
    induction ps generalizing i with
    | nil => exact ⟨i, rfl⟩
    | cons p ps ih =>
      obtain ⟨hp, hps⟩ := List.forall_mem_cons.mp hp
      obtain ⟨j, hj⟩ := Intake.take_ends (s := s) hp i
      rw [List.foldlM_cons, hj]
      exact ih hps j
  exact hmore .empty

theorem examine_ends_iff (hp : ∀ p ∈ job.paths, '\x00' ∉ p.text) :
    (∃ x, examine job o delay s = .ok x) ↔
      (job.settings.cacheEnabled = true → ¬ TooDeepAt s job.settings.cachePath) := by
  have hon := enabled_cacheOf job
  constructor
  · rintro ⟨x, hx⟩ hc hdeep
    obtain ⟨start, -, ⟨told, hload⟩, -⟩ := (examine_of hx).run
    obtain ⟨e, he⟩ := ValidationCache.load_of_tooDeepAt (hon.trans hc) rfl hdeep
    rw [he] at hload
    cases hload
  · intro hshallow
    obtain ⟨i, hi⟩ := readAll_ends (s := s) hp
    cases hload : (cacheOf job).load s with
    | error e =>
      obtain ⟨hc, path, hpath, hdeep⟩ := ValidationCache.tooDeepAt_of_load hload
      obtain rfl := Option.some.inj hpath
      exact absurd hdeep (hshallow (hon.symm.trans hc))
    | ok loaded =>
      obtain ⟨y, hy, -⟩ := prepare_ok hload hi o
      exact ⟨y.checkAll job.settings.concurrency delay, by rw [examine, hy]; rfl⟩

theorem dirty_iff_of_null (hl : 0 < job.settings.concurrency) (h : x.Of job o delay s)
    (hnull : '\x00' ∈ job.settings.cachePath.text) (hc : job.settings.cacheEnabled = true) :
    x.state.cache.dirty = true ↔ ∃ c ∈ x.scan.blocks.zip x.results, Check.Passes c.1 c.2 := by
  obtain ⟨start, -, ⟨told, hload⟩, hstate, hresults⟩ := h.run
  have hstart : start.cache = cacheOf job := by
    obtain hstart | ⟨path, bytes, t, keys, -, hp, hr, -⟩ := ValidationCache.load_cases hload
    · exact hstart
    · obtain rfl := Option.some.inj hp
      simp [Store.read, Store.resolve, hnull, bind, Except.bind] at hr
  have hstored := Check.run_stored hl x.check delay start x.scan.blocks
  rw [hstate, hstored.dirty, hstart, hresults]
  have hclean : (cacheOf job).dirty = false := rfl
  have hempty : (cacheOf job).keys = [] := rfl
  have hon : (cacheOf job).enabled = true := by simp [cacheOf, ValidationCache.new, hc]
  simp [hclean, hempty, hon]

/-- What is asked of a run for it to end: that the cache file does not nest too deep, and that,
where the cache cannot be saved, there is nothing to save. -/
structure Bearable (job : Job) (o : Opinions τ ρ) (delay : Nat → Block → Nat) (s : Store) :
    Prop where
  shallow : job.settings.cacheEnabled = true → ¬ TooDeepAt s job.settings.cachePath
  savable : job.settings.cacheEnabled = true → Unsavable s job.settings.cachePath →
    ∀ x, examine job o delay s = .ok x →
      ∀ c ∈ x.scan.blocks.zip x.results, ¬ Check.Passes c.1 c.2

theorem ends_iff_bearable (hl : 0 < job.settings.concurrency)
    (hp : ∀ p ∈ job.paths, '\x00' ∉ p.text) :
    (∃ r, run job o delay duration s = .ok r) ↔ Bearable job o delay s := by
  have hexamine : (∃ x, examine job o delay s = .ok x) ↔ _ := examine_ends_iff hp
  constructor
  · rintro ⟨r, hr⟩
    obtain ⟨x, hx, -⟩ := ok_of_bind hr
    refine ⟨hexamine.mp ⟨x, hx⟩, fun hc hunsavable y hy c hmem hpass => ?_⟩
    obtain rfl := Except.ok.inj (hx.symm.trans hy)
    have hof := examine_of hx
    have hdirty := (dirty_iff_of_null hl hof hunsavable.1 hc).mpr ⟨c, hmem, hpass⟩
    obtain ⟨hpath, henabled⟩ := hof.cache_place
    rw [run_eq_conclude hx] at hr
    obtain ⟨made, told, hsave, -⟩ := conclude_saves hr
    rw [ValidationCache.save_of_unsavable (henabled.trans hc) hdirty hpath hunsavable] at hsave
    cases hsave
  · intro h
    obtain ⟨x, hx⟩ := hexamine.mpr h.shallow
    have hof := examine_of hx
    obtain ⟨hpath, henabled⟩ := hof.cache_place
    cases hsave : x.state.cache.save s with
    | ok saved =>
      obtain ⟨r, hr, -⟩ := hof.conclude hsave duration
      exact ⟨r, (run_eq_conclude hx).trans hr⟩
    | error e =>
      obtain ⟨hc, hd, path, hp', hunsavable⟩ := ValidationCache.unsavable_of_save hsave
      obtain rfl := Option.some.inj (hpath.symm.trans hp')
      have hc := henabled.symm.trans hc
      obtain ⟨c, hmem, hpass⟩ := (dirty_iff_of_null hl hof hunsavable.1 hc).mp hd
      exact absurd hpass (h.savable hc hunsavable x hx c hmem)

def runAsking (job : Job) (send : κ → Remote.Request → κ × Remote.Reply) (line : κ)
    (delay : Nat → Block → Nat) (duration : Binary64) (s : Store) :
    Except Fault (Result (Remote.Service × κ)) := do
  let o ← Opinions.ofService job.settings job.model send line
  run job o delay duration s

theorem ofService_ends_iff {settings : Settings} {model : Option Text}
    {send : κ → Remote.Request → κ × Remote.Reply} {line : κ} :
    (∃ o, Opinions.ofService settings model send line = .ok o) ↔
      ∀ f, (send line .tags).2 = .fault f → f.isOfExchange = true := by
  rw [Opinions.ofService]
  obtain ⟨line', reply⟩ := send line .tags
  cases reply with
  | response status body =>
    simp only [Remote.Service.probe]
    cases status == 200 <;> simp
  | fault f =>
    simp only [Remote.Service.probe]
    cases hf : f.isOfExchange <;> simp [hf]

/-- What the files say, what the service answers and what goes wrong in the exchange never keep a
run from ending with a report. What does is a cache file that nests too deep, a block found valid
that cannot be noted since the cache has a path with a null character, and a fault outside the
exchange when the service is asked whether it is there. This is about files whose names are text,
as those of a `Path` are: a name that is not could be neither hashed for the cache nor written out.
-/
theorem run_ends_iff (hl : 0 < job.settings.concurrency)
    (hp : ∀ p ∈ job.paths, '\x00' ∉ p.text) (delay : Nat → Block → Nat) (duration : Binary64)
    (s : Store) :
    (∀ o : Opinions τ ρ, (∃ r, run job o delay duration s = .ok r) ↔ Bearable job o delay s) ∧
    ∀ (send : κ → Remote.Request → κ × Remote.Reply) (line : κ),
      (∃ r, runAsking job send line delay duration s = .ok r) ↔
        (∀ f, (send line .tags).2 = .fault f → f.isOfExchange = true) ∧
          ∀ o, Opinions.ofService job.settings job.model send line = .ok o →
            Bearable job o delay s := by
  refine ⟨fun o => ends_iff_bearable hl hp, fun send line => ?_⟩
  rw [← ofService_ends_iff]
  cases ho : Opinions.ofService job.settings job.model send line with
  | error e => simp [runAsking, ho, bind, Except.bind]
  | ok o =>
    have hrun : runAsking job send line delay duration s = run job o delay duration s := by
      rw [runAsking, ho]
      rfl
    rw [hrun, ends_iff_bearable hl hp]
    simp

def cachedStore (t : Text) : Store where
  nodes := [(["a.md".toList], .file []), ([".cache".toList], .directory),
    ([".cache".toList, "fencecheck".toList], .directory),
    ([".cache".toList, "fencecheck".toList, "markdown-validation-cache.json".toList],
      .file (Text.toUtf8 t))]

def savingJob : Job := (cacheJob false).caching true

theorem read_cachedStore (t : Text) :
    (cachedStore t).read savingJob.settings.cachePath = .ok (Text.toUtf8 t) := by
  rfl

def refusing : Remote.Reply := .fault ⟨"no connection", .transport, none, "refused".toList⟩

/-- A cache file with a bracket that is never closed, and a service that cannot be reached. -/
theorem run_ends_malformed_cache :
    ∃ r, runAsking savingJob (fun (_ : Unit) _ => ((), refusing)) () (fun _ _ => 0) (.ofInt 0)
      (cachedStore "[".toList) = .ok r := by
  have hends := (@run_ends_iff Unit Unit Unit savingJob (by decide) (by decide) (fun _ _ => 0)
    (.ofInt 0) (cachedStore "[".toList)).2 (fun (_ : Unit) _ => ((), refusing)) ()
  refine hends.mpr ⟨fun f hf => ?_, fun o _ => ⟨fun _ => ?_, fun _ hunsavable => ?_⟩⟩
  · obtain rfl := Remote.Reply.fault.inj hf
    rfl
  · rintro ⟨bytes, t, hr, ht, e, he⟩
    obtain rfl := Except.ok.inj ((read_cachedStore _).symm.trans hr)
    obtain rfl := Except.ok.inj ((Text.ofUtf8_toUtf8 _).symm.trans ht)
    have hmalformed :
        Json.read (Text.ofFileText "[".toList) = .error (.malformed .value 1 1 2) := by
      rfl
    rw [hmalformed] at he
    cases he
  · exact absurd hunsavable.1 (by decide +kernel)

/-- Brackets alone are enough for the run to end in a fault instead of a report. -/
theorem deep_cache_stops_run :
    (∀ p ∈ savingJob.paths, '\x00' ∉ p.text) ∧
      cacheRun false true (cachedStore ('[' :: List.replicate Json.nestingLimit '[')) =
        .error (Classifier.tooDeep ⟨.array⟩) := by
  refine ⟨by decide, ?_⟩
  have hplain : '\r' ∉ '[' :: List.replicate Json.nestingLimit '[' := by simp
  have hdeep := Json.read_brackets []
  rw [List.append_nil] at hdeep
  have hload : (cacheOf savingJob).load
      (cachedStore ('[' :: List.replicate Json.nestingLimit '[')) = .error ⟨.array⟩ := by
    have hon : (cacheOf savingJob).enabled = true := rfl
    have hpath : (cacheOf savingJob).path = some savingJob.settings.cachePath := rfl
    simp only [ValidationCache.load, hon, hpath, read_cachedStore, Text.ofUtf8_toUtf8,
      Text.ofFileText_eq_self hplain, ValidationCache.keysOf, hdeep]
  change run savingJob _ _ _ _ = _
  rw [cacheOf] at hload
  simp only [run, examine, prepare, hload, mapError_error, bind, Except.bind, Except.map]

end Run

end MarkdownFences
