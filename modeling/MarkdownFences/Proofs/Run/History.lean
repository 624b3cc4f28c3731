import MarkdownFences.Proofs.Run.Independence
import MarkdownFences.Proofs.ValidationCache.Fenceless

namespace MarkdownFences

theorem Mends.eq_of_fenceless {fs : List FenceFix} {t : Text} {bytes' : List UInt8}
    (ht : t.Fenceless) (h : Mends fs (Text.toUtf8 t) bytes') : bytes' = Text.toUtf8 t := by
  obtain ⟨t', rfl, hs⟩ := h.of_text
  rw [hs.text_eq ht]

namespace Run

open Check (Apart)
open ValidationCache (fileText key)

variable {τ ρ : Type} {job : Job} {o : Opinions τ ρ} {delay : Nat → Block → Nat}
variable {duration : Binary64} {s : Store} {x : Examination τ ρ} {r : Result τ}

theorem examine_of_run (hr : run job o delay duration s = .ok r) :
    ∃ x, examine job o delay s = .ok x := by
  obtain ⟨x, hx, -⟩ := ok_of_bind hr
  exact ⟨x, hx⟩

def cacheFile (job : Job) (s : Store) : Option (List UInt8) :=
  (s.read job.settings.cachePath).toOption

theorem cacheFile_eq_some {bytes : List UInt8} :
    cacheFile job s = some bytes ↔ s.read job.settings.cachePath = .ok bytes := by
  rw [cacheFile, toOption_eq_some]

theorem read_of_run (hx : examine job o delay s = .ok x)
    (hr : run job o delay duration s = .ok r) :
    ∃ cache made told, x.state.cache.save s = .ok (cache, made, told) ∧
      ∀ p, (∀ bytes, made.read p = .ok bytes → ∃ t, bytes = Text.toUtf8 t ∧ t.Fenceless) →
        r.store.read p = made.read p := by
  cases hfix : job.fix with
  | false =>
    rw [run_eq_conclude hx] at hr
    obtain ⟨made, told, hsave, -, hstore⟩ := conclude_saves hr
    refine ⟨r.cache, made, told, hsave, fun p _ => ?_⟩
    rw [hstore, settleIssues_store hfix]
  | true =>
    obtain ⟨cache, made, told, y, hsave, -, hstore, hmade⟩ := made_of_run hfix hx hr
    refine ⟨cache, made, told, hsave, fun p hp => ?_⟩
    rw [hstore]
    refine Store.read_eq_of_kept hmade.shape fun names bytes hresolve hn => ?_
    obtain ⟨t, rfl, ht⟩ := hp bytes (Store.read_eq_ok.mpr ⟨names, hresolve, hn⟩)
    obtain ⟨fs, bytes', hn', hmends, -⟩ := hmade.file names _ hn
    rw [hn', hmends.eq_of_fenceless ht]

theorem cacheFile_of_run (hx : examine job o delay s = .ok x)
    (hr : run job o delay duration s = .ok r)
    (hs : ∀ bytes, cacheFile job s = some bytes → ∃ t, bytes = Text.toUtf8 t ∧ t.Fenceless) :
    cacheFile job r.store = cacheFile job s ∨ cacheFile job r.store = none ∨
      job.settings.cacheEnabled = true ∧
        cacheFile job r.store = some (Text.toUtf8 (fileText x.state.cache.keys)) := by
  obtain ⟨cache, made, told, hsave, hread⟩ := read_of_run hx hr
  obtain ⟨hplace, hplace'⟩ := (examine_of hx).cache_place
  have hread := hread job.settings.cachePath
  obtain ⟨-, rfl⟩ | ⟨-, -, path, hp, hdir⟩ |
    ⟨u, names, -, ⟨henabled, path, hp, hresolve⟩, hdir, -, rfl⟩ := ValidationCache.save_cases hsave
  · left
    rw [cacheFile, cacheFile, hread fun bytes hb => hs bytes (cacheFile_eq_some.mpr hb)]
  · right
    left
    obtain rfl := Option.some.inj (hplace.symm.trans hp)
    have hnone (bytes : List UInt8) : made.read job.settings.cachePath ≠ .ok bytes := by
      intro hb
      obtain ⟨names, hresolve, hn⟩ := Store.read_eq_ok.mp hb
      rw [hdir names hresolve] at hn
      cases hn
    rw [Option.eq_none_iff_forall_ne_some]
    intro bytes hb
    rw [cacheFile_eq_some, hread fun bytes hb => absurd hb (hnone bytes)] at hb
    exact hnone bytes hb
  · right
    right
    obtain rfl := Option.some.inj (hplace.symm.trans hp)
    have hsaved := Store.read_put hresolve hdir (Text.toUtf8 (fileText x.state.cache.keys))
    refine ⟨hplace'.symm.trans henabled, cacheFile_eq_some.mpr ?_⟩
    rw [hread fun bytes hb => ?_, hsaved]
    rw [hsaved] at hb
    exact ⟨_, (Except.ok.inj hb).symm, ValidationCache.fenceless_fileText _⟩

def seenBy (job : Job) (s : Store) : List (Bool × Block) :=
  if job.settings.cacheEnabled then
    (scanAll (documentsOf s job.paths)).blocks.map fun b => (job.settings.lenient, b)
  else []

/-- Runs without second opinions, each of which finds the file of its cache as the one before left
it, while all else may have changed: the blocks that were checked against the cache, and what its
file says in the end. -/
inductive History (digest : Text → Text) : List (Bool × Block) → Option (List UInt8) → Prop where
  | start : History digest [] none
  | run {τ ρ : Type} {seen : List (Bool × Block)} {job : Job} {o : Opinions τ ρ}
      {delay : Nat → Block → Nat} {duration : Binary64} {s : Store} {r : Result τ}
      (before : History digest seen (cacheFile job s)) (same : job.digest = digest)
      (unadvised : o.advisor = none) (limit : 0 < job.settings.concurrency)
      (apart : Apart digest (scanAll (documentsOf s job.paths)).blocks)
      (ended : MarkdownFences.run job o delay duration s = .ok r) :
      History digest (seen ++ seenBy job s) (cacheFile job r.store)

section Cached

variable {digest : Text → Text} {seen seen' : List (Bool × Block)} {file : Option (List UInt8)}

/-- A key of a block that held when it was checked. -/
def Earned (digest : Text → Text) (seen : List (Bool × Block)) (q : Json.Points) : Prop :=
  ∃ e ∈ seen, q = key digest e.2 ∧ e.2.Holds e.1

def Cached (digest : Text → Text) (seen : List (Bool × Block)) (file : Option (List UInt8)) :
    Prop :=
  ∀ bytes, file = some bytes →
    ∃ keys, bytes = Text.toUtf8 (fileText keys) ∧ ∀ q ∈ keys, Earned digest seen q

theorem Earned.mono {q : Json.Points} (h : Earned digest seen q) (hs : seen ⊆ seen') :
    Earned digest seen' q := by
  obtain ⟨e, he, hq⟩ := h
  exact ⟨e, hs he, hq⟩

theorem Cached.mono (h : Cached digest seen file) (hs : seen ⊆ seen') :
    Cached digest seen' file := by
  intro bytes hb
  obtain ⟨keys, hkeys, hall⟩ := h bytes hb
  exact ⟨keys, hkeys, fun q hq => (hall q hq).mono hs⟩

theorem Earned.whole {q : Json.Points} (h : Earned digest seen q) : q.Whole := by
  obtain ⟨e, -, rfl, -⟩ := h
  exact Json.whole_ofText _

theorem Cached.load (h : Cached digest seen (cacheFile job s)) :
    ∃ c told, (cacheOf job).load s = .ok (c, told) ∧ ∀ q ∈ c.keys, Earned digest seen q := by
  cases hr : s.read job.settings.cachePath with
  | error e =>
    obtain ⟨told, hload⟩ := ValidationCache.load_unreadable (c := cacheOf job) rfl hr
    exact ⟨_, told, hload, nofun⟩
  | ok bytes =>
    obtain ⟨keys, rfl, hkeys⟩ := h bytes (cacheFile_eq_some.mpr hr)
    cases he : (cacheOf job).enabled with
    | false => exact ⟨_, _, ValidationCache.load_disabled he, nofun⟩
    | true =>
      obtain ⟨ks, told, hload, hmem⟩ :=
        ValidationCache.load_saved he rfl (fun q hq => (hkeys q hq).whole) hr
      exact ⟨_, told, hload, fun q hq => hkeys q ((hmem q).mp hq)⟩

/-- What a run adds to the file of its cache, if anything, are keys of blocks that hold. -/
theorem Cached.run (h : Cached job.digest seen (cacheFile job s)) (ho : o.advisor = none)
    (hl : 0 < job.settings.concurrency)
    (ha : Apart job.digest (scanAll (documentsOf s job.paths)).blocks)
    (hr : MarkdownFences.run job o delay duration s = .ok r) :
    Cached job.digest (seen ++ seenBy job s) (cacheFile job r.store) := by
  obtain ⟨x, hx⟩ := examine_of_run hr
  have hof := examine_of hx
  have hblocks : x.scan.blocks = (scanAll (documentsOf s job.paths)).blocks := by
    rw [hof.scan, (readAll_eq hof.intake).1]
  have hf : (⟨job.digest, o.advisor⟩ : Classifier τ ρ).Opines fun _ => .ok none :=
    Classifier.opines_none ho
  obtain ⟨c₀, told, i, -, hload, hread, hrules, -⟩ := parts_of_run hl hf hx (hblocks ▸ ha) hr
  obtain ⟨c, told', hload', hkeys⟩ := h.load
  obtain rfl : c = c₀ := (Prod.mk.inj (Except.ok.inj (hload'.symm.trans hload))).1
  have hs : ∀ bytes, cacheFile job s = some bytes → ∃ t, bytes = Text.toUtf8 t ∧ t.Fenceless := by
    intro bytes hb
    obtain ⟨keys, rfl, -⟩ := h bytes hb
    exact ⟨_, rfl, ValidationCache.fenceless_fileText keys⟩
  obtain hfile | hfile | ⟨henabled, hfile⟩ := cacheFile_of_run hx hr hs
  · rw [hfile]
    exact h.mono (List.subset_append_left _ _)
  · rw [hfile]
    exact nofun
  · rw [hfile]
    intro bytes hb
    refine ⟨_, (Option.some.inj hb).symm, fun q hq => ?_⟩
    -- a key is an old one, or that of a block which passed in this run
    have hold {q : Json.Points} (hq : q ∈ c.keys) : Earned job.digest (seen ++ seenBy job s) q :=
      (hkeys q hq).mono (List.subset_append_left _ _)
    obtain hq | ⟨b, ⟨hb, hpass⟩, rfl⟩ := hrules.cache.new q hq
    · exact hold hq
    · cases hlist : c.lists job.digest b with
      | true => exact hold (List.contains_iff_mem.mp (Bool.and_eq_true_iff.mp hlist).2)
      | false =>
        rw [ruling, Check.ruling, hlist] at hpass
        rw [← hrules.scan, hblocks] at hb
        refine ⟨(job.settings.lenient, b), List.mem_append_right _ ?_, rfl,
          Check.passes_iff_holds.mp hpass⟩
        rw [seenBy, henabled, if_pos rfl]
        exact List.mem_map_of_mem hb

theorem History.cached (h : History digest seen file) : Cached digest seen file := by
  induction h with
  | start => exact nofun
  | run _ same unadvised limit apart ended ih =>
    subst same
    exact ih.run unadvised limit apart ended

end Cached

end Run

end MarkdownFences
