import MarkdownFences.Proofs.Check.Findings
import MarkdownFences.Proofs.Check.Interleaving

namespace MarkdownFences.Check

open Admission (Stage Course Move Moves)

variable {τ ρ : Type} {k : Check τ ρ} {c₀ : ValidationCache} {bs : List Block} {b : Block}
variable {s : State τ} {passed : Block → Prop}

/-! Whatever the advisor answers, the cache is given the keys of the blocks that pass, and it needs
to be saved exactly if one of them is new. -/

def Asked (k : Check τ ρ) (c₀ : ValidationCache) (b : Block) (p : Purpose) : Prop :=
  (p = .tagging ↔ b.tag = none) ∧ (c₀.enabled = true → b.tag.isSome = true →
    ValidationCache.key k.classifier.digest b ∉ c₀.keys)

theorem not_mem_of_not_known (h : Stored k.classifier.digest c₀ passed s.cache)
    (hk : s.knows k b = false) (he : c₀.enabled = true) :
    ValidationCache.key k.classifier.digest b ∉ c₀.keys := by
  intro hmem
  rw [knows_iff.mpr ⟨h.enabled.trans he, h.subset hmem⟩] at hk
  cases hk

theorem asked_of_purpose {p : Purpose} (h : Stored k.classifier.digest c₀ passed s.cache)
    (hp : k.purpose (s.knows k b) b = .ok p) : Asked k c₀ b p := by
  refine ⟨tagging_iff hp, fun he ht => ?_⟩
  cases hk : s.knows k b with
  | false => exact not_mem_of_not_known h hk he
  | true =>
    rw [hk, purpose_of_known ht] at hp
    cases hp

/-- The checks of a run and the cache at any time. -/
structure Marking (k : Check τ ρ) (c₀ : ValidationCache) (bs : List Block)
    (c : Course (State τ) (Pending ρ) Finding) : Prop where
  cache : Stored k.classifier.digest c₀ (Passed bs c.stages) c.shared.cache
  stages : c.Each (fun _ b stage => ∀ p, stage = .waiting p → Asked k c₀ b p.purpose) bs

theorem noted_cache (delay : Nat → Block → Nat) (s : State τ) (i : Nat) (r : Except Fault Finding) :
    ((k.worker delay).noted s i r).cache = s.cache := by
  cases r <;> rfl

/-- What a step does to the cache. It ends a check, whose block is put in if it passes, and is new
if there is something to save that was not there before; or a check has to wait, and then its block
is not in the cache. -/
inductive Marks (k : Check τ ρ) (c₀ : ValidationCache) (bs : List Block)
    (x y : Course (State τ) (Pending ρ) Finding) : Prop where
  | ends {i : Nat} {b : Block} {stage : Stage (Pending ρ) Finding} {r : Except Fault Finding}
      (hb : bs[i]? = some b) (hi : x.stages[i]? = some stage) (hstage : ∀ r, stage ≠ .done r)
      (hset : y.stages = x.stages.set i (.done r))
      (hcache : Caches k x.shared.cache b r y.shared.cache)
      (hnew : c₀.enabled = true → b.tag.isSome = true → y.shared.cache.dirty = true →
        x.shared.cache.dirty = true ∨ ValidationCache.key k.classifier.digest b ∉ c₀.keys)
  | waits {i : Nat} {b : Block} {p : Pending ρ} (hb : bs[i]? = some b)
      (hi : x.stages[i]? = some .idle) (hset : y.stages = x.stages.set i (.waiting p))
      (hsame : SameKeys x.shared.cache y.shared.cache) (hp : Asked k c₀ b p.purpose)

theorem new_of_settled {s' : State τ} {f : Finding}
    (h : Stored k.classifier.digest c₀ passed s.cache) (hp : k.prepare s b = (s', .error f))
    (he : c₀.enabled = true) (ht : b.tag.isSome = true) (hd : s'.cache.dirty = true) :
    s.cache.dirty = true ∨ ValidationCache.key k.classifier.digest b ∉ c₀.keys := by
  cases hk : s.knows k b with
  | false => exact .inr (not_mem_of_not_known h hk he)
  | true =>
    have hsame := prepare_of_knows ht hk
    rw [hp] at hsame
    exact .inl (hsame.dirty ▸ hd)

theorem Marking.marks {delay : Nat → Block → Nat} {x y : Course (State τ) (Pending ρ) Finding}
    (h : Marking k c₀ bs x) (hm : Move (k.worker delay) bs x y) : Marks k c₀ bs x y := by
  cases hm with
  | @ends i b shared r hb hi hs =>
    have hcaches := prepare_caches k x.shared b
    have hstarts := k.starts delay x.shared i b
    rw [hs] at hstarts
    cases hstarts with
    | settled hp =>
      rw [hp] at hcaches
      refine .ends hb hi nofun rfl hcaches fun he ht hd => ?_
      exact new_of_settled h.cache hp he ht hd
    | @answered s' p c r hp hc =>
      rw [hp] at hcaches
      have hasked := asked_of_purpose h.cache (purpose_of_prepare hp)
      refine .ends hb hi nofun rfl ?_ fun he ht _ => .inr (hasked.2 he ht)
      rw [noted_cache]
      exact conclude_caches (s := { s' with classifier := c }) hcaches.1 hasked.1 r
  | @waits i b shared q hb hi hs =>
    have hcaches := prepare_caches k x.shared b
    have hstarts := k.starts delay x.shared i b
    rw [hs] at hstarts
    cases hstarts with
    | asked hp hc =>
      rw [hp] at hcaches
      exact .waits hb hi rfl hcaches.1 (asked_of_purpose h.cache (purpose_of_prepare hp))
  | @goesOn i b q shared r hb hi hs =>
    have hasked := h.stages i b _ hb hi q rfl
    obtain ⟨rfl, rfl⟩ := Prod.mk.inj hs
    refine .ends hb hi nofun rfl ?_ fun he ht _ => .inr (hasked.2 he ht)
    rw [noted_cache]
    have hsame : SameKeys x.shared.cache x.shared.cache := ⟨rfl, rfl, rfl, rfl⟩
    exact conclude_caches (s := { x.shared with
      classifier := (k.classifier.finish x.shared.classifier q.question).1 }) hsame hasked.1
      (k.classifier.finish x.shared.classifier q.question).2

theorem Marking.move (delay : Nat → Block → Nat) {x y : Course (State τ) (Pending ρ) Finding}
    (h : Marking k c₀ bs x) (hm : Move (k.worker delay) bs x y) : Marking k c₀ bs y := by
  cases h.marks hm with
  | @ends i b stage r hb hi hstage hset hcache hnew =>
    have hdone : ∀ p, (.done r : Stage (Pending ρ) Finding) = .waiting p → Asked k c₀ b p.purpose :=
      nofun
    refine ⟨(h.cache.visit hcache hnew).congr fun b' => ?_, h.stages.of_set hb hdone hset⟩
    rw [hset]
    exact (passed_set_done hb hi hstage r b').symm
  | @waits i b p hb hi hset hsame hp =>
    have hwaiting : ∀ q, (.waiting p : Stage (Pending ρ) Finding) = .waiting q →
        Asked k c₀ b q.purpose := fun q hq => Stage.waiting.inj hq ▸ hp
    refine ⟨(h.cache.sameKeys hsame).congr fun b' => ?_, h.stages.of_set hb hwaiting hset⟩
    rw [hset]
    exact (passed_set_waiting hi p b').symm

/-- A step takes no key away, and puts none in but that of a block with a tag whose check it ends
without an issue. -/
structure Adds (digest : Text → Text) (bs : List Block)
    (x y : Course (State τ) (Pending ρ) Finding) : Prop where
  kept : x.shared.cache.keys ⊆ y.shared.cache.keys
  added : ∀ q ∈ y.shared.cache.keys, q ∉ x.shared.cache.keys →
    ∃ (i : Nat) (b : Block) (r : Except Fault Finding), bs[i]? = some b ∧
      y.stages = x.stages.set i (.done r) ∧ Passes b r ∧ q = ValidationCache.key digest b

theorem Marks.adds {x y : Course (State τ) (Pending ρ) Finding} (h : Marks k c₀ bs x y) :
    Adds k.classifier.digest bs x y := by
  cases h with
  | @ends i b stage r hb hi hstage hset hcache hnew =>
    refine ⟨hcache.keys_subset, fun q hq hold => ?_⟩
    obtain hq | ⟨hkey, hpass⟩ := hcache.new q hq
    · exact absurd hq hold
    · exact ⟨i, b, r, hb, hset, hpass, hkey⟩
  | waits hb hi hset hsame hp =>
    refine ⟨?_, fun q hq hold => ?_⟩
    · rw [hsame.keys]
      exact List.Subset.refl _
    · rw [hsame.keys] at hq
      exact absurd hq hold

theorem marking_start (k : Check τ ρ) (s : State τ) (bs : List Block) :
    Marking k s.cache bs (Course.start s bs) :=
  ⟨(Stored.start _ _).congr fun b => (iff_false_intro (not_passed_start s bs b)).symm,
    Course.each_start (fun _ _ => nofun) _ _⟩

theorem Marking.of_moves {delay : Nat → Block → Nat} {x : Course (State τ) (Pending ρ) Finding}
    (hx : Moves (k.worker delay) bs (Course.start s bs) x) : Marking k s.cache bs x :=
  hx.keeps (fun _ _ => Marking.move delay) (marking_start k s bs)

theorem passed_done_iff {rs : List (Except Fault Finding)} :
    Passed bs (rs.map fun r => (.done r : Stage (Pending ρ) Finding)) b ↔
      ∃ c ∈ bs.zip rs, c.1 = b ∧ Passes b c.2 := by
  constructor
  · rintro ⟨i, r, hb, hi, hp⟩
    rw [List.getElem?_map, Option.map_eq_some_iff] at hi
    obtain ⟨r', hr, heq⟩ := hi
    obtain rfl := Stage.done.inj heq
    exact ⟨(b, r'), List.mem_of_getElem? (List.getElem?_zip_eq_some.mpr ⟨hb, hr⟩), rfl, hp⟩
  · rintro ⟨⟨b', r⟩, hc, rfl, hp⟩
    obtain ⟨i, hi⟩ := List.mem_iff_getElem?.mp hc
    obtain ⟨hb, hr⟩ := List.getElem?_zip_eq_some.mp hi
    exact ⟨i, r, hb, by rw [List.getElem?_map, hr]; rfl, hp⟩

theorem run_stored {limit : Nat} (hl : 0 < limit) (k : Check τ ρ) (delay : Nat → Block → Nat)
    (s : State τ) (bs : List Block) :
    Stored k.classifier.digest s.cache
      (fun b => ∃ c ∈ bs.zip (Admission.run (k.worker delay) limit 0 s bs).outcomes,
        c.1 = b ∧ Passes b c.2)
      (Admission.run (k.worker delay) limit 0 s bs).shared.cache := by
  have hmarking := Admission.run_induction (Marking k s.cache bs) hl (marking_start k s bs)
    (fun _ _ => Marking.move delay) 0
  exact hmarking.cache.congr fun b => passed_done_iff

/-! A cache that is not enabled has no part in the checks. -/

section Disabled

theorem prepare_of_disabled (he : s.cache.enabled = false) (b : Block) :
    (k.prepare s b).1.cache = s.cache := by
  have hprepares := k.prepares s b
  have hvalid := ValidationCache.isValid_of_disabled he k.classifier.digest b
  generalize k.prepare s b = out at hprepares
  cases hprepares with
  | left | void | untagged => rfl
  | known | questioned => exact congrArg Prod.fst hvalid
  | unquestioned =>
    rw [hvalid]
    exact ValidationCache.markValid_of_disabled he _ b

theorem conclude_of_disabled (he : s.cache.enabled = false) (p : Purpose)
    (r : Except Fault Language) : (k.conclude s b p r).1.cache = s.cache := by
  cases r with
  | error e => rfl
  | ok l =>
    have hsettles := k.settles s b p l
    rw [conclude]
    generalize k.settle s b p l = out at hsettles
    cases hsettles with
    | tagged => rfl
    | agrees => exact ValidationCache.markValid_of_disabled he _ b
    | differs => exact report_cache s _

theorem worker_respects_disabled (k : Check τ ρ) (delay : Nat → Block → Nat)
    {c : ValidationCache} (he : c.enabled = false) :
    (k.worker delay).Respects (fun s => s.cache = c) (fun _ _ => True) (fun _ _ => True) where
  start := by
    intro s i b hs
    have hprepare := prepare_of_disabled (k := k) (hs ▸ he) b
    have hstarts := k.starts delay s i b
    generalize (k.worker delay).start s i b = out at hstarts
    cases hstarts with
    | settled h =>
      rw [h, hs] at hprepare
      exact hprepare
    | @answered s' p c' r h hc =>
      rw [h, hs] at hprepare
      have he' : { s' with classifier := c' }.cache.enabled = false := hprepare ▸ he
      exact (conclude_of_disabled he' p r).trans hprepare
    | asked h hc =>
      rw [h, hs] at hprepare
      exact hprepare
  start_done := fun _ _ _ _ _ _ => trivial
  start_waiting := fun _ _ _ _ _ _ => trivial
  finish := by
    intro s i b q hs _
    have he' : { s with
        classifier := (k.classifier.finish s.classifier q.question).1 }.cache.enabled = false := by
      rw [← he, ← hs]
    exact ⟨(conclude_of_disabled he' q.purpose _).trans hs, trivial⟩
  failed := fun _ _ _ hs => hs

theorem cache_of_disabled {delay : Nat → Block → Nat} (he : s.cache.enabled = false)
    {x : Course (State τ) (Pending ρ) Finding}
    (hx : Moves (k.worker delay) bs (Course.start s bs) x) : x.shared.cache = s.cache := by
  have hstart : Admission.Sound (fun s' : State τ => s'.cache = s.cache) (fun _ _ => True)
      (fun _ _ => True) bs (Course.start s bs : Course _ (Pending ρ) Finding) := by
    apply Admission.sound_start
    rfl
  have hrespects := worker_respects_disabled k delay he
  exact (hx.keeps (fun _ _ => Admission.Sound.move hrespects) hstart).shared

end Disabled

end MarkdownFences.Check
