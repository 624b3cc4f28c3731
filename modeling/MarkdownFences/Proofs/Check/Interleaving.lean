import MarkdownFences.Proofs.Admission.Course
import MarkdownFences.Proofs.Check.Verdict

namespace MarkdownFences.Check

open Admission (Stage Course Move)

variable {τ ρ : Type} {k : Check τ ρ} {f : Text → Except Fault (Option Language)}
variable {c₀ : ValidationCache} {bs : List Block} {b : Block} {s s' : State τ}
variable {passed : Block → Prop}

/-- Digests tell the contents of blocks apart, and blocks that share a key have the same tag and
the same content. -/
structure Apart (digest : Text → Text) (bs : List Block) : Prop where
  contents : ∀ a ∈ bs, ∀ b ∈ bs, digest a.content = digest b.content → a.content = b.content
  keys : ∀ a ∈ bs, ∀ b ∈ bs, ValidationCache.key digest a = ValidationCache.key digest b →
    a.tag = b.tag ∧ a.content = b.content

theorem Apart.digests {digest : Text → Text} (ha : Apart digest bs) :
    ∀ t ∈ bs.map (·.content), ∀ u ∈ bs.map (·.content), digest t = digest u → t = u :=
  digests_apart ha.contents

/-- What a check comes to where the cache is as it was in the beginning. -/
def ruling (k : Check τ ρ) (f : Text → Except Fault (Option Language)) (c₀ : ValidationCache)
    (b : Block) : Except Fault Finding :=
  k.verdict f (c₀.lists k.classifier.digest b) b

structure Sound (k : Check τ ρ) (f : Text → Except Fault (Option Language)) (c₀ : ValidationCache)
    (bs : List Block) (passed : Block → Prop) (s : State τ) : Prop where
  memo : Classifier.Recalls k.classifier.digest f (bs.map (·.content)) s.memo
  cache : Stored k.classifier.digest c₀ passed s.cache
  passed : ∀ b, passed b → b ∈ bs ∧ Passes b (k.ruling f c₀ b)

def Pursues (k : Check τ ρ) (f : Text → Except Fault (Option Language)) (c₀ : ValidationCache)
    (b : Block) : Stage (Pending ρ) Finding → Prop
  | .idle => True
  | .waiting p => k.purpose (c₀.lists k.classifier.digest b) b = .ok p.purpose ∧
      p.question.Awaits k.classifier f b.content
  | .done r => r = k.ruling f c₀ b

theorem prepare_of_knows (hb : b.tag.isSome = true) (h : s.knows k b = true) :
    SameKeys s.cache (k.prepare s b).1.cache := by
  have hprepares := k.prepares s b
  generalize k.prepare s b = out at hprepares
  cases hprepares with
  | left hb' | void hb' | untagged hb' => rw [hb'] at hb; cases hb
  | known => exact sameKeys_isValid k.classifier.digest s.cache b
  | unquestioned _ hs | questioned _ hs => rw [hs] at h; cases h

theorem not_mem_of_lists {digest : Text → Text} (h : c₀.lists digest b = false)
    (he : c₀.enabled = true) : ValidationCache.key digest b ∉ c₀.keys := by
  rw [ValidationCache.lists, he, Bool.true_and] at h
  simpa using h

theorem lists_of_purpose {p : Purpose}
    (h : k.purpose (c₀.lists k.classifier.digest b) b = .ok p) (hb : b.tag.isSome = true) :
    c₀.lists k.classifier.digest b = false := by
  cases hl : c₀.lists k.classifier.digest b with
  | false => rfl
  | true =>
    rw [hl, purpose_of_known hb] at h
    cases h

namespace Sound

variable (ha : Apart k.classifier.digest bs)

include ha

/-- A block is known from the beginning, or since a block with the same key was found valid, which
it then would have been found as well. -/
theorem purpose_eq (h : Sound k f c₀ bs passed s) (hb : b ∈ bs) :
    k.purpose (s.knows k b) b = k.purpose (c₀.lists k.classifier.digest b) b ∨
      k.purpose (s.knows k b) b = .error (.clean b) ∧ k.ruling f c₀ b = .ok (.clean b) := by
  cases hl : c₀.lists k.classifier.digest b with
  | true =>
    obtain ⟨he, hk⟩ := Bool.and_eq_true_iff.mp hl
    have hknows : s.knows k b = true :=
      knows_iff.mpr ⟨h.cache.enabled.trans he, h.cache.subset (List.contains_iff_mem.mp hk)⟩
    exact .inl (by rw [hknows])
  | false =>
    cases hk : s.knows k b with
    | false => exact .inl rfl
    | true =>
      obtain ⟨he, hmem⟩ := knows_iff.mp hk
      obtain hold | ⟨b', hp, hkey⟩ := h.cache.new _ hmem
      · exact absurd hold (not_mem_of_lists hl (h.cache.enabled.symm.trans he))
      · obtain ⟨hb', hpass⟩ := h.passed b' hp
        obtain ⟨ht, hc⟩ := ha.keys b' hb' b hb hkey.symm
        have hlist : c₀.lists k.classifier.digest b' = false := by
          rw [ValidationCache.lists, ← hkey]
          exact hl
        rw [ruling, hlist] at hpass
        refine .inr ⟨purpose_of_known (ht ▸ hpass.1), ?_⟩
        rw [ruling, hl]
        exact verdict_clean ht hc hpass

end Sound

theorem Sound.ended (h : Sound k f c₀ bs passed s) (hb : b ∈ bs) {r : Except Fault Finding}
    (hr : r = k.ruling f c₀ b)
    (hm : Classifier.Recalls k.classifier.digest f (bs.map (·.content)) s'.memo)
    (hc : Caches k s.cache b r s'.cache)
    (hnew : c₀.enabled = true → b.tag.isSome = true → s'.cache.dirty = true →
      s.cache.dirty = true ∨ ValidationCache.key k.classifier.digest b ∉ c₀.keys) :
    Sound k f c₀ bs (fun x => passed x ∨ x = b ∧ Passes b r) s' := by
  refine ⟨hm, h.cache.visit hc hnew, ?_⟩
  rintro x (hx | ⟨rfl, hx⟩)
  · exact h.passed x hx
  · exact ⟨hb, hr ▸ hx⟩

theorem Sound.note (h : Sound k f c₀ bs passed s) (es : List Log.Entry) :
    Sound k f c₀ bs passed (s.note es) :=
  ⟨h.memo, h.cache, h.passed⟩

theorem conclude_memo (s : State τ) (p : Purpose) (r : Except Fault Language) :
    (k.conclude s b p r).1.memo = s.memo := by
  rw [State.memo, conclude_classifier, State.memo]

theorem Sound.conclude (h : Sound k f c₀ bs passed s) (hb : b ∈ bs) {p : Purpose}
    (hp : k.purpose (c₀.lists k.classifier.digest b) b = .ok p) {r : Except Fault Language}
    (hr : r = Classifier.judge f b.content) :
    (k.conclude s b p r).2 = k.ruling f c₀ b ∧
      Sound k f c₀ bs (fun x => passed x ∨ x = b ∧ Passes b (k.conclude s b p r).2)
        (k.conclude s b p r).1 := by
  have hruling : (k.conclude s b p r).2 = k.ruling f c₀ b := by
    rw [conclude_snd, hr, ruling, verdict_of_asked hp]
  have hcaches := conclude_caches (k := k) (s := s) ⟨rfl, rfl, rfl, rfl⟩ (tagging_iff hp) r
  refine ⟨hruling, h.ended hb hruling ?_ hcaches fun he ht _ => ?_⟩
  · rw [conclude_memo]
    exact h.memo
  · exact .inr (not_mem_of_lists (lists_of_purpose hp ht) he)

section Steps

variable (ha : Apart k.classifier.digest bs)

include ha

theorem Sound.settled (h : Sound k f c₀ bs passed s) (hb : b ∈ bs) {finding : Finding}
    (hp : k.prepare s b = (s', .error finding)) :
    .ok finding = k.ruling f c₀ b ∧
      Sound k f c₀ bs (fun x => passed x ∨ x = b ∧ Passes b (.ok finding)) (s'.tick k) := by
  have hcaches := prepare_caches k s b
  rw [hp] at hcaches
  have hruling : .ok finding = k.ruling f c₀ b := by
    have hpurpose := h.purpose_eq ha hb
    rw [purpose_of_prepare hp] at hpurpose
    obtain hx | ⟨hx, hr⟩ := hpurpose
    · exact (verdict_of_settled hx.symm).symm
    · rw [hr, Except.error.inj hx]
  refine ⟨hruling, h.ended hb hruling ?_ hcaches fun he ht hd => ?_⟩
  · have hmemo : (s'.tick k).memo = s.memo := congrArg (·.memo.entries) (classifier_of_prepare hp)
    rw [hmemo]
    exact h.memo
  · cases hk : s.knows k b with
    | true =>
      have hsame := prepare_of_knows ht hk
      rw [hp] at hsame
      exact .inl (hsame.dirty ▸ hd)
    | false =>
      refine .inr fun hmem => ?_
      rw [knows_iff.mpr ⟨h.cache.enabled.trans he, h.cache.subset hmem⟩] at hk
      cases hk

theorem Sound.prepared (h : Sound k f c₀ bs passed s) (hb : b ∈ bs) {p : Purpose}
    (hp : k.prepare s b = (s', .ok p)) :
    k.purpose (c₀.lists k.classifier.digest b) b = .ok p ∧ Sound k f c₀ bs passed s' := by
  have hcaches := prepare_caches k s b
  rw [hp] at hcaches
  refine ⟨?_, ?_, h.cache.sameKeys hcaches.1, h.passed⟩
  · have hpurpose := h.purpose_eq ha hb
    rw [purpose_of_prepare hp] at hpurpose
    exact hpurpose.elim Eq.symm fun hx => by cases hx.1
  · have hmemo : s'.memo = s.memo := congrArg (·.memo.entries) (classifier_of_prepare hp)
    rw [hmemo]
    exact h.memo

variable (hf : k.classifier.Opines f)

include hf

theorem start_sound (h : Sound k f c₀ bs passed s) (hb : b ∈ bs)
    {turn : Turn (Pending ρ) (Except Fault Finding)} (hs : k.start s b = (s', turn)) :
    (∀ r, turn = .done r → r = k.ruling f c₀ b ∧
      Sound k f c₀ bs (fun x => passed x ∨ x = b ∧ Passes b r) s') ∧
    ∀ p, turn = .waiting p → Pursues k f c₀ b (.waiting p) ∧ Sound k f c₀ bs passed s' := by
  have hstarts : k.Starts s b (k.start s b) := k.starts (fun _ _ => 0) s 0 b
  have hcs : b.content ∈ bs.map (·.content) := List.mem_map_of_mem hb
  rw [hs] at hstarts
  cases hstarts with
  | settled hp =>
    refine ⟨fun r hr => ?_, nofun⟩
    obtain rfl := Turn.done.inj hr
    exact h.settled ha hb hp
  | @answered s₁ p classifier r hp hc =>
    obtain ⟨hpurpose, h⟩ := h.prepared ha hb hp
    obtain ⟨hm, hdone, -⟩ := Classifier.start_recalls hf ha.digests h.memo hcs hc
    have hanswered : Sound k f c₀ bs passed { s₁ with classifier } := ⟨hm, h.cache, h.passed⟩
    refine ⟨fun r' hr => ?_, nofun⟩
    obtain rfl := Turn.done.inj hr
    exact hanswered.conclude hb hpurpose (hdone r rfl)
  | asked hp hc =>
    obtain ⟨hpurpose, h⟩ := h.prepared ha hb hp
    obtain ⟨hm, -, hwaiting⟩ := Classifier.start_recalls hf ha.digests h.memo hcs hc
    refine ⟨nofun, fun q hq => ?_⟩
    obtain rfl := Turn.waiting.inj hq
    exact ⟨⟨hpurpose, hwaiting _ rfl⟩, hm, h.cache, h.passed⟩

theorem finish_sound (h : Sound k f c₀ bs passed s) (hb : b ∈ bs) {p : Pending ρ}
    (hp : Pursues k f c₀ b (.waiting p)) {r : Except Fault Finding}
    (hs : k.finish s b p = (s', r)) :
    r = k.ruling f c₀ b ∧ Sound k f c₀ bs (fun x => passed x ∨ x = b ∧ Passes b r) s' := by
  obtain ⟨hpurpose, hawaits⟩ := hp
  rw [finish] at hs
  cases hc : k.classifier.finish s.classifier p.question with
  | mk classifier r' =>
    obtain ⟨hm, hr⟩ :=
      Classifier.finish_recalls hf ha.digests h.memo (List.mem_map_of_mem hb) hawaits hc
    simp only [hc] at hs
    have hs₁ : Sound k f c₀ bs passed { s with classifier } := ⟨hm, h.cache, h.passed⟩
    have hconclude := hs₁.conclude hb hpurpose hr
    rw [hs] at hconclude
    exact hconclude

end Steps

/-- The blocks whose checks have ended without an issue. -/
def Passed (bs : List Block) (stages : List (Stage (Pending ρ) Finding)) (b : Block) : Prop :=
  ∃ (i : Nat) (r : Except Fault Finding),
    bs[i]? = some b ∧ stages[i]? = some (.done r) ∧ Passes b r

theorem passed_set_done {stages : List (Stage (Pending ρ) Finding)} {i : Nat}
    (hb : bs[i]? = some b) {stage : Stage (Pending ρ) Finding} (hi : stages[i]? = some stage)
    (hstage : ∀ r, stage ≠ .done r) (r : Except Fault Finding) (x : Block) :
    Passed bs (stages.set i (.done r)) x ↔ Passed bs stages x ∨ x = b ∧ Passes b r := by
  have hlt := (List.getElem?_eq_some_iff.mp hi).1
  constructor
  · rintro ⟨j, r', hx, hj, hr⟩
    rw [List.getElem?_set] at hj
    split at hj
    case isTrue heq =>
      subst heq
      obtain rfl := Option.some.inj (hb.symm.trans hx)
      obtain rfl := Stage.done.inj (Option.some.inj hj)
      exact .inr ⟨rfl, hr⟩
    case isFalse => exact .inl ⟨j, r', hx, hj, hr⟩
  · rintro (⟨j, r', hx, hj, hr⟩ | ⟨rfl, hr⟩)
    · refine ⟨j, r', hx, ?_, hr⟩
      rw [List.getElem?_set_ne]
      · exact hj
      · rintro rfl
        exact hstage r' (Option.some.inj (hi.symm.trans hj))
    · exact ⟨i, r, hb, List.getElem?_set_self hlt, hr⟩

theorem passed_set_waiting {stages : List (Stage (Pending ρ) Finding)} {i : Nat}
    (hi : stages[i]? = some .idle) (p : Pending ρ) (x : Block) :
    Passed bs (stages.set i (.waiting p)) x ↔ Passed bs stages x := by
  have hlt := (List.getElem?_eq_some_iff.mp hi).1
  constructor
  · rintro ⟨j, r, hx, hj, hr⟩
    refine ⟨j, r, hx, ?_, hr⟩
    rw [List.getElem?_set] at hj
    split at hj
    case isTrue => cases hj
    case isFalse => exact hj
  · rintro ⟨j, r, hx, hj, hr⟩
    refine ⟨j, r, hx, ?_, hr⟩
    rw [List.getElem?_set_ne]
    · exact hj
    · rintro rfl
      cases hi.symm.trans hj

theorem not_passed_start (s : State τ) (bs : List Block) (b : Block) :
    ¬ Passed bs (Course.start s bs : Course _ (Pending ρ) _).stages b := by
  rintro ⟨i, r, -, hi, -⟩
  obtain ⟨_, -, hr⟩ := List.mem_map.mp (List.mem_of_getElem? hi)
  cases hr

/-- The checks of a run at any time. -/
structure Underway (k : Check τ ρ) (f : Text → Except Fault (Option Language))
    (c₀ : ValidationCache) (bs : List Block) (c : Course (State τ) (Pending ρ) Finding) : Prop where
  shared : Sound k f c₀ bs (Passed bs c.stages) c.shared
  stages : c.Each (fun _ b stage => Pursues k f c₀ b stage) bs

theorem Sound.congr (h : Sound k f c₀ bs passed s) {passed' : Block → Prop}
    (hp : ∀ b, passed b ↔ passed' b) : Sound k f c₀ bs passed' s :=
  (funext fun b => propext (hp b) : passed = passed') ▸ h

theorem Sound.noted {delay : Nat → Block → Nat} (h : Sound k f c₀ bs passed s) (i : Nat)
    (r : Except Fault Finding) : Sound k f c₀ bs passed ((k.worker delay).noted s i r) := by
  cases r with
  | error e => exact h.note _
  | ok finding => exact h

theorem Underway.move (hf : k.classifier.Opines f) (ha : Apart k.classifier.digest bs)
    (delay : Nat → Block → Nat) {c d : Course (State τ) (Pending ρ) Finding}
    (h : Underway k f c₀ bs c) (hm : Move (k.worker delay) bs c d) : Underway k f c₀ bs d := by
  cases hm with
  | ends hx hi hs =>
    obtain ⟨hr, hsound⟩ := (start_sound ha hf h.shared (List.mem_of_getElem? hx) hs).1 _ rfl
    refine ⟨(hsound.noted _ _).congr fun x => ?_, h.stages.set hx ?_ _⟩
    · exact (passed_set_done hx hi nofun _ x).symm
    · exact hr
  | waits hx hi hs =>
    obtain ⟨hp, hsound⟩ := (start_sound ha hf h.shared (List.mem_of_getElem? hx) hs).2 _ rfl
    refine ⟨hsound.congr fun x => ?_, h.stages.set hx hp _⟩
    exact (passed_set_waiting hi _ x).symm
  | goesOn hx hi hs =>
    obtain ⟨hr, hsound⟩ :=
      finish_sound ha hf h.shared (List.mem_of_getElem? hx) (h.stages _ _ _ hx hi) hs
    refine ⟨(hsound.noted _ _).congr fun x => ?_, h.stages.set hx ?_ _⟩
    · exact (passed_set_done hx hi nofun _ x).symm
    · exact hr

/-- The checks of blocks come to what each of them comes to by itself, and the cache is given the
keys of those that pass, whatever the limit and however long the answers take. -/
theorem run_rulings (hf : k.classifier.Opines f) (ha : Apart k.classifier.digest bs) {limit : Nat}
    (hl : 0 < limit) (delay : Nat → Block → Nat) (s : State τ) (hs : s.memo = []) :
    (Admission.run (k.worker delay) limit 0 s bs).outcomes = bs.map (k.ruling f s.cache) ∧
      Stored k.classifier.digest s.cache (fun b => b ∈ bs ∧ Passes b (k.ruling f s.cache b))
        (Admission.run (k.worker delay) limit 0 s bs).shared.cache := by
  have hnone (b : Block) : ¬ Passed bs (Course.start s bs : Course _ (Pending ρ) _).stages b :=
    not_passed_start s bs b
  have hstart : Underway k f s.cache bs (Course.start s bs) := by
    refine ⟨⟨?_, ?_, fun b hb => absurd hb (hnone b)⟩,
      Course.each_start (fun _ _ => trivial) _ _⟩
    · rw [Course.start, hs]
      exact Classifier.recalls_nil _ _ _
    · exact (Stored.start _ _).congr fun b => (iff_false_intro (hnone b)).symm
  obtain ⟨hshared, hstages⟩ := Admission.run_induction (Underway k f s.cache bs) hl hstart
    (fun _ _ h hm => h.move hf ha delay hm) 0
  have houtcomes : (Admission.run (k.worker delay) limit 0 s bs).outcomes =
      bs.map (k.ruling f s.cache) :=
    Admission.outcomes_eq_map hl (fun _ _ _ hr => hr) hstages
  refine ⟨houtcomes, hshared.cache.congr fun b => ⟨hshared.passed b, ?_⟩⟩
  rintro ⟨hb, hpass⟩
  obtain ⟨i, hi⟩ := List.mem_iff_getElem?.mp hb
  exact ⟨i, _, hi, by simp [houtcomes, hi], hpass⟩

end MarkdownFences.Check
