import MarkdownFences.Check
import MarkdownFences.Proofs.Admission.Pass
import MarkdownFences.Proofs.Classifier.Look
import MarkdownFences.Proofs.Result
import MarkdownFences.Proofs.ValidationCache.Lookup

namespace MarkdownFences.Check

open Classifier (look)

variable {τ ρ : Type}

def found (b : Block) (p : Purpose) (l : Language) : Finding :=
  match p with
  | .tagging => ⟨b, none, some l.tag⟩
  | .comparison declared =>
    match b.mismatch declared l with
    | none => .clean b
    | some i => ⟨b, some i, some i.detected⟩

def purpose (k : Check τ ρ) (known : Bool) (b : Block) : Except Finding Purpose :=
  match b.tag with
  | none =>
    if !k.fix then .error (.clean b)
    else if Text.isVoid b.content then .error ⟨b, none, some Language.text.tag⟩
    else .ok .tagging
  | some _ =>
    if known then .error (.clean b)
    else
      match b.questioned k.lenient with
      | none => .error (.clean b)
      | some declared => .ok (.comparison declared)

def judge (k : Check τ ρ) (f : Text → Except Fault (Option Language)) (known : Bool)
    (memo : List (Text × Language)) (b : Block) : List (Text × Language) × Except Fault Finding :=
  match k.purpose known b with
  | .error finding => (memo, .ok finding)
  | .ok p =>
    let (memo, r) := look k.classifier.digest f memo b.content
    (memo, r.map (found b p))

def State.knows (k : Check τ ρ) (s : State τ) (b : Block) : Bool :=
  s.cache.enabled && s.cache.keys.contains (ValidationCache.key k.classifier.digest b)

def State.memo (s : State τ) : List (Text × Language) := s.classifier.memo.entries

/-- The cache after a check: a block that was found valid is in it from then on, and nothing else
is new. -/
structure Caches (k : Check τ ρ) (c : ValidationCache) (b : Block) (r : Except Fault Finding)
    (after : ValidationCache) : Prop where
  path : after.path = c.path
  enabled : after.enabled = c.enabled
  keys_subset : c.keys ⊆ after.keys
  new : ∀ q ∈ after.keys, q ∈ c.keys ∨ q = ValidationCache.key k.classifier.digest b ∧
    b.tag.isSome = true ∧ ∃ f, r = .ok f ∧ f.issue = none
  clean : ∀ f, r = .ok f → b.tag.isSome = true → f.issue = none → c.enabled = true →
    ValidationCache.key k.classifier.digest b ∈ after.keys
  dirty : after.dirty = false → after.keys = c.keys ∧ c.dirty = false
  marked : after.dirty = true → c.dirty = true ∨
    c.enabled = true ∧ b.tag.isSome = true ∧ ∃ f, r = .ok f ∧ f.issue = none
  nodup : c.keys.Nodup → after.keys.Nodup

variable {k : Check τ ρ} {s : State τ} {b : Block} {p : Purpose}

theorem knows_iff : s.knows k b = true ↔
    s.cache.enabled = true ∧ ValidationCache.key k.classifier.digest b ∈ s.cache.keys := by
  rw [State.knows, Bool.and_eq_true, List.contains_iff_mem]

/-- What the beginning of a check can do: the block is settled, known or not, or it is clear what
its language is needed for. -/
inductive Prepares (k : Check τ ρ) (s : State τ) (b : Block) :
    State τ × Except Finding Purpose → Prop
  | left (hb : b.tag = none) (hk : k.fix = false) : Prepares k s b (s, .error (.clean b))
  | void (hb : b.tag = none) (hk : k.fix = true) (hv : Text.isVoid b.content = true) :
      Prepares k s b (s, .error ⟨b, none, some Language.text.tag⟩)
  | untagged (hb : b.tag = none) (hk : k.fix = true) (hv : Text.isVoid b.content = false) :
      Prepares k s b (s, .ok .tagging)
  | known (hb : b.tag.isSome = true) (hs : s.knows k b = true) :
      Prepares k s b ({ s with cache := (s.cache.isValid k.classifier.digest b).1 },
        .error (.clean b))
  | unquestioned (hb : b.tag.isSome = true) (hs : s.knows k b = false)
      (hq : b.questioned k.lenient = none) :
      Prepares k s b
        (State.accept k { s with cache := (s.cache.isValid k.classifier.digest b).1 } b,
          .error (.clean b))
  | questioned {declared : Text} (hb : b.tag.isSome = true) (hs : s.knows k b = false)
      (hq : b.questioned k.lenient = some declared) :
      Prepares k s b ({ s with cache := (s.cache.isValid k.classifier.digest b).1 },
        .ok (.comparison declared))

theorem prepares (k : Check τ ρ) (s : State τ) (b : Block) : k.Prepares s b (k.prepare s b) := by
  have hknows : (s.cache.isValid k.classifier.digest b).2 = s.knows k b :=
    ValidationCache.isValid_snd _ s.cache b
  rw [prepare]
  cases hb : b.tag with
  | none =>
    cases hk : k.fix with
    | false => exact .left hb hk
    | true =>
      cases hv : Text.isVoid b.content with
      | true => exact .void hb hk hv
      | false => exact .untagged hb hk hv
  | some tag =>
    have hsome : b.tag.isSome = true := by rw [hb]; rfl
    simp only [hknows]
    cases hs : s.knows k b with
    | true => exact .known hsome hs
    | false =>
      cases hq : b.questioned k.lenient with
      | none => exact .unquestioned hsome hs hq
      | some declared => exact .questioned hsome hs hq

/-- What the language of a block can lead to: a tag, nothing to say or an issue. -/
inductive Settles (k : Check τ ρ) (s : State τ) (b : Block) (l : Language) :
    Purpose → State τ × Finding → Prop
  | tagged : Settles k s b l .tagging (s, ⟨b, none, some l.tag⟩)
  | agrees {declared : Text} (hi : b.mismatch declared l = none) :
      Settles k s b l (.comparison declared) (s.accept k b, .clean b)
  | differs {declared : Text} {i : LanguageIssue} (hi : b.mismatch declared l = some i) :
      Settles k s b l (.comparison declared) (s.report i, ⟨b, some i, some i.detected⟩)

theorem settles (k : Check τ ρ) (s : State τ) (b : Block) (p : Purpose) (l : Language) :
    k.Settles s b l p (k.settle s b p l) := by
  cases p with
  | tagging => exact .tagged
  | comparison declared =>
    rw [settle]
    cases hi : b.mismatch declared l with
    | none => exact .agrees hi
    | some i => exact .differs hi

theorem prepare_snd (k : Check τ ρ) (s : State τ) (b : Block) :
    (k.prepare s b).2 = k.purpose (s.knows k b) b := by
  have hv : (s.cache.isValid k.classifier.digest b).2 = s.knows k b :=
    ValidationCache.isValid_snd _ s.cache b
  rw [prepare, purpose]
  cases b.tag with
  | none => cases k.fix <;> cases Text.isVoid b.content <;> rfl
  | some tag =>
    simp only [hv]
    cases s.knows k b with
    | true => rfl
    | false => cases b.questioned k.lenient <;> rfl

theorem prepare_frame (k : Check τ ρ) (s : State τ) (b : Block) :
    (k.prepare s b).1 = { s with cache := (k.prepare s b).1.cache } := by
  have hprepares := k.prepares s b
  generalize k.prepare s b = out at hprepares
  cases hprepares <;> rfl

theorem prepare_classifier (k : Check τ ρ) (s : State τ) (b : Block) :
    (k.prepare s b).1.classifier = s.classifier := by
  rw [prepare_frame]

theorem classifier_of_prepare {s' : State τ} {q : Except Finding Purpose}
    (h : k.prepare s b = (s', q)) : s'.classifier = s.classifier := by
  rw [← prepare_classifier k s b, h]

theorem settle_snd (s : State τ) (l : Language) : (k.settle s b p l).2 = found b p l := by
  cases p with
  | tagging => rfl
  | comparison declared =>
    simp only [settle, found]
    cases b.mismatch declared l <;> rfl

theorem report_classifier (s : State τ) (i : LanguageIssue) :
    (s.report i).classifier = s.classifier := by
  rw [State.report, State.head]
  split <;> rfl

theorem settle_classifier (s : State τ) (l : Language) :
    (k.settle s b p l).1.classifier = s.classifier := by
  have hsettles := k.settles s b p l
  generalize k.settle s b p l = out at hsettles
  cases hsettles with
  | tagged => rfl
  | agrees hi => rfl
  | differs hi => exact report_classifier s _

theorem conclude_snd (s : State τ) (r : Except Fault Language) :
    (k.conclude s b p r).2 = r.map (found b p) := by
  cases r with
  | error e => rfl
  | ok l => exact congrArg Except.ok (settle_snd s l)

theorem conclude_classifier (s : State τ) (r : Except Fault Language) :
    (k.conclude s b p r).1.classifier = s.classifier := by
  cases r with
  | error e => rfl
  | ok l => exact settle_classifier s l

section Attend

variable {delay : Nat → Block → Nat} {s' : State τ} {i : Nat}

theorem attend_of_settled {finding : Finding} (h : k.prepare s b = (s', .error finding)) :
    (k.worker delay).attend s i b = (s'.tick k, .ok finding) := by
  simp only [Worker.attend, worker, start, h]

theorem attend_of_asked (h : k.prepare s b = (s', .ok p)) :
    (k.worker delay).attend s i b =
      k.conclude { s' with classifier := (k.classifier.classify s'.classifier b.content).1 } b p
        (k.classifier.classify s'.classifier b.content).2 := by
  simp only [Worker.attend, worker, start, h, Classifier.classify]
  cases k.classifier.start s'.classifier b.content with
  | mk c turn => cases turn <;> rfl

theorem visit_snd : ((k.worker delay).visit s i b).2 = ((k.worker delay).attend s i b).2 := by
  rw [Worker.visit]
  split
  case h_1 h => rw [h]
  case h_2 h => rw [h]

theorem visit_memo :
    ((k.worker delay).visit s i b).1.memo = ((k.worker delay).attend s i b).1.memo := by
  rw [Worker.visit]
  split
  case h_1 h => rw [h]; rfl
  case h_2 h => rw [h]

theorem visit_cache :
    ((k.worker delay).visit s i b).1.cache = ((k.worker delay).attend s i b).1.cache := by
  rw [Worker.visit]
  split
  case h_1 h => rw [h]; rfl
  case h_2 h => rw [h]

end Attend

theorem visit_eq_judge {f : Text → Except Fault (Option Language)} (hf : k.classifier.Opines f)
    (delay : Nat → Block → Nat) (s : State τ) (i : Nat) (b : Block) :
    ((k.worker delay).visit s i b).1.memo = (k.judge f (s.knows k b) s.memo b).1 ∧
      ((k.worker delay).visit s i b).2 = (k.judge f (s.knows k b) s.memo b).2 := by
  obtain ⟨s', x, hp⟩ : ∃ s' x, k.prepare s b = (s', x) := ⟨_, _, rfl⟩
  have hx : k.purpose (s.knows k b) b = x := by rw [← prepare_snd, hp]
  have hc := classifier_of_prepare hp
  rw [visit_snd, visit_memo, judge, hx]
  cases x with
  | error finding =>
    rw [attend_of_settled hp]
    exact ⟨congrArg (·.memo.entries) hc, rfl⟩
  | ok p =>
    have hlook := Classifier.classify_eq_look hf s'.classifier b.content
    rw [attend_of_asked hp, conclude_snd, State.memo, conclude_classifier, hlook.1, hlook.2, hc]
    exact ⟨rfl, rfl⟩

structure SameKeys (c d : ValidationCache) : Prop where
  path : d.path = c.path
  enabled : d.enabled = c.enabled
  keys : d.keys = c.keys
  dirty : d.dirty = c.dirty

theorem sameKeys_isValid (digest : Text → Text) (c : ValidationCache) (b : Block) :
    SameKeys c (c.isValid digest b).1 := by
  cases he : c.enabled with
  | false =>
    rw [ValidationCache.isValid_of_disabled he]
    exact ⟨rfl, rfl, rfl, rfl⟩
  | true =>
    rw [ValidationCache.isValid_of_enabled he]
    exact ⟨rfl, rfl, rfl, rfl⟩

theorem SameKeys.caches {c d : ValidationCache} (h : SameKeys c d) {r : Except Fault Finding}
    (hr : ∀ f, r = .ok f → b.tag.isSome = true → f.issue = none → c.enabled = true →
      ValidationCache.key k.classifier.digest b ∈ c.keys) : Caches k c b r d :=
  ⟨h.path, h.enabled, h.keys ▸ List.Subset.refl _, fun _ hq => .inl (h.keys ▸ hq), h.keys ▸ hr,
    fun hd => ⟨h.keys, h.dirty ▸ hd⟩, fun hd => .inl (h.dirty ▸ hd), fun hn => h.keys ▸ hn⟩

theorem SameKeys.caches_markValid {c d : ValidationCache} (h : SameKeys c d)
    (hb : b.tag.isSome = true) {f : Finding} (hf : f.issue = none) :
    Caches k c b (.ok f) (d.markValid k.classifier.digest b) := by
  cases he : d.enabled with
  | false =>
    rw [ValidationCache.markValid_of_disabled he]
    refine h.caches fun f _ _ _ hc => ?_
    rw [← h.enabled, he] at hc
    cases hc
  | true =>
    have hon : c.enabled = true := h.enabled.symm.trans he
    have hmark := ValidationCache.markValid_of_enabled he k.classifier.digest b
    have hmem {q : Json.Points} : q ∈ (d.markValid k.classifier.digest b).keys ↔
        q ∈ c.keys ∨ q = ValidationCache.key k.classifier.digest b := by
      rw [ValidationCache.mem_markValid he, h.keys]
    refine ⟨?_, ?_, fun q hq => hmem.mpr (.inl hq), fun q hq => ?_, fun _ _ _ _ _ => ?_,
      fun hd => ?_, fun _ => .inr ⟨hon, hb, f, rfl, hf⟩,
      fun hn => ValidationCache.nodup_markValid he (h.keys ▸ hn) b⟩
    · rw [hmark]
      exact h.path
    · rw [hmark]
      exact h.enabled
    · exact (hmem.mp hq).imp_right fun hkey => ⟨hkey, hb, f, rfl, hf⟩
    · exact hmem.mpr (.inr rfl)
    · rw [hmark] at hd
      cases hd

theorem report_cache (s : State τ) (i : LanguageIssue) : (s.report i).cache = s.cache := by
  rw [State.report, State.head]
  split <;> rfl

theorem conclude_caches {c : ValidationCache} (h : SameKeys c s.cache)
    (ht : p = .tagging ↔ b.tag = none) (r : Except Fault Language) :
    Caches k c b (k.conclude s b p r).2 (k.conclude s b p r).1.cache := by
  cases r with
  | error e => exact h.caches fun f hf => nomatch hf
  | ok l =>
    have hsettles := k.settles s b p l
    rw [conclude]
    generalize k.settle s b p l = out at hsettles
    cases hsettles with
    | tagged => exact h.caches fun f _ hb => absurd (ht.mp rfl) (Option.isSome_iff_ne_none.mp hb)
    | agrees hi =>
      refine h.caches_markValid (Option.isSome_iff_ne_none.mpr fun hb => ?_) rfl
      cases ht.mpr hb
    | @differs declared i hi =>
      have hsame : SameKeys c ((s.report i).tick k).cache := (report_cache s i).symm ▸ h
      refine hsame.caches ?_
      rintro f hf - hnone
      obtain rfl := Except.ok.inj hf
      cases hnone

theorem prepare_caches (k : Check τ ρ) (s : State τ) (b : Block) :
    match k.prepare s b with
    | (s', .error finding) => Caches k s.cache b (.ok finding) s'.cache
    | (s', .ok p) => SameKeys s.cache s'.cache ∧ (p = .tagging ↔ b.tag = none) := by
  have hsame : SameKeys s.cache s.cache := ⟨rfl, rfl, rfl, rfl⟩
  have hvalid := sameKeys_isValid k.classifier.digest s.cache b
  have hprepares := k.prepares s b
  generalize k.prepare s b = out at hprepares
  cases hprepares with
  | left hb | void hb => exact hsame.caches fun f _ ht => by rw [hb] at ht; cases ht
  | untagged hb => exact ⟨hsame, fun _ => hb, fun _ => rfl⟩
  | known hb hs => exact hvalid.caches fun _ _ _ _ _ => (knows_iff.mp hs).2
  | unquestioned hb => exact hvalid.caches_markValid hb rfl
  | questioned hb => exact ⟨hvalid, nofun, fun hnone => by rw [hnone] at hb; cases hb⟩

theorem visit_caches (k : Check τ ρ) (delay : Nat → Block → Nat) (s : State τ) (i : Nat)
    (b : Block) :
    Caches k s.cache b ((k.worker delay).visit s i b).2 ((k.worker delay).visit s i b).1.cache := by
  have hcaches := prepare_caches k s b
  rw [visit_snd, visit_cache]
  obtain ⟨s', x, hp⟩ : ∃ s' x, k.prepare s b = (s', x) := ⟨_, _, rfl⟩
  rw [hp] at hcaches
  cases x with
  | error finding =>
    rw [attend_of_settled hp]
    exact hcaches
  | ok p =>
    rw [attend_of_asked hp]
    apply conclude_caches
    · exact hcaches.1
    · exact hcaches.2

end MarkdownFences.Check
