import MarkdownFences.Proofs.Admission.Invariant
import MarkdownFences.Proofs.Check.Judgement

namespace MarkdownFences

/-- What the check of a block can come to: nothing to say, a tag for a block without one, or an
issue with the tag that removes it. -/
inductive Finding.IsOf (b : Block) : Finding → Prop
  | clean : IsOf b (.clean b)
  | untagged (l : Language) (hb : b.tag = none) : IsOf b ⟨b, none, some l.tag⟩
  | mismatch (declared : Text) (l : Language) (i : LanguageIssue)
      (hi : b.mismatch declared l = some i) : IsOf b ⟨b, some i, some i.detected⟩

namespace Check

variable {τ ρ : Type} {k : Check τ ρ} {b : Block} {p : Purpose} {known : Bool}

theorem settled_cases {f : Finding} (h : k.purpose known b = .error f) :
    f = .clean b ∧ (k.fix = true → b.tag.isSome = true) ∨
      f = ⟨b, none, some Language.text.tag⟩ ∧ b.tag = none := by
  rw [purpose] at h
  cases hb : b.tag with
  | none =>
    simp only [hb] at h
    split at h
    case isTrue hfix =>
      refine .inl ⟨(Except.error.inj h).symm, fun hon => ?_⟩
      rw [hon] at hfix
      cases hfix
    case isFalse =>
      split at h
      · exact .inr ⟨(Except.error.inj h).symm, rfl⟩
      · cases h
  | some tag =>
    simp only [hb] at h
    split at h
    · exact .inl ⟨(Except.error.inj h).symm, fun _ => rfl⟩
    · split at h
      · exact .inl ⟨(Except.error.inj h).symm, fun _ => rfl⟩
      · cases h

theorem isOf_of_settled {f : Finding} (h : k.purpose known b = .error f) : f.IsOf b := by
  obtain ⟨rfl, -⟩ | ⟨rfl, hb⟩ := settled_cases h
  · exact .clean
  · exact .untagged .text hb

theorem issue_of_settled {f : Finding} (h : k.purpose known b = .error f) : f.issue = none := by
  obtain ⟨rfl, -⟩ | ⟨rfl, -⟩ := settled_cases h
  · rfl
  · rfl

theorem tagging_iff (h : k.purpose known b = .ok p) : p = .tagging ↔ b.tag = none := by
  rw [purpose] at h
  cases hb : b.tag with
  | none =>
    simp only [hb] at h
    split at h
    · cases h
    · split at h
      · cases h
      · obtain rfl := Except.ok.inj h
        exact ⟨fun _ => rfl, fun _ => rfl⟩
  | some tag =>
    simp only [hb] at h
    split at h
    · cases h
    · split at h
      · cases h
      · obtain rfl := Except.ok.inj h
        exact iff_of_false (fun hp => by cases hp) (Option.some_ne_none tag)

theorem isOf_found (hp : p = .tagging → b.tag = none) (l : Language) : (found b p l).IsOf b := by
  cases p with
  | tagging => exact .untagged l (hp rfl)
  | comparison declared =>
    rw [found]
    cases hi : b.mismatch declared l with
    | none => exact .clean
    | some i => exact .mismatch declared l i hi

/-- What the check of a block comes to where it comes to something: a finding without a language,
or one with a language. -/
inductive ComesTo (k : Check τ ρ) (b : Block) : Finding → Prop
  | settled {known : Bool} {f : Finding} (h : k.purpose known b = .error f) : ComesTo k b f
  | asked {known : Bool} {p : Purpose} (h : k.purpose known b = .ok p) (l : Language) :
      ComesTo k b (found b p l)

theorem ComesTo.isOf {f : Finding} (h : k.ComesTo b f) : f.IsOf b := by
  cases h with
  | settled h => exact isOf_of_settled h
  | asked h l => exact isOf_found (tagging_iff h).mp l

theorem comesTo_conclude (hp : k.purpose known b = .ok p) (s : State τ) (r : Except Fault Language)
    {f : Finding} (h : (k.conclude s b p r).2 = .ok f) : k.ComesTo b f := by
  rw [conclude_snd] at h
  cases r with
  | error e => cases h
  | ok l =>
    obtain rfl := Except.ok.inj h
    exact .asked hp l

inductive Starts (k : Check τ ρ) (s : State τ) (b : Block) :
    State τ × Turn (Pending ρ) (Except Fault Finding) → Prop
  | settled {s' : State τ} {f : Finding} (h : k.prepare s b = (s', .error f)) :
      Starts k s b (s'.tick k, .done (.ok f))
  | answered {s' : State τ} {p : Purpose} {c : Classifier.State τ} {r : Except Fault Language}
      (h : k.prepare s b = (s', .ok p))
      (hc : k.classifier.start s'.classifier b.content = (c, .done r)) :
      Starts k s b ((k.conclude { s' with classifier := c } b p r).1,
        .done (k.conclude { s' with classifier := c } b p r).2)
  | asked {s' : State τ} {p : Purpose} {c : Classifier.State τ} {q : Classifier.Pending ρ}
      (h : k.prepare s b = (s', .ok p))
      (hc : k.classifier.start s'.classifier b.content = (c, .waiting q)) :
      Starts k s b ({ s' with classifier := c }, .waiting ⟨p, q⟩)

theorem starts (k : Check τ ρ) (delay : Nat → Block → Nat) (s : State τ) (i : Nat) (b : Block) :
    k.Starts s b ((k.worker delay).start s i b) := by
  simp only [worker, start]
  cases h : k.prepare s b with
  | mk s' x =>
    cases x with
    | error f => exact .settled h
    | ok p =>
      simp only
      cases hc : k.classifier.start s'.classifier b.content with
      | mk c turn =>
        cases turn with
        | done r => exact .answered h hc
        | waiting q => exact .asked h hc

theorem purpose_of_prepare {s s' : State τ} {q : Except Finding Purpose}
    (h : k.prepare s b = (s', q)) : k.purpose (s.knows k b) b = q := by
  rw [← prepare_snd, h]

theorem digests_apart {digest : Text → Text} {bs : List Block}
    (hd : ∀ a ∈ bs, ∀ b ∈ bs, digest a.content = digest b.content → a.content = b.content) :
    ∀ t ∈ bs.map (·.content), ∀ u ∈ bs.map (·.content), digest t = digest u → t = u := by
  intro t ht u hu
  obtain ⟨a, ha, rfl⟩ := List.mem_map.mp ht
  obtain ⟨b, hb, rfl⟩ := List.mem_map.mp hu
  exact hd a ha b hb

def SamePlace (c d : ValidationCache) : Prop := d.path = c.path ∧ d.enabled = c.enabled

theorem SamePlace.caches {c d e : ValidationCache} {r : Except Fault Finding}
    (h : SamePlace c d) (hc : Caches k d b r e) : SamePlace c e :=
  ⟨hc.path.trans h.1, hc.enabled.trans h.2⟩

theorem SamePlace.sameKeys {c d e : ValidationCache} (h : SamePlace c d) (hc : SameKeys d e) :
    SamePlace c e :=
  ⟨hc.path.trans h.1, hc.enabled.trans h.2⟩

theorem SamePlace.conclude {c : ValidationCache} {s : State τ} (h : SamePlace c s.cache)
    (hp : k.purpose known b = .ok p) (r : Except Fault Language) :
    SamePlace c (k.conclude s b p r).1.cache :=
  h.caches (conclude_caches ⟨rfl, rfl, rfl, rfl⟩ (tagging_iff hp) r)

theorem worker_respects (k : Check τ ρ) (delay : Nat → Block → Nat) (c : ValidationCache) :
    (k.worker delay).Respects (fun s => SamePlace c s.cache)
      (fun b q => ∃ known, k.purpose known b = .ok q.purpose)
      (fun b r => ∀ f, r = .ok f → k.ComesTo b f) where
  start := by
    intro s i b hs
    have hcaches := prepare_caches k s b
    have hstarts := k.starts delay s i b
    generalize (k.worker delay).start s i b = out at hstarts
    cases hstarts with
    | settled h =>
      rw [h] at hcaches
      exact hs.caches hcaches
    | answered h hc =>
      rw [h] at hcaches
      refine SamePlace.conclude ?_ (purpose_of_prepare h) _
      exact hs.sameKeys hcaches.1
    | asked h hc =>
      rw [h] at hcaches
      exact hs.sameKeys hcaches.1
  start_done := by
    intro s i b r _ hr f hf
    have hstarts := k.starts delay s i b
    generalize (k.worker delay).start s i b = out at hstarts hr
    cases hstarts with
    | settled h =>
      obtain rfl := Turn.done.inj hr
      obtain rfl := Except.ok.inj hf
      exact .settled (purpose_of_prepare h)
    | answered h hc =>
      exact comesTo_conclude (purpose_of_prepare h) _ _ ((Turn.done.inj hr).trans hf)
    | asked h hc => cases hr
  start_waiting := by
    intro s i b q _ hq
    have hstarts := k.starts delay s i b
    generalize (k.worker delay).start s i b = out at hstarts hq
    cases hstarts with
    | settled h => cases hq
    | answered h hc => cases hq
    | asked h hc =>
      obtain rfl := Turn.waiting.inj hq
      exact ⟨_, purpose_of_prepare h⟩
  finish := by
    rintro s i b q hs ⟨known, hq⟩
    constructor
    · refine SamePlace.conclude ?_ hq _
      exact hs
    · exact fun f hf => comesTo_conclude hq _ _ hf
  failed := fun _ _ _ hs => hs

end Check

end MarkdownFences
