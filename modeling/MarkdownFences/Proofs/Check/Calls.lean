import MarkdownFences.Proofs.Check.Findings
import MarkdownFences.Proofs.Check.Mended
import MarkdownFences.Proofs.Classifier.Calls

namespace MarkdownFences.Check

open Admission (Stage Course Move Moves)

variable {τ ρ : Type} {k : Check τ ρ} {bs : List Block} {b : Block} {i : Nat}
variable {x y : Course (State τ) (Pending ρ) Finding}
variable {u : Course (Classifier.State τ) (Classifier.Pending ρ) Language}

def calls (k : Check τ ρ) : Worker (Classifier.State τ) Text (Classifier.Pending ρ) Language :=
  k.classifier.calls (fun _ _ => 0) fun i e => [failedEntry i e]

/-- How far a check has come, and how far the call for the language of its block. -/
inductive Stands (k : Check τ ρ) (b : Block) :
    Stage (Pending ρ) Finding → Stage (Classifier.Pending ρ) Language → Prop
  | idle : Stands k b .idle .idle
  | settled {known : Bool} {f : Finding} (h : k.purpose known b = .error f) :
      Stands k b (.done (.ok f)) .idle
  | waiting {known : Bool} {p : Pending ρ} (h : k.purpose known b = .ok p.purpose) :
      Stands k b (.waiting p) (.waiting p.question)
  | done {known : Bool} {p : Purpose} {r : Except Fault Language}
      (h : k.purpose known b = .ok p) : Stands k b (.done (r.map (found b p))) (.done r)

/-- Checks and the calls that they make. -/
structure Makes (k : Check τ ρ) (bs : List Block) (x : Course (State τ) (Pending ρ) Finding)
    (u : Course (Classifier.State τ) (Classifier.Pending ρ) Language) : Prop where
  shared : u.shared = x.shared.classifier
  stages : x.Each (fun i b stage => ∃ stage', u.stages[i]? = some stage' ∧ k.Stands b stage stage')
    bs

theorem makes_start (k : Check τ ρ) (bs : List Block) (s : State τ) :
    Makes k bs (Course.start s bs) (Course.start s.classifier (bs.map (·.content))) := by
  refine ⟨rfl, fun i b stage hb hi => ⟨.idle, ?_, ?_⟩⟩
  · simp [Course.start, hb]
  · obtain ⟨_, -, rfl⟩ := List.mem_map.mp (List.mem_of_getElem? hi)
    exact .idle

theorem Makes.set (h : Makes k bs x u) (hb : bs[i]? = some b) (hi : i < u.stages.length)
    {stage : Stage (Pending ρ) Finding} {stage' : Stage (Classifier.Pending ρ) Language}
    (hstands : k.Stands b stage stage') {s : State τ} {c : Classifier.State τ}
    (hc : c = s.classifier) :
    Makes k bs ⟨s, x.stages.set i stage⟩ ⟨c, u.stages.set i stage'⟩ := by
  refine ⟨hc, fun j b' stage₁ hb' hj => ?_⟩
  by_cases hij : i = j
  · subst hij
    obtain rfl := Option.some.inj (hb.symm.trans hb')
    rw [List.getElem?_set, if_pos rfl] at hj
    split at hj
    · rw [← Option.some.inj hj]
      exact ⟨stage', List.getElem?_set_self hi, hstands⟩
    · cases hj
  · rw [List.getElem?_set_ne hij] at hj ⊢
    exact h.stages j b' stage₁ hb' hj

theorem Makes.settle (h : Makes k bs x u) (hb : bs[i]? = some b)
    (hcall : u.stages[i]? = some .idle) {known : Bool} {f : Finding}
    (hp : k.purpose known b = .error f) {s : State τ} (hs : s.classifier = x.shared.classifier) :
    Makes k bs ⟨s, x.stages.set i (.done (.ok f))⟩ u := by
  obtain ⟨hlt, hidle⟩ := List.getElem?_eq_some_iff.mp hcall
  have hset := h.set hb hlt (.settled hp) (h.shared.trans hs.symm)
  have hsame : u.stages.set i .idle = u.stages := by
    rw [← hidle]
    exact List.set_getElem_self hlt
  rwa [hsame] at hset

theorem noted_conclude (delay : Nat → Block → Nat) (s : State τ) (i : Nat) (b : Block)
    (p : Purpose) (r : Except Fault Language) :
    k.calls.noted s.classifier i r =
      ((k.worker delay).noted (k.conclude s b p r).1 i (k.conclude s b p r).2).classifier := by
  cases r with
  | error e => rfl
  | ok l => exact (settle_classifier s l).symm

theorem Makes.conclude (h : Makes k bs x u) (hb : bs[i]? = some b) (hi : i < u.stages.length)
    {known : Bool} {p : Purpose} (hp : k.purpose known b = .ok p) (delay : Nat → Block → Nat)
    (s : State τ) (r : Except Fault Language) :
    Makes k bs
      ⟨(k.worker delay).noted (k.conclude s b p r).1 i (k.conclude s b p r).2,
        x.stages.set i (.done (k.conclude s b p r).2)⟩
      ⟨k.calls.noted s.classifier i r, u.stages.set i (.done r)⟩ := by
  refine h.set hb hi ?_ (noted_conclude delay s i b p r)
  rw [conclude_snd]
  exact .done hp

theorem getElem?_content (hb : bs[i]? = some b) : (bs.map (·.content))[i]? = some b.content := by
  rw [List.getElem?_map, hb]
  rfl

theorem Makes.idle (h : Makes k bs x u) (hb : bs[i]? = some b) (hi : x.stages[i]? = some .idle) :
    u.stages[i]? = some .idle := by
  obtain ⟨stage', hcall, hstands⟩ := h.stages i b _ hb hi
  cases hstands
  exact hcall

theorem Makes.move {delay : Nat → Block → Nat} (h : Makes k bs x u)
    (hm : Move (k.worker delay) bs x y) :
    ∃ v, Moves k.calls (bs.map (·.content)) u v ∧ Makes k bs y v := by
  cases hm with
  | @ends i b shared r hb hi hs =>
    have hidle := h.idle hb hi
    have hstarts := k.starts delay x.shared i b
    rw [hs] at hstarts
    cases hstarts with
    | settled hp =>
      have hclassifier := classifier_of_prepare hp
      exact ⟨u, .refl, h.settle hb hidle (purpose_of_prepare hp) hclassifier⟩
    | @answered s' p c r hp hc =>
      have hcall : k.calls.start u.shared i b.content = (c, .done r) := by
        rw [h.shared, ← classifier_of_prepare hp]
        exact hc
      refine ⟨_, .single (.ends (getElem?_content hb) hidle hcall), ?_⟩
      exact h.conclude hb (List.getElem?_eq_some_iff.mp hidle).1 (purpose_of_prepare hp) delay
        { s' with classifier := c } r
  | @waits i b shared q hb hi hs =>
    have hidle := h.idle hb hi
    have hstarts := k.starts delay x.shared i b
    rw [hs] at hstarts
    cases hstarts with
    | @asked s' p c q hp hc =>
      have hcall : k.calls.start u.shared i b.content = (c, .waiting q) := by
        rw [h.shared, ← classifier_of_prepare hp]
        exact hc
      refine ⟨_, .single (.waits (getElem?_content hb) hidle hcall), ?_⟩
      refine h.set hb (List.getElem?_eq_some_iff.mp hidle).1 ?_ rfl
      exact .waiting (purpose_of_prepare hp)
  | @goesOn i b q shared r hb hi hs =>
    obtain ⟨stage', hstage, hstands⟩ := h.stages i b _ hb hi
    obtain ⟨rfl, rfl⟩ := Prod.mk.inj hs
    cases hstands with
    | waiting hp =>
      refine ⟨_, .single (.goesOn (getElem?_content hb) hstage rfl), ?_⟩
      have hconclude := h.conclude hb (List.getElem?_eq_some_iff.mp hstage).1 hp delay
        { x.shared with classifier := (k.classifier.finish x.shared.classifier q.question).1 }
        (k.classifier.finish x.shared.classifier q.question).2
      rw [h.shared]
      exact hconclude

/-- The calls that the checks of a run make, in some order, on one memo. -/
theorem exists_calls {limit : Nat} (hl : 0 < limit) (k : Check τ ρ) (delay : Nat → Block → Nat)
    (s : State τ) (bs : List Block) :
    ∃ u, Moves k.calls (bs.map (·.content)) (Course.start s.classifier (bs.map (·.content))) u ∧
      u.shared = (Admission.run (k.worker delay) limit 0 s bs).shared.classifier ∧
      ∀ (i : Nat) b r, bs[i]? = some b →
        (Admission.run (k.worker delay) limit 0 s bs).outcomes[i]? = some r →
        ∃ stage, u.stages[i]? = some stage ∧ k.Stands b (.done r) stage := by
  obtain ⟨u, hu, hmakes⟩ := Admission.run_induction (w := k.worker delay)
    (fun x => ∃ u, Moves k.calls (bs.map (·.content))
      (Course.start s.classifier (bs.map (·.content))) u ∧ Makes k bs x u) hl
    ⟨_, .refl, makes_start k bs s⟩ (fun x y ⟨u, hu, h⟩ hm => by
      obtain ⟨v, hv, hmakes⟩ := h.move hm
      exact ⟨v, hu.trans hv, hmakes⟩) 0
  refine ⟨u, hu, hmakes.shared, fun i b r hb hr => ?_⟩
  refine hmakes.stages i b (.done r) hb ?_
  rw [List.getElem?_map, hr]
  rfl

theorem Stands.tag_eq (hk : k.fix = true) (hb : b.tag = none) {f : Finding}
    {stage : Stage (Classifier.Pending ρ) Language} (h : k.Stands b (.done (.ok f)) stage) :
    Text.isVoid b.content = true ∧ f.tag = some Language.text.tag ∨
      Text.isVoid b.content = false ∧ ∃ l, stage = .done (.ok l) ∧ f.tag = some l.tag := by
  generalize hr : (Except.ok f : Except Fault Finding) = r at h
  cases hv : Text.isVoid b.content with
  | true =>
    refine .inl ⟨rfl, ?_⟩
    cases h with
    | settled h =>
      rw [purpose_of_void hk hb hv] at h
      rw [Except.ok.inj hr, ← Except.error.inj h]
    | done h =>
      rw [purpose_of_void hk hb hv] at h
      cases h
  | false =>
    refine .inr ⟨rfl, ?_⟩
    cases h with
    | settled h =>
      rw [purpose_of_untagged hk hb hv] at h
      cases h
    | @done known p r h =>
      rw [purpose_of_untagged hk hb hv] at h
      obtain rfl := Except.ok.inj h
      cases r with
      | error e => cases hr
      | ok l =>
        refine ⟨l, rfl, ?_⟩
        rw [Except.ok.inj hr]
        rfl

theorem Stands.tag_eq_or {a : Block} {f g : Finding}
    {stage stage' : Stage (Classifier.Pending ρ) Language} (hk : k.fix = true) (ha : a.tag = none)
    (hb : b.tag = none) (hab : a.content = b.content) (h : k.Stands a (.done (.ok f)) stage)
    (h' : k.Stands b (.done (.ok g)) stage') :
    f.tag = g.tag ∨ ∃ l l' : Language, stage = .done (.ok l) ∧ stage' = .done (.ok l') ∧
      f.tag = some l.tag ∧ g.tag = some l'.tag := by
  obtain ⟨hv, hf⟩ | ⟨hv, l, hl, hf⟩ := h.tag_eq hk ha
  · obtain ⟨-, hg⟩ | ⟨hv', -⟩ := h'.tag_eq hk hb
    · exact .inl (hf.trans hg.symm)
    · rw [hab, hv'] at hv
      cases hv
  · obtain ⟨hv', -⟩ | ⟨-, l', hl', hg⟩ := h'.tag_eq hk hb
    · rw [hab, hv'] at hv
      cases hv
    · exact .inr ⟨l, l', hl, hl', hf, hg⟩

theorem Stands.eq_done (hk : k.fix = true) (hb : b.tag = none) (hv : Text.isVoid b.content = false)
    {f : Finding} {stage : Stage (Classifier.Pending ρ) Language}
    (h : k.Stands b (.done (.ok f)) stage) {l : Language} (hl : f.tag = some l.tag) :
    stage = .done (.ok l) := by
  obtain ⟨hv', -⟩ | ⟨-, l', rfl, hl'⟩ := h.tag_eq hk hb
  · rw [hv] at hv'
    cases hv'
  · have hofTag : some l' = some l := by
      rw [← Language.ofTag?_tag, ← Language.ofTag?_tag, Option.some.inj (hl'.symm.trans hl)]
    rw [Option.some.inj hofTag]

end MarkdownFences.Check
