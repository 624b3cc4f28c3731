import MarkdownFences.Proofs.Check.Settled
import Mathlib.Data.List.Forall2

namespace MarkdownFences.Check

variable {τ₁ ρ₁ τ₂ ρ₂ : Type} {k₁ : Check τ₁ ρ₁} {k₂ : Check τ₂ ρ₂} {cs : List Text}

/-- The block of a finding when it is checked again: as it was if there was nothing to say, or
with its language declared. -/
def Again (lenient : Bool) (f : Finding) (b : Block) : Prop :=
  f = .clean b ∧ b.tag.isSome = true ∨
    ∃ l, f.block.IsIn l ∧ ¬ f.block.Holds lenient ∧ b = f.block.declaring l

theorem Again.content {lenient : Bool} {f : Finding} {b : Block} (h : Again lenient f b) :
    b.content = f.block.content ∧ b.tag.isSome = true := by
  obtain ⟨rfl, ht⟩ | ⟨l, -, -, rfl⟩ := h
  · exact ⟨rfl, ht⟩
  · exact ⟨rfl, rfl⟩

theorem Again.known (hd : k₂.classifier.digest = k₁.classifier.digest) {s₁ : State τ₁}
    {s₂ : State τ₂} {f : Finding} {b : Block} (h : Again k₁.lenient f b)
    (hs : Settled k₁.lenient (s₁.knows k₁ f.block) f.block f)
    (hon : s₂.cache.enabled = s₁.cache.enabled)
    (hkeys : s₁.cache.enabled = true → s₁.cache.keys ⊆ s₂.cache.keys) :
    s₂.knows k₂ b = true ∨ b.Holds k₁.lenient := by
  obtain ⟨rfl, ht⟩ | ⟨l, hl, -, rfl⟩ := h
  · obtain ⟨-, -, hk | hholds⟩ | ⟨l, -, -, -, htag, -⟩ := hs
    · obtain ⟨he, hk⟩ := knows_iff.mp hk
      exact .inl (knows_iff.mpr ⟨hon.trans he, hd ▸ hkeys he hk⟩)
    · exact .inr hholds
    · cases htag
  · exact .inr (Block.holds_declaring _ hl)

theorem Again.keys (hd : k₂.classifier.digest = k₁.classifier.digest) {s₁ : State τ₁}
    {s₂ : State τ₂} {f : Finding} {b : Block} (h : Again k₁.lenient f b)
    (hs : Settled k₁.lenient (s₁.knows k₁ f.block) f.block f)
    (hon : s₂.cache.enabled = s₁.cache.enabled)
    (hkeys : s₁.cache.enabled = true → s₁.cache.keys ⊆ s₂.cache.keys)
    {c₁ c₂ : ValidationCache} (h₁ : Caches k₁ s₁.cache f.block (.ok f) c₁)
    (h₂ : Caches k₂ s₂.cache b (.ok (.clean b)) c₂) (he : s₁.cache.enabled = true) :
    c₁.keys ⊆ c₂.keys := by
  intro q hq
  have hold (hq : q ∈ s₁.cache.keys) : q ∈ c₂.keys := h₂.keys_subset (hkeys he hq)
  obtain hq | ⟨rfl, ht, f', hf', hissue⟩ := h₁.new q hq
  · exact hold hq
  · obtain rfl := Except.ok.inj hf'
    obtain ⟨rfl, -⟩ | ⟨l, -, hnot, rfl⟩ := h
    · exact hd ▸ h₂.clean _ rfl ht rfl (hon.trans he)
    · obtain ⟨-, -, hk | hholds⟩ | ⟨l', -, -, -, -, hissue'⟩ := hs
      · exact hold (knows_iff.mp hk).2
      · exact absurd hholds hnot
      · rw [hissue, ht] at hissue'
        cases hissue'

theorem pass_again (ha₁ : k₁.classifier.advisor = none) (ha₂ : k₂.classifier.advisor = none)
    (hdigest : k₂.classifier.digest = k₁.classifier.digest) (hlenient : k₂.lenient = k₁.lenient)
    (hfix : k₁.fix = true) (delay₁ delay₂ : Nat → Block → Nat)
    (hd : ∀ a ∈ cs, ∀ b ∈ cs, k₁.classifier.digest a = k₁.classifier.digest b → a = b)
    {fs : List Finding} {bs : List Block} (hrel : List.Forall₂ (Again k₁.lenient) fs bs)
    (hcs : ∀ f ∈ fs, f.block.content ∈ cs) {s₁ : State τ₁} {s₂ : State τ₂} {i j : Nat}
    (hm₁ : Classifier.Recalls k₁.classifier.digest (fun _ => .ok none) cs s₁.memo)
    (hm₂ : Classifier.Recalls k₁.classifier.digest (fun _ => .ok none) cs s₂.memo)
    (hon : s₂.cache.enabled = s₁.cache.enabled)
    (hkeys : s₁.cache.enabled = true → s₁.cache.keys ⊆ s₂.cache.keys)
    (hpass : ((k₁.worker delay₁).pass s₁ i (fs.map (·.block))).2 = fs.map .ok) :
    ((k₂.worker delay₂).pass s₂ j bs).2 = bs.map fun b => .ok (.clean b) := by
  -- both memos recall the same all along, and the second cache has the keys of the first
  induction hrel generalizing s₁ s₂ i j with
  | nil => rfl
  | @cons f b fs bs hrel _ ih =>
    rw [List.map_cons, Worker.pass_cons, List.map_cons, List.cons.injEq] at hpass
    obtain ⟨hvisit, hpass⟩ := hpass
    obtain ⟨hc, hcs⟩ := List.forall_mem_cons.mp hcs
    obtain ⟨hmemo₁, hresult₁⟩ :=
      visit_eq_judge (Classifier.opines_none ha₁) delay₁ s₁ i f.block
    obtain ⟨hmemo₂, hresult₂⟩ := visit_eq_judge (Classifier.opines_none ha₂) delay₂ s₂ j b
    obtain ⟨hs, hr₁⟩ := judge_settled hd hm₁ hc hfix (hresult₁ ▸ hvisit)
    obtain ⟨hcontent, htag⟩ := hrel.content
    -- the second check has nothing to ask: the block is known or may keep its tag
    have hknown := hrel.known hdigest hs hon hkeys
    have hd₂ := hd
    rw [← hdigest] at hd₂ hm₂
    rw [← hcontent] at hc
    rw [← hlenient] at hknown
    obtain ⟨hclean, hr₂⟩ := judge_tagged hd₂ hm₂ hc htag hknown
    have hcaches₁ := visit_caches k₁ delay₁ s₁ i f.block
    have hcaches₂ := visit_caches k₂ delay₂ s₂ j b
    rw [hvisit] at hcaches₁
    rw [hresult₂, hclean] at hcaches₂
    rw [Worker.pass_cons, List.map_cons, hresult₂, hclean]
    rw [← hmemo₁] at hr₁
    rw [← hmemo₂, hdigest] at hr₂
    refine congrArg (List.cons (Except.ok (Finding.clean b))) (ih hcs hr₁ hr₂ ?_ ?_ hpass)
    · rw [hcaches₁.enabled, hcaches₂.enabled, hon]
    · intro he
      rw [hcaches₁.enabled] at he
      exact hrel.keys hdigest hs hon hkeys hcaches₁ hcaches₂ he

end MarkdownFences.Check
