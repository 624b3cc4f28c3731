import MarkdownFences.Proofs.Check.Findings
import MarkdownFences.Proofs.Check.Mended
import MarkdownFences.Proofs.Check.Unadvised
import MarkdownFences.Proofs.Classifier.Recall

namespace MarkdownFences

namespace Block

/-- The content is in the language by itself; nothing but white space is text. -/
def IsIn (b : Block) (l : Language) : Prop :=
  if Text.isVoid b.content then l = .text else Snippet.guess b.content = .ok l

/-- The block declares a language, and may keep it by itself. -/
def Holds (lenient : Bool) (b : Block) : Prop :=
  b.tag.isSome = true ∧ ∀ declared, b.questioned lenient = some declared →
    ∃ l, Snippet.guess b.content = .ok l ∧ b.mismatch declared l = none

theorem mismatch_eq_none {b : Block} {declared : Text} {l : Language} :
    b.mismatch declared l = none ↔
      (declared = l.tag || Tag.isCompatible declared l.tag b.content) = true := by
  rw [mismatch]
  split
  case isTrue h => exact ⟨fun _ => h, fun _ => rfl⟩
  case isFalse h => exact iff_of_false (Option.some_ne_none _) h

theorem holds_file {lenient : Bool} {b : Block} {p : Path} :
    { b with file := p }.Holds lenient ↔ b.Holds lenient := by
  simp only [Holds, mismatch_eq_none]
  exact Iff.rfl

theorem holds_declaring (lenient : Bool) {b : Block} {l : Language} (h : b.IsIn l) :
    (b.declaring l).Holds lenient := by
  refine ⟨rfl, fun declared hd => ?_⟩
  rw [questioned_declaring] at hd
  rw [IsIn] at h
  split at hd
  case isTrue => cases hd
  case isFalse hv =>
    rw [if_neg hv] at h
    obtain rfl := Option.some.inj hd
    exact ⟨l, h, mismatch_self _ l⟩

end Block

namespace Check

open Classifier (Recalls)

variable {cs : List Text} {memo : List (Text × Language)}

section Judge

variable {τ ρ : Type} {k : Check τ ρ} {b : Block} {known : Bool}

/-- What a check with fixes comes to without second opinions: the block keeps its tag, since it is
known or by itself, or it is given that of its language. -/
def Settled (lenient known : Bool) (b : Block) (f : Finding) : Prop :=
  f = .clean b ∧ b.tag.isSome = true ∧ (known = true ∨ b.Holds lenient) ∨
    ∃ l, b.IsIn l ∧ ¬ b.Holds lenient ∧ f.block = b ∧ f.tag = some l.tag ∧
      f.issue.isSome = b.tag.isSome

theorem judge_recalls
    (hd : ∀ a ∈ cs, ∀ b ∈ cs, k.classifier.digest a = k.classifier.digest b → a = b)
    (hm : Recalls k.classifier.digest (fun _ => .ok none) cs memo) (hc : b.content ∈ cs) :
    Recalls k.classifier.digest (fun _ => .ok none) cs
      (k.judge (fun _ => .ok none) known memo b).1 := by
  rw [judge]
  split
  · exact hm
  · exact (Classifier.look_of_recalls hd hm hc).2

theorem judge_tagged
    (hd : ∀ a ∈ cs, ∀ b ∈ cs, k.classifier.digest a = k.classifier.digest b → a = b)
    (hm : Recalls k.classifier.digest (fun _ => .ok none) cs memo) (hc : b.content ∈ cs)
    (ht : b.tag.isSome = true) (h : known = true ∨ b.Holds k.lenient) :
    (k.judge (fun _ => .ok none) known memo b).2 = .ok (.clean b) ∧
      Recalls k.classifier.digest (fun _ => .ok none) cs
        (k.judge (fun _ => .ok none) known memo b).1 := by
  refine ⟨?_, judge_recalls hd hm hc⟩
  cases known with
  | true => rw [judge_of_settled (purpose_of_known ht)]
  | false =>
    obtain hknown | ⟨-, hholds⟩ := h
    · cases hknown
    cases hq : b.questioned k.lenient with
    | none => rw [judge_of_settled (purpose_of_unquestioned ht hq)]
    | some declared =>
      obtain ⟨l, hg, hmis⟩ := hholds declared hq
      rw [judge_of_asked (purpose_of_questioned hq), (Classifier.look_of_recalls hd hm hc).1,
        Classifier.judge_none, hg, mapError_ok]
      simp only [Except.map, found, hmis]

theorem judge_asked
    (hd : ∀ a ∈ cs, ∀ b ∈ cs, k.classifier.digest a = k.classifier.digest b → a = b)
    (hm : Recalls k.classifier.digest (fun _ => .ok none) cs memo) (hc : b.content ∈ cs)
    {p : Purpose} (hp : k.purpose known b = .ok p) (hv : Text.isVoid b.content = false)
    {f : Finding} (h : (k.judge (fun _ => .ok none) known memo b).2 = .ok f) :
    ∃ l, b.IsIn l ∧ Snippet.guess b.content = .ok l ∧ f = found b p l := by
  obtain ⟨l, hl, hfound⟩ := judge_asked_eq_ok hp (Prod.ext rfl h)
  have hg : Snippet.guess b.content = .ok l := by
    have hlook := (Classifier.look_of_recalls hd hm hc).1
    rw [hl, Classifier.judge_none] at hlook
    exact mapError_eq_ok.mp hlook.symm
  exact ⟨l, by rw [Block.IsIn, if_neg (by simp [hv]), hg], hg, hfound⟩

theorem settled_compared {lenient : Bool} {declared : Text} {l : Language}
    (hsome : b.tag.isSome = true) (hq : b.questioned lenient = some declared) (hl : b.IsIn l)
    (hg : Snippet.guess b.content = .ok l) :
    Settled lenient known b (found b (.comparison declared) l) := by
  obtain ⟨hmis, hclean⟩ | ⟨i, hmis, hfound⟩ := found_comparison b declared l
  · refine .inl ⟨hclean, hsome, .inr ⟨hsome, fun declared' hd => ?_⟩⟩
    rw [hq] at hd
    exact ⟨l, hg, Option.some.inj hd ▸ hmis⟩
  · rw [hfound]
    refine .inr ⟨l, hl, fun hholds => ?_, rfl, rfl, hsome.symm⟩
    obtain ⟨l', hg', hmis'⟩ := hholds.2 declared hq
    rw [hg] at hg'
    rw [Except.ok.inj hg', hmis'] at hmis
    cases hmis

theorem judge_settled
    (hd : ∀ a ∈ cs, ∀ b ∈ cs, k.classifier.digest a = k.classifier.digest b → a = b)
    (hm : Recalls k.classifier.digest (fun _ => .ok none) cs memo) (hc : b.content ∈ cs)
    (hfix : k.fix = true) {f : Finding} (h : (k.judge (fun _ => .ok none) known memo b).2 = .ok f) :
    Settled k.lenient known b f ∧
      Recalls k.classifier.digest (fun _ => .ok none) cs
        (k.judge (fun _ => .ok none) known memo b).1 := by
  refine ⟨?_, judge_recalls hd hm hc⟩
  cases hb : b.tag with
  | none =>
    have hnot : ¬ b.Holds k.lenient := fun hholds => by simp [Block.Holds, hb] at hholds
    right
    cases hv : Text.isVoid b.content with
    | true =>
      rw [judge_of_settled (purpose_of_void hfix hb hv)] at h
      obtain rfl := Except.ok.inj h
      exact ⟨.text, by rw [Block.IsIn, if_pos hv], hnot, rfl, rfl, by rw [hb]; rfl⟩
    | false =>
      obtain ⟨l, hl, -, rfl⟩ := judge_asked hd hm hc (purpose_of_untagged hfix hb hv) hv h
      exact ⟨l, hl, hnot, rfl, rfl, by rw [hb]; rfl⟩
  | some tag =>
    have hsome : b.tag.isSome = true := by rw [hb]; rfl
    cases known with
    | true =>
      rw [judge_of_settled (purpose_of_known hsome)] at h
      exact .inl ⟨(Except.ok.inj h).symm, hsome, .inl rfl⟩
    | false =>
      cases hq : b.questioned k.lenient with
      | none =>
        rw [judge_of_settled (purpose_of_unquestioned hsome hq)] at h
        refine .inl ⟨(Except.ok.inj h).symm, hsome, .inr ⟨hsome, fun declared hd => ?_⟩⟩
        rw [hq] at hd
        cases hd
      | some declared =>
        obtain ⟨l, hl, hg, rfl⟩ :=
          judge_asked hd hm hc (purpose_of_questioned hq) (Block.isVoid_of_questioned hq) h
        exact settled_compared hsome hq hl hg

end Judge

section Settle

variable {τ ρ : Type} {k : Check τ ρ}

theorem Settled.block_eq {lenient known : Bool} {b : Block} {f : Finding}
    (h : Settled lenient known b f) : f.block = b := by
  obtain ⟨rfl, -⟩ | ⟨l, -, -, hb, -⟩ := h
  · rfl
  · exact hb

theorem pass_settled (ha : k.classifier.advisor = none) (hfix : k.fix = true)
    (delay : Nat → Block → Nat)
    (hd : ∀ a ∈ cs, ∀ b ∈ cs, k.classifier.digest a = k.classifier.digest b → a = b)
    {bs : List Block} {fs : List Finding} (hcs : ∀ b ∈ bs, b.content ∈ cs) {s : State τ} {i : Nat}
    (hm : Recalls k.classifier.digest (fun _ => .ok none) cs s.memo)
    (hpass : ((k.worker delay).pass s i bs).2 = fs.map .ok) :
    fs.map (·.block) = bs ∧ ∀ f ∈ fs, ∃ known, Settled k.lenient known f.block f := by
  induction bs generalizing fs s i with
  | nil =>
    cases fs with
    | nil => exact ⟨rfl, nofun⟩
    | cons f fs => cases hpass
  | cons b bs ih =>
    cases fs with
    | nil => cases hpass
    | cons f fs =>
      rw [Worker.pass_cons, List.map_cons, List.cons.injEq] at hpass
      obtain ⟨hvisit, hpass⟩ := hpass
      obtain ⟨hc, hcs⟩ := List.forall_mem_cons.mp hcs
      obtain ⟨hmemo, hresult⟩ := visit_eq_judge (Classifier.opines_none ha) delay s i b
      obtain ⟨hs, hr⟩ := judge_settled hd hm hc hfix (hresult ▸ hvisit)
      rw [← hmemo] at hr
      obtain ⟨hblocks, hsettled⟩ := ih hcs hr hpass
      rw [List.map_cons, hblocks, hs.block_eq]
      exact ⟨rfl, List.forall_mem_cons.mpr ⟨⟨_, hs.block_eq ▸ hs⟩, hsettled⟩⟩

theorem pass_cache (k : Check τ ρ) (delay : Nat → Block → Nat) (s : State τ) (i : Nat)
    (bs : List Block) :
    SamePlace s.cache ((k.worker delay).pass s i bs).1.cache ∧
      s.cache.keys ⊆ ((k.worker delay).pass s i bs).1.cache.keys ∧
      ∀ q ∈ ((k.worker delay).pass s i bs).1.cache.keys, q ∈ s.cache.keys ∨
        ∃ b ∈ bs, q = ValidationCache.key k.classifier.digest b := by
  induction bs generalizing s i with
  | nil => exact ⟨⟨rfl, rfl⟩, List.Subset.refl _, fun q hq => .inl hq⟩
  | cons b bs ih =>
    have hcaches := visit_caches k delay s i b
    obtain ⟨hplace, hsub, hnew⟩ := ih ((k.worker delay).visit s i b).1 (i + 1)
    rw [Worker.pass_cons]
    refine ⟨⟨hplace.1.trans hcaches.path, hplace.2.trans hcaches.enabled⟩,
      List.Subset.trans hcaches.keys_subset hsub, fun q hq => ?_⟩
    obtain hq | ⟨b', hb', rfl⟩ := hnew q hq
    · obtain hq | ⟨rfl, -⟩ := hcaches.new q hq
      · exact .inl hq
      · exact .inr ⟨b, List.mem_cons_self, rfl⟩
    · exact .inr ⟨b', List.mem_cons_of_mem b hb', rfl⟩

end Settle

end Check

end MarkdownFences
