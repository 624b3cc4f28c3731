import MarkdownFences.Proofs.Check.Settled

namespace MarkdownFences

namespace Block

theorem questioned_of_lenient {b : Block} {declared : Text}
    (h : b.questioned true = some declared) :
    b.questioned false = some declared := by
  cases ht : b.tag with
  | none =>
    rw [questioned, ht] at h
    cases h
  | some tag =>
    simp only [questioned, ht, Option.ite_none_left_eq_some] at h ⊢
    obtain ⟨hq, -, hd⟩ := h
    exact ⟨hq, Bool.false_ne_true, hd⟩

theorem Holds.mono {b : Block} {lenient lenient' : Bool} (h : b.Holds lenient)
    (hl : lenient = true → lenient' = true) : b.Holds lenient' := by
  refine ⟨h.1, fun declared hd => h.2 declared ?_⟩
  cases lenient with
  | true =>
    rw [hl rfl] at hd
    exact hd
  | false =>
    cases lenient' with
    | false => exact hd
    | true => exact questioned_of_lenient hd

theorem Holds.congr {a b : Block} {lenient : Bool} (h : a.Holds lenient) (ht : a.tag = b.tag)
    (hc : a.content = b.content) : b.Holds lenient := by
  rw [Holds, questioned, ht, hc] at h
  refine ⟨h.1, fun declared hd => ?_⟩
  obtain ⟨l, hg, hm⟩ := h.2 declared hd
  rw [mismatch_eq_none, hc] at hm
  exact ⟨l, hg, mismatch_eq_none.mpr hm⟩

end Block

namespace Check

variable {τ ρ : Type} {k : Check τ ρ} {f : Text → Except Fault (Option Language)}
variable {c₀ c c' : ValidationCache} {b b' : Block} {known : Bool}

/-- What the check of a block comes to by itself. -/
def verdict (k : Check τ ρ) (f : Text → Except Fault (Option Language)) (known : Bool) (b : Block) :
    Except Fault Finding :=
  match k.purpose known b with
  | .error finding => .ok finding
  | .ok p => (Classifier.judge f b.content).map (found b p)

/-- A block with a tag was checked and has no issue. -/
def Passes (b : Block) (r : Except Fault Finding) : Prop :=
  b.tag.isSome = true ∧ ∃ finding, r = .ok finding ∧ finding.issue = none

instance (b : Block) : (r : Except Fault Finding) → Decidable (Passes b r)
  | .ok finding => decidable_of_iff (b.tag.isSome = true ∧ finding.issue = none)
      ⟨fun ⟨hb, hi⟩ => ⟨hb, finding, rfl, hi⟩, fun ⟨hb, _, hr, hi⟩ => ⟨hb, Except.ok.inj hr ▸ hi⟩⟩
  | .error _ => isFalse fun ⟨_, _, hr, _⟩ => nomatch hr

theorem verdict_of_settled {finding : Finding} (h : k.purpose known b = .error finding) :
    k.verdict f known b = .ok finding := by
  rw [verdict, h]

theorem verdict_of_asked {p : Purpose} (h : k.purpose known b = .ok p) :
    k.verdict f known b = (Classifier.judge f b.content).map (found b p) := by
  rw [verdict, h]

theorem verdict_clean (ht : b'.tag = b.tag) (hc : b'.content = b.content)
    (h : Passes b' (k.verdict f known b')) : k.verdict f known b = .ok (.clean b) := by
  obtain ⟨hs, finding, hv, hi⟩ := h
  rw [ht] at hs
  cases known with
  | true => exact verdict_of_settled (purpose_of_known hs)
  | false =>
    have hq : b'.questioned k.lenient = b.questioned k.lenient := by
      rw [Block.questioned, Block.questioned, ht, hc]
    cases hd : b.questioned k.lenient with
    | none => exact verdict_of_settled (purpose_of_unquestioned hs hd)
    | some declared =>
      rw [verdict_of_asked (purpose_of_questioned (hq.trans hd)), hc] at hv
      obtain ⟨l, hl, rfl⟩ := ok_of_map hv
      have hm : b.mismatch declared l = none := by
        have hm := mismatch_of_found hi
        rw [Block.mismatch_eq_none, hc] at hm
        exact Block.mismatch_eq_none.mpr hm
      rw [verdict_of_asked (purpose_of_questioned hd), hl, Except.map, found, hm]

theorem passes_iff_holds :
    Passes b (k.verdict (fun _ => .ok none) false b) ↔ b.Holds k.lenient := by
  rw [Passes, Block.Holds, and_congr_right_iff]
  intro hs
  cases hd : b.questioned k.lenient with
  | none =>
    rw [verdict_of_settled (purpose_of_unquestioned hs hd)]
    exact ⟨fun _ _ hd' => (by cases hd'), fun _ => ⟨_, rfl, rfl⟩⟩
  | some declared =>
    rw [verdict_of_asked (purpose_of_questioned hd), Classifier.judge_none]
    constructor
    · rintro ⟨finding, hv, hi⟩ declared' hd'
      obtain rfl := Option.some.inj hd'
      obtain ⟨l, hl, rfl⟩ := ok_of_map hv
      exact ⟨l, mapError_eq_ok.mp hl, mismatch_of_found hi⟩
    · intro h
      obtain ⟨l, hg, hm⟩ := h declared rfl
      rw [hg]
      refine ⟨_, rfl, ?_⟩
      rw [found, hm]
      rfl

theorem verdict_cases (k : Check τ ρ) (f : Text → Except Fault (Option Language)) (known : Bool)
    (b : Block) : k.verdict f known b = k.verdict f false b ∨
      known = true ∧ b.tag.isSome = true ∧ k.verdict f known b = .ok (.clean b) := by
  cases known with
  | false => exact .inl rfl
  | true =>
    cases ht : b.tag with
    | none => exact .inl (by rw [verdict, verdict, purpose, purpose, ht])
    | some tag =>
      have hs : b.tag.isSome = true := by rw [ht]; rfl
      exact .inr ⟨rfl, rfl, verdict_of_settled (purpose_of_known hs)⟩

/-- What a cache has become of another one by checks of blocks, some of which passed. -/
structure Stored (digest : Text → Text) (c₀ : ValidationCache) (passed : Block → Prop)
    (c : ValidationCache) : Prop where
  path : c.path = c₀.path
  enabled : c.enabled = c₀.enabled
  subset : c₀.keys ⊆ c.keys
  new : ∀ q ∈ c.keys, q ∈ c₀.keys ∨ ∃ b, passed b ∧ q = ValidationCache.key digest b
  all : c₀.enabled = true → ∀ b, passed b → ValidationCache.key digest b ∈ c.keys
  dirty : c.dirty = true ↔ c₀.dirty = true ∨
    c₀.enabled = true ∧ ∃ b, passed b ∧ ValidationCache.key digest b ∉ c₀.keys
  nodup : c₀.keys.Nodup → c.keys.Nodup

namespace Stored

variable {digest : Text → Text} {passed passed' : Block → Prop}

theorem start (digest : Text → Text) (c : ValidationCache) :
    Stored digest c (fun _ => False) c :=
  ⟨rfl, rfl, List.Subset.refl _, fun _ hq => .inl hq, fun _ _ hb => hb.elim, by simp, id⟩

theorem congr (h : Stored digest c₀ passed c) (hp : ∀ b, passed b ↔ passed' b) :
    Stored digest c₀ passed' c :=
  (funext fun b => propext (hp b) : passed = passed') ▸ h

theorem sameKeys (h : Stored digest c₀ passed c) (hs : SameKeys c c') :
    Stored digest c₀ passed c' := by
  refine ⟨hs.path.trans h.path, hs.enabled.trans h.enabled, ?_, ?_, ?_, ?_, ?_⟩
  · exact hs.keys ▸ h.subset
  · exact hs.keys ▸ h.new
  · exact hs.keys ▸ h.all
  · exact hs.dirty ▸ h.dirty
  · exact hs.keys ▸ h.nodup

theorem visit (h : Stored k.classifier.digest c₀ passed c) {r : Except Fault Finding}
    (hc : Caches k c b r c')
    (hnew : c₀.enabled = true → b.tag.isSome = true → c'.dirty = true → c.dirty = true ∨
      ValidationCache.key k.classifier.digest b ∉ c₀.keys) :
    Stored k.classifier.digest c₀ (fun x => passed x ∨ x = b ∧ Passes b r) c' := by
  have hkept (hd : c.dirty = true) : c'.dirty = true := by
    cases hd' : c'.dirty with
    | true => rfl
    | false =>
      rw [(hc.dirty hd').2] at hd
      cases hd
  refine ⟨hc.path.trans h.path, hc.enabled.trans h.enabled,
    List.Subset.trans h.subset hc.keys_subset, fun q hq => ?_, fun he x hx => ?_,
    ⟨fun hd => ?_, ?_⟩, fun hn => hc.nodup (h.nodup hn)⟩
  · obtain hq | ⟨rfl, ht, hr⟩ := hc.new q hq
    · exact (h.new q hq).imp_right fun ⟨x, hx, hqx⟩ => ⟨x, .inl hx, hqx⟩
    · exact .inr ⟨b, .inr ⟨rfl, ht, hr⟩, rfl⟩
  · obtain hx | ⟨rfl, ht, finding, hr, hi⟩ := hx
    · exact hc.keys_subset (h.all he x hx)
    · exact hc.clean finding hr ht hi (h.enabled.trans he)
  · have hold (hd : c.dirty = true) : c₀.dirty = true ∨ c₀.enabled = true ∧
        ∃ x, (passed x ∨ x = b ∧ Passes b r) ∧
          ValidationCache.key k.classifier.digest x ∉ c₀.keys :=
      (h.dirty.mp hd).imp_right fun ⟨he, x, hx, hq⟩ => ⟨he, x, .inl hx, hq⟩
    obtain hd' | ⟨he, ht, hr⟩ := hc.marked hd
    · exact hold hd'
    · rw [h.enabled] at he
      obtain hd' | hq := hnew he ht hd
      · exact hold hd'
      · exact .inr ⟨he, b, .inr ⟨rfl, ht, hr⟩, hq⟩
  · rintro (hd | ⟨he, x, hx | ⟨rfl, ht, finding, hr, hi⟩, hq⟩)
    · exact hkept (h.dirty.mpr (.inl hd))
    · exact hkept (h.dirty.mpr (.inr ⟨he, x, hx, hq⟩))
    · cases hd : c'.dirty with
      | true => rfl
      | false =>
        -- a cache that needs no saving has gained no key, so this one would be an old one
        obtain ⟨hkeys, hclean⟩ := hc.dirty hd
        have hmem := hc.clean finding hr ht hi (h.enabled.trans he)
        rw [hkeys] at hmem
        obtain hold | ⟨y, hy, heq⟩ := h.new _ hmem
        · exact absurd hold hq
        · rw [h.dirty.mpr (.inr ⟨he, y, hy, heq ▸ hq⟩)] at hclean
          cases hclean

theorem mem_iff (h : Stored digest c₀ passed c) (he : c₀.enabled = true) {q : Json.Points} :
    q ∈ c.keys ↔ q ∈ c₀.keys ∨ ∃ b, passed b ∧ q = ValidationCache.key digest b := by
  refine ⟨h.new q, ?_⟩
  rintro (hq | ⟨b, hb, rfl⟩)
  · exact h.subset hq
  · exact h.all he b hb

theorem perm (h : Stored digest c₀ passed c) (h' : Stored digest c₀ passed c')
    (hn : c₀.keys.Nodup) (he : c₀.enabled = true) : c'.keys.Perm c.keys :=
  (List.perm_ext_iff_of_nodup (h'.nodup hn) (h.nodup hn)).mpr fun _ =>
    (h'.mem_iff he).trans (h.mem_iff he).symm

theorem dirty_eq (h : Stored digest c₀ passed c) (h' : Stored digest c₀ passed c') :
    c'.dirty = c.dirty :=
  Bool.eq_iff_iff.mpr (h'.dirty.trans h.dirty.symm)

end Stored

end Check

end MarkdownFences
