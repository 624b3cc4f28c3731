import MarkdownFences.Proofs.Check.Interleaving

namespace MarkdownFences

variable {digest : Text → Text} {c d : ValidationCache} {b : Block}

namespace Check

variable {τ ρ : Type} {k : Check τ ρ} {s : State τ} {delay : Nat → Block → Nat}

theorem SameKeys.trans {e : ValidationCache} (h : SameKeys c d) (h' : SameKeys d e) :
    SameKeys c e :=
  ⟨h'.path.trans h.path, h'.enabled.trans h.enabled, h'.keys.trans h.keys, h'.dirty.trans h.dirty⟩

theorem SameKeys.lists (h : SameKeys c d) : d.lists digest b = c.lists digest b := by
  rw [ValidationCache.lists, ValidationCache.lists, h.enabled, h.keys]

theorem prepare_stats (he : s.cache.enabled = true) (b : Block) :
    (k.prepare s b).1.cache.stats =
      if b.tag.isSome then
        if s.knows k b then s.cache.stats.hit else s.cache.stats.miss
      else s.cache.stats := by
  have hstats := ValidationCache.stats_isValid k.classifier.digest he b
  have hprepares := k.prepares s b
  generalize k.prepare s b = out at hprepares
  cases hprepares with
  | left hb | void hb | untagged hb => simp [hb]
  | known hb | questioned hb =>
    rw [if_pos hb]
    exact hstats
  | unquestioned hb =>
    rw [if_pos hb]
    exact (ValidationCache.stats_markValid _ _ b).trans hstats

theorem conclude_stats (s : State τ) (p : Purpose) (r : Except Fault Language) :
    (k.conclude s b p r).1.cache.stats = s.cache.stats := by
  cases r with
  | error e => rfl
  | ok l =>
    have hsettles := k.settles s b p l
    rw [conclude]
    generalize k.settle s b p l = out at hsettles
    cases hsettles with
    | tagged => rfl
    | agrees => exact ValidationCache.stats_markValid _ s.cache b
    | differs => exact congrArg ValidationCache.stats (report_cache s _)

theorem visit_stats (k : Check τ ρ) (delay : Nat → Block → Nat) (he : s.cache.enabled = true)
    (i : Nat) (b : Block) :
    ((k.worker delay).visit s i b).1.cache.stats =
      if b.tag.isSome then
        if s.knows k b then s.cache.stats.hit else s.cache.stats.miss
      else s.cache.stats := by
  rw [visit_cache, ← prepare_stats he b]
  cases hp : k.prepare s b with
  | mk s' x =>
    cases x with
    | error finding =>
      rw [attend_of_settled hp]
      rfl
    | ok p =>
      rw [attend_of_asked hp]
      exact conclude_stats _ p _

theorem visit_warm (hd : s.cache.dirty = false) {i : Nat}
    (h : Passes b ((k.worker delay).visit s i b).2 → s.knows k b = true) :
    SameKeys s.cache ((k.worker delay).visit s i b).1.cache := by
  by_cases hpass : Passes b ((k.worker delay).visit s i b).2
  · have hknows := h hpass
    have hsame := prepare_of_knows hpass.1 hknows
    have hsnd := prepare_snd k s b
    rw [hknows, purpose_of_known hpass.1] at hsnd
    rw [visit_cache]
    cases hp : k.prepare s b with
    | mk s' x =>
      rw [hp] at hsame hsnd
      obtain rfl : x = .error (.clean b) := hsnd
      rw [attend_of_settled hp]
      exact hsame
  · have hcaches := visit_caches k delay s i b
    have hclean : ((k.worker delay).visit s i b).1.cache.dirty = false := by
      cases hdirty : ((k.worker delay).visit s i b).1.cache.dirty with
      | false => rfl
      | true =>
        obtain hold | ⟨-, hnew⟩ := hcaches.marked hdirty
        · rw [hd] at hold
          cases hold
        · exact absurd hnew hpass
    exact ⟨hcaches.path, hcaches.enabled, (hcaches.dirty hclean).1, hclean.trans hd.symm⟩

theorem pass_warm (k : Check τ ρ) (delay : Nat → Block → Nat) {s : State τ} {bs : List Block}
    {i : Nat} (he : c.enabled = true) (hd : c.dirty = false) (hs : SameKeys c s.cache)
    (h : ∀ e ∈ bs.zip ((k.worker delay).pass s i bs).2,
      Passes e.1 e.2 → c.lists k.classifier.digest e.1 = true) :
    SameKeys c ((k.worker delay).pass s i bs).1.cache ∧
      ((k.worker delay).pass s i bs).1.cache.stats =
        ⟨s.cache.stats.hits +
            bs.countP fun b => b.tag.isSome && c.lists k.classifier.digest b,
          s.cache.stats.misses +
            bs.countP fun b => b.tag.isSome && !c.lists k.classifier.digest b⟩ := by
  induction bs generalizing s i with
  | nil => exact ⟨hs, rfl⟩
  | cons b bs ih =>
    rw [Worker.pass_cons, List.zip_cons_cons] at h
    obtain ⟨hb, hbs⟩ := List.forall_mem_cons.mp h
    have hknows : s.knows k b = c.lists k.classifier.digest b := hs.lists
    have hvisit : SameKeys s.cache ((k.worker delay).visit s i b).1.cache :=
      visit_warm (hs.dirty.trans hd) fun hpass => hknows.trans (hb hpass)
    obtain ⟨hsame, hstats⟩ := ih (hs.trans hvisit) hbs
    have hlook := visit_stats k delay (hs.enabled.trans he) i b
    rw [hknows] at hlook
    rw [Worker.pass_cons]
    refine ⟨hsame, hstats.trans ?_⟩
    rw [hlook, List.countP_cons, List.countP_cons]
    cases b.tag.isSome with
    | false => rfl
    | true =>
      cases c.lists k.classifier.digest b with
      | true => simp [CacheStats.hit, Nat.add_assoc, Nat.add_comm]
      | false => simp [CacheStats.miss, Nat.add_assoc, Nat.add_comm]

structure Warms (k : Check τ ρ) (f : Text → Except Fault (Option Language)) (c₀ : ValidationCache)
    (bs : List Block) (c : ValidationCache) : Prop where
  before : c₀.enabled = true
  enabled : c.enabled = true
  keys : ∀ q, q ∈ c.keys ↔ q ∈ c₀.keys ∨
    ∃ b, (b ∈ bs ∧ Passes b (k.ruling f c₀ b)) ∧ q = ValidationCache.key k.classifier.digest b

namespace Warms

variable {f : Text → Except Fault (Option Language)} {c₀ : ValidationCache} {bs : List Block}
variable (h : Warms k f c₀ bs c) (ha : Apart k.classifier.digest bs)

include h ha

theorem lists_iff (hb : b ∈ bs) (ht : b.tag.isSome = true) :
    c.lists k.classifier.digest b = true ↔ Passes b (k.ruling f c₀ b) := by
  rw [ValidationCache.lists, h.enabled, Bool.true_and, List.contains_iff_mem, h.keys]
  constructor
  · rintro (hold | ⟨a, ⟨ha', hpass⟩, hkey⟩)
    · have hlist : c₀.lists k.classifier.digest b = true := by
        rw [ValidationCache.lists, h.before, Bool.true_and, List.contains_iff_mem]
        exact hold
      rw [ruling, hlist, verdict_of_settled (purpose_of_known ht)]
      exact ⟨ht, _, rfl, rfl⟩
    · obtain ⟨htag, hcontent⟩ := ha.keys a ha' b hb hkey.symm
      have hlist : c₀.lists k.classifier.digest a = c₀.lists k.classifier.digest b := by
        rw [ValidationCache.lists, ValidationCache.lists, hkey]
      rw [ruling, hlist] at hpass
      rw [ruling, verdict_clean htag hcontent hpass]
      exact ⟨ht, _, rfl, rfl⟩
  · intro hpass
    exact .inr ⟨b, ⟨hb, hpass⟩, rfl⟩

theorem ruling_eq (hb : b ∈ bs) : k.ruling f c b = k.ruling f c₀ b := by
  cases ht : b.tag.isSome with
  | false =>
    have hsame (known : Bool) : k.verdict f known b = k.verdict f false b := by
      obtain heq | ⟨-, hs, -⟩ := verdict_cases k f known b
      · exact heq
      · rw [ht] at hs
        cases hs
    rw [ruling, ruling, hsame, hsame (c₀.lists _ _)]
  | true =>
    by_cases hpass : Passes b (k.ruling f c₀ b)
    · rw [ruling, (h.lists_iff ha hb ht).mpr hpass, verdict_of_settled (purpose_of_known ht)]
      exact (verdict_clean rfl rfl hpass).symm
    · have hnew : c.lists k.classifier.digest b = false :=
        Bool.eq_false_iff.mpr fun hlist => hpass ((h.lists_iff ha hb ht).mp hlist)
      have hold : c₀.lists k.classifier.digest b = false := by
        refine Bool.eq_false_iff.mpr fun hlist => hpass ?_
        rw [ruling, hlist, verdict_of_settled (purpose_of_known ht)]
        exact ⟨ht, _, rfl, rfl⟩
      rw [ruling, ruling, hnew, hold]

end Warms

end Check

end MarkdownFences
