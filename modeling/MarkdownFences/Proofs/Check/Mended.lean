import MarkdownFences.Proofs.Check.Judgement
import MarkdownFences.Proofs.Fence.Retag

namespace MarkdownFences

namespace Language

/-! A language as a fence declares it. -/

theorem isTag_tag (l : Language) : Fence.IsTag l.tag := by
  cases l <;> rfl

theorem canonical_tag (l : Language) : Tag.canonical l.tag = l.tag := by
  cases l <;> rfl

theorem isTrusted_tag (l : Language) : Tag.isTrusted l.tag = false := by
  cases l <;> rfl

theorem ofTag?_tag (l : Language) : ofTag? l.tag = some l := ofTag?_eq_some_iff.mpr rfl

theorem tag_isEmpty (l : Language) : l.tag.isEmpty = false := by
  cases l <;> rfl

end Language

namespace Block

def declaring (b : Block) (l : Language) : Block := { b with tag := some l.tag }

theorem questioned_declaring (lenient : Bool) (b : Block) (l : Language) :
    (b.declaring l).questioned lenient = if Text.isVoid b.content then none else some l.tag := by
  rw [questioned, declaring]
  simp only [Language.isTrusted_tag, Language.tag_isEmpty, Language.canonical_tag,
    Language.ofTag?_tag]
  cases Text.isVoid b.content <;> simp

theorem mismatch_self (b : Block) (l : Language) : b.mismatch l.tag l = none := by
  simp [mismatch]

theorem isVoid_of_questioned {lenient : Bool} {b : Block} {declared : Text}
    (h : b.questioned lenient = some declared) : Text.isVoid b.content = false := by
  rw [questioned] at h
  split at h
  · cases h
  · split at h
    · cases h
    · rename_i hn
      simp only [Bool.or_eq_true, not_or, Bool.not_eq_true] at hn
      exact hn.1.1

theorem eq_of_mismatch {b : Block} {declared : Text} {l : Language} {i : LanguageIssue}
    (h : b.mismatch declared l = some i) :
    i = ⟨.incorrectLanguage, b.file, b.openNumber, b.closeNumber, b.tag.getD [], l.tag, b.content,
      b.openLine⟩ := by
  rw [mismatch] at h
  split at h
  · cases h
  · exact (Option.some.inj h).symm

theorem detected_of_mismatch {b : Block} {declared : Text} {l : Language} {i : LanguageIssue}
    (h : b.mismatch declared l = some i) : i.detected = l.tag := by
  rw [eq_of_mismatch h]

end Block

namespace Finding

def mended (f : Finding) : Block := { f.block with tag := f.tag.or f.block.tag }

theorem mended_clean (b : Block) : (clean b).mended = b := rfl

end Finding

namespace Check

open Classifier (look)

variable {τ ρ : Type} {k : Check τ ρ} {f : Text → Except Fault (Option Language)} {known : Bool}
variable {memo memo' : List (Text × Language)} {b : Block} {finding : Finding} {p : Purpose}

theorem judge_of_settled (h : k.purpose known b = .error finding) :
    k.judge f known memo b = (memo, .ok finding) := by
  rw [judge, h]

theorem judge_of_asked (h : k.purpose known b = .ok p) :
    k.judge f known memo b =
      ((look k.classifier.digest f memo b.content).1,
        (look k.classifier.digest f memo b.content).2.map (found b p)) := by
  rw [judge, h]

theorem purpose_of_void (hk : k.fix = true) (hb : b.tag = none)
    (hv : Text.isVoid b.content = true) :
    k.purpose known b = .error ⟨b, none, some Language.text.tag⟩ := by
  simp [purpose, hb, hk, hv]

theorem purpose_of_untagged (hk : k.fix = true) (hb : b.tag = none)
    (hv : Text.isVoid b.content = false) : k.purpose known b = .ok .tagging := by
  simp [purpose, hb, hk, hv]

theorem purpose_of_known (hb : b.tag.isSome = true) : k.purpose true b = .error (.clean b) := by
  obtain ⟨tag, ht⟩ := Option.isSome_iff_exists.mp hb
  simp [purpose, ht]

theorem purpose_of_unquestioned (hb : b.tag.isSome = true) (hq : b.questioned k.lenient = none) :
    k.purpose known b = .error (.clean b) := by
  obtain ⟨tag, ht⟩ := Option.isSome_iff_exists.mp hb
  simp [purpose, ht, hq]

theorem purpose_of_questioned {declared : Text} (hq : b.questioned k.lenient = some declared) :
    k.purpose false b = .ok (.comparison declared) := by
  cases ht : b.tag with
  | none => simp [Block.questioned, ht] at hq
  | some tag => simp [purpose, ht, hq]

theorem judge_asked_eq_ok (hp : k.purpose known b = .ok p)
    (h : k.judge f known memo b = (memo', .ok finding)) :
    ∃ l, look k.classifier.digest f memo b.content = (memo', .ok l) ∧ finding = found b p l := by
  rw [judge_of_asked hp, Prod.mk.injEq] at h
  obtain ⟨l, hl, hfound⟩ := ok_of_map h.2
  exact ⟨l, Prod.ext h.1 hl, hfound.symm⟩

theorem found_comparison (b : Block) (declared : Text) (l : Language) :
    b.mismatch declared l = none ∧ found b (.comparison declared) l = .clean b ∨
      ∃ i, b.mismatch declared l = some i ∧
        found b (.comparison declared) l = ⟨b, some i, some l.tag⟩ := by
  rw [found]
  cases hi : b.mismatch declared l with
  | none => exact .inl ⟨rfl, rfl⟩
  | some i => exact .inr ⟨i, rfl, by simp only [Block.detected_of_mismatch hi]⟩

theorem mismatch_of_found {declared : Text} {l : Language}
    (h : (found b (.comparison declared) l).issue = none) : b.mismatch declared l = none := by
  obtain ⟨hm, -⟩ | ⟨i, -, hfound⟩ := found_comparison b declared l
  · exact hm
  · rw [hfound] at h
    cases h

theorem judge_eq_ok (hk : k.fix = true) (h : k.judge f false memo b = (memo', .ok finding)) :
    finding = .clean b ∧ b.tag.isSome = true ∨
      ∃ l : Language, finding.block = b ∧ finding.tag = some l.tag ∧
        finding.issue.isSome = b.tag.isSome ∧ (Text.isVoid b.content = true → memo' = memo) ∧
        (Text.isVoid b.content = false →
          look k.classifier.digest f memo b.content = (memo', .ok l)) := by
  cases hb : b.tag with
  | none =>
    right
    cases hv : Text.isVoid b.content with
    | true =>
      rw [judge_of_settled (purpose_of_void hk hb hv), Prod.mk.injEq, Except.ok.injEq] at h
      obtain ⟨rfl, rfl⟩ := h
      exact ⟨.text, rfl, rfl, rfl, fun _ => rfl, nofun⟩
    | false =>
      obtain ⟨l, hl, rfl⟩ := judge_asked_eq_ok (purpose_of_untagged hk hb hv) h
      exact ⟨l, rfl, rfl, rfl, nofun, fun _ => hl⟩
  | some tag =>
    have hsome : b.tag.isSome = true := by rw [hb]; rfl
    cases hq : b.questioned k.lenient with
    | none =>
      rw [judge_of_settled (purpose_of_unquestioned hsome hq), Prod.mk.injEq, Except.ok.injEq] at h
      exact .inl ⟨h.2.symm, rfl⟩
    | some declared =>
      have hv := Block.isVoid_of_questioned hq
      obtain ⟨l, hl, rfl⟩ := judge_asked_eq_ok (purpose_of_questioned hq) h
      obtain ⟨-, hclean⟩ | ⟨i, -, hfound⟩ := found_comparison b declared l
      · exact .inl ⟨hclean, rfl⟩
      · rw [hfound]
        refine .inr ⟨l, rfl, rfl, rfl, fun hvoid => ?_, fun _ => hl⟩
        rw [hv] at hvoid
        cases hvoid

theorem judge_declaring {l : Language} (hv : Text.isVoid b.content = true → memo' = memo)
    (hl : Text.isVoid b.content = false →
      look k.classifier.digest f memo b.content = (memo', .ok l)) :
    k.judge f false memo (b.declaring l) = (memo', .ok (.clean (b.declaring l))) := by
  have hq := Block.questioned_declaring k.lenient b l
  cases hvoid : Text.isVoid b.content with
  | true =>
    rw [hvoid] at hq
    rw [judge_of_settled (purpose_of_unquestioned rfl hq), hv hvoid]
  | false =>
    rw [hvoid] at hq
    have hlook : look k.classifier.digest f memo (b.declaring l).content = (memo', .ok l) :=
      hl hvoid
    rw [judge_of_asked (purpose_of_questioned hq), hlook]
    simp only [Except.map, found, Block.mismatch_self]

/-- The judgement of the mended block has nothing to say and remembers the same. -/
theorem judge_mended (hk : k.fix = true) (h : k.judge f false memo b = (memo', .ok finding)) :
    k.judge f false memo finding.mended = (memo', .ok (.clean finding.mended)) := by
  obtain ⟨rfl, -⟩ | ⟨l, hb, ht, -, hv, hl⟩ := judge_eq_ok hk h
  · exact h
  · have hm : finding.mended = b.declaring l := by
      rw [Finding.mended, Block.declaring, hb, ht]
      rfl
    rw [hm]
    exact judge_declaring hv hl

end Check

end MarkdownFences
