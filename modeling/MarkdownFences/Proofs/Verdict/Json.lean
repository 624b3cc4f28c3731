import MarkdownFences.Proofs.Snippet.Signs
import MarkdownFences.Proofs.Verdict.Padding

namespace MarkdownFences

open Text Text.Pattern

namespace Snippet

variable {t : Text}

def isTreeGlyph (c : Char) : Bool := "├└│".toList.contains c

theorem treeGlyph_occursIn_trim (t : Text) : treeGlyph.occursIn (trim t) = t.any isTreeGlyph := by
  have hblank : ∀ c, isBlank c = true → isTreeGlyph c = false := contains_of_isBlank (by decide)
  rw [treeGlyph, anyOf, occursIn_one, ← any_trim hblank t]
  rfl

theorem isJson_trim (t : Text) : isJson (trim t) = isJson t := by
  rw [isJson, trim_trim, ← isJson]

/-- The table has two rows that JSON can come to. -/
theorem guess_of_isJson (h : isJson t = .ok true) :
    guess t = .ok (if t.any isTreeGlyph then .text else .json) := by
  have hjson : isJson (trim t) = .ok true := (isJson_trim t).trans h
  have hshell : hasShellSigns (trim t) = .ok false := by
    rw [hasShellSigns_eq, hjson]
    rfl
  have hlooks : looksLikeJson (trim t) = .ok true := by
    rw [looksLikeJson, hjson]
    rfl
  rw [guess, matchingRule, rules, ← treeGlyph_occursIn_trim]
  simp only [firstRule, hshell, hlooks]
  cases treeGlyph.occursIn (trim t) with
  | true => rfl
  | false => rfl

end Snippet

open Snippet

variable {t : Text}

/-- Shell is what a guess and an opinion come to if the opinion says so, against any guess but JSON,
or if the guess says so, against no opinion or one for plain text. -/
theorem reconcile_eq_bash_iff {g : Language} {opinion : Option Language} :
    reconcile g opinion t = .bash ↔
      opinion = some .bash ∧ g ≠ .json ∨ g = .bash ∧ (opinion = none ∨ opinion = some .text) := by
  cases opinion with
  | none => simp [reconcile]
  | some l =>
    rw [reconcile]
    cases h : Override.table.find? fun o => o.covers g l t with
    | none =>
      have hrow (o : Override) (ho : o ∈ Override.table) : ¬ o.covers g l t = true :=
        List.find?_eq_none.mp h o ho
      have hshell : ¬ (g = .bash ∧ l = .text) := by
        simpa [Override.covers, Override.always] using hrow _ (.head _)
      have hjson : ¬ (g = .json ∧ l = .bash) := by
        simpa [Override.covers, Override.always] using hrow _ (.tail _ (.head _))
      simp only [Option.some.injEq, reduceCtorEq, false_or]
      constructor
      · intro hl
        exact .inl ⟨hl, fun hg => hjson ⟨hg, hl⟩⟩
      · rintro (⟨hl, -⟩ | hfirst)
        · exact hl
        · exact absurd hfirst hshell
    | some o =>
      have ho := List.mem_of_find?_eq_some h
      have hcovers := List.find?_some h
      simp only [Override.covers, Bool.and_eq_true, beq_iff_eq, List.contains_iff_mem] at hcovers
      obtain ⟨⟨rfl, hl⟩, -⟩ := hcovers
      simp only [Override.table, List.mem_cons, List.not_mem_nil, or_false] at ho
      -- only the first row comes to shell, and only the second sets an opinion for it aside
      obtain rfl | rfl | rfl | rfl | rfl | rfl | rfl := ho <;>
        simp only [List.mem_cons, List.not_mem_nil, or_false] at hl <;> grind

/-- JSON is never guessed to be shell, and is found to be exactly if it has a tree glyph and the
opinion is for shell. -/
theorem json_found_shell_iff (h : isJson t = .ok true) (opinion : Option Language) :
    guess t = .ok (if t.any isTreeGlyph then .text else .json) ∧ ∃ l, detected opinion t = .ok l ∧
      (l = .bash ↔ opinion = some .bash ∧ t.any isTreeGlyph = true) := by
  have hguess := guess_of_isJson h
  refine ⟨hguess, _, by rw [detected, hguess]; rfl, ?_⟩
  rw [reconcile_eq_bash_iff]
  cases t.any isTreeGlyph with
  | true => simp
  | false => simp

/-- A script with flags and an expansion, in an object. -/
theorem json_found_shell_iff_script :
    let t : Text := "\x7b\"lint\": \"eslint --fix $\x7bFILES\x7d\"\x7d".toList
    isJson t = .ok true ∧ guess t = .ok .json ∧
      ∃ l, detected (some .bash) t = .ok l ∧ l ≠ .bash := by
  intro t
  have h : isJson t = .ok true := by decide +kernel
  obtain ⟨hguess, l, hl, hshell⟩ := json_found_shell_iff h (some .bash)
  exact ⟨h, hguess, l, hl, fun hb => by cases (hshell.mp hb).2⟩

/-- An array that quotes a directory tree is found to be shell on an opinion for it. -/
theorem tree_in_json_found_shell :
    let t : Text := "[\"├\"]".toList
    isJson t = .ok true ∧ guess t = .ok .text ∧ detected (some .bash) t = .ok .bash := by
  decide +kernel

end MarkdownFences
