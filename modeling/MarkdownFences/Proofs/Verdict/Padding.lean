import MarkdownFences.Proofs.Pattern.Line
import MarkdownFences.Verdict
import Mathlib.Data.List.Find

namespace MarkdownFences

open Text Text.Pattern

namespace Snippet

theorem firm_anyLink : Firm anyLink where
  loose := loose_sequence (by simp [char, noneOf, loose_one, loose_literal, Loose.many])
  opens := (opens_char rfl).seq _
  closes := (closes_char rfl).seq _ |>.seq _ |>.seq _ |>.seq _

theorem firm_configFactory : Firm configFactory := firm_words (by decide)

theorem firm_wholeWord {s : String} (hhead : isMark s.toList.head? = true)
    (hlast : isMark s.toList.getLast? = true) : Firm (wholeWord s) where
  loose := loose_sequence (by simp [loose_wordEdge, loose_literal])
  opens := ((opens_literal hhead).seq _).holds_seq _
  closes := ((closes_literal hlast).seq_holds _).seq _

theorem firm_jsxMarker : Firm jsxMarker := by
  have hopening : Firm (sequence [char '<', one isAsciiUpper, many (noneOf ">"), char '>']) :=
    ⟨loose_sequence (by simp [char, noneOf, loose_one, Loose.many]), (opens_char rfl).seq _,
      (((closes_char rfl).seq _).seq _).seq _⟩
  have hclosing : Firm (sequence [literal "</", elementName, char '>']) :=
    ⟨(loose_literal _).seq (((loose_one _).seq (loose_one _).many).seq (loose_one _)),
      (opens_literal rfl).seq _, ((closes_char rfl).seq _).seq _⟩
  refine .choice ?_
  simp only [List.mem_cons, List.not_mem_nil, or_false, forall_eq_or_imp, forall_eq]
  exact ⟨hopening, hclosing, firm_wholeWord rfl rfl, firm_wholeWord rfl rfl⟩

def moduleWord : Pattern := seq (words ["import", "export"]) wordEdge

theorem firm_moduleWord : Firm moduleWord where
  loose := (loose_words _).seq loose_wordEdge
  opens := (opens_words (by decide)).seq _
  closes := (closes_words (by decide)).seq_holds _

theorem not_mem_of_reads_moduleWord {back : Option Char} {part rest : Text}
    (h : moduleWord.Reads back part rest) : '\n' ∉ part := by
  obtain ⟨v, w, rfl, hv, rfl, -⟩ := h
  obtain ⟨s, hs, rfl⟩ := reads_words.mp hv
  have hwords : ∀ s ∈ ["import", "export"], '\n' ∉ s.toList := by decide
  simpa using hwords s hs

/-- A line begins with module syntax, but none except the first. -/
def ModuleFirst (t : Text) : Prop :=
  moduleWord.startsText (firstLine t) = true ∧
    ¬ ∃ l ∈ (lines t).tail, moduleWord.startsText l = true

/-- White space in front of a text that keeps it from beginning a line. -/
def Indents (u : Text) : Prop := u ≠ [] ∧ u.getLast? ≠ some '\n'

theorem searchFrom_moduleStart (back : Option Char) (t : Text) :
    (moduleStart.searchFrom back t).isSome = true ↔
      (back = none ∨ back = some '\n') ∧ moduleWord.startsText (firstLine t) = true ∨
        ∃ l ∈ (lines t).tail, moduleWord.startsText l = true :=
  (firm_moduleWord.loose.inLine not_mem_of_reads_moduleWord).searchFrom_lineStart back t

section Padded

variable {u v : Text} (hu : ∀ c ∈ u, isBlank c = true) (hv : ∀ c ∈ v, isBlank c = true)

include hu hv

theorem moduleStart_occursIn_padded (t : Text) :
    moduleStart.occursIn (u ++ (t ++ v)) = (moduleStart.searchFrom u.getLast? t).isSome := by
  have hopens : Opens moduleStart := firm_moduleWord.opens.holds_seq _
  have hcloses : Closes moduleStart := firm_moduleWord.closes.seq _
  have hrest {back : Option Char} {part rest rest' : Text}
      (h : isWord rest.head? = isWord rest'.head?) (hp : moduleStart.Reads back part rest) :
      moduleStart.Reads back part rest' := by
    obtain ⟨v, w, rfl, ⟨rfl, hv⟩, hw⟩ := hp
    exact ⟨[], w, rfl, ⟨rfl, hv⟩, firm_moduleWord.loose.rest h hw⟩
  rw [Pattern.occursIn, hopens.searchFrom_blank_append hu, hcloses.searchFrom_append_blank hrest hv,
    behind_none]

/-- White space around a text hides module syntax that no line but the first has, if it moves that
line from its start. -/
theorem moduleStart_hidden_iff (t : Text) :
    moduleStart.occursIn (u ++ (t ++ v)) ≠ moduleStart.occursIn t ↔
      Indents u ∧ ModuleFirst t := by
  rw [moduleStart_occursIn_padded hu hv, Pattern.occursIn, ne_eq, Bool.eq_iff_iff,
    searchFrom_moduleStart, searchFrom_moduleStart, List.getLast?_eq_none_iff, ModuleFirst, Indents,
    ne_eq, ne_eq, ← not_or]
  by_cases hlater : ∃ l ∈ (lines t).tail, moduleWord.startsText l = true
  · simp only [hlater, or_true, not_true_eq_false, and_false]
  · by_cases hfirst : moduleWord.startsText (firstLine t) = true
    · simp only [hfirst, hlater, true_or, and_true, or_false, not_false_eq_true, iff_true]
    · simp [hfirst, hlater]

theorem hasConfigFactory_hidden_iff (t : Text) :
    hasConfigFactory (u ++ (t ++ v)) ≠ hasConfigFactory t ↔
      configFactory.occursIn t = true ∧ Indents u ∧ ModuleFirst t := by
  rw [← moduleStart_hidden_iff hu hv, hasConfigFactory, hasConfigFactory,
    firm_configFactory.occursIn_padded hu hv]
  cases configFactory.occursIn t <;> simp

theorem hasJsx_padded (t : Text) : hasJsx (u ++ (t ++ v)) = hasJsx t :=
  firm_jsxMarker.occursIn_padded hu hv t

theorem guess_padded (t : Text) : guess (u ++ (t ++ v)) = guess t := by
  rw [guess, matchingRule, trim_padded hu hv, ← matchingRule, ← guess]

theorem lacksCodePunctuation_padded (t : Text) :
    lacksCodePunctuation (u ++ (t ++ v)) = lacksCodePunctuation t := by
  have hblank : ∀ c, isBlank c = true → isCodePunctuation c = false :=
    contains_of_isBlank (by decide)
  rw [lacksCodePunctuation, any_padded hblank hu hv, ← lacksCodePunctuation]

theorem readsAsProse_padded (t : Text) : readsAsProse (u ++ (t ++ v)) = readsAsProse t := by
  unfold readsAsProse startsDescriptive hasLabelLine lineCount
  rw [trim_padded hu hv, lacksCodePunctuation_padded hu hv]

theorem readsAsNotes_padded (t : Text) :
    Override.readsAsNotes (u ++ (t ++ v)) = Override.readsAsNotes t := by
  unfold Override.readsAsNotes readsAsIssueText lineCount
  rw [trim_padded hu hv, firm_anyLink.occursIn_padded hu hv]

end Padded

end Snippet

open Snippet

variable {u v : Text}

/-- Only with the white space around it the text is too long for a short snippet. -/
def Outgrows (u t v : Text) : Prop :=
  t.length < shortLength ∧ shortLength ≤ (u ++ (t ++ v)).length

theorem isShort_outgrown_iff (t : Text) :
    Override.isShort (u ++ (t ++ v)) ≠ Override.isShort t ↔ Outgrows u t v := by
  have hlen : t.length ≤ (u ++ (t ++ v)).length := by
    simp only [List.length_append]
    omega
  rw [Override.isShort, Override.isShort, Outgrows, ne_eq, decide_eq_decide]
  omega

/-- A configuration factory, without a sign of JSX, whose only module syntax the white space in
front moves from the start of its line. -/
structure Hides (u t : Text) : Prop where
  factory : configFactory.occursIn t = true
  jsx : hasJsx t = false
  indents : Indents u
  first : ModuleFirst t

theorem configOrJsx_hidden_iff (hu : ∀ c ∈ u, isBlank c = true) (hv : ∀ c ∈ v, isBlank c = true)
    (t : Text) : (hasConfigFactory (u ++ (t ++ v)) || hasJsx (u ++ (t ++ v))) ≠
      (hasConfigFactory t || hasJsx t) ↔ Hides u t := by
  have hconfig := hasConfigFactory_hidden_iff hu hv t
  rw [hasJsx_padded hu hv]
  cases hj : hasJsx t with
  | true =>
    simp only [Bool.or_true, ne_eq, not_true_eq_false, false_iff]
    intro h
    cases h.jsx.symm.trans hj
  | false =>
    rw [Bool.or_false, Bool.or_false, hconfig]
    exact ⟨fun ⟨hf, hi, hm⟩ => ⟨hf, hj, hi, hm⟩, fun h => ⟨h.factory, h.indents, h.first⟩⟩

theorem reconcile_congr {g l : Language} {s t : Text}
    (h : ∀ o ∈ Override.table, g = o.guess → l ∈ o.opinions → o.applies s = o.applies t) :
    reconcile g (some l) s = reconcile g (some l) t := by
  have hrows : (Override.table.find? fun o => o.covers g l s) =
      Override.table.find? fun o => o.covers g l t := by
    refine List.find?_congr fun o ho => ?_
    rw [Override.covers, Override.covers, Bool.eq_iff_iff]
    simp only [Bool.and_eq_true, beq_iff_eq, List.contains_iff_mem]
    exact and_congr_right fun ⟨hg, hl⟩ => by rw [h o ho hg hl]
  rw [reconcile, reconcile, hrows]

theorem reconcile_javascript_text (t : Text) :
    reconcile .javascript (some .text) t =
      if Override.isShort t then .javascript else .text := by
  cases h : Override.isShort t <;> simp [reconcile, Override.table, Override.covers, h]

theorem reconcile_typescript_javascript (t : Text) :
    reconcile .typescript (some .javascript) t =
      if hasConfigFactory t || hasJsx t then .typescript else .javascript := by
  cases h : hasConfigFactory t || hasJsx t <;> simp [reconcile, Override.table, Override.covers, h]

/-- White space around a text changes what a guess and an opinion come to in just two cases. -/
theorem reconcile_padded_iff (hu : ∀ c ∈ u, isBlank c = true) (hv : ∀ c ∈ v, isBlank c = true)
    (g : Language) (opinion : Option Language) (t : Text) :
    reconcile g opinion (u ++ (t ++ v)) ≠ reconcile g opinion t ↔
      g = .javascript ∧ opinion = some .text ∧ Outgrows u t v ∨
      g = .typescript ∧ opinion = some .javascript ∧ Hides u t := by
  have hshort := isShort_outgrown_iff (u := u) (v := v) t
  have hconfig := configOrJsx_hidden_iff hu hv t
  by_cases hjs : g = .javascript ∧ opinion = some .text
  · obtain ⟨rfl, rfl⟩ := hjs
    rw [reconcile_javascript_text, reconcile_javascript_text, ← hshort]
    cases Override.isShort (u ++ (t ++ v)) <;> cases Override.isShort t <;> simp
  · by_cases hts : g = .typescript ∧ opinion = some .javascript
    · obtain ⟨rfl, rfl⟩ := hts
      rw [reconcile_typescript_javascript, reconcile_typescript_javascript, ← hconfig]
      cases hasConfigFactory (u ++ (t ++ v)) || hasJsx (u ++ (t ++ v)) <;>
        cases hasConfigFactory t || hasJsx t <;> simp
    · -- The other rows are about other pairs, or do not see the white space.
      have hsame : reconcile g opinion (u ++ (t ++ v)) = reconcile g opinion t := by
        cases opinion with
        | none => rfl
        | some l =>
          refine reconcile_congr fun o ho hg hl => ?_
          simp only [Override.table, List.mem_cons, List.not_mem_nil, or_false] at ho
          obtain rfl | rfl | rfl | rfl | rfl | rfl | rfl := ho
          · rfl
          · rfl
          · exact absurd ⟨hg, congrArg some (List.mem_singleton.mp hl)⟩ hjs
          · exact absurd ⟨hg, congrArg some (List.mem_singleton.mp hl)⟩ hts
          · exact readsAsProse_padded hu hv t
          · rfl
          · exact readsAsNotes_padded hu hv t
      refine iff_of_false (fun h => h hsame) ?_
      rintro (⟨hg, ho, -⟩ | ⟨hg, ho, -⟩)
      · exact hjs ⟨hg, ho⟩
      · exact hts ⟨hg, ho⟩

/-- What a text is found to be in, by its looks and an opinion from outside. -/
def detected (opinion : Option Language) (t : Text) : Except Json.TooDeep Language :=
  (guess t).map fun g => reconcile g opinion t

/-- White space around a text changes what it is found to be in exactly if it makes a short
snippet of JavaScript too long for one against an opinion for plain text, or if it moves the only
module syntax of a configuration away from the line start against an opinion for JavaScript. -/
theorem detected_padded_iff (hu : ∀ c ∈ u, isBlank c = true) (hv : ∀ c ∈ v, isBlank c = true)
    (opinion : Option Language) (t : Text) :
    detected opinion (u ++ (t ++ v)) = detected opinion t ↔
      ¬ (guess t = .ok .javascript ∧ opinion = some .text ∧ Outgrows u t v) ∧
      ¬ (guess t = .ok .typescript ∧ opinion = some .javascript ∧ Hides u t) := by
  rw [detected, detected, guess_padded hu hv]
  cases guess t with
  | error e => exact iff_of_true rfl ⟨(nomatch ·.1), (nomatch ·.1)⟩
  | ok g =>
    have hpadded := not_congr (reconcile_padded_iff hu hv g opinion t)
    rw [ne_eq, not_not, not_or] at hpadded
    simpa only [Except.map, Except.ok.injEq] using hpadded

/-- A short snippet with blank lines around it. -/
theorem detected_padded_iff_blank_lines :
    let u : Text := "\n\n  ".toList
    let v : Text := "\n\n".toList
    let t : Text := "const x = 1".toList
    (∀ c ∈ u, isBlank c = true) ∧ (∀ c ∈ v, isBlank c = true) ∧
      detected (some .text) (u ++ (t ++ v)) = detected (some .text) t := by
  intro u v t
  have hu : ∀ c ∈ u, isBlank c = true := isVoid_iff.mp rfl
  have hv : ∀ c ∈ v, isBlank c = true := isVoid_iff.mp rfl
  have hshort : ¬ Outgrows u t v := by
    unfold Outgrows
    decide
  exact ⟨hu, hv, (detected_padded_iff hu hv _ t).mpr ⟨(hshort ·.2.2), (nomatch ·.2.1)⟩⟩

/-- A hundred spaces behind a snippet of JavaScript, and two in front of a configuration, change
what they are found to be in. -/
theorem spaces_change_detected :
    let u : Text := [' ', ' ']
    let v : Text := .replicate 100 ' '
    let snippet : Text := "const x = 1".toList
    let config : Text := "import \x7bdefineConfig\x7d from 'x'".toList
    isVoid u = true ∧ isVoid v = true ∧
      detected (some .text) snippet = .ok .javascript ∧
      detected (some .text) (snippet ++ v) = .ok .text ∧
      detected (some .javascript) config = .ok .typescript ∧
      detected (some .javascript) (u ++ config) = .ok .javascript := by
  decide +kernel

end MarkdownFences
