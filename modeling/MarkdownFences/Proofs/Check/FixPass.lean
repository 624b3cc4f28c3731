import MarkdownFences.Proofs.Check.Mended
import MarkdownFences.Proofs.FenceFix.Rescan
import MarkdownFences.Proofs.Scan.Blocks
import Mathlib.Data.List.Basic

namespace MarkdownFences

namespace Finding

/-- Either the block declares a language and may keep it, or there is one for it to declare. -/
def IsSound (f : Finding) : Prop :=
  f = clean f.block ∧ f.block.tag.isSome = true ∨
    ∃ l : Language, f.tag = some l.tag ∧ f.issue.isSome = f.block.tag.isSome

theorem IsSound.isTag {f : Finding} (h : f.IsSound) {tag : Text} (ht : f.tag = some tag) :
    Fence.IsTag tag := by
  obtain ⟨hf, -⟩ | ⟨l, hl, -⟩ := h
  · rw [hf] at ht
    cases ht
  · rw [hl] at ht
    obtain rfl := Option.some.inj ht
    exact Language.isTag_tag l

def fix? (f : Finding) : Option FenceFix :=
  f.tag.map fun tag => ⟨f.block.file, f.block.openLine, tag⟩

theorem IsSound.mended_tag {f : Finding} (h : f.IsSound) : f.mended.tag.isNone = false := by
  obtain ⟨hf, ht⟩ | ⟨l, ht, -⟩ := h
  · rw [hf, mended_clean]
    simpa using ht
  · rw [mended, ht]
    rfl

end Finding

namespace Scan

variable {s : Scan} {fs : List Finding}

theorem fixes_eq (h : ∀ f ∈ fs, f.IsSound)
    (hu : ∀ f ∈ fs, f.block.tag = none →
      (f.block.file, some (f.block.openLine : Int)) ∈ s.untagged) :
    s.fixes fs = fs.filterMap Finding.fix? := by
  rw [fixes]
  apply List.filterMap_congr
  intro f hf
  rw [Finding.fix?]
  cases ht : f.tag with
  | none => rfl
  | some tag =>
    have hfix : (f.issue.isSome ||
        s.untagged.contains (f.block.file, some (f.block.openLine : Int))) = true := by
      obtain ⟨hc, -⟩ | ⟨l, -, hi⟩ := h f hf
      · rw [hc] at ht
        cases ht
      · cases hb : f.block.tag with
        | none => simpa using .inr (hu f hf hb)
        | some tag => simp [hi, hb]
    simp only [hfix, if_true, Option.map_some]

end Scan

namespace FenceFix

variable {fs : List Finding}

theorem onLine_fixes (h : fs.Pairwise fun a b => a.block.openLine < b.block.openLine)
    {f : Finding} (hf : f ∈ fs) :
    onLine (fs.filterMap Finding.fix?) f.block.openLine = f.fix?.toList := by
  have hline {g : Finding} {x : FenceFix} (hx : g.fix? = some x) : x.line = g.block.openLine := by
    obtain ⟨tag, -, rfl⟩ := Option.map_eq_some_iff.mp hx
    rfl
  have hother (gs : List Finding) (hne : ∀ g ∈ gs, g.block.openLine ≠ f.block.openLine) :
      onLine (gs.filterMap Finding.fix?) f.block.openLine = [] := by
    simp only [onLine, List.filter_eq_nil_iff, List.mem_filterMap]
    rintro x ⟨g, hg, hx⟩
    have hg := hne g hg
    rw [hline hx, beq_iff_eq]
    omega
  obtain ⟨before, after, rfl⟩ := List.append_of_mem hf
  obtain ⟨-, hafter, hbefore⟩ := List.pairwise_append.mp h
  have hb := hother before fun g hg =>
    Nat.ne_of_lt (hbefore g hg f List.mem_cons_self)
  have ha := hother after fun g hg =>
    Nat.ne_of_gt (List.rel_of_pairwise_cons hafter hg)
  simp only [onLine] at hb ha
  rw [onLine, List.filterMap_append, List.filter_append, hb, List.nil_append, List.filterMap_cons]
  cases hx : f.fix? with
  | none => exact ha
  | some x => simp [hline hx, ha]

theorem retagged_fixes (h : fs.Pairwise fun a b => a.block.openLine < b.block.openLine)
    {f : Finding} (hf : f ∈ fs) : retagged (fs.filterMap Finding.fix?) f.block = f.mended := by
  rw [retagged, onLine_fixes h hf, Finding.mended, Finding.fix?]
  cases f.tag <;> rfl

theorem isTag_fixes (hsound : ∀ f ∈ fs, f.IsSound) {x : FenceFix}
    (hx : x ∈ fs.filterMap Finding.fix?) : Fence.IsTag x.tag := by
  obtain ⟨f, hf, hx⟩ := List.mem_filterMap.mp hx
  obtain ⟨tag, ht, rfl⟩ := Option.map_eq_some_iff.mp hx
  exact (hsound f hf).isTag ht

section Scanned

variable {file : Path} {t : Text} (hblocks : fs.map (·.block) = (scan file t).blocks)

include hblocks

theorem target?_fixes {x : FenceFix} (hx : x ∈ fs.filterMap Finding.fix?) :
    (target? (Text.lines t) x).isSome = true := by
  obtain ⟨f, hf, hx⟩ := List.mem_filterMap.mp hx
  obtain ⟨tag, -, rfl⟩ := Option.map_eq_some_iff.mp hx
  have hb : f.block ∈ (scan file t).blocks := hblocks ▸ List.mem_map_of_mem hf
  obtain ⟨l, hl, hfence⟩ := Scan.isFence_openLine hb
  exact Option.isSome_iff_exists.mpr
    ⟨l, target?_eq_some.mpr ⟨f.block.openLine, rfl, hl, hfence⟩⟩

theorem map_retagged_fixes :
    (scan file t).blocks.map (retagged (fs.filterMap Finding.fix?)) = fs.map Finding.mended := by
  have hsorted : fs.Pairwise fun a b => a.block.openLine < b.block.openLine := by
    have hp := Scan.pairwise_blocks file t
    rwa [← hblocks, List.pairwise_map] at hp
  rw [← hblocks, List.map_map]
  exact List.map_congr_left fun f hf => retagged_fixes hsorted hf

end Scanned

end FenceFix

namespace Check

variable {τ ρ : Type} {k : Check τ ρ} {f : Text → Except Fault (Option Language)}

theorem visit_of_disabled (hf : k.classifier.Opines f) (delay : Nat → Block → Nat) {s : State τ}
    (hs : s.cache.enabled = false) (i : Nat) (b : Block) :
    ((k.worker delay).visit s i b).1.memo = (k.judge f false s.memo b).1 ∧
      ((k.worker delay).visit s i b).2 = (k.judge f false s.memo b).2 ∧
      ((k.worker delay).visit s i b).1.cache.enabled = false := by
  have hknows : s.knows k b = false := by simp [State.knows, hs]
  have hjudge := visit_eq_judge hf delay s i b
  rw [hknows] at hjudge
  exact ⟨hjudge.1, hjudge.2, (visit_caches k delay s i b).enabled.trans hs⟩

/-- A pass over blocks and a pass over the mended blocks remember the same all along, so that
the second one finds every language that the first one found. -/
theorem pass_mended (hf : k.classifier.Opines f) (hk : k.fix = true)
    (delay delay' : Nat → Block → Nat) (bs : List Block) (s s' : State τ) (i i' : Nat)
    (fs : List Finding) (hs : s.cache.enabled = false) (hs' : s'.cache.enabled = false)
    (hm : s'.memo = s.memo) (h : ((k.worker delay).pass s i bs).2 = fs.map .ok) :
    fs.map (·.block) = bs ∧ (∀ f ∈ fs, f.IsSound) ∧
      ((k.worker delay').pass s' i' (fs.map Finding.mended)).2 =
        fs.map fun f => .ok (.clean f.mended) := by
  induction bs generalizing s s' i i' fs with
  | nil =>
    cases fs with
    | nil => exact ⟨rfl, nofun, rfl⟩
    | cons f fs => cases h
  | cons b bs ih =>
    cases fs with
    | nil => cases h
    | cons finding fs =>
      rw [Worker.pass_cons, List.map_cons, List.cons.injEq] at h
      obtain ⟨hr, hrest⟩ := h
      obtain ⟨hmemo, hres, hen⟩ := visit_of_disabled hf delay hs i b
      have hj : k.judge f false s.memo b =
          (((k.worker delay).visit s i b).1.memo, .ok finding) :=
        Prod.ext hmemo.symm (hres.symm.trans hr)
      have hj' := judge_mended hk hj
      obtain ⟨hmemo', hres', hen'⟩ := visit_of_disabled hf delay' hs' i' finding.mended
      rw [hm, hj'] at hmemo' hres'
      obtain ⟨hblocks, hsound, hpass⟩ := ih _ _ (i + 1) (i' + 1) fs hen hen' hmemo' hrest
      have hfinding : finding.block = b ∧ finding.IsSound := by
        obtain ⟨rfl, ht⟩ | ⟨l, rfl, ht, hi, -⟩ := judge_eq_ok hk hj
        · exact ⟨rfl, .inl ⟨rfl, ht⟩⟩
        · exact ⟨rfl, .inr ⟨l, ht, hi⟩⟩
      refine ⟨?_, ?_, ?_⟩
      · rw [List.map_cons, hfinding.1, hblocks]
      · exact List.forall_mem_cons.mpr ⟨hfinding.2, hsound⟩
      · rw [List.map_cons, Worker.pass_cons, List.map_cons, hres', hpass]

/-- Fixing works and leaves nothing to fix: of a text whose blocks could all be judged, every
fix is made, the blocks declare what was found for them and the other issues stay, and a second
pass finds every block in order. -/
theorem fix_pass_settles (hf : k.classifier.Opines f) (hk : k.fix = true)
    (delay delay' : Nat → Block → Nat) (file : Path) (t : Text) (s s' : State τ)
    (hs : s.cache.enabled = false) (hs' : s'.cache.enabled = false) (hm : s'.memo = s.memo)
    (fs : List Finding) (o : FenceFix.Outcome)
    (h : ((k.worker delay).pass s 0 (scan file t).blocks).2 = fs.map .ok)
    (ho : FenceFix.applyTo t ((scan file t).fixes fs) = .ok o) :
    o.skipped = [] ∧ o.fixed = ((scan file t).fixes fs).length ∧
      (scan file o.text).blocks =
        (scan file t).blocks.map (FenceFix.retagged ((scan file t).fixes fs)) ∧
      (scan file o.text).issues =
        (scan file t).issues.filter (·.kind != .missingLanguage) ∧
      ((k.worker delay').pass s' 0 (scan file o.text).blocks).2 =
        (scan file o.text).blocks.map (fun b => .ok (.clean b)) ∧
      (scan file o.text).fixes ((scan file o.text).blocks.map .clean) = [] ∧
      FenceFix.applyTo o.text [] = .ok ⟨o.text, 0, []⟩ := by
  obtain ⟨hblocks, hsound, hpass⟩ := pass_mended hf hk delay delay' _ s s' 0 0 fs hs hs' hm h
  have hfixes : (scan file t).fixes fs = fs.filterMap Finding.fix? :=
    Scan.fixes_eq hsound fun g hg =>
      (Scan.tellsMissing_scan file t).mem_untagged (hblocks ▸ List.mem_map_of_mem hg)
  rw [hfixes] at ho ⊢
  have htags : ∀ x ∈ fs.filterMap Finding.fix?, Fence.IsTag x.tag :=
    fun _ hx => FenceFix.isTag_fixes hsound hx
  -- what the fixes make of the lines tells what they make of the blocks
  have hsettles := FenceFix.settlesAll_applyTo htags ho
  have hlines : ∀ l ∈ Text.lines t, '\n' ∉ l := fun l hl => Text.not_mem_of_mem_lines hl
  have hnew : (scan file o.text).blocks =
      (scan file t).blocks.map (FenceFix.retagged (fs.filterMap Finding.fix?)) := by
    rw [Scan.scan_blocks, Scan.scan_blocks]
    exact hsettles.blocks hlines htags file
  have hmended : (scan file o.text).blocks = fs.map Finding.mended :=
    hnew.trans (FenceFix.map_retagged_fixes hblocks)
  refine ⟨?_, ?_, hnew, ?_, ?_, ?_, ?_⟩
  · rw [FenceFix.skipped_applyTo htags ho, List.filter_eq_nil_iff]
    intro x hx
    have hx := FenceFix.target?_fixes hblocks (FenceFix.mem_descending.mp hx)
    simpa using Option.isSome_iff_ne_none.mp hx
  · rw [FenceFix.fixed_applyTo htags ho]
    exact List.countP_eq_length.mpr fun _ hx => FenceFix.target?_fixes hblocks hx
  · rw [Scan.scan_issues, Scan.scan_issues]
    apply (hsettles.alike hlines htags).issues_eq
    intro b hb
    rw [← Scan.scan_blocks, hmended] at hb
    obtain ⟨g, hg, rfl⟩ := List.mem_map.mp hb
    exact (hsound g hg).mended_tag
  · rw [hmended, hpass, List.map_map]
    rfl
  · simp [Scan.fixes, Finding.clean, List.filterMap_map]
  · simp [FenceFix.applyTo, FenceFix.attempt, FenceFix.descending, FenceFix.Attempt.outcome,
      Text.unlines_lines]

def shellAdvisor : Advisor Unit Text :=
  ⟨fun s t => (s, [], .waiting t), fun s _ => (s, [], .ok (some .bash))⟩

def shellCheck : Check Unit Text := ⟨⟨id, some shellAdvisor⟩, true, false, 2⟩

def newState : State Unit := ⟨⟨.empty, (), []⟩, .new none false, .new false, 0, []⟩

def shellText : Text := "```\n```\n```json x\nls -la\n```\n".toList

def shellFindings : List Finding :=
  let file := Path.ofString "a.md"
  [⟨⟨file, 0, 1, [], none⟩, none, some "text".toList⟩,
    ⟨⟨file, 2, 4, "ls -la".toList, some "json".toList⟩,
      some ⟨.incorrectLanguage, file, 3, 5, "json".toList, "bash".toList, "ls -la".toList, 2⟩,
      some "bash".toList⟩]

theorem fix_pass_settles_shell :
    let file := Path.ofString "a.md"
    let new := "```text\n```\n```bash x\nls -la\n```\n".toList
    let w := shellCheck.worker fun _ _ => 1
    (w.pass newState 0 (scan file shellText).blocks).2 = shellFindings.map .ok ∧
      FenceFix.applyTo shellText ((scan file shellText).fixes shellFindings) = .ok ⟨new, 2, []⟩ ∧
      (w.pass newState 0 (scan file new).blocks).2 =
        (scan file new).blocks.map fun b => .ok (.clean b) := by
  intro file new w
  have hopines : shellCheck.classifier.Opines fun _ => .ok (some .bash) :=
    ⟨nofun, fun _ _ _ _ _ => rfl⟩
  have hpass : (w.pass newState 0 (scan file shellText).blocks).2 = shellFindings.map .ok := by
    decide +kernel
  have happly : FenceFix.applyTo shellText ((scan file shellText).fixes shellFindings) =
      .ok ⟨new, 2, []⟩ := by
    have hfixes : (scan file shellText).fixes shellFindings =
        [⟨file, 0, "text".toList⟩, ⟨file, 2, "bash".toList⟩] := by
      decide +kernel
    have hdescending : FenceFix.descending [⟨file, 0, "text".toList⟩, ⟨file, 2, "bash".toList⟩] =
        [⟨file, 2, "bash".toList⟩, ⟨file, 0, "text".toList⟩] := by
      simp [FenceFix.descending, List.mergeSort]
    rw [FenceFix.applyTo, FenceFix.attempt, hfixes, hdescending]
    decide +kernel
  obtain ⟨-, -, -, -, hsecond, -⟩ := fix_pass_settles hopines rfl (fun _ _ => 1) (fun _ _ => 1)
    file shellText newState newState rfl rfl rfl shellFindings _ hpass happly
  exact ⟨hpass, happly, hsecond⟩

end Check

end MarkdownFences
