import MarkdownFences.Proofs.Check.Again
import MarkdownFences.Proofs.Run.Frame
import MarkdownFences.Proofs.ValidationCache.Reload

namespace MarkdownFences

open FenceFix

theorem Report.exitCode_eq_zero {r : Report} (h : r.exitCode = 0) :
    r.failures = [] ∧ ∀ i ∈ r.structuralIssues, i.kind = .missingLanguage := by
  rw [exitCode] at h
  split at h
  case isTrue => cases h
  case isFalse hf =>
    refine ⟨by simpa using hf, ?_⟩
    split at h
    case isTrue h0 =>
      rw [List.eq_nil_of_length_eq_zero (Nat.add_eq_zero_iff.mp h0).1]
      exact fun _ hi => by cases hi
    case isFalse =>
      split at h
      case isTrue => cases h
      case isFalse =>
        split at h
        case isTrue => cases h
        case isFalse hfix =>
          rw [Bool.or_eq_true, not_or, decide_eq_true_eq, Nat.not_lt, totalIssues, fixableIssues,
            Nat.add_comm, Nat.add_le_add_iff_left] at hfix
          have hcount := Nat.le_antisymm (List.countP_le_length) hfix.1
          intro i hi
          simpa using List.countP_eq_length.mp hcount i hi

theorem Report.fixableIssues_le {r : Report} (h : r.exitCode = 0) (h0 : r.totalIssues ≠ 0) :
    r.fixableIssues ≤ r.totalFixed := by
  rw [exitCode, (exitCode_eq_zero h).1, if_neg h0] at h
  simp only [List.isEmpty_nil, Bool.not_true, Bool.false_eq_true, if_false] at h
  split at h
  case isTrue => cases h
  case isFalse =>
    split at h
    case isTrue => cases h
    case isFalse hfix =>
      rw [Bool.or_eq_true, not_or, decide_eq_true_eq, decide_eq_true_eq, Nat.not_lt,
        Nat.not_lt] at hfix
      exact hfix.2

namespace Run

variable {τ ρ : Type} {job : Job} {o : Opinions τ ρ} {delay : Nat → Block → Nat}
variable {duration : Binary64} {s : Store} {x : Examination τ ρ} {r : Result τ}

/-- A run with fixes and without second opinions that leaves nothing to do, where carriage returns
stand at the ends of lines only, as far as there are fixes. -/
structure Clears (job : Job) (o : Opinions τ ρ) (delay : Nat → Block → Nat) (duration : Binary64)
    (s : Store) (x : Examination τ ρ) (r : Result τ) : Prop where
  fix : job.fix = true
  unadvised : o.advisor = none
  limit : 0 < job.settings.concurrency
  examined : examine job o delay s = .ok x
  ended : run job o delay duration s = .ok r
  exit : r.report.exitCode = 0
  digest : ∀ a ∈ x.scan.blocks, ∀ b ∈ x.scan.blocks,
    job.digest a.content = job.digest b.content → a.content = b.content
  cache : job.settings.cacheEnabled = true →
    ∀ p ∈ job.paths, r.store.resolve job.settings.cachePath ≠ s.resolve p
  plain : ∀ f ∈ x.fixes, ∀ raw, s.readText f.file = .ok raw →
    Text.IsPlainTo (f.line.toNat + 1) raw

namespace Clears

theorem of (h : Clears job o delay duration s x r) : x.Of job o delay s := examine_of h.examined

theorem failures_eq (h : Clears job o delay duration s x r) :
    x.intake.failures = [] ∧ x.failures = [] := by
  obtain ⟨cache, made, told, y, -, hreport, -, hmade⟩ := made_of_run h.fix h.examined h.ended
  refine List.append_eq_nil_iff.mp (List.eq_nil_iff_forall_not_mem.mpr fun e he => ?_)
  have hkept := hmade.kept e he
  rw [← hreport, (Report.exitCode_eq_zero h.exit).1] at hkept
  cases hkept

theorem not_failedAt (h : Clears job o delay duration s x r) (p : Path) :
    ¬ FailedAt r.report p := by
  rintro ⟨e, he, -⟩
  rw [(Report.exitCode_eq_zero h.exit).1] at he
  cases he

theorem kind_eq (h : Clears job o delay duration s x r) {i : StructuralIssue}
    (hi : i ∈ x.scan.issues) : i.kind = .missingLanguage := by
  obtain ⟨cache, made, told, y, -, hreport, -, hmade⟩ := made_of_run h.fix h.examined h.ended
  apply (Report.exitCode_eq_zero h.exit).2 i
  rw [hreport, hmade.structural]
  exact hi

theorem map_path (h : Clears job o delay duration s x r) :
    x.intake.documents.map (·.path) = job.paths :=
  (readAll_of h.of.intake).complete h.failures_eq.1

theorem exists_start (h : Clears job o delay duration s x r) :
    ∃ start : Check.State τ, start.memo = [] ∧
      (∃ told, (cacheOf job).load s = .ok (start.cache, told)) ∧
      x.state = ((x.check.worker delay).pass start 0 x.scan.blocks).1 ∧
      ((x.check.worker delay).pass start 0 x.scan.blocks).2 = x.findings.map .ok := by
  obtain ⟨start, hmemo, hload, hstate, hresults⟩ := h.of.exists_pass h.unadvised h.limit
  refine ⟨start, hmemo, hload, hstate, ?_⟩
  rw [← hresults]
  refine Examination.Of.results_eq ?_ h.failures_eq.2
  rw [hresults, Worker.length_pass]

theorem digests (h : Clears job o delay duration s x r) :
    ∀ a ∈ x.scan.blocks.map (·.content), ∀ b ∈ x.scan.blocks.map (·.content),
      x.check.classifier.digest a = x.check.classifier.digest b → a = b := by
  rw [h.of.check]
  intro c hc d hd heq
  obtain ⟨a, ha, rfl⟩ := List.mem_map.mp hc
  obtain ⟨b, hb, rfl⟩ := List.mem_map.mp hd
  exact h.digest a ha b hb heq

theorem settled (h : Clears job o delay duration s x r) :
    x.findings.map (·.block) = x.scan.blocks ∧
      ∀ f ∈ x.findings, ∃ known, Check.Settled job.settings.lenient known f.block f := by
  obtain ⟨start, hmemo, -, -, hpass⟩ := h.exists_start
  have ha : x.check.classifier.advisor = none := by rw [h.of.check, h.unadvised]
  have hfix : x.check.fix = true := by rw [h.of.check, h.fix]
  have hlenient : x.check.lenient = job.settings.lenient := by rw [h.of.check]
  rw [← hlenient]
  refine Check.pass_settled ha hfix delay h.digests (fun b hb => List.mem_map_of_mem hb) ?_ hpass
  rw [hmemo]
  exact Classifier.recalls_nil _ _ _

theorem mem_blocks (h : Clears job o delay duration s x r) {f : Finding} (hf : f ∈ x.findings) :
    f.block ∈ x.scan.blocks := by
  rw [← h.settled.1]
  exact List.mem_map_of_mem hf

theorem fixes_eq (h : Clears job o delay duration s x r) :
    x.fixes = x.findings.filterMap Finding.fix? := by
  refine Scan.fixes_eq (fun f hf => ?_) fun f hf hnone => ?_
  · obtain ⟨known, ⟨hclean, ht, -⟩ | ⟨l, -, -, -, ht, hi⟩⟩ := h.settled.2 f hf
    · exact .inl ⟨hclean, ht⟩
    · exact .inr ⟨l, ht, hi⟩
  · have hb := h.mem_blocks hf
    rw [h.of.scan] at hb ⊢
    exact (tellsMissing_scanAll _).mem_untagged hb hnone

theorem reread (h : Clears job o delay duration s x r) {d : Document}
    (hd : d ∈ x.intake.documents) : ∃ d' gs, Document.read r.store d.path = .ok d' ∧
      (∀ f, f ∈ gs ↔ f ∈ x.fixes ∧ s.resolve f.file = s.resolve d.path) ∧
      SettlesAll gs (Text.lines d.text) (Text.lines d'.text) := by
  have hof := readAll_of h.of.intake
  obtain ⟨raw, hraw, heq⟩ := Document.read_eq_ok.mp (hof.documents d hd)
  obtain ⟨bytes, hbytes, htext⟩ := Store.readText_eq_ok.mp hraw
  obtain ⟨names, hresolve, hn⟩ := Store.read_eq_ok.mp hbytes
  have hpath : d.path ∈ job.paths := by
    rw [← h.map_path]
    exact List.mem_map_of_mem hd
  obtain ⟨hgrows, gs, bytes', hn', hmends, hgs⟩ := file_of_run h.fix h.examined h.ended hn
    fun henabled => hresolve ▸ h.cache henabled d.path hpath
  rw [← Text.toUtf8_of_ofUtf8 htext] at hmends
  obtain ⟨raw', rfl, hsettles⟩ := hmends.of_text
  have hread : r.store.readText d.path = .ok raw' :=
    Store.readText_eq_ok.mpr ⟨_, Store.read_eq_ok.mpr ⟨names, hgrows.resolve hresolve, hn'⟩,
      Text.ofUtf8_toUtf8 raw'⟩
  refine ⟨_, gs, Document.read_eq_ok.mpr ⟨raw', hread, rfl⟩, fun f => ?_, ?_⟩
  · rw [hgs f, hresolve]
    exact ⟨fun ⟨hf, hto, _⟩ => ⟨hf, hto⟩, fun ⟨hf, hto⟩ => ⟨hf, hto, h.not_failedAt f.file⟩⟩
  · rw [heq]
    refine SettlesAll.reread (fun f hf => h.of.isTag ((hgs f).mp hf).1) (fun f hf => ?_) hsettles
    obtain ⟨hmem, hto, -⟩ := (hgs f).mp hf
    exact h.plain f hmem raw (Store.readText_congr (hto.trans hresolve.symm) hraw)

theorem again (h : Clears job o delay duration s x r) {f : Finding} (hf : f ∈ x.findings)
    {gs : List FenceFix}
    (hgs : ∀ g, g ∈ gs ↔ g ∈ x.fixes ∧ s.resolve g.file = s.resolve f.block.file) :
    Check.Again job.settings.lenient f (retagged gs f.block) := by
  obtain ⟨-, hsettled⟩ := h.settled
  rw [h.fixes_eq] at hgs
  rw [retagged]
  cases hlast : (onLine gs f.block.openLine).getLast? with
  | none =>
    obtain ⟨known, ⟨hclean, ht, -⟩ | ⟨l, -, -, -, htag, -⟩⟩ := hsettled f hf
    · exact .inl ⟨hclean, ht⟩
    · have hmem : ⟨f.block.file, f.block.openLine, l.tag⟩ ∈ gs :=
        (hgs _).mpr ⟨List.mem_filterMap.mpr ⟨f, hf, by rw [Finding.fix?, htag]; rfl⟩, rfl⟩
      -- the fix of the block itself would be on its line
      have hline := List.getLast?_eq_none_iff.mp hlast
      have hon := List.filter_eq_nil_iff.mp hline _ hmem
      simp at hon
  | some g =>
    obtain ⟨hg, hline⟩ := List.mem_filter.mp (List.mem_of_getLast? hlast)
    obtain ⟨hmem, hto⟩ := (hgs g).mp hg
    obtain ⟨f', hf', hfix⟩ := List.mem_filterMap.mp hmem
    obtain ⟨tag, htag, rfl⟩ := Option.map_eq_some_iff.mp hfix
    obtain ⟨known, ⟨hclean, -⟩ | ⟨l, hl, hnot, -, htag', -⟩⟩ := hsettled f' hf'
    · rw [hclean] at htag
      cases htag
    · rw [htag'] at htag
      obtain rfl := Option.some.inj htag
      obtain ⟨raw, hraw, hb⟩ := h.of.mem_blocks (h.mem_blocks hf)
      obtain ⟨raw', hraw', hb'⟩ := h.of.mem_blocks (h.mem_blocks hf')
      obtain rfl : raw' = raw := by
        rw [Store.readText_congr hto hraw] at hraw'
        exact (Except.ok.inj hraw').symm
      have hopen : f.block.openLine = f'.block.openLine := by
        have hline := beq_iff_eq.mp hline
        exact (Int.ofNat.inj hline).symm
      -- the last fix is for a block that begins on the line, perhaps named by another path
      have heq := Scan.eq_of_openLine hb hb' hopen
      refine .inr ⟨l, ?_, ?_, rfl⟩
      · rw [heq]
        exact hl
      · rwa [heq, Block.holds_file]

theorem rescan (h : Clears job o delay duration s x r) {d : Document}
    (hd : d ∈ x.intake.documents) : ∃ d' gs, Document.read r.store d.path = .ok d' ∧
      (∀ f, f ∈ gs ↔ f ∈ x.fixes ∧ s.resolve f.file = s.resolve d.path) ∧
      (scan d'.path d'.text).blocks = (scan d.path d.text).blocks.map (retagged gs) ∧
      ((∀ b ∈ (scan d'.path d'.text).blocks, b.tag.isSome = true) →
        (scan d'.path d'.text).issues = []) := by
  obtain ⟨d', gs, hread, hgs, hsettles⟩ := h.reread hd
  have htags : ∀ f ∈ gs, Fence.IsTag f.tag := fun f hf => h.of.isTag ((hgs f).mp hf).1
  have hn : ∀ l ∈ Text.lines d.text, '\n' ∉ l := fun l hl => Text.not_mem_of_mem_lines hl
  refine ⟨d', gs, hread, hgs, ?_, fun htagged => ?_⟩
  · rw [path_of_read hread, Scan.scan_blocks, Scan.scan_blocks]
    exact hsettles.blocks hn htags d.path
  · rw [Scan.scan_blocks] at htagged
    rw [path_of_read hread] at htagged ⊢
    rw [Scan.scan_issues, (hsettles.alike hn htags).issues_eq d.path fun b hb => by
      simpa using htagged b hb, ← Scan.scan_issues, List.filter_eq_nil_iff]
    intro i hi
    have hmem : i ∈ x.scan.issues := by
      rw [h.of.scan]
      exact mem_issues_scanAll.mpr ⟨d, hd, hi⟩
    simp [h.kind_eq hmem]

theorem exists_reread (h : Clears job o delay duration s x r) {ds : List Document}
    {fs : List Finding} (hds : ds ⊆ x.intake.documents) (hfs : fs ⊆ x.findings)
    (hmap : fs.map (·.block) = (scanAll ds).blocks) :
    ∃ ds', List.Forall₂ (fun p d => Document.read r.store p = .ok d) (ds.map (·.path)) ds' ∧
      (scanAll ds').issues = [] ∧
      List.Forall₂ (Check.Again job.settings.lenient) fs (scanAll ds').blocks := by
  induction ds generalizing fs with
  | nil =>
    obtain rfl := List.map_eq_nil_iff.mp hmap
    exact ⟨[], .nil, rfl, .nil⟩
  | cons d ds ih =>
    obtain ⟨hd, hds⟩ := List.cons_subset.mp hds
    obtain ⟨fs₁, fs₂, rfl, hmap₁, hmap₂⟩ := List.map_eq_append_iff.mp (hmap.trans scanAll_cons.2)
    obtain ⟨hfs₁, hfs₂⟩ := List.append_subset.mp hfs
    obtain ⟨ds', hread, hissues, hrel⟩ := ih hds hfs₂ hmap₂
    obtain ⟨d', gs, hread', hgs, hblocks, hissues'⟩ := h.rescan hd
    have hagain : ∀ f ∈ fs₁, Check.Again job.settings.lenient f (retagged gs f.block) := by
      intro f hf
      refine h.again (hfs₁ hf) fun g => ?_
      have hmem : f.block ∈ (scan d.path d.text).blocks := hmap₁ ▸ List.mem_map_of_mem hf
      rw [hgs g, Scan.file_of_mem_blocks hmem]
    rw [← hmap₁, List.map_map] at hblocks
    have htagged : ∀ b ∈ (scan d'.path d'.text).blocks, b.tag.isSome = true := by
      intro b hb
      rw [hblocks] at hb
      obtain ⟨f, hf, rfl⟩ := List.mem_map.mp hb
      exact (hagain f hf).content.2
    refine ⟨d' :: ds', .cons hread' hread, ?_, ?_⟩
    · rw [scanAll_cons.1, hissues, hissues' htagged]
      rfl
    · rw [scanAll_cons.2, hblocks]
      refine List.rel_append ?_ hrel
      exact List.forall₂_map_right_iff.mpr (List.forall₂_same.mpr hagain)

theorem exists_documents (h : Clears job o delay duration s x r) :
    ∃ ds, List.Forall₂ (fun p d => Document.read r.store p = .ok d) job.paths ds ∧
      (scanAll ds).issues = [] ∧
      List.Forall₂ (Check.Again job.settings.lenient) x.findings (scanAll ds).blocks := by
  have hblocks := h.settled.1
  rw [h.of.scan] at hblocks
  rw [← h.map_path]
  exact h.exists_reread (List.Subset.refl _) (List.Subset.refl _) hblocks

theorem file_mem (h : Clears job o delay duration s x r) {f : FenceFix} (hf : f ∈ x.fixes) :
    f.file ∈ job.paths := by
  obtain ⟨b, hb, -, hfile, -⟩ := h.of.exists_block duration hf
  rw [h.of.scan, mem_blocks_scanAll] at hb
  obtain ⟨d, hd, hb⟩ := hb
  rw [hfile, Scan.file_of_mem_blocks hb, ← h.map_path]
  exact List.mem_map_of_mem hd

theorem reload (h : Clears job o delay duration s x r) {start : Check.State τ}
    (hload : ∃ told, (cacheOf job).load s = .ok (start.cache, told))
    (hstate : x.state = ((x.check.worker delay).pass start 0 x.scan.blocks).1) :
    ∃ again told, (cacheOf job).load r.store = .ok (again, told) ∧
      start.cache.keys ⊆ again.keys := by
  obtain ⟨told, hload⟩ := hload
  obtain ⟨⟨hpath, henabled⟩, hkeys, hnew⟩ :=
    Check.pass_cache x.check delay start 0 x.scan.blocks
  rw [← hstate] at hpath henabled hkeys hnew
  obtain ⟨cache, made, told', y, hsave, -, hstore, hmade⟩ := made_of_run h.fix h.examined h.ended
  have hwhole : ∀ k ∈ x.state.cache.keys, k.Whole := by
    intro k hk
    obtain hk | ⟨b, -, rfl⟩ := hnew k hk
    · exact ValidationCache.whole_of_load (by simp [cacheOf, ValidationCache.new]) hload k hk
    · exact Json.whole_ofText _
  refine ValidationCache.reload hload hpath henabled hkeys hwhole hsave
    (hstore ▸ hmade.shape) ?_
  rintro names bytes ⟨hon, path, hp, hr⟩ hn
  obtain ⟨hplace, hplace'⟩ := h.of.cache_place
  rw [hplace] at hp
  obtain rfl := Option.some.inj hp
  rw [hplace'] at hon
  obtain ⟨fs, bytes', hn', hmends, hfs⟩ := hmade.file names bytes hn
  have hnil : fs = [] := by
    refine List.eq_nil_iff_forall_not_mem.mpr fun f hf => ?_
    obtain ⟨g, hg, hfg, hresolve, -⟩ := (hfs f).mp hf
    have hmem := mem_of_mem_plan hg hfg
    rw [← (grouped_plan x.fixes).own g hg f hfg] at hresolve
    obtain ⟨names', hnames'⟩ := h.of.exists_names hmem
    rw [(ValidationCache.save_grows hsave).resolve hnames'] at hresolve
    apply h.cache hon f.file (h.file_mem hmem)
    rw [hstore, hmade.shape.grows.resolve hr, hnames', Except.ok.inj hresolve]
  rw [hnil] at hmends
  rw [hstore, hn', hmends.eq_of_nil]

end Clears

end Run

end MarkdownFences
