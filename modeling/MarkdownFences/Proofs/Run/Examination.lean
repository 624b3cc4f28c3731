import MarkdownFences.Proofs.Check.FixPass
import MarkdownFences.Proofs.Check.Findings
import MarkdownFences.Proofs.Store.Grows
import MarkdownFences.Proofs.ValidationCache.File
import MarkdownFences.Run
import Mathlib.Data.List.Forall2

namespace MarkdownFences

/-- The report names the opening fence of a block, either for its language or for having none. -/
def Report.Lists (r : Report) (b : Block) : Prop :=
  (∃ i ∈ r.structuralIssues,
    i.kind = .missingLanguage ∧ i.file = b.file ∧ i.openLine = some (b.openLine : Int)) ∨
  ∃ i ∈ r.languageIssues, i.kind = .incorrectLanguage ∧ i.file = b.file ∧ i.openLine = b.openLine

theorem Document.read_eq_ok {s : Store} {p : Path} {d : Document} :
    Document.read s p = .ok d ↔ ∃ raw, s.readText p = .ok raw ∧ d = ⟨p, Text.ofFileText raw⟩ := by
  rw [Document.read]
  cases s.readText p with
  | error e => exact ⟨nofun, fun ⟨_, h, _⟩ => by cases h⟩
  | ok raw =>
    constructor
    · intro h
      exact ⟨raw, rfl, (Except.ok.inj h).symm⟩
    · rintro ⟨raw', h, rfl⟩
      rw [← Except.ok.inj h]
      rfl

namespace Run

variable {τ ρ : Type} {job : Job} {o : Opinions τ ρ} {s : Store} {x : Examination τ ρ}

section Intake

variable {ps : List Path} {i j : Intake} {p : Path}

structure Intake.Of (s : Store) (ps : List Path) (i : Intake) : Prop where
  documents : ∀ d ∈ i.documents, Document.read s d.path = .ok d
  failures : ∀ e ∈ i.failures, e.operation = .read ∧ ∃ err, s.readText e.file = .error err
  complete : i.failures = [] → i.documents.map (·.path) = ps

theorem path_of_read {d : Document} (h : Document.read s p = .ok d) : d.path = p := by
  obtain ⟨raw, -, rfl⟩ := Document.read_eq_ok.mp h
  rfl

theorem Intake.Of.take (h : i.Of s ps) (ht : i.take s p = .ok j) : j.Of s (ps ++ [p]) := by
  rw [Intake.take] at ht
  split at ht
  case h_1 d hd =>
    obtain rfl := Except.ok.inj ht
    refine ⟨?_, h.failures, fun hf => ?_⟩
    · refine List.forall_mem_append.mpr ⟨h.documents, List.forall_mem_singleton.mpr ?_⟩
      rw [path_of_read hd, hd]
    · rw [List.map_append, h.complete hf, List.map_singleton, path_of_read hd]
  case h_2 => cases ht
  case h_3 e _ hd =>
    obtain rfl := Except.ok.inj ht
    refine ⟨h.documents, ?_, fun hf => absurd hf (by simp)⟩
    refine List.forall_mem_append.mpr ⟨h.failures, List.forall_mem_singleton.mpr ⟨rfl, ?_⟩⟩
    cases hr : s.readText p with
    | error err => exact ⟨err, rfl⟩
    | ok t => rw [Document.read, hr] at hd; cases hd

theorem Intake.Of.foldlM {ps' : List Path} (h : i.Of s ps)
    (hr : ps'.foldlM (Intake.take s) i = .ok j) : j.Of s (ps ++ ps') := by
  induction ps' generalizing i ps with
  | nil =>
    obtain rfl := Except.ok.inj hr
    simpa using h
  | cons p ps' ih =>
    rw [List.foldlM_cons] at hr
    obtain ⟨k, ht, hr⟩ := bind_eq_ok.mp hr
    rw [List.append_cons]
    exact ih (h.take ht) hr

theorem readAll_of (h : readAll s ps = .ok i) : i.Of s ps :=
  have hempty : Intake.Of s [] .empty :=
    ⟨by simp [Intake.empty], by simp [Intake.empty], fun _ => rfl⟩
  hempty.foldlM h

theorem readAll_eq_ok {ds : List Document}
    (h : List.Forall₂ (fun p d => Document.read s p = .ok d) ps ds) :
    readAll s ps = .ok ⟨ds, [], []⟩ := by
  have hmore (i : Intake) :
      ps.foldlM (Intake.take s) i = .ok { i with documents := i.documents ++ ds } := by
    induction h generalizing i with
    | nil => simp [pure, Except.pure]
    | @cons p d ps ds hd _ ih =>
      rw [List.foldlM_cons, Intake.take, hd]
      apply (ih _).trans
      simp
  exact hmore .empty

end Intake

section Scan

variable {ds : List Document} {b : Block}

theorem mem_blocks_scanAll :
    b ∈ (scanAll ds).blocks ↔ ∃ d ∈ ds, b ∈ (scan d.path d.text).blocks := by
  simp [scanAll]

theorem scanAll_cons {d : Document} :
    (scanAll (d :: ds)).issues = (scan d.path d.text).issues ++ (scanAll ds).issues ∧
      (scanAll (d :: ds)).blocks = (scan d.path d.text).blocks ++ (scanAll ds).blocks :=
  ⟨rfl, rfl⟩

theorem mem_issues_scanAll {i : StructuralIssue} :
    i ∈ (scanAll ds).issues ↔ ∃ d ∈ ds, i ∈ (scan d.path d.text).issues := by
  simp [scanAll]

theorem tellsMissing_scanAll (ds : List Document) : (scanAll ds).TellsMissing := by
  induction ds with
  | nil => rfl
  | cons d ds ih => exact (Scan.tellsMissing_scan d.path d.text).append ih

end Scan

def cacheOf (job : Job) : ValidationCache :=
  .new (some job.settings.cachePath) job.settings.cacheEnabled

theorem enabled_cacheOf (job : Job) : (cacheOf job).enabled = job.settings.cacheEnabled := by
  rw [cacheOf, ValidationCache.new, Option.isSome_some, Bool.and_true]

structure Examination.Ready (job : Job) (o : Opinions τ ρ) (s : Store) (x : Examination τ ρ) :
    Prop where
  intake : readAll s job.paths = .ok x.intake
  scan : x.scan = scanAll x.intake.documents
  check : x.check = ⟨⟨job.digest, o.advisor⟩, job.fix, job.settings.lenient, x.scan.blocks.length⟩
  memo : x.state.classifier.memo = .empty
  cache : ∃ told, (cacheOf job).load s = .ok (x.state.cache, told)

theorem prepare_ok {cache : ValidationCache} {told : List Log.Entry} {i : Intake}
    (hload : (cacheOf job).load s = .ok (cache, told)) (hread : readAll s job.paths = .ok i)
    (o : Opinions τ ρ) :
    ∃ y, prepare job o s = .ok y ∧ y.Ready job o s ∧ y.intake = i ∧ y.state.cache = cache := by
  rw [cacheOf] at hload
  rw [prepare]
  simp only [hload, hread, mapError_ok, bind, Except.bind, pure, Except.pure]
  exact ⟨_, rfl, ⟨hread, rfl, rfl, rfl, told, hload⟩, rfl, rfl⟩

theorem ready_of_prepare (h : prepare job o s = .ok x) : x.Ready job o s := by
  obtain ⟨⟨cache, told⟩, hload, h⟩ := ok_of_bind h
  obtain ⟨intake, hread, h⟩ := ok_of_bind h
  obtain rfl := Except.ok.inj h
  exact ⟨hread, rfl, rfl, rfl, told, mapError_eq_ok.mp hload⟩

theorem mem_findings {f : Finding} : f ∈ x.findings ↔ .ok f ∈ x.results := by
  simp [Examination.findings, toOption_eq_some]

theorem validate_of_mem_failures {e : Failure} (h : e ∈ x.failures) : e.operation = .validate := by
  obtain ⟨⟨b, r⟩, -, hr⟩ := List.mem_filterMap.mp h
  cases r with
  | ok f => cases hr
  | error err =>
    obtain rfl := Option.some.inj hr
    rfl

structure Examination.Of (job : Job) (o : Opinions τ ρ) (delay : Nat → Block → Nat) (s : Store)
    (x : Examination τ ρ) : Prop where
  intake : readAll s job.paths = .ok x.intake
  scan : x.scan = scanAll x.intake.documents
  check : x.check = ⟨⟨job.digest, o.advisor⟩, job.fix, job.settings.lenient, x.scan.blocks.length⟩
  run : ∃ start : Check.State τ, start.classifier.memo = .empty ∧
    (∃ told, (cacheOf job).load s = .ok (start.cache, told)) ∧
    let t := Admission.run (x.check.worker delay) job.settings.concurrency 0 start x.scan.blocks
    x.state = t.shared ∧ x.results = t.outcomes

theorem examine_of {delay : Nat → Block → Nat} (h : examine job o delay s = .ok x) :
    x.Of job o delay s := by
  obtain ⟨y, hp, rfl⟩ := ok_of_map h
  have hready := ready_of_prepare hp
  exact ⟨hready.intake, hready.scan, hready.check, y.state, hready.memo, hready.cache, rfl, rfl⟩

namespace Examination.Of

variable {delay : Nat → Block → Nat}

theorem isOf (h : x.Of job o delay s) {f : Finding} (hf : f ∈ x.findings) :
    ∃ b ∈ x.scan.blocks, f.IsOf b := by
  obtain ⟨start, -, -, -, hresults⟩ := h.run
  rw [mem_findings, hresults] at hf
  obtain ⟨b, hb, hP⟩ := Admission.exists_of_mem_outcomes
    (x.check.worker_respects delay start.cache) ⟨rfl, rfl⟩ hf
  exact ⟨b, hb, (hP f rfl).isOf⟩

theorem cache_place (h : x.Of job o delay s) :
    x.state.cache.path = some job.settings.cachePath ∧
      x.state.cache.enabled = job.settings.cacheEnabled := by
  obtain ⟨start, -, ⟨told, hload⟩, hstate, -⟩ := h.run
  have hplace := Admission.shared_run (x.check.worker_respects delay start.cache)
    job.settings.concurrency 0 ⟨rfl, rfl⟩ x.scan.blocks
  obtain ⟨hpath, henabled⟩ := ValidationCache.load_path hload
  rw [hstate]
  exact ⟨hplace.1.trans hpath, hplace.2.trans (henabled.trans (enabled_cacheOf job))⟩

theorem mem_blocks (h : x.Of job o delay s) {b : Block} (hb : b ∈ x.scan.blocks) :
    ∃ raw, s.readText b.file = .ok raw ∧
      b ∈ (MarkdownFences.scan b.file (Text.ofFileText raw)).blocks := by
  rw [h.scan, mem_blocks_scanAll] at hb
  obtain ⟨d, hd, hb⟩ := hb
  obtain ⟨raw, hraw, heq⟩ := Document.read_eq_ok.mp ((readAll_of h.intake).documents d hd)
  rw [Scan.file_of_mem_blocks hb]
  rw [heq] at hb
  exact ⟨raw, hraw, hb⟩

end Examination.Of

section Fixes

variable {delay : Nat → Block → Nat} {f : FenceFix}

theorem mem_untagged {c : Scan} {b : Block}
    (h : c.untagged.contains (b.file, some (b.openLine : Int)) = true) :
    ∃ i ∈ c.issues, i.kind = .missingLanguage ∧ i.file = b.file ∧
      i.openLine = some (b.openLine : Int) := by
  rw [List.contains_iff_mem, Scan.untagged] at h
  obtain ⟨i, hi, heq⟩ := List.mem_map.mp h
  obtain ⟨hmem, hkind⟩ := List.mem_filter.mp hi
  obtain ⟨hfile, hopen⟩ := Prod.mk.inj heq
  exact ⟨i, hmem, by simpa using hkind, hfile, hopen⟩

theorem Examination.Of.exists_block (h : x.Of job o delay s) (duration : Binary64)
    (hf : f ∈ x.fixes) : ∃ b ∈ x.scan.blocks, (x.report job duration).Lists b ∧
      f.file = b.file ∧ f.line = b.openLine ∧ Fence.IsTag f.tag := by
  obtain ⟨g, hg, hgf⟩ := List.mem_filterMap.mp hf
  obtain ⟨b, hb, hof⟩ := h.isOf hg
  refine ⟨b, hb, ?_⟩
  cases hof with
  | clean => cases hgf
  | untagged l hb =>
    simp only [Option.isSome_none, Bool.false_or] at hgf
    split at hgf
    case isTrue hu =>
      obtain rfl := Option.some.inj hgf
      exact ⟨.inl (mem_untagged hu), rfl, rfl, Language.isTag_tag l⟩
    case isFalse => cases hgf
  | mismatch declared l i hi =>
    obtain rfl := Option.some.inj hgf
    refine ⟨.inr ⟨i, List.mem_filterMap.mpr ⟨_, hg, rfl⟩, ?_⟩, rfl, rfl, ?_⟩
    · obtain rfl := Block.eq_of_mismatch hi
      exact ⟨rfl, rfl, rfl⟩
    · rw [Block.detected_of_mismatch hi]
      exact Language.isTag_tag l

theorem Examination.Of.isTag (h : x.Of job o delay s) (hf : f ∈ x.fixes) : Fence.IsTag f.tag := by
  obtain ⟨b, -, -, -, -, ht⟩ := h.exists_block (.ofInt 0) hf
  exact ht

theorem Examination.Of.exists_names (h : x.Of job o delay s) (hf : f ∈ x.fixes) :
    ∃ names, s.resolve f.file = .ok names := by
  obtain ⟨b, hb, -, hfile, -⟩ := h.exists_block (.ofInt 0) hf
  obtain ⟨raw, hraw, -⟩ := h.mem_blocks hb
  obtain ⟨bytes, hbytes, -⟩ := Store.readText_eq_ok.mp hraw
  obtain ⟨names, hnames, -⟩ := Store.read_eq_ok.mp hbytes
  exact ⟨names, hfile ▸ hnames⟩

end Fixes

end Run

end MarkdownFences
