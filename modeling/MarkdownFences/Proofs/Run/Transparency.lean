import MarkdownFences.Proofs.Run.Frame
import MarkdownFences.Proofs.Run.History
import MarkdownFences.Proofs.ValidationCache.Key

namespace MarkdownFences

def Job.caching (job : Job) (on : Bool) : Job :=
  { job with settings := { job.settings with cacheEnabled := on } }

namespace Run

open Check (Apart)
open ValidationCache (key)

variable {τ ρ : Type} {job : Job} {o : Opinions τ ρ} {delay : Nat → Block → Nat}
variable {duration : Binary64} {s : Store} {r : Result τ} {seen : List (Bool × Block)}
variable {f : Text → Except Fault (Option Language)} {c c₀ : ValidationCache} {b : Block}

/-- A block that shares its key with one that was checked before has the same tag and content. -/
def Discerned (digest : Text → Text) (seen : List (Bool × Block)) (bs : List Block) : Prop :=
  ∀ e ∈ seen, ∀ b ∈ bs, e.2.tag.isSome = true → b.tag.isSome = true →
    key digest e.2 = key digest b → e.2.tag = b.tag ∧ e.2.content = b.content

theorem plain_of_mem_blocks {ds : List Document} (hb : b ∈ (scanAll ds).blocks)
    (hf : ':' ∉ b.file.text) : b.Plain := by
  obtain ⟨d, -, hb⟩ := mem_blocks_scanAll.mp hb
  exact ⟨hf, fun _ ht => Scan.isTag_of_mem_blocks hb ht⟩

theorem History.plain {digest : Text → Text} {file : Option (List UInt8)}
    (h : History digest seen file) (hf : ∀ e ∈ seen, ':' ∉ e.2.file.text) :
    ∀ e ∈ seen, e.2.Plain := by
  induction h with
  | start => exact nofun
  | @run _ _ seen job _ _ _ s _ _ _ _ _ _ _ ih =>
    obtain ⟨hold, hnew⟩ := List.forall_mem_append.mp hf
    refine List.forall_mem_append.mpr ⟨ih hold, fun e he => ?_⟩
    have hfile := hnew e he
    rw [seenBy] at he
    split at he
    case isTrue =>
      obtain ⟨b, hb, rfl⟩ := List.mem_map.mp he
      exact plain_of_mem_blocks hb hfile
    case isFalse => cases he

theorem discerned_of_plain {digest : Text → Text} {bs : List Block}
    (hdigest : ∀ e ∈ seen, ∀ b ∈ bs,
      digest e.2.payload = digest b.payload → e.2.payload = b.payload)
    (hseen : ∀ e ∈ seen, e.2.Plain) (hbs : ∀ b ∈ bs, b.Plain) : Discerned digest seen bs := by
  intro e he b hb hte htb hkey
  have hpayload := hdigest e he b hb (Json.Points.ofText_inj hkey)
  obtain ⟨-, -, htag, hcontent⟩ := (hseen e he).payload_inj (hbs b hb) hpayload
  refine ⟨?_, hcontent⟩
  obtain ⟨t, ht⟩ := Option.isSome_iff_exists.mp hte
  obtain ⟨u, hu⟩ := Option.isSome_iff_exists.mp htb
  rw [ht, hu] at htag ⊢
  exact congrArg some htag

theorem filterMap_sublist {α β : Type} {g h : α → Option β} {as : List α}
    (hgh : ∀ a ∈ as, g a = h a ∨ g a = none) : (as.filterMap g).Sublist (as.filterMap h) := by
  induction as with
  | nil => exact .slnil
  | cons a as ih =>
    obtain ⟨ha, has⟩ := List.forall_mem_cons.mp hgh
    rw [List.filterMap_cons, List.filterMap_cons]
    obtain ha | ha := ha
    · rw [ha]
      cases h a with
      | none => exact ih has
      | some b => exact (ih has).cons_cons b
    · rw [ha]
      cases h a with
      | none => exact ih has
      | some b => exact (ih has).cons b

def checker (job : Job) (o : Opinions τ ρ) : Check τ ρ :=
  ⟨⟨job.digest, o.advisor⟩, job.fix, job.settings.lenient, 0⟩

theorem ruling_eq_verdict (on : Bool) :
    ruling (job.caching on) o f c b = (checker job o).verdict f (c.lists job.digest b) b :=
  rfl

theorem ruling_of_disabled (he : c₀.enabled = false) :
    ruling (job.caching false) o f c₀ b = (checker job o).verdict f false b := by
  rw [ruling_eq_verdict, ValidationCache.lists, he, Bool.false_and]

theorem ruling_cases (he : c₀.enabled = false) :
    ruling (job.caching true) o f c b = ruling (job.caching false) o f c₀ b ∨
      key job.digest b ∈ c.keys ∧ b.tag.isSome = true ∧
        ruling (job.caching true) o f c b = .ok (.clean b) := by
  rw [ruling_of_disabled he, ruling_eq_verdict]
  obtain h | ⟨hlist, ht, h⟩ := Check.verdict_cases (checker job o) f (c.lists job.digest b) b
  · exact .inl h
  · exact .inr ⟨List.contains_iff_mem.mp (Bool.and_eq_true_iff.mp hlist).2, ht, h⟩

theorem issueOf_cases (he : c₀.enabled = false) :
    issueOf (job.caching true) o f c b = issueOf (job.caching false) o f c₀ b ∨
      issueOf (job.caching true) o f c b = none := by
  obtain h | ⟨-, -, h⟩ := ruling_cases he
  · exact .inl (by rw [issueOf, issueOf, h])
  · exact .inr (by rw [issueOf, h]; rfl)

/-- Where a lenient check has let no block pass that a strict one is to check, the cache makes no
issue go away. -/
theorem ruling_caching {bs : List Block} (he : c₀.enabled = false)
    (hkeys : ∀ q ∈ c.keys, Earned job.digest seen q) (hd : Discerned job.digest seen bs)
    (hlenient : ∀ e ∈ seen, e.1 = true → job.settings.lenient = true) (hb : b ∈ bs) :
    ruling (job.caching true) o (fun _ => .ok none) c b =
      ruling (job.caching false) o (fun _ => .ok none) c₀ b := by
  obtain h | ⟨hlist, ht, h⟩ := ruling_cases he
  · exact h
  · obtain ⟨e, hmem, heq, hholds⟩ := hkeys _ hlist
    obtain ⟨htag, hcontent⟩ := hd e hmem b hb hholds.1 ht heq.symm
    have hpass := Check.passes_iff_holds (k := checker job o).mpr
      ((hholds.congr htag hcontent).mono (hlenient e hmem))
    rw [h, ruling_of_disabled he, Check.verdict_clean rfl rfl hpass]

/-- A run with the cache, after whatever runs there have been, reports no issue that the run
without it does not report, and all of them as long as no run was lenient before a strict one. -/
theorem run_caching (hh : History job.digest seen (cacheFile job s)) (ho : o.advisor = none)
    (hl : 0 < job.settings.concurrency) (hnull : '\x00' ∉ job.settings.cachePath.text)
    (ha : Apart job.digest (scanAll (documentsOf s job.paths)).blocks)
    (hd : Discerned job.digest seen (scanAll (documentsOf s job.paths)).blocks)
    (hr : run (job.caching false) o delay duration s = .ok r) (delay' : Nat → Block → Nat)
    (duration' : Binary64) :
    ∃ r', run (job.caching true) o delay' duration' s = .ok r' ∧
      r'.report.structuralIssues = r.report.structuralIssues ∧
      r'.report.languageIssues.Sublist r.report.languageIssues ∧
      ((∀ e ∈ seen, e.1 = true → job.settings.lenient = true) →
        r'.report.languageIssues = r.report.languageIssues) := by
  have hlimit (on : Bool) : 0 < (job.caching on).settings.concurrency := hl
  have hf : (⟨job.digest, o.advisor⟩ : Classifier τ ρ).Opines fun _ => .ok none :=
    Classifier.opines_none ho
  obtain ⟨x, hx⟩ := examine_of_run hr
  have hof := examine_of hx
  have hblocks : x.scan.blocks = (scanAll (documentsOf s job.paths)).blocks := by
    rw [hof.scan, (readAll_eq hof.intake).1]
    rfl
  -- the run without the cache is taken apart; the one with it goes over the same documents
  obtain ⟨c₀, told, i, saved, hload₀, hread, hrules, -, -, hreport⟩ :=
    parts_of_run (hlimit false) hf hx (hblocks ▸ ha) hr
  have he : c₀.enabled = false := (ValidationCache.load_path hload₀).2
  have hcached : Cached (job.caching true).digest seen (cacheFile (job.caching true) s) := hh.cached
  obtain ⟨c, told', hload, (hkeys : ∀ q ∈ c.keys, Earned job.digest seen q)⟩ := hcached.load
  rw [hrules.scan] at hblocks
  obtain ⟨y, hy, hof', hrules'⟩ :=
    exists_rules (hlimit true) hf hload hread (hblocks ▸ ha) delay'
  obtain ⟨cache, made, told'', hsave⟩ := ValidationCache.save_ok (c := y.state.cache)
    (fun _ path hp => by
      rw [hof'.cache_place.1] at hp
      rw [← Option.some.inj hp]
      exact hnull) s
  obtain ⟨r', hr', -, hreport'⟩ := hof'.conclude hsave duration'
  have hissues : r.report.languageIssues = (scanAll i.documents).blocks.filterMap
      (issueOf (job.caching false) o (fun _ => .ok none) c₀) := by
    rw [hreport]
    exact hrules.issues_eq duration
  have hissues' : r'.report.languageIssues = (scanAll i.documents).blocks.filterMap
      (issueOf (job.caching true) o (fun _ => .ok none) c) := by
    rw [hreport']
    exact hrules'.issues_eq duration'
  refine ⟨r', (run_eq_conclude hy).trans hr', ?_, ?_, fun hlenient => ?_⟩
  · rw [hreport', hreport]
    exact congrArg Scan.issues (hrules'.scan.trans hrules.scan.symm)
  · rw [hissues, hissues']
    exact filterMap_sublist fun b _ => issueOf_cases he
  · rw [hissues, hissues']
    -- no key was earned in a lenient check that a strict one is now to trust
    refine List.filterMap_congr fun b hb => ?_
    rw [issueOf, issueOf, ruling_caching he hkeys hd hlenient (hblocks ▸ hb)]

def cacheJob (lenient : Bool) : Job :=
  { fixJob with
    settings := { Settings.default with lenient }, fix := false, digest := Digest.ofText }

def cacheRun (lenient on : Bool) (s : Store) : Except Fault (Result Unit) :=
  run ((cacheJob lenient).caching on) (.skipped () : Opinions Unit Unit) (fun _ _ => 0) (.ofInt 0) s

theorem cacheRun_eq (lenient on : Bool) (s : Store) : cacheRun lenient on s =
    (((prepare ((cacheJob lenient).caching on) (.skipped () : Opinions Unit Unit) s).map
      (·.passAll fun _ _ => 0)).bind fun x =>
        x.conclude ((cacheJob lenient).caching on) (.ofInt 0) s) := by
  rw [cacheRun, run, examine_eq_pass rfl (by cases lenient <;> cases on <;> decide)]
  rfl

theorem run_caching_after_strict :
    let text := "```bash\nprint(1)\n```\n```bash\nls\n```\n".toList
    ∃ r₁ r r', cacheRun false true (fixStore text) = .ok r₁ ∧
      cacheRun true false r₁.store = .ok r ∧ cacheRun true true r₁.store = .ok r' ∧
      r'.report.languageIssues = r.report.languageIssues := by
  intro text
  let store := fixStore text
  have hruns : ((cacheRun false true store).bind fun r₁ => (cacheRun true false r₁.store).map
      fun r => (documentsOf r₁.store [.ofString "a.md"], cacheFile (cacheJob true) store)) =
        .ok ([⟨.ofString "a.md", text⟩], none) := by
    simp only [cacheRun_eq]
    decide +kernel
  obtain ⟨r₁, hr₁, hrest⟩ := ok_of_bind hruns
  obtain ⟨r, hr, heq⟩ := ok_of_map hrest
  obtain ⟨hdocuments, hfile⟩ := Prod.mk.inj heq
  have hscan : scanAll (documentsOf store [.ofString "a.md"]) =
      scanAll (documentsOf r₁.store [.ofString "a.md"]) := by
    rw [hdocuments]
    decide +kernel
  have ha : Apart Digest.ofText (scanAll (documentsOf store [.ofString "a.md"])).blocks :=
    ⟨by decide +kernel, by decide +kernel⟩
  have hd : Discerned Digest.ofText ([] ++ seenBy (cacheJob false) store)
      (scanAll (documentsOf store [.ofString "a.md"])).blocks := by
    unfold Discerned
    decide +kernel
  have hbefore : History Digest.ofText [] (cacheFile (cacheJob false) store) :=
    hfile ▸ .start
  have hh : History (cacheJob true).digest ([] ++ seenBy (cacheJob false) store)
      (cacheFile (cacheJob true) r₁.store) := .run hbefore rfl rfl (by decide) ha hr₁
  rw [hscan] at ha hd
  obtain ⟨r', hr', -, -, hsame⟩ := run_caching hh rfl (by decide) (by decide +kernel) ha hd hr
    (fun _ _ => 0) (.ofInt 0)
  exact ⟨r₁, r, r', hr₁, hr, hr', hsame (by decide +kernel)⟩

/-- What a lenient run let pass a strict one does not report, since the cache does not tell under
which of the two a block was found valid. -/
theorem lenient_run_hides_issue :
    let text := "```python\nprint(1)\n```\n".toList
    ∃ r₁ r r', cacheRun true true (fixStore text) = .ok r₁ ∧
      cacheRun false false r₁.store = .ok r ∧ cacheRun false true r₁.store = .ok r' ∧
      r.report.languageIssues ≠ [] ∧ r'.report.languageIssues = [] := by
  intro text
  have hruns : ((cacheRun true true (fixStore text)).bind fun r₁ =>
      (cacheRun false false r₁.store).bind fun r => (cacheRun false true r₁.store).map fun r' =>
        (r.report.languageIssues.isEmpty, r'.report.languageIssues)) = .ok (false, []) := by
    simp only [cacheRun_eq]
    decide +kernel
  obtain ⟨r₁, hr₁, hrest⟩ := ok_of_bind hruns
  obtain ⟨r, hr, hlast⟩ := ok_of_bind hrest
  obtain ⟨r', hr', heq⟩ := ok_of_map hlast
  obtain ⟨hissue, hnone⟩ := Prod.mk.inj heq
  exact ⟨r₁, r, r', hr₁, hr, hr', List.isEmpty_eq_false_iff.mp hissue, hnone⟩

end Run

end MarkdownFences
