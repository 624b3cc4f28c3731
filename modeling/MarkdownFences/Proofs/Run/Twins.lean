import MarkdownFences.Proofs.Check.Calls
import MarkdownFences.Proofs.Classifier.Overlap
import MarkdownFences.Proofs.Remote.Traffic
import MarkdownFences.Proofs.Run.Frame
import MarkdownFences.Proofs.Run.Pass

namespace MarkdownFences.Run

open Admission (Course Moves)
open Classifier (Spaced)

variable {τ ρ : Type} {job : Job} {o : Opinions τ ρ} {delay : Nat → Block → Nat} {s : Store}
variable {x : Examination τ ρ}

/-- Blocks without a tag that have the same content get the same one, unless the calls for their
languages cannot have gone on without overlapping. -/
theorem Examination.Of.twins (h : x.Of job o delay s) (hfix : job.fix = true)
    (hl : 0 < job.settings.concurrency)
    (hd : ∀ a ∈ x.scan.blocks, ∀ b ∈ x.scan.blocks,
      job.digest a.content = job.digest b.content → a.content = b.content) :
    let c : Classifier τ ρ := ⟨job.digest, o.advisor⟩
    let ts := x.scan.blocks.map (·.content)
    ∃ start u, start.memo = .empty ∧ Moves x.check.calls ts (Course.start start ts) u ∧
      (∀ (i : Nat) b r, x.scan.blocks[i]? = some b → x.results[i]? = some r →
        ∃ stage, u.stages[i]? = some stage ∧ x.check.Stands b (.done r) stage) ∧
      ∀ (i j : Nat) a b f g, x.scan.blocks[i]? = some a → x.scan.blocks[j]? = some b →
        a.tag = none → b.tag = none → a.content = b.content →
        x.results[i]? = some (.ok f) → x.results[j]? = some (.ok g) →
        f.tag = g.tag ∨ ¬ Spaced x.check.calls ts a.content (Course.start start ts) u ∧
          ∃ l l' : Language, c.MayFind a.content l ∧ c.MayFind a.content l' ∧
            f.tag = some l.tag ∧ g.tag = some l'.tag := by
  intro c ts
  obtain ⟨start, hmemo, -, -, hresults⟩ := h.run
  have hc : x.check.classifier = c := by rw [h.check]
  have hk : x.check.fix = true := by
    rw [h.check]
    exact hfix
  have hapart : ∀ t ∈ ts, ∀ u ∈ ts,
      x.check.classifier.digest t = x.check.classifier.digest u → t = u := by
    rw [hc]
    exact Check.digests_apart hd
  obtain ⟨u, hu, -, hstands⟩ := Check.exists_calls hl x.check delay start x.scan.blocks
  rw [← hresults] at hstands
  refine ⟨start.classifier, u, hmemo, hu, hstands, fun i j a b f g ha hb hta htb hab hf hg => ?_⟩
  obtain ⟨stage, hi, hsa⟩ := hstands i a _ ha hf
  obtain ⟨stage', hj, hsb⟩ := hstands j b _ hb hg
  rw [← hc]
  obtain hsame | ⟨l, l', rfl, rfl, hft, hgt⟩ := hsa.tag_eq_or hk hta htb hab hsb
  · exact .inl hsame
  · obtain rfl | ⟨hover, hfind, hfind'⟩ :=
      Classifier.agree_unless_overlapping hapart (congrArg Memo.entries hmemo) hu
        (Check.getElem?_content ha) (hab ▸ Check.getElem?_content hb) hi hj
    · exact .inl (hft.trans hgt.symm)
    · exact .inr ⟨hover, l, l', hfind, hfind', hft, hgt⟩

/-- Calls on equal content that come to a language come to the same one, and blocks without a tag
that have the same content get the same one, unless a call on it must have begun while another one
on it was waiting, and then there are answers that come to different languages. -/
theorem twins_agree_unless_overlapping (job : Job) (o : Opinions τ ρ) :
    let c : Classifier τ ρ := ⟨job.digest, o.advisor⟩
    (∀ (ts : List Text) delay told (s : Classifier.State τ) x,
      (∀ a ∈ ts, ∀ b ∈ ts, job.digest a = job.digest b → a = b) → s.memo = .empty →
      Moves (c.calls delay told) ts (Course.start s ts) x →
      ∀ (i j : Nat) t l l', ts[i]? = some t → ts[j]? = some t →
        x.stages[i]? = some (.done (.ok l)) → x.stages[j]? = some (.done (.ok l')) →
        l = l' ∨ ¬ Spaced (c.calls delay told) ts t (Course.start s ts) x ∧
          c.MayFind t l ∧ c.MayFind t l') ∧
    ∀ delay s (x : Examination τ ρ), job.fix = true → 0 < job.settings.concurrency →
      examine job o delay s = .ok x →
      (∀ a ∈ x.scan.blocks, ∀ b ∈ x.scan.blocks,
        job.digest a.content = job.digest b.content → a.content = b.content) →
      let ts := x.scan.blocks.map (·.content)
      ∃ start u, start.memo = .empty ∧ Moves x.check.calls ts (Course.start start ts) u ∧
        ∀ (i j : Nat) a b f g, x.scan.blocks[i]? = some a → x.scan.blocks[j]? = some b →
          a.tag = none → b.tag = none → a.content = b.content →
          x.results[i]? = some (.ok f) → x.results[j]? = some (.ok g) →
          f.tag = g.tag ∨ ¬ Spaced x.check.calls ts a.content (Course.start start ts) u ∧
            ∃ l l' : Language, c.MayFind a.content l ∧ c.MayFind a.content l' ∧
              f.tag = some l.tag ∧ g.tag = some l'.tag := by
  intro c
  constructor
  · intro ts delay told s x hd hs hx i j t l l' hi hj hl hl'
    exact Classifier.agree_unless_overlapping hd (congrArg Memo.entries hs) hx hi hj hl hl'
  · intro delay s x hfix hl hx hd
    obtain ⟨start, u, hmemo, hu, -, htags⟩ := (examine_of hx).twins hfix hl hd
    exact ⟨start, u, hmemo, hu, htags⟩

def twinStore : Store where
  nodes := [(["a.md".toList], .file (Text.toUtf8 "```\nls -la\n```\n".toList)),
    (["b.md".toList], .file (Text.toUtf8 "```\nls -la\n```\n".toList))]

def twinJob (limit : Nat) : Job :=
  { fixJob with
    paths := [.ofString "a.md", .ofString "b.md"]
    settings := { Settings.default with cacheEnabled := false, concurrency := limit } }

def inTurn : List Remote.Reply → Remote.Request → List Remote.Reply × Remote.Reply
  | [], _ => ([], Remote.Traffic.refused)
  | r :: rs, _ => (rs, r)

def twinOpinions : Opinions (Remote.Service × List Remote.Reply) Remote.Reply :=
  .given (Remote.Service.advisor inTurn) (.new "codellama:7b".toList 800 3,
    [.response 200 (Text.toUtf8 "\x7b\"response\": \"json\"\x7d".toList)])

def twinsSeen (x : Examination (Remote.Service × List Remote.Reply) Remote.Reply) :
    List (Option Text × Text) × List (Option Text) :=
  (x.scan.blocks.map fun b => (b.tag, b.content), x.results.map fun r => r.toOption.bind (·.tag))

theorem exists_twins {x : Examination (Remote.Service × List Remote.Reply) Remote.Reply}
    {l l' : Language} (h : twinsSeen x =
      ([(none, "ls -la".toList), (none, "ls -la".toList)], [some l.tag, some l'.tag])) :
    ∃ a b f g, x.scan.blocks = [a, b] ∧ x.results = [.ok f, .ok g] ∧ a.tag = none ∧ b.tag = none ∧
      a.content = "ls -la".toList ∧ b.content = "ls -la".toList ∧
      f.tag = some l.tag ∧ g.tag = some l'.tag := by
  have hresult {r : Except Fault Finding} {tag : Text} (hr : r.toOption.bind (·.tag) = some tag) :
      ∃ f, r = .ok f ∧ f.tag = some tag := by
    cases r with
    | error e => cases hr
    | ok f => exact ⟨f, rfl, hr⟩
  obtain ⟨hblocks, hresults⟩ := Prod.mk.inj h
  simp only [List.map_eq_cons_iff, List.map_eq_nil_iff] at hblocks hresults
  obtain ⟨a, _, hbs, ha, b, _, rfl, hb, rfl⟩ := hblocks
  obtain ⟨r, _, hrs, hr, r', _, rfl, hr', rfl⟩ := hresults
  obtain ⟨f, rfl, hf⟩ := hresult hr
  obtain ⟨g, rfl, hg⟩ := hresult hr'
  obtain ⟨hta, hca⟩ := Prod.mk.inj ha
  obtain ⟨htb, hcb⟩ := Prod.mk.inj hb
  exact ⟨a, b, f, g, hbs, hrs, hta, htb, hca, hcb, hf, hg⟩

/-- One at a time, the second block is not asked about: its language is remembered. -/
theorem twins_agree_one_at_a_time :
    let ts := ["ls -la".toList, "ls -la".toList]
    ∃ x f g, examine (twinJob 1) twinOpinions (fun _ _ => 1) twinStore = .ok x ∧
      x.results = [.ok f, .ok g] ∧ f.tag = some Language.json.tag ∧
      ∃ start u, start.memo = .empty ∧ Moves x.check.calls ts (Course.start start ts) u ∧
        (f.tag = g.tag ∨ ¬ Spaced x.check.calls ts "ls -la".toList (Course.start start ts) u) ∧
        ∀ l l', u.stages[0]? = some (.done (.ok l)) → u.stages[1]? = some (.done (.ok l')) →
          l = l' ∨ ¬ Spaced x.check.calls ts "ls -la".toList (Course.start start ts) u := by
  intro ts
  obtain ⟨x, hx, hseen⟩ : ∃ x, examine (twinJob 1) twinOpinions (fun _ _ => 1) twinStore = .ok x ∧
      twinsSeen x = ([(none, "ls -la".toList), (none, "ls -la".toList)],
        [some Language.json.tag, some Language.json.tag]) :=
    examine_of_steps (n := 10) (by decide +kernel)
  obtain ⟨a, b, f, g, hblocks, hresults, hta, htb, hca, hcb, hf, -⟩ := exists_twins hseen
  obtain ⟨hcalls, hruns⟩ := twins_agree_unless_overlapping (twinJob 1) twinOpinions
  obtain ⟨start, u, hmemo, hu, htags⟩ :=
    hruns _ _ x rfl (by decide) hx fun _ _ _ _ h => h
  have htags := htags 0 1 a b f g (by rw [hblocks]; rfl) (by rw [hblocks]; rfl) hta htb
    (hca.trans hcb.symm) (by rw [hresults]; rfl) (by rw [hresults]; rfl)
  rw [hblocks, List.map_cons, List.map_cons, List.map_nil, hca, hcb] at hu htags
  refine ⟨x, f, g, hx, hresults, hf, start, u, hmemo, hu, htags.imp_right And.left,
    fun l l' hl hl' => ?_⟩
  rw [Check.calls, (examine_of hx).check] at hu ⊢
  exact (hcalls ts _ _ start u (fun _ _ _ _ h => h) hmemo hu 0 1 "ls -la".toList l l' rfl rfl hl
    hl').imp_right And.left

/-- Two at a time, the second block is asked about before there is an answer about the first. -/
theorem twins_differ :
    let ts := ["ls -la".toList, "ls -la".toList]
    ∃ x r start u, examine (twinJob 2) twinOpinions (fun _ _ => 1) twinStore = .ok x ∧
      (x.scan.blocks.map fun b => (b.tag, b.content)) = ts.map (none, ·) ∧
      run (twinJob 2) twinOpinions (fun _ _ => 1) (.ofInt 0) twinStore = .ok r ∧
      r.store.read (.ofString "a.md") = .ok (Text.toUtf8 "```json\nls -la\n```\n".toList) ∧
      r.store.read (.ofString "b.md") = .ok (Text.toUtf8 "```bash\nls -la\n```\n".toList) ∧
      start.memo = .empty ∧ Moves x.check.calls ts (Course.start start ts) u ∧
      u.stages[0]? = some (.done (.ok .json)) ∧ u.stages[1]? = some (.done (.ok .bash)) := by
  intro ts
  obtain ⟨x, hx, hseen⟩ : ∃ x, examine (twinJob 2) twinOpinions (fun _ _ => 1) twinStore = .ok x ∧
      twinsSeen x = ([(none, "ls -la".toList), (none, "ls -la".toList)],
        [some Language.json.tag, some Language.bash.tag]) :=
    examine_of_steps (n := 10) (by decide +kernel)
  obtain ⟨y, hy, hends⟩ : ∃ x, examine (twinJob 2) twinOpinions (fun _ _ => 1) twinStore = .ok x ∧
      ((x.conclude (twinJob 2) (.ofInt 0) twinStore).map fun r =>
        (r.store.read (.ofString "a.md"), r.store.read (.ofString "b.md"))) =
        .ok (.ok (Text.toUtf8 "```json\nls -la\n```\n".toList),
          .ok (Text.toUtf8 "```bash\nls -la\n```\n".toList)) :=
    examine_of_steps (n := 10) (by decide +kernel)
  obtain rfl := Except.ok.inj (hx.symm.trans hy)
  obtain ⟨r, hr, hread⟩ := ok_of_map hends
  obtain ⟨hreadA, hreadB⟩ := Prod.mk.inj hread
  obtain ⟨a, b, f, g, hblocks, hresults, hta, htb, hca, hcb, hf, hg⟩ := exists_twins hseen
  have hof := examine_of hx
  obtain ⟨start, u, hmemo, hu, hstands, -⟩ := hof.twins rfl (by decide) fun _ _ _ _ h => h
  rw [hblocks, hresults] at hstands
  obtain ⟨stage, hi, ha⟩ := hstands 0 a _ rfl rfl
  obtain ⟨stage', hj, hb⟩ := hstands 1 b _ rfl rfl
  have hfix : x.check.fix = true := by rw [hof.check]; rfl
  rw [ha.eq_done hfix hta (by rw [hca]; decide) hf] at hi
  rw [hb.eq_done hfix htb (by rw [hcb]; decide) hg] at hj
  rw [hblocks, List.map_cons, List.map_cons, List.map_nil, hca, hcb] at hu
  exact ⟨x, r, start, u, hx, congrArg Prod.fst hseen, (run_eq_conclude hx).trans hr, hreadA, hreadB,
    hmemo, hu, hi, hj⟩

end MarkdownFences.Run
