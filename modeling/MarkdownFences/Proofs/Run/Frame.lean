import MarkdownFences.Proofs.FenceFix.Reread
import MarkdownFences.Proofs.Run.Outcome
import MarkdownFences.Proofs.Run.Pass

namespace MarkdownFences

open FenceFix

theorem Mends.eq_of_nil {bytes bytes' : List UInt8} (h : Mends [] bytes bytes') :
    bytes' = bytes := by
  obtain ⟨-, rfl⟩ | ⟨t, t', rfl, rfl, hs⟩ := h
  · rfl
  · rw [hs.text_eq_of_nil]

namespace Run

variable {τ ρ : Type} {job : Job} {o : Opinions τ ρ} {delay : Nat → Block → Nat}
variable {duration : Binary64} {s : Store} {x : Examination τ ρ} {r : Result τ}

/-- A file that the cache is not kept in says afterwards what those fixes make of it that lead to
it and did not fail. -/
theorem file_of_run (hfix : job.fix = true) (hx : examine job o delay s = .ok x)
    (hr : run job o delay duration s = .ok r) {names : List Text} {bytes : List UInt8}
    (hn : s.node? names = some (.file bytes))
    (hcache : job.settings.cacheEnabled = true →
      r.store.resolve job.settings.cachePath ≠ .ok names) :
    s.Grows r.store ∧ ∃ fs bytes', r.store.node? names = some (.file bytes') ∧
      Mends fs bytes bytes' ∧ ∀ f, f ∈ fs ↔
        f ∈ x.fixes ∧ s.resolve f.file = .ok names ∧ ¬ FailedAt r.report f.file := by
  have hof := examine_of hx
  obtain ⟨cache, made, told, y, hsave, hreport, hstore, hmade⟩ := made_of_run hfix hx hr
  have hgrows := ValidationCache.save_grows hsave
  have hkept : ¬ x.state.cache.KeptAt made names := by
    rintro ⟨henabled, path, hpath, hresolve⟩
    obtain ⟨hplace, hplace'⟩ := hof.cache_place
    rw [hplace] at hpath
    obtain rfl := Option.some.inj hpath
    apply hcache (hplace' ▸ henabled)
    rw [hstore]
    exact hmade.shape.grows.resolve hresolve
  obtain ⟨fs, bytes', hn', hm, hfs⟩ := hmade.file names bytes
    (ValidationCache.save_frame hsave hkept hn)
  rw [hstore, hreport]
  refine ⟨hgrows.trans hmade.shape.grows, fs, bytes', hn', hm, fun f => ?_⟩
  have hplan := grouped_plan x.fixes
  rw [hfs f]
  constructor
  · rintro ⟨g, hg, hf, hresolve, hok⟩
    have hmem := mem_of_mem_plan hg hf
    rw [← hplan.own g hg f hf] at hresolve hok
    refine ⟨hmem, ?_, hok⟩
    obtain ⟨names', hnames'⟩ := hof.exists_names hmem
    rw [hgrows.resolve hnames'] at hresolve
    rwa [← Except.ok.inj hresolve]
  · rintro ⟨hmem, hresolve, hok⟩
    obtain ⟨g, hg, hf⟩ := List.mem_flatMap.mp (hplan.perm.mem_iff.mpr hmem)
    have hown := hplan.own g hg f hf
    exact ⟨g, hg, hf, hown ▸ hgrows.resolve hresolve, hown ▸ hok⟩

theorem lists_of_run (hfix : job.fix = true) (hx : examine job o delay s = .ok x)
    (hr : run job o delay duration s = .ok r) {b : Block} :
    r.report.Lists b ↔ (x.report job duration).Lists b := by
  obtain ⟨cache, made, told, y, -, hreport, -, hmade⟩ := made_of_run hfix hx hr
  rw [Report.Lists, Report.Lists, hreport, hmade.structural, hmade.language]

theorem readText_of_failure (hfix : job.fix = true) (hx : examine job o delay s = .ok x)
    (hr : run job o delay duration s = .ok r) {e : Failure} (he : e ∈ r.report.failures)
    (hop : e.operation = .read) : ∃ err, s.readText e.file = .error err := by
  obtain ⟨cache, made, told, y, -, hreport, -, hmade⟩ := made_of_run hfix hx hr
  rw [hreport] at he
  obtain he | hwrite := hmade.added e he
  · obtain he | he := List.mem_append.mp he
    · exact ((readAll_of (examine_of hx).intake).failures e he).2
    · rw [validate_of_mem_failures he] at hop
      cases hop
  · rw [hwrite] at hop
    cases hop

/-- The lines of a file's text that a run may rewrite: the opening fences of the blocks that the
scan of the file found and the report lists. -/
def MayRewrite (s : Store) (report : Report) (p : Path) (t : Text) (i : Nat) : Prop :=
  ∃ q, s.resolve q = s.resolve p ∧ ∃ b ∈ (scan q t).blocks, report.Lists b ∧ b.openLine = i

theorem MayRewrite.apart {report : Report} {p : Path} {t : Text} {i : Nat}
    (h : MayRewrite s report p t i) {b : Block} (hb : b ∈ (scan p t).blocks) :
    i ≤ b.openLine ∨ b.closeLine < i := by
  obtain ⟨q, -, a, ha, -, rfl⟩ := h
  rw [Scan.blocks_file p q] at ha
  obtain ⟨a', ha', rfl⟩ := List.mem_map.mp ha
  have hapart := Scan.openLine_apart hb ha'
  exact hapart

theorem mayRewrite_of_mem (hfix : job.fix = true) (hx : examine job o delay s = .ok x)
    (hr : run job o delay duration s = .ok r) {p : Path} {raw : Text}
    (hraw : s.readText p = .ok raw) {f : FenceFix} (hf : f ∈ x.fixes)
    (hto : s.resolve f.file = s.resolve p) {i : Nat} (hi : f.line = i) :
    MayRewrite s r.report p (Text.ofFileText raw) i := by
  obtain ⟨b, hb, hlists, hfile, hline, -⟩ := (examine_of hx).exists_block duration hf
  obtain ⟨t, ht, hscan⟩ := (examine_of hx).mem_blocks hb
  rw [hfile] at hto
  obtain rfl : t = raw := by
    rw [Store.readText_congr hto hraw] at ht
    exact (Except.ok.inj ht).symm
  exact ⟨b.file, hto, b, hscan, (lists_of_run hfix hx hr).mpr hlists, by omega⟩

theorem MayRewrite.within {report : Report} {p : Path} {t : Text} {ls news : List Text}
    (h : ChangedOnly (MayRewrite s report p t) ls news) {b : Block} (hb : b ∈ (scan p t).blocks)
    {i : Nat} (hopen : b.openLine < i) (hclose : i ≤ b.closeLine) : news[i]? = ls[i]? := by
  apply h.line i
  intro hrewrite
  obtain hle | hlt := hrewrite.apart hb
  · omega
  · omega

/-- The line of a file that has the number of a fix is read as the line of that number exactly if
the lines before it are plain. -/
theorem readAs_of_target {raw : Text} {f : FenceFix}
    (hf : (target? (Text.lines raw) f).isSome = true) :
    (Text.lines (Text.ofFileText raw)).drop (Text.readAs raw f.line.toNat) =
        Text.lines (Text.ofFileText (Text.unlines ((Text.lines raw).drop f.line.toNat))) ∧
      (Text.readAs raw f.line.toNat = f.line.toNat ↔ Text.IsPlainTo f.line.toNat raw) := by
  obtain ⟨l, hl⟩ := Option.isSome_iff_exists.mp hf
  obtain ⟨i, hi, hget, -⟩ := target?_eq_some.mp hl
  have hlt : f.line.toNat < (Text.lines raw).length := by
    rw [hi]
    exact (List.getElem?_eq_some_iff.mp hget).1
  exact ⟨Text.drop_readAs hlt, Text.readAs_eq_iff (Nat.le_of_lt hlt)⟩

/-- Where fixes may write. A file that could not be read, or to which no fix leads but such as
failed, keeps its bytes. In every other file only lines change that have the number of the opening
fence of a listed block, and their line ends stay. These lines are the opening fences as long as
carriage returns stand at the ends of lines only, as far as fences are written on: a line is read
as the line of its number exactly if this holds before it. -/
theorem fix_frame {p : Path} {bytes : List UInt8} (hfix : job.fix = true)
    (hx : examine job o delay s = .ok x) (hr : run job o delay duration s = .ok r)
    (hp : s.read p = .ok bytes)
    (hcache : job.settings.cacheEnabled = true →
      r.store.resolve job.settings.cachePath ≠ s.resolve p) :
    ∃ bytes', r.store.read p = .ok bytes' ∧
      ((∃ e ∈ r.report.failures, e.operation = .read ∧ s.resolve e.file = s.resolve p) →
        bytes' = bytes) ∧
      ((∀ f ∈ x.fixes, s.resolve f.file = s.resolve p → FailedAt r.report f.file) →
        bytes' = bytes) ∧
      ∀ raw, Text.ofUtf8 bytes = .ok raw → ∃ raw', bytes' = Text.toUtf8 raw' ∧
        let t := Text.ofFileText raw
        let t' := Text.ofFileText raw'
        ChangedOnly (MayRewrite s r.report p t) (Text.lines raw) (Text.lines raw') ∧
          SameEnds (Text.lines raw) (Text.lines raw') ∧
          ((∀ f ∈ x.fixes, s.resolve f.file = s.resolve p →
            (target? (Text.lines raw) f).isSome = true →
              Text.IsPlainTo (f.line.toNat + 1) raw) →
            ChangedOnly (MayRewrite s r.report p t) (Text.lines t) (Text.lines t') ∧
              ∀ b ∈ (scan p t).blocks, ∀ i, b.openLine < i → i ≤ b.closeLine →
                (Text.lines t')[i]? = (Text.lines t)[i]?) ∧
          ∀ f ∈ x.fixes, (target? (Text.lines raw) f).isSome = true →
            (Text.lines t).drop (Text.readAs raw f.line.toNat) =
                Text.lines (Text.ofFileText (Text.unlines ((Text.lines raw).drop f.line.toNat))) ∧
              (Text.readAs raw f.line.toNat = f.line.toNat ↔
                Text.IsPlainTo f.line.toNat raw) := by
  obtain ⟨names, hresolve, hn⟩ := Store.read_eq_ok.mp hp
  rw [hresolve] at hcache
  obtain ⟨hgrows, fs, bytes', hn', hmends, hfs⟩ := file_of_run hfix hx hr hn hcache
  refine ⟨bytes', Store.read_eq_ok.mpr ⟨names, hgrows.resolve hresolve, hn'⟩, ?_, ?_, ?_⟩
  · rintro ⟨e, he, hop, hsame⟩
    obtain ⟨err, herr⟩ := readText_of_failure hfix hx hr he hop
    obtain ⟨-, rfl⟩ | ⟨t, t', rfl, -, -⟩ := hmends
    · rfl
    · have hread : s.readText p = .ok t :=
        Store.readText_eq_ok.mpr ⟨_, hp, Text.ofUtf8_toUtf8 t⟩
      rw [Store.readText_congr hsame hread] at herr
      cases herr
  · intro hfailed
    have hnil : fs = [] := by
      refine List.eq_nil_iff_forall_not_mem.mpr fun f hf => ?_
      obtain ⟨hmem, hto, hok⟩ := (hfs f).mp hf
      exact hok (hfailed f hmem (hto.trans hresolve.symm))
    rw [hnil] at hmends
    exact hmends.eq_of_nil
  · intro raw hraw
    rw [← Text.toUtf8_of_ofUtf8 hraw] at hmends
    obtain ⟨raw', hraw', hsettles⟩ := hmends.of_text
    -- fixes that are skipped must not be held against the file
    obtain ⟨gs, hgs, hmade⟩ := hsettles.exists_made
    have hto : ∀ f ∈ gs, f ∈ x.fixes ∧ s.resolve f.file = s.resolve p := by
      intro f hf
      obtain ⟨hmem, hto, -⟩ := (hfs f).mp ((hgs f).mp hf).1
      exact ⟨hmem, hto.trans hresolve.symm⟩
    have hmay : ∀ f ∈ gs, ∀ i : Nat, f.line = i →
        MayRewrite s r.report p (Text.ofFileText raw) i := fun f hf i hi =>
      mayRewrite_of_mem hfix hx hr (Store.readText_eq_ok.mpr ⟨bytes, hp, hraw⟩) (hto f hf).1
        (hto f hf).2 hi
    have htags : ∀ f ∈ gs, Fence.IsTag f.tag := fun f hf => (examine_of hx).isTag (hto f hf).1
    have hends := hmade.sameEnds (fun l hl => Text.not_mem_of_mem_lines hl) htags
    refine ⟨raw', hraw', hmade.changedOnly hmay, hends, fun hplain => ?_,
      fun f _ htarget => readAs_of_target htarget⟩
    have hreread : SettlesAll gs (Text.lines (Text.ofFileText raw))
        (Text.lines (Text.ofFileText raw')) :=
      hmade.reread htags fun f hf => hplain f (hto f hf).1 (hto f hf).2 ((hgs f).mp hf).2
    have hchanged := hreread.changedOnly hmay
    exact ⟨hchanged, fun b hb i hopen hclose => MayRewrite.within hchanged hb hopen hclose⟩

def fixJob : Job where
  paths := [.ofString "a.md"]
  settings := { Settings.default with cacheEnabled := false }
  fix := true
  model := none
  interactive := false
  digest := id
  readOnly := []

def fixStore (t : Text) : Store := ⟨[(["a.md".toList], .file (Text.toUtf8 t))]⟩

def fixRun (t : Text) : Except Fault (Result Unit) :=
  run fixJob (.skipped () : Opinions Unit Unit) (fun _ _ => 0) (.ofInt 0) (fixStore t)

theorem fixRun_eq (t : Text) : fixRun t =
    (((prepare fixJob (.skipped () : Opinions Unit Unit) (fixStore t)).map
      (·.passAll fun _ _ => 0)).bind fun x => x.conclude fixJob (.ofInt 0) (fixStore t)) := by
  rw [fixRun, run, examine_eq_pass rfl (by decide)]
  rfl

def crlfText : Text := "```\r\n```\r\n".toList

theorem exists_fixRun_crlf : ∃ x r, examine fixJob (.skipped () : Opinions Unit Unit)
      (fun _ _ => 0) (fixStore crlfText) = .ok x ∧
    x.fixes = [⟨.ofString "a.md", 0, "text".toList⟩] ∧ fixRun crlfText = .ok r ∧
    r.report.exitCode = 0 ∧ Text.IsPlainTo 1 crlfText := by
  have hfixes : (examine fixJob (.skipped () : Opinions Unit Unit) (fun _ _ => 0)
      (fixStore crlfText)).map (·.fixes) = .ok [⟨.ofString "a.md", 0, "text".toList⟩] := by
    rw [examine_eq_pass rfl (by decide)]
    decide +kernel
  have hcode : (fixRun crlfText).map (·.report.exitCode) = .ok 0 := by
    rw [fixRun_eq]
    decide +kernel
  have hplain : Text.IsPlainTo 1 crlfText := by
    rw [Text.IsPlainTo, Text.PlainLines]
    decide
  obtain ⟨x, hx, hfixes⟩ := ok_of_map hfixes
  obtain ⟨r, hr, hcode⟩ := ok_of_map hcode
  exact ⟨x, r, hx, hfixes, hr, hcode, hplain⟩

theorem fix_frame_crlf :
    let p := Path.ofString "a.md"
    ∃ r raw', fixRun crlfText = .ok r ∧ r.store.read p = .ok (Text.toUtf8 raw') ∧
      (Text.lines (Text.ofFileText raw'))[1]? =
        (Text.lines (Text.ofFileText crlfText))[1]? := by
  intro p
  obtain ⟨x, r, hx, hfixes, hr, -, hplain⟩ := exists_fixRun_crlf
  have hread : (fixStore crlfText).read p = .ok (Text.toUtf8 crlfText) := by decide +kernel
  obtain ⟨bytes', hread', -, -, htext⟩ := fix_frame rfl hx hr hread nofun
  obtain ⟨raw', rfl, -, -, hframe, -⟩ := htext crlfText (Text.ofUtf8_toUtf8 crlfText)
  obtain ⟨-, hkept⟩ := hframe fun f hf _ _ => by
    rw [hfixes, List.mem_singleton] at hf
    rwa [hf]
  exact ⟨r, raw', hr, hread', hkept ⟨p, 0, 1, [], none⟩ (by decide +kernel) 1 (by decide)
    (by decide)⟩

/-- A lone carriage return is a line end for the scan but not for the fixes: here the tag of the
block is written on its closing fence. -/
theorem fix_rewrites_closing_fence :
    let p := Path.ofString "a.md"
    let raw := "x\r```\n```\n".toList
    let raw' := "x\r```\n```text\n".toList
    ∃ r, fixRun raw = .ok r ∧ r.report.failures = [] ∧ r.store.read p = .ok (Text.toUtf8 raw') ∧
      ∃ b ∈ (scan p (Text.ofFileText raw)).blocks,
        (Text.lines (Text.ofFileText raw'))[b.closeLine]? ≠
          (Text.lines (Text.ofFileText raw))[b.closeLine]? := by
  intro p raw raw'
  have hrun : ((fixRun raw).map fun r => (r.report.failures, r.store.read p)) =
      .ok ([], .ok (Text.toUtf8 raw')) := by
    rw [fixRun_eq]
    decide +kernel
  obtain ⟨r, hr, hrun⟩ := ok_of_map hrun
  obtain ⟨hfailures, hread⟩ := Prod.mk.inj hrun
  exact ⟨r, hr, hfailures, hread, by decide +kernel⟩

end Run

end MarkdownFences
