import MarkdownFences.Proofs.FenceFix.Plan
import MarkdownFences.Proofs.FenceFix.Rescan
import MarkdownFences.Proofs.Repair.File
import MarkdownFences.Run

namespace MarkdownFences

open FenceFix

/-- What fixes make of the bytes of a file. Bytes that are no text have none. -/
def Mends (fs : List FenceFix) (bytes bytes' : List UInt8) : Prop :=
  fs = [] ∧ bytes' = bytes ∨
    ∃ t t', bytes = Text.toUtf8 t ∧ bytes' = Text.toUtf8 t' ∧
      SettlesAll fs (Text.lines t) (Text.lines t')

theorem Mends.of_text {fs : List FenceFix} {t : Text} {bytes' : List UInt8}
    (h : Mends fs (Text.toUtf8 t) bytes') :
    ∃ t', bytes' = Text.toUtf8 t' ∧ SettlesAll fs (Text.lines t) (Text.lines t') := by
  obtain ⟨rfl, rfl⟩ | ⟨u, t', hu, hb, hs⟩ := h
  · exact ⟨t, rfl, .refl _⟩
  · obtain rfl := Text.toUtf8_inj hu
    exact ⟨t', hb, hs⟩

theorem Mends.applyTo {fs gs : List FenceFix} {bytes : List UInt8} {t : Text} {o : Outcome}
    (hfs : ∀ f ∈ fs, Fence.IsTag f.tag) (hgs : ∀ f ∈ gs, Fence.IsTag f.tag)
    (h : Mends fs bytes (Text.toUtf8 t)) (ho : FenceFix.applyTo t gs = .ok o) :
    Mends (fs ++ gs) bytes (Text.toUtf8 o.text) := by
  have hs := settlesAll_applyTo hgs ho
  obtain ⟨rfl, rfl⟩ | ⟨u, t', rfl, ht', hu⟩ := h
  · exact .inr ⟨t, o.text, rfl, rfl, hs⟩
  · obtain rfl := Text.toUtf8_inj ht'
    have hn : ∀ l ∈ Text.lines u, '\n' ∉ l := fun l hl => Text.not_mem_of_mem_lines hl
    exact .inr ⟨u, o.text, rfl, rfl, hu.trans hn hfs hs⟩

namespace Run

/-- The fixes of a file were to be written and could not be. -/
def FailedAt (r : Report) (p : Path) : Prop := ∃ e ∈ r.failures, e.operation = .write ∧ e.file = p

/-- How things stand when some of a plan's files have been dealt with: each file says what those
fixes make of it that lead to it and did not fail. -/
structure Fixing.Made (s : Store) (r : Report) (gs : List (Path × List FenceFix)) (x : Fixing) :
    Prop where
  shape : s.SameShape x.store
  structural : x.report.structuralIssues = r.structuralIssues
  language : x.report.languageIssues = r.languageIssues
  kept : ∀ e ∈ r.failures, e ∈ x.report.failures
  added : ∀ e ∈ x.report.failures, e ∈ r.failures ∨ e.operation = .write
  failed : ∀ p, FailedAt x.report p → ∃ g ∈ gs, g.1 = p
  file : ∀ names bytes, s.node? names = some (.file bytes) → ∃ fs bytes',
    x.store.node? names = some (.file bytes') ∧ Mends fs bytes bytes' ∧
      ∀ f, f ∈ fs ↔ ∃ g ∈ gs, f ∈ g.2 ∧ s.resolve g.1 = .ok names ∧ ¬ FailedAt x.report g.1

theorem fixFile_cases (readOnly : List Path) (total : Nat) (x : Fixing)
    (g : (Path × List FenceFix) × Nat) (ht : ∀ f ∈ g.1.2, Fence.IsTag f.tag) :
    (∃ e, (x.fixFile readOnly total g).store = x.store ∧
      (x.fixFile readOnly total g).report =
        { x.report with failures := x.report.failures ++ [⟨g.1.1, .write, e⟩] }) ∨
      ∃ names t o, x.store.resolve g.1.1 = .ok names ∧
        x.store.node? names = some (.file (Text.toUtf8 t)) ∧ FenceFix.applyTo t g.1.2 = .ok o ∧
        (x.fixFile readOnly total g).report =
          { x.report with fixes := x.report.fixes ++ [⟨g.1.1, o.fixed, o.skipped.length⟩] } ∧
        x.store.SameShape (x.fixFile readOnly total g).store ∧
        ∀ k, (x.fixFile readOnly total g).store.node? k =
          if k = names then some (.file (Text.toUtf8 o.text)) else x.store.node? k := by
  obtain ⟨⟨p, fs⟩, i⟩ := g
  cases hfile : Repair.file readOnly x.store p fs with
  | mk s' rest =>
    obtain ⟨told, r⟩ := rest
    cases r with
    | error e =>
      left
      refine ⟨e.message, ?_, ?_⟩
      · simp only [Fixing.fixFile, hfile]
        exact Repair.file_error hfile
      · simp only [Fixing.fixFile, hfile]
    | ok r =>
      right
      obtain ⟨names, t, o, hr, hn, ho, rfl, hs, hk⟩ := Repair.file_ok ht hfile
      refine ⟨names, t, o, hr, hn, ho, ?_, ?_, ?_⟩
      · simp only [Fixing.fixFile, hfile]
      · simp only [Fixing.fixFile, hfile]
        exact hs
      · simp only [Fixing.fixFile, hfile]
        exact hk

section Step

variable {s : Store} {r : Report} {gs : List (Path × List FenceFix)} {x y : Fixing}
variable {g : Path × List FenceFix}

theorem failedAt_append {r : Report} {p q : Path} {e : Text} :
    FailedAt { r with failures := r.failures ++ [⟨p, .write, e⟩] } q ↔ FailedAt r q ∨ p = q := by
  constructor
  · rintro ⟨f, hf, hop, hfile⟩
    obtain hf | hf := List.mem_append.mp hf
    · exact .inl ⟨f, hf, hop, hfile⟩
    · obtain rfl := List.mem_singleton.mp hf
      exact .inr hfile
  · rintro (⟨f, hf, hop, hfile⟩ | rfl)
    · exact ⟨f, List.mem_append_left _ hf, hop, hfile⟩
    · exact ⟨_, List.mem_append_right _ (List.mem_singleton_self _), rfl, rfl⟩

theorem Fixing.Made.fail (h : x.Made s r gs) (hg : ∀ g' ∈ gs, g'.1 ≠ g.1)
    (hstore : y.store = x.store) {e : Text}
    (hreport : y.report = { x.report with failures := x.report.failures ++ [⟨g.1, .write, e⟩] }) :
    y.Made s r (gs ++ [g]) := by
  have hfailed {q : Path} : FailedAt y.report q ↔ FailedAt x.report q ∨ g.1 = q := by
    rw [hreport]
    exact failedAt_append
  refine ⟨hstore ▸ h.shape, by rw [hreport]; exact h.structural, by rw [hreport]; exact h.language,
    ?_, ?_, ?_, ?_⟩
  · intro f hf
    rw [hreport]
    exact List.mem_append_left _ (h.kept f hf)
  · rw [hreport]
    exact List.forall_mem_append.mpr ⟨h.added, List.forall_mem_singleton.mpr (.inr rfl)⟩
  · intro q hq
    obtain hq | rfl := hfailed.mp hq
    · obtain ⟨g', hg', rfl⟩ := h.failed q hq
      exact ⟨g', List.mem_append_left _ hg', rfl⟩
    · exact ⟨g, List.mem_append_right _ (List.mem_singleton_self g), rfl⟩
  · intro names bytes hn
    obtain ⟨fs, bytes', hn', hm, hfs⟩ := h.file names bytes hn
    refine ⟨fs, bytes', hstore ▸ hn', hm, fun f => ?_⟩
    rw [hfs f]
    constructor
    · rintro ⟨g', hg', hf, hr, hok⟩
      refine ⟨g', List.mem_append_left _ hg', hf, hr, fun hfail => ?_⟩
      exact (hfailed.mp hfail).elim hok fun heq => hg g' hg' heq.symm
    · rintro ⟨g', hg', hf, hr, hok⟩
      obtain hg' | hg' := List.mem_append.mp hg'
      · exact ⟨g', hg', hf, hr, fun hfail => hok (hfailed.mpr (.inl hfail))⟩
      · obtain rfl := List.mem_singleton.mp hg'
        exact absurd (hfailed.mpr (.inr rfl)) hok

theorem Fixing.Made.write (h : x.Made s r gs) (hg : ∀ g' ∈ gs, g'.1 ≠ g.1)
    (htags : ∀ g' ∈ gs ++ [g], ∀ f ∈ g'.2, Fence.IsTag f.tag) {names : List Text} {t : Text}
    {o : Outcome} {f : FileFix} (hr : s.resolve g.1 = .ok names)
    (hn : x.store.node? names = some (.file (Text.toUtf8 t)))
    (ho : FenceFix.applyTo t g.2 = .ok o)
    (hreport : y.report = { x.report with fixes := x.report.fixes ++ [f] })
    (hshape : x.store.SameShape y.store)
    (hk : ∀ k, y.store.node? k =
      if k = names then some (.file (Text.toUtf8 o.text)) else x.store.node? k) :
    y.Made s r (gs ++ [g]) := by
  have hfailures : y.report.failures = x.report.failures := by rw [hreport]
  have hfailed (q : Path) : FailedAt y.report q ↔ FailedAt x.report q := by
    rw [FailedAt, FailedAt, hfailures]
  -- a file stands in a plan once, so that only its own fixes could have failed
  have hok : ¬ FailedAt x.report g.1 := by
    intro hfail
    obtain ⟨g', hg', heq⟩ := h.failed g.1 hfail
    exact hg g' hg' heq
  refine ⟨h.shape.trans hshape, by rw [hreport]; exact h.structural,
    by rw [hreport]; exact h.language, hfailures ▸ h.kept, hfailures ▸ h.added, ?_, ?_⟩
  · intro q hq
    obtain ⟨g', hg', rfl⟩ := h.failed q ((hfailed q).mp hq)
    exact ⟨g', List.mem_append_left _ hg', rfl⟩
  · intro k bytes hkn
    obtain ⟨fs, bytes', hn', hm, hfs⟩ := h.file k bytes hkn
    have hmore (f : FenceFix) : (∃ g' ∈ gs ++ [g], f ∈ g'.2 ∧ s.resolve g'.1 = .ok k ∧
        ¬ FailedAt y.report g'.1) ↔ f ∈ fs ∨ f ∈ g.2 ∧ names = k := by
      simp only [List.mem_append, List.mem_singleton, or_and_right, exists_or, exists_eq_left, hr,
        Except.ok.injEq, hok, not_false_eq_true, and_true, hfailed, hfs f]
    -- another path may have led to the file before, and its fixes come first
    by_cases hkey : k = names
    · subst hkey
      rw [hn, Option.some_inj, Node.file.injEq] at hn'
      subst hn'
      have htfs : ∀ f ∈ fs, Fence.IsTag f.tag := by
        intro f hf
        obtain ⟨g', hg', hfg, -⟩ := (hfs f).mp hf
        exact htags g' (List.mem_append_left _ hg') f hfg
      have htg := htags g (List.mem_append_right _ (List.mem_singleton_self g))
      refine ⟨fs ++ g.2, _, by rw [hk, if_pos rfl], hm.applyTo htfs htg ho, fun f => ?_⟩
      rw [hmore, List.mem_append, and_iff_left rfl]
    · refine ⟨fs, bytes', by rw [hk, if_neg hkey, hn'], hm, fun f => ?_⟩
      rw [hmore]
      exact (or_iff_left fun hf => hkey hf.2.symm).symm

theorem Fixing.Made.foldl {readOnly : List Path} {total : Nat} (gs' : List (Path × List FenceFix))
    (i : Nat) (hnodup : ((gs ++ gs').map (·.1)).Nodup)
    (htags : ∀ g ∈ gs ++ gs', ∀ f ∈ g.2, Fence.IsTag f.tag)
    (hres : ∀ g ∈ gs', ∃ names, s.resolve g.1 = .ok names) (h : x.Made s r gs) :
    ((gs'.zipIdx i).foldl (fixFile readOnly total) x).Made s r (gs ++ gs') := by
  induction gs' generalizing gs x i with
  | nil => simpa using h
  | cons g gs' ih =>
    obtain ⟨⟨names, hr⟩, hres⟩ := List.forall_mem_cons.mp hres
    have happend : gs ++ g :: gs' = (gs ++ [g]) ++ gs' := by simp
    have hg : ∀ g' ∈ gs, g'.1 ≠ g.1 := by
      rw [List.map_append, List.nodup_append] at hnodup
      exact fun g' hg' => hnodup.2.2 g'.1 (List.mem_map_of_mem hg') g.1 (by simp)
    rw [List.zipIdx_cons, List.foldl_cons, happend]
    rw [happend] at hnodup htags
    apply ih (i + 1) hnodup htags hres
    have htg : ∀ f ∈ g.2, Fence.IsTag f.tag := htags g (by simp)
    obtain ⟨e, hstore, hreport⟩ | ⟨names', t, o, hr', hn, ho, hreport, hshape, hk⟩ :=
      fixFile_cases readOnly total x (g, i) htg
    · exact h.fail hg hstore hreport
    · obtain rfl : names' = names := by
        rw [h.shape.resolve_eq, hr] at hr'
        exact (Except.ok.inj hr').symm
      exact h.write hg (fun g' hg' => htags g' (List.mem_append_left _ hg')) hr hn ho hreport
        hshape hk

end Step

end Run

end MarkdownFences
