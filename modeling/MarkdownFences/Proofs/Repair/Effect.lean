import MarkdownFences.Proofs.Repair.File
import Mathlib.Data.List.Nodup
import Mathlib.Data.List.Perm.Basic

namespace MarkdownFences

namespace FenceFix

/-- A fix that is for a line before the first or past the last one, or for one that is no fence. -/
def misses (ls : List Text) (f : FenceFix) : Bool :=
  f.line < 0 || ls.length ≤ f.line || !Fence.isFence (Text.trim (ls.getD f.line.toNat []))

variable {fs gs : List FenceFix} {ls : List Text} {t : Text} {o : Outcome}

theorem isNone_target? (ls : List Text) (f : FenceFix) : (target? ls f).isNone = misses ls f := by
  rw [target?, misses]
  by_cases hneg : f.line < 0
  · simp [hneg]
  · by_cases hlen : f.line.toNat < ls.length
    · have hle : ¬ (ls.length : Int) ≤ f.line := by omega
      simp only [hneg, hle, if_false, decide_false, Bool.false_or, List.getD_eq_getElem?_getD,
        List.getElem?_eq_getElem hlen, Option.getD_some]
      cases hf : Fence.isFence (Text.trim ls[f.line.toNat]) <;> simp [hf]
    · have hle : (ls.length : Int) ≤ f.line := by omega
      simp [hneg, hle, List.getElem?_eq_none (Nat.not_lt.mp hlen)]

/-- What fixes make of a text. -/
structure Effect (t : Text) (fs : List FenceFix) (o : Outcome) : Prop where
  counts : o.fixed + o.skipped.length = fs.length
  length : (Text.lines o.text).length = (Text.lines t).length
  line : ∀ (i : Nat) l, (Text.lines t)[i]? = some l →
    ∃ new, (Text.lines o.text)[i]? = some new ∧ Settles fs i l new
  skipped : o.skipped.Perm (fs.filter (misses (Text.lines t)))

theorem effect_applyTo (ht : ∀ f ∈ fs, Fence.IsTag f.tag) (h : applyTo t fs = .ok o) :
    Effect t fs o where
  counts := fixed_add_skipped ht h
  length := length_applyTo ht h
  line := fun _ _ hl => settles_applyTo ht h hl
  skipped := by
    rw [skipped_applyTo ht h, List.filter_congr fun f _ => isNone_target? (Text.lines t) f]
    exact (List.mergeSort_perm fs _).filter _

theorem descending_perm (h : fs.Perm gs) (hd : (fs.map (·.line)).Nodup) :
    descending fs = descending gs := by
  refine List.Perm.eq_of_pairwise (fun a b ha hb hab hba => ?_) (pairwise_descending fs)
    (pairwise_descending gs) ?_
  · have hline : a.line = b.line := Int.le_antisymm hba hab
    exact List.inj_on_of_nodup_map hd (mem_descending.mp ha)
      (h.mem_iff.mpr (mem_descending.mp hb)) hline
  · exact (List.mergeSort_perm fs _).trans (h.trans (List.mergeSort_perm gs _).symm)

theorem applyTo_perm (h : fs.Perm gs) (hd : (fs.map (·.line)).Nodup) (t : Text) :
    applyTo t fs = applyTo t gs := by
  rw [applyTo, applyTo, attempt, attempt, descending_perm h hd]

end FenceFix

namespace Repair

variable {readOnly : List Path} {s s' : Store} {p : Path} {fs : List FenceFix}
variable {t : Text} {o : FenceFix.Outcome} {names : List Text} {bytes : List UInt8}

theorem ne_directory_of_file (hn : s.node? names = some (.file bytes)) :
    s.node? names ≠ some .directory := by
  rw [hn]
  nofun

theorem save_of_file (hr : s.resolve p = .ok names) (hn : s.node? names = some (.file bytes))
    (t : Text) : save readOnly s p t =
      if p ∈ readOnly then .error (.unwritable p "read-only".toList)
      else .ok (s.put names (.file (Text.toUtf8 t))) := by
  have hw : s.write p (Text.toUtf8 t) = .ok (s.put names (.file (Text.toUtf8 t))) :=
    Store.write_eq_ok.mpr ⟨names, hr, ne_directory_of_file hn, rfl⟩
  simp only [save, hw, List.contains_eq_mem, decide_eq_true_eq]
  rfl

theorem file_of_text (readOnly : List Path) (hr : s.resolve p = .ok names)
    (hn : s.node? names = some (.file (Text.toUtf8 t))) (ho : FenceFix.applyTo t fs = .ok o) :
    ∃ told, file readOnly s p fs =
      if o.fixed = 0 then (s, told, .ok ⟨p, o.fixed, o.skipped.length⟩)
      else if p ∈ readOnly then (s, told, .error (.unwritable p "read-only".toList))
      else (s.put names (.file (Text.toUtf8 o.text)), told,
        .ok ⟨p, o.fixed, o.skipped.length⟩) := by
  have hread : s.readText p = .ok t := Store.readText_eq_ok.mpr
    ⟨_, Store.read_eq_ok.mpr ⟨names, hr, hn⟩, Text.ofUtf8_toUtf8 t⟩
  have ho : (FenceFix.attempt t fs).outcome = .ok o := ho
  by_cases h0 : o.fixed = 0
  · simp only [file, hread, ho, if_pos h0]
    exact ⟨_, rfl⟩
  · by_cases hp : p ∈ readOnly
    · simp only [file, hread, ho, save_of_file hr hn, if_neg h0, if_pos hp]
      exact ⟨_, rfl⟩
    · simp only [file, hread, ho, save_of_file hr hn, if_neg h0, if_neg hp]
      exact ⟨_, rfl⟩

theorem file_fails_iff (readOnly : List Path) (hr : s.resolve p = .ok names)
    (hn : s.node? names = some (.file bytes)) :
    (∃ e, (file readOnly s p fs).2.2 = .error e) ↔
      ∀ t o, bytes = Text.toUtf8 t → FenceFix.applyTo t fs = .ok o →
        0 < o.fixed ∧ p ∈ readOnly := by
  constructor
  · rintro ⟨e, he⟩ t o rfl ho
    obtain ⟨told, hfile⟩ := file_of_text readOnly hr hn ho
    rw [hfile] at he
    by_cases h0 : o.fixed = 0
    · rw [if_pos h0] at he
      cases he
    · by_cases hp : p ∈ readOnly
      · exact ⟨Nat.pos_of_ne_zero h0, hp⟩
      · rw [if_neg h0, if_neg hp] at he
        cases he
  · intro h
    obtain ⟨told, e, hfile⟩ | ⟨t, o, told, s', hread, ho, hfile, -⟩ :=
      file_cases readOnly s p fs
    · exact ⟨e, by rw [hfile]⟩
    · obtain ⟨bytes', hbytes, hutf⟩ := Store.readText_eq_ok.mp hread
      obtain rfl : bytes = bytes' :=
        Except.ok.inj ((Store.read_eq_ok.mpr ⟨names, hr, hn⟩).symm.trans hbytes)
      obtain rfl := Text.toUtf8_of_ofUtf8 hutf
      obtain ⟨hpos, hp⟩ := h t o rfl ho
      obtain ⟨told, hwrite⟩ := file_of_text readOnly hr hn ho
      rw [if_neg (Nat.ne_of_gt hpos), if_pos hp] at hwrite
      exact ⟨_, by rw [hwrite]⟩

/-- Each fix is made or skipped, and skipped exactly if it is for no fence. No line is added or
lost, and a fence gets the tag of the last fix for its line; so fixes for different lines can come
in any order. A file gets the text that results if any fix is made, is not written if none is, and
stays as it is if the fixes fail. -/
theorem fixes_applied (t : Text) (fs : List FenceFix) :
    (∀ o, (∀ f ∈ fs, Fence.IsTag f.tag) → FenceFix.applyTo t fs = .ok o →
      FenceFix.Effect t fs o) ∧
    (∀ gs, fs.Perm gs → (fs.map (·.line)).Nodup →
      FenceFix.applyTo t fs = FenceFix.applyTo t gs) ∧
    ∀ readOnly (s : Store) p names bytes, s.resolve p = .ok names →
      s.node? names = some (.file bytes) →
      (∀ o, bytes = Text.toUtf8 t → FenceFix.applyTo t fs = .ok o → 0 < o.fixed →
        p ∉ readOnly → ∃ told s',
          file readOnly s p fs = (s', told, .ok ⟨p, o.fixed, o.skipped.length⟩) ∧
            ∀ k, s'.node? k = if k = names then some (.file (Text.toUtf8 o.text)) else s.node? k) ∧
      (∀ o, bytes = Text.toUtf8 t → FenceFix.applyTo t fs = .ok o → o.fixed = 0 →
        ∃ told, file readOnly s p fs = (s, told, .ok ⟨p, 0, o.skipped.length⟩)) ∧
      ((∃ e, (file readOnly s p fs).2.2 = .error e) ↔ ∀ u o, bytes = Text.toUtf8 u →
        FenceFix.applyTo u fs = .ok o → 0 < o.fixed ∧ p ∈ readOnly) ∧
      ∀ e, (file readOnly s p fs).2.2 = .error e → (file readOnly s p fs).1 = s := by
  refine ⟨fun o ht ho => FenceFix.effect_applyTo ht ho,
    fun gs h hd => FenceFix.applyTo_perm h hd t, ?_⟩
  intro readOnly s p names bytes hr hn
  refine ⟨?_, ?_, file_fails_iff readOnly hr hn, fun e he => ?_⟩
  · rintro o rfl ho hpos hp
    obtain ⟨told, hfile⟩ := file_of_text readOnly hr hn ho
    rw [if_neg (Nat.ne_of_gt hpos), if_neg hp] at hfile
    have hfixed := Store.isFixed_of_ne_directory (ne_directory_of_file hn)
    exact ⟨told, _, hfile, Store.node?_put hfixed⟩
  · rintro o rfl ho h0
    obtain ⟨told, hfile⟩ := file_of_text readOnly hr hn ho
    rw [if_pos h0, h0] at hfile
    exact ⟨told, hfile⟩
  · have hfile : file readOnly s p fs =
        ((file readOnly s p fs).1, (file readOnly s p fs).2.1, .error e) := by
      rw [← he]
    exact file_error hfile

/-- Two fixes for one fence among fixes for lines that are no fence or not there, in a file that may
be written and in one that may not. -/
theorem fixes_applied_last_wins :
    let p := Path.ofString "a.md"
    let t := "```\nls\n```\n".toList
    let fix (i : Int) (tag : String) : FenceFix := ⟨p, i, tag.toList⟩
    let fixes := [fix 9 "ini", fix 1 "ini", fix 0 "bash", fix 0 "text", fix (-1) "ini"]
    let s : Store := ⟨[(["a.md".toList], .file (Text.toUtf8 t))]⟩
    ∃ o, FenceFix.applyTo t fixes = .ok o ∧ FenceFix.Effect t fixes o ∧
      FenceFix.applyTo t [fix 9 "ini", fix 0 "bash"] =
        FenceFix.applyTo t [fix 0 "bash", fix 9 "ini"] ∧
      (∃ told s', file [] s p fixes = (s', told, .ok ⟨p, 2, 3⟩) ∧
        s'.node? ["a.md".toList] = some (.file (Text.toUtf8 "```text\nls\n```\n".toList))) ∧
      (∃ told, file [] s p [fix 1 "ini"] = (s, told, .ok ⟨p, 0, 1⟩)) ∧
      (file [p] s p fixes).1 = s := by
  intro p t fix fixes s
  let o : FenceFix.Outcome :=
    ⟨"```text\nls\n```\n".toList, 2, [fix 9 "ini", fix 1 "ini", fix (-1) "ini"]⟩
  have ho : FenceFix.applyTo t fixes = .ok o := by
    rw [FenceFix.applyTo, FenceFix.attempt, FenceFix.descending,
      List.mergeSort_of_pairwise (by decide +kernel)]
    decide +kernel
  have hskip : FenceFix.applyTo t [fix 1 "ini"] = .ok ⟨t, 0, [fix 1 "ini"]⟩ := by
    rw [FenceFix.applyTo, FenceFix.attempt, FenceFix.descending, List.mergeSort_singleton]
    decide +kernel
  have hr : s.resolve p = .ok ["a.md".toList] := by decide +kernel
  have hn : s.node? ["a.md".toList] = some (.file (Text.toUtf8 t)) := by decide +kernel
  have ht : ∀ f ∈ fixes, Fence.leadingTag f.tag = some f.tag := by decide +kernel
  obtain ⟨heffect, -, hfile⟩ := fixes_applied t fixes
  obtain ⟨-, hperm, -⟩ := fixes_applied t [fix 9 "ini", fix 0 "bash"]
  obtain ⟨-, -, hstale⟩ := fixes_applied t [fix 1 "ini"]
  obtain ⟨hwrite, -⟩ := hfile [] s p _ _ hr hn
  obtain ⟨-, hnone, -⟩ := hstale [] s p _ _ hr hn
  obtain ⟨-, -, hfails, hkept⟩ := hfile [p] s p _ _ hr hn
  obtain ⟨told, s', hdone, hnodes⟩ := hwrite o rfl ho (by decide) (List.not_mem_nil)
  have hsame := hnodes ["a.md".toList]
  rw [if_pos rfl] at hsame
  obtain ⟨e, he⟩ := hfails.mpr fun t' o' ht' ho' => by
    obtain rfl : t = t' := Text.toUtf8_inj ht'
    obtain rfl : o = o' := Except.ok.inj (ho.symm.trans ho')
    exact ⟨by decide, List.mem_singleton_self p⟩
  exact ⟨o, ho, heffect o ht ho, hperm _ (.swap _ _ _) (by decide),
    ⟨told, s', hdone, hsame⟩, hnone _ rfl hskip rfl, hkept e he⟩

end Repair

end MarkdownFences
