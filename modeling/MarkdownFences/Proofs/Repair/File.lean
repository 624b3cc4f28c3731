import MarkdownFences.Proofs.FenceFix.Attempt
import MarkdownFences.Proofs.Store.Grows
import MarkdownFences.Proofs.Text.Utf8
import MarkdownFences.Repair

namespace MarkdownFences.Repair

variable {readOnly : List Path} {s s' : Store} {p : Path} {fs : List FenceFix}
variable {told : List Log.Entry} {t : Text}

theorem save_eq_ok (h : save readOnly s p t = .ok s') : s.write p (Text.toUtf8 t) = .ok s' := by
  rw [save] at h
  split at h
  case isTrue => cases h
  case isFalse =>
    exact mapError_eq_ok.mp h

theorem file_cases (readOnly : List Path) (s : Store) (p : Path) (fs : List FenceFix) :
    (∃ told e, file readOnly s p fs = (s, told, .error e)) ∨
      ∃ t o told s', s.readText p = .ok t ∧ FenceFix.applyTo t fs = .ok o ∧
        file readOnly s p fs = (s', told, .ok ⟨p, o.fixed, o.skipped.length⟩) ∧
        (o.fixed = 0 ∧ s' = s ∨ s.write p (Text.toUtf8 o.text) = .ok s') := by
  rw [file]
  cases s.readText p with
  | error e => exact .inl ⟨_, _, rfl⟩
  | ok t =>
    simp only
    cases ho : (FenceFix.attempt t fs).outcome with
    | error e => exact .inl ⟨_, _, rfl⟩
    | ok o =>
      simp only
      split
      case isTrue h0 => exact .inr ⟨t, o, _, s, rfl, ho, rfl, .inl ⟨h0, rfl⟩⟩
      case isFalse =>
        cases hs : save readOnly s p o.text with
        | error e => exact .inl ⟨_, _, rfl⟩
        | ok s' => exact .inr ⟨t, o, _, s', rfl, ho, rfl, .inr (save_eq_ok hs)⟩

theorem file_error {e : RepairError} (h : file readOnly s p fs = (s', told, .error e)) :
    s' = s := by
  obtain ⟨_, _, h'⟩ | ⟨_, _, _, _, -, -, h', -⟩ := file_cases readOnly s p fs
  · rw [h] at h'
    exact congrArg Prod.fst h'
  · rw [h] at h'
    cases h'

theorem file_ok (ht : ∀ f ∈ fs, Fence.IsTag f.tag) {r : FileFix}
    (h : file readOnly s p fs = (s', told, .ok r)) :
    ∃ names t o, s.resolve p = .ok names ∧ s.node? names = some (.file (Text.toUtf8 t)) ∧
      FenceFix.applyTo t fs = .ok o ∧ r = ⟨p, o.fixed, o.skipped.length⟩ ∧ s.SameShape s' ∧
      ∀ k, s'.node? k = if k = names then some (.file (Text.toUtf8 o.text)) else s.node? k := by
  obtain ⟨_, _, h'⟩ | ⟨t, o, _, u, hread, ho, h', hs⟩ := file_cases readOnly s p fs
  · rw [h] at h'
    cases h'
  · rw [h, Prod.mk.injEq, Prod.mk.injEq, Except.ok.injEq] at h'
    obtain ⟨rfl, -, rfl⟩ := h'
    obtain ⟨bytes, hbytes, hutf⟩ := Store.readText_eq_ok.mp hread
    obtain ⟨names, hr, hn⟩ := Store.read_eq_ok.mp hbytes
    have hnode : s.node? names = some (.file (Text.toUtf8 t)) := by
      rw [hn, Text.toUtf8_of_ofUtf8 hutf]
    refine ⟨names, t, o, hr, hnode, ho, rfl, ?_⟩
    obtain ⟨h0, rfl⟩ | hw := hs
    · refine ⟨.refl _, fun k => ?_⟩
      split
      case isTrue hk => rw [hk, hnode, FenceFix.text_of_fixed_eq_zero ht ho h0]
      case isFalse => rfl
    · obtain ⟨names', hr', hd, rfl⟩ := Store.write_eq_ok.mp hw
      obtain rfl : names = names' := by
        rw [hr] at hr'
        exact Except.ok.inj hr'
      exact ⟨.put hnode _, Store.node?_put (Store.isFixed_of_ne_directory hd)⟩

end MarkdownFences.Repair
