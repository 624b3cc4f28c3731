import MarkdownFences.Proofs.Groups.FirstSeen
import MarkdownFences.Proofs.Json.Nesting
import MarkdownFences.Proofs.Store.Grows
import MarkdownFences.Proofs.Store.NullCharacter
import MarkdownFences.ValidationCache

namespace MarkdownFences.ValidationCache

variable {c c' : ValidationCache} {s s' : Store} {told : List Log.Entry} {path : Path}
variable {names : List Text} {bytes : List UInt8}

theorem load_cases (h : c.load s = .ok (c', told)) : c' = c ∨
    ∃ path bytes t keys, c.enabled = true ∧ c.path = some path ∧ s.read path = .ok bytes ∧
      Text.ofUtf8 bytes = .ok t ∧ keysOf (Text.ofFileText t) = .ok (some keys) ∧
      c' = { c with keys, dirty := false } := by
  rw [load] at h
  split at h
  case h_1 path henabled hp =>
    split at h
    · exact .inl (Prod.mk.inj (Except.ok.inj h)).1.symm
    · exact .inl (Prod.mk.inj (Except.ok.inj h)).1.symm
    · rename_i bytes hr
      split at h
      · exact .inl (Prod.mk.inj (Except.ok.inj h)).1.symm
      · rename_i t ht
        split at h
        · cases h
        · exact .inl (Prod.mk.inj (Except.ok.inj h)).1.symm
        · exact .inl (Prod.mk.inj (Except.ok.inj h)).1.symm
        · rename_i keys hk
          refine .inr ⟨path, bytes, t, keys, henabled, hp, hr, ht, hk, ?_⟩
          exact (Prod.mk.inj (Except.ok.inj h)).1.symm
  case h_2 => exact .inl (Prod.mk.inj (Except.ok.inj h)).1.symm

/-- A cache file that nests too deep to be read. All else that is wrong with one makes it an empty
one. -/
def TooDeepAt (s : Store) (path : Path) : Prop :=
  ∃ bytes t, s.read path = .ok bytes ∧ Text.ofUtf8 bytes = .ok t ∧
    Json.IsTooDeep (Text.ofFileText t)

theorem keysOf_tooDeep {t : Text} : (∃ e, keysOf t = .error (.tooDeep e)) ↔ Json.IsTooDeep t := by
  rw [keysOf, Json.IsTooDeep]
  cases Json.read t with
  | error e => simp
  | ok v => cases v <;> simp

theorem tooDeepAt_of_load {e : Json.TooDeep} (h : c.load s = .error e) :
    c.enabled = true ∧ ∃ path, c.path = some path ∧ TooDeepAt s path := by
  rw [load] at h
  split at h
  case h_1 path hc hp =>
    refine ⟨hc, path, hp, ?_⟩
    split at h
    · cases h
    · cases h
    · rename_i bytes hr
      split at h
      · cases h
      · rename_i t ht
        split at h
        · rename_i e' hk
          exact ⟨bytes, t, hr, ht, keysOf_tooDeep.mp ⟨e', hk⟩⟩
        · cases h
        · cases h
        · cases h
  case h_2 => cases h

theorem load_of_tooDeepAt (hc : c.enabled = true) (hp : c.path = some path)
    (h : TooDeepAt s path) : ∃ e, c.load s = .error e := by
  obtain ⟨bytes, t, hr, ht, hdeep⟩ := h
  obtain ⟨e, he⟩ := keysOf_tooDeep.mpr hdeep
  exact ⟨e, by simp only [load, hc, hp, hr, ht, he]⟩

theorem load_path (h : c.load s = .ok (c', told)) : c'.path = c.path ∧ c'.enabled = c.enabled := by
  obtain rfl | ⟨path, bytes, t, keys, -, -, -, -, -, rfl⟩ := load_cases h
  · exact ⟨rfl, rfl⟩
  · exact ⟨rfl, rfl⟩

theorem nodup_of_keysOf {t : Text} {keys : List Json.Points} (h : keysOf t = .ok (some keys)) :
    keys.Nodup := by
  rw [keysOf] at h
  split at h
  · obtain rfl := Option.some.inj (Except.ok.inj h)
    exact nodup_eraseDups _
  · cases h
  · cases h

theorem load_nodup (h : c.load s = .ok (c', told)) (hn : c.keys.Nodup) : c'.keys.Nodup := by
  obtain rfl | ⟨path, bytes, t, keys, -, -, -, -, hk, rfl⟩ := load_cases h
  · exact hn
  · exact nodup_of_keysOf hk

def KeptAt (c : ValidationCache) (s : Store) (names : List Text) : Prop :=
  c.enabled = true ∧ ∃ path, c.path = some path ∧ s.resolve path = .ok names

theorem save_cases (h : c.save s = .ok (c', s', told)) :
    c' = c ∧ s' = s ∨
      (c' = c ∧ s.Extends s' ∧ ∃ path, c.path = some path ∧
        ∀ names, s'.resolve path = .ok names → s'.node? names = some .directory) ∨
      ∃ made names, s.Extends made ∧ c.KeptAt made names ∧ made.node? names ≠ some .directory ∧
        c' = { c with dirty := false } ∧
          s' = made.put names (.file (Text.toUtf8 (fileText c.keys))) := by
  rw [save] at h
  split at h
  case h_1 path hdirty hp =>
    have henabled := (Bool.and_eq_true_iff.mp hdirty).1
    split at h
    case h_1 => cases h
    case h_2 =>
      obtain ⟨rfl, rfl, -⟩ := by simpa only [Except.ok.injEq, Prod.mk.injEq] using h
      exact .inl ⟨rfl, rfl⟩
    case h_3 made hmade =>
      have hextends := Store.extends_makeDirectory hmade
      split at h
      case h_1 => cases h
      case h_2 e _ hwrite =>
        obtain ⟨rfl, rfl, -⟩ := by simpa only [Except.ok.injEq, Prod.mk.injEq] using h
        refine .inr (.inl ⟨rfl, hextends, path, hp, fun names hr => ?_⟩)
        refine Decidable.byContradiction fun hn => ?_
        rw [Store.write_eq_ok.mpr ⟨names, hr, hn, rfl⟩] at hwrite
        cases hwrite
      case h_3 written hwrite =>
        obtain ⟨rfl, rfl, -⟩ := by simpa only [Except.ok.injEq, Prod.mk.injEq] using h
        obtain ⟨names, hr, hn, rfl⟩ := Store.write_eq_ok.mp hwrite
        exact .inr (.inr ⟨made, names, hextends, ⟨henabled, path, hp, hr⟩, hn, rfl, rfl⟩)
  case h_2 =>
    obtain ⟨rfl, rfl, -⟩ := by simpa only [Except.ok.injEq, Prod.mk.injEq] using h
    exact .inl ⟨rfl, rfl⟩

/-- The cache cannot be saved at a path with a null character, unless the directory of its file
cannot be made for another reason. -/
def Unsavable (s : Store) (path : Path) : Prop :=
  '\x00' ∈ path.text ∧ ('\x00' ∈ path.parent.text ∨ ∃ made, s.makeDirectory path.parent = .ok made)

theorem unsavable_of_save {e : StoreError} (h : c.save s = .error e) :
    c.enabled = true ∧ c.dirty = true ∧ ∃ path, c.path = some path ∧ Unsavable s path := by
  rw [save] at h
  split at h
  case h_1 path hon hp =>
    obtain ⟨hc, hd⟩ := Bool.and_eq_true_iff.mp hon
    refine ⟨hc, hd, path, hp, ?_⟩
    split at h
    · rename_i hmake
      have hnull : '\x00' ∈ path.parent.text :=
        Decidable.byContradiction fun hn => Store.makeDirectory_ne_null hn hmake
      exact ⟨Decidable.byContradiction fun hn => Path.not_mem_parent hn hnull, .inl hnull⟩
    · cases h
    · rename_i made hmake
      split at h
      · rename_i hwrite
        exact ⟨Decidable.byContradiction fun hn => Store.write_ne_null hn _ hwrite,
          .inr ⟨made, hmake⟩⟩
      · cases h
      · cases h
  case h_2 => cases h

theorem save_of_unsavable (hc : c.enabled = true) (hd : c.dirty = true) (hp : c.path = some path)
    (h : Unsavable s path) : c.save s = .error .nullCharacter := by
  have hon : (c.enabled && c.dirty) = true := by rw [hc, hd]; rfl
  obtain ⟨hnull, hparent | ⟨made, hmake⟩⟩ := h
  · have hmake : s.makeDirectory path.parent = .error .nullCharacter := by
      rw [Store.makeDirectory, if_pos (by simpa using hparent)]
      rfl
    simp only [save, hon, hp, hmake]
  · have hwrite (bytes : List UInt8) : made.write path bytes = .error .nullCharacter := by
      rw [Store.write, Store.resolve, if_pos (by simpa using hnull)]
      rfl
    simp only [save, hon, hp, hmake, hwrite]

theorem save_ok (hp : c.enabled = true → ∀ path, c.path = some path → '\x00' ∉ path.text)
    (s : Store) : ∃ c' s' told, c.save s = .ok (c', s', told) := by
  cases h : c.save s with
  | ok x => exact ⟨_, _, _, rfl⟩
  | error e =>
    obtain ⟨hc, -, path, hpath, hnull, -⟩ := unsavable_of_save h
    exact absurd hnull (hp hc path hpath)

theorem save_keys (h : c.save s = .ok (c', s', told)) : c'.keys = c.keys := by
  obtain ⟨rfl, -⟩ | ⟨rfl, -⟩ | ⟨made, names, -, -, -, rfl, -⟩ := save_cases h
  · rfl
  · rfl
  · rfl

theorem save_grows (h : c.save s = .ok (c', s', told)) : s.Grows s' := by
  obtain ⟨-, rfl⟩ | ⟨-, hs, -⟩ | ⟨made, names, hs, -, hn, -, rfl⟩ := save_cases h
  · exact .refl _
  · exact hs.grows
  · exact hs.grows.trans (Store.grows_put_file hn _)

theorem save_frame (h : c.save s = .ok (c', s', told)) (hk : ¬ c.KeptAt s' names)
    (hn : s.node? names = some (.file bytes)) : s'.node? names = some (.file bytes) := by
  obtain ⟨-, rfl⟩ | ⟨-, hs, -⟩ |
    ⟨made, own, hs, ⟨henabled, path, hp, hr⟩, hdir, -, rfl⟩ := save_cases h
  · exact hn
  · exact hs names _ hn
  · rw [Store.node?_put (Store.isFixed_of_ne_directory hdir), if_neg, hs names _ hn]
    rintro rfl
    exact hk ⟨henabled, path, hp, (Store.grows_put_file hdir _).resolve hr⟩

end MarkdownFences.ValidationCache
