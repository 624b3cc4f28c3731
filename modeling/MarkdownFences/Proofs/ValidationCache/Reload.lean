import MarkdownFences.Proofs.ValidationCache.File
import MarkdownFences.Proofs.ValidationCache.RoundTrip

namespace MarkdownFences

theorem Store.read_eq_of_kept {s s' : Store} {p : Path} (h : s.SameShape s')
    (hk : ∀ names bytes, s.resolve p = .ok names → s.node? names = some (.file bytes) →
      s'.node? names = some (.file bytes)) : s'.read p = s.read p := by
  rw [read, read, h.resolve_eq]
  cases hr : s.resolve p with
  | error e => rfl
  | ok names =>
    simp only [bind, Except.bind]
    cases hn : s.node? names with
    | none => rw [(h.missing names).mpr hn]
    | some n =>
      cases n with
      | directory => rw [(h.directory names).mpr hn]
      | file bytes => rw [hk names bytes hr hn]

namespace ValidationCache

open Json (Points)

variable {c c' start : ValidationCache} {s s' u : Store} {told : List Log.Entry} {path : Path}

theorem load_congr (h : ∀ path, c.path = some path → s'.read path = s.read path) :
    c.load s' = c.load s := by
  rw [load, load]
  split
  case h_1 path _ hp => rw [h path hp]
  case h_2 => rfl

theorem load_disabled (h : c.enabled = false) : c.load s = .ok (c, []) := by
  rw [load, h]

theorem save_disabled (h : c.enabled = false) : c.save s = .ok (c, s, []) := by
  rw [save, h]
  rfl

theorem load_unreadable (hp : c.path = some path) {e : StoreError} (hr : s.read path = .error e) :
    ∃ told, c.load s = .ok (c, told) := by
  rw [load, hp]
  cases c.enabled with
  | false => exact ⟨_, rfl⟩
  | true =>
    simp only [hr]
    cases e <;> exact ⟨_, rfl⟩

theorem load_saved {keys : List Points} (he : c.enabled = true) (hp : c.path = some path)
    (hw : ∀ k ∈ keys, k.Whole) (hr : s.read path = .ok (Text.toUtf8 (fileText keys))) :
    ∃ ks told, c.load s = .ok ({ c with keys := ks, dirty := false }, told) ∧
      ∀ k, k ∈ ks ↔ k ∈ keys := by
  obtain ⟨ks, hks, hmem⟩ := keysOf_fileText hw
  have hload : ∃ told, c.load s = .ok ({ c with keys := ks, dirty := false }, told) := by
    rw [load, he, hp]
    simp only [hr, Text.ofUtf8_toUtf8, hks]
    exact ⟨_, rfl⟩
  obtain ⟨told, hload⟩ := hload
  exact ⟨ks, told, hload, hmem⟩

theorem save_clean (h : c.dirty = false) : c.save s = .ok (c, s, []) := by
  rw [save, h, Bool.and_false]

theorem save_written (hp : c.path = some path) (h : c.save s = .ok (c', s', told))
    (hc : c'.dirty = false) : c.dirty = false ∧ s' = s ∨
      s'.read path = .ok (Text.toUtf8 (fileText c.keys)) := by
  cases hd : c.dirty with
  | false =>
    rw [save_clean hd] at h
    obtain ⟨-, rfl, -⟩ := by simpa only [Except.ok.injEq, Prod.mk.injEq] using h
    exact .inl ⟨rfl, rfl⟩
  | true =>
    obtain ⟨rfl, -⟩ | ⟨rfl, -⟩ | ⟨made, names, -, ⟨-, q, hq, hr⟩, hdir, -, rfl⟩ := save_cases h
    · rw [hd] at hc
      cases hc
    · rw [hd] at hc
      cases hc
    · obtain rfl := Option.some.inj (hp.symm.trans hq)
      exact .inr (Store.read_put hr hdir _)

theorem load_counts (h : c.load s = .ok (c', told)) :
    (c.dirty = false → c'.dirty = false) ∧ c'.stats = c.stats := by
  obtain rfl | ⟨path, bytes, t, keys, -, -, -, -, -, rfl⟩ := load_cases h
  · exact ⟨id, rfl⟩
  · exact ⟨fun _ => rfl, rfl⟩

theorem whole_of_load (hc : ∀ k ∈ c.keys, k.Whole) (h : c.load s = .ok (c', told)) :
    ∀ k ∈ c'.keys, k.Whole := by
  obtain rfl | ⟨path, bytes, t, keys, -, -, -, -, hk, rfl⟩ := load_cases h
  · exact hc
  · exact whole_of_keysOf hk

/-- A cache that was loaded, added to and saved is loaded again with all that it held first. -/
theorem reload (hstart : c.load s = .ok (start, told))
    {last last' : ValidationCache} {told' : List Log.Entry} (hpath : last.path = start.path)
    (henabled : last.enabled = start.enabled) (hkeys : start.keys ⊆ last.keys)
    (hw : ∀ k ∈ last.keys, k.Whole) (hsave : last.save s = .ok (last', s', told'))
    (hshape : s'.SameShape u)
    (hkept : ∀ names bytes, last.KeptAt s' names → s'.node? names = some (.file bytes) →
      u.node? names = some (.file bytes)) :
    ∃ again told'', c.load u = .ok (again, told'') ∧ start.keys ⊆ again.keys := by
  obtain ⟨hplace, hon⟩ := load_path hstart
  cases he : c.enabled with
  | false =>
    have hload (v : Store) := load_disabled (s := v) he
    rw [hload s] at hstart
    obtain ⟨rfl, -⟩ := Prod.mk.inj (Except.ok.inj hstart)
    exact ⟨c, [], hload u, List.Subset.refl _⟩
  | true =>
    have hlast : last.enabled = true := henabled.trans (hon.trans he)
    have hread {path : Path} (hp : c.path = some path) : u.read path = s'.read path :=
      Store.read_eq_of_kept hshape fun names bytes hr hn =>
        hkept names bytes ⟨hlast, path, hpath.trans (hplace.trans hp), hr⟩ hn
    obtain ⟨-, rfl⟩ | ⟨-, hextends, path, hp, hdir⟩ |
      ⟨made, names, hextends, ⟨-, path, hp, hr⟩, hdir, -, rfl⟩ := save_cases hsave
    · -- nothing was written
      rw [load_congr fun path hp => hread hp, hstart]
      exact ⟨start, told, rfl, List.Subset.refl _⟩
    · -- at most a directory stands at the path, now as before
      have hp : c.path = some path := by rw [← hplace, ← hpath, hp]
      have hnone (v : Store) (hv : v.Grows s') : ∃ e, v.read path = .error e := by
        cases hr : v.read path with
        | error e => exact ⟨e, rfl⟩
        | ok bytes =>
          obtain ⟨names, hresolve, hn⟩ := Store.read_eq_ok.mp hr
          obtain ⟨bytes', hn'⟩ := hv.file names bytes hn
          rw [hdir names (hv.resolve hresolve)] at hn'
          cases hn'
      obtain ⟨e, hs⟩ := hnone s hextends.grows
      obtain ⟨e', hs'⟩ := hnone s' (.refl s')
      obtain ⟨told₁, hload₁⟩ := load_unreadable hp hs
      obtain ⟨told₂, hload₂⟩ := load_unreadable hp ((hread hp).trans hs')
      rw [hload₁] at hstart
      obtain ⟨rfl, -⟩ := Prod.mk.inj (Except.ok.inj hstart)
      exact ⟨c, told₂, hload₂, List.Subset.refl _⟩
    · -- the file was written
      have hp : c.path = some path := by rw [← hplace, ← hpath, hp]
      have hsaved : u.read path = .ok (Text.toUtf8 (fileText last.keys)) := by
        rw [hread hp]
        exact Store.read_put hr hdir _
      obtain ⟨ks, told'', hload, hmem⟩ := load_saved he hp hw hsaved
      exact ⟨_, told'', hload, fun k hk => (hmem k).mpr (hkeys hk)⟩

end ValidationCache

end MarkdownFences
