import MarkdownFences.Proofs.ValidationCache.Lookup
import MarkdownFences.Proofs.ValidationCache.Reload

namespace MarkdownFences.ValidationCache

open Json (Points)

variable {c c' start : ValidationCache} {digest : Text → Text} {path : Path} {s s' : Store}
variable {told : List Log.Entry} {bs : List Block} {q : Points}

/-- The keys that the file under a path lists: none if it cannot be read, or if what it holds is no
text or no JSON object. -/
def listed (s : Store) (path : Path) : List Points :=
  match s.read path with
  | .error _ => []
  | .ok bytes =>
    match Text.ofUtf8 bytes with
    | .error _ => []
    | .ok t =>
      match keysOf (Text.ofFileText t) with
      | .ok (some keys) => keys
      | _ => []

theorem load_ok (h : ¬ TooDeepAt s path) :
    ∃ start told, (new (some path) true).load s = .ok (start, told) := by
  cases hload : (new (some path) true).load s with
  | ok x => exact ⟨_, _, rfl⟩
  | error e =>
    obtain ⟨-, q, hq, hdeep⟩ := tooDeepAt_of_load hload
    obtain rfl := Option.some.inj hq
    exact absurd hdeep h

theorem keys_of_load (h : (new (some path) true).load s = .ok (start, told)) :
    start.keys = listed s path := by
  have hempty {es : List Log.Entry} (h : .ok (new (some path) true, es) =
      (.ok (start, told) : Except Json.TooDeep _)) : start.keys = [] := by
    rw [← (Prod.mk.inj (Except.ok.inj h)).1]
    rfl
  simp only [load, new, Option.isSome_some, Bool.and_self] at h
  rw [listed]
  cases hr : s.read path with
  | error e =>
    rw [hr] at h
    cases e <;> exact hempty h
  | ok bytes =>
    simp only [hr] at h
    cases ht : Text.ofUtf8 bytes with
    | error e =>
      simp only [ht] at h ⊢
      exact hempty h
    | ok t =>
      simp only [ht] at h
      cases hk : keysOf (Text.ofFileText t) with
      | error e =>
        simp only [ht, hk] at h ⊢
        cases e with
        | tooDeep e => cases h
        | malformed cause position line column => exact hempty h
        | longInteger digits => exact hempty h
      | ok keys? =>
        simp only [ht, hk] at h ⊢
        cases keys? with
        | none => exact hempty h
        | some keys => rw [← (Prod.mk.inj (Except.ok.inj h)).1]

/-- A cache that some blocks were marked in. -/
structure Marked (digest : Text → Text) (start : ValidationCache) (bs : List Block)
    (c : ValidationCache) : Prop where
  path : c.path = start.path
  enabled : c.enabled = true
  mem_iff : ∀ q, q ∈ c.keys ↔ q ∈ start.keys ∨ ∃ b ∈ bs, q = key digest b
  nodup : start.keys.Nodup → c.keys.Nodup
  dirty : c.dirty = (start.dirty || !bs.isEmpty)

theorem marked_foldl (he : start.enabled = true) (bs : List Block) :
    Marked digest start bs (bs.foldl (markValid digest) start) := by
  induction bs generalizing start with
  | nil => exact ⟨rfl, he, by simp, id, by simp⟩
  | cons b bs ih =>
    have hpath : (start.markValid digest b).path = start.path := by rw [markValid_of_enabled he]
    have hon : (start.markValid digest b).enabled = true := by rw [markValid_of_enabled he, he]
    have hdirty : (start.markValid digest b).dirty = true := by rw [markValid_of_enabled he]
    have h := ih hon
    refine ⟨h.path.trans hpath, h.enabled, fun q => ?_,
      fun hn => h.nodup (nodup_markValid he hn b), ?_⟩
    · rw [List.foldl_cons, h.mem_iff, mem_markValid he]
      simp [or_assoc]
    · rw [List.foldl_cons, h.dirty, hdirty]
      simp

theorem clean_of_save (he : c.enabled = true) (hp : c.path = some path)
    (h : c.save s = .ok (c', s', [])) : c'.dirty = false := by
  cases hd : c.dirty with
  | false =>
    rw [save_clean hd] at h
    obtain ⟨rfl, -⟩ := Prod.mk.inj (Except.ok.inj h)
    exact hd
  | true =>
    simp only [save, he, hd, hp, Bool.and_self] at h
    split at h
    · cases h
    · cases h
    · split at h
      · cases h
      · cases h
      · obtain ⟨rfl, -⟩ := Prod.mk.inj (Except.ok.inj h)
        rfl

theorem Marked.reload {last last' : ValidationCache} (hm : Marked digest start bs last)
    (hload : (new (some path) true).load s = .ok (start, told))
    (hsave : last.save s = .ok (last', s', [])) :
    ∃ again told', (new (some path) true).load s' = .ok (again, told') ∧
      ∀ q, q ∈ again.keys ↔ q ∈ last.keys := by
  have hplace : last.path = some path := hm.path.trans (load_path hload).1
  have hclean : start.dirty = false := (load_counts hload).1 rfl
  obtain ⟨hnothing, rfl⟩ | hread :=
    save_written hplace hsave (clean_of_save hm.enabled hplace hsave)
  · rw [hm.dirty, hclean] at hnothing
    obtain rfl : bs = [] := by simpa using hnothing
    exact ⟨start, told, hload, fun q => by simp [hm.mem_iff]⟩
  · have hwhole : ∀ q ∈ last.keys, q.Whole := by
      intro q hq
      obtain hq | ⟨b, -, rfl⟩ := (hm.mem_iff q).mp hq
      · exact whole_of_load (fun _ hq => (List.not_mem_nil hq).elim) hload q hq
      · exact Json.whole_ofText _
    obtain ⟨ks, told', hagain, hmem⟩ := load_saved (c := new (some path) true) rfl rfl hwhole hread
    exact ⟨_, told', hagain, hmem⟩

/-- A cache is loaded with the keys that its file lists, whatever else is in the file as long as
it nests no deeper than can be read. After any blocks were marked, and the cache was saved without
a warning, a new one is loaded from the same path with just the keys that the first one holds, and
saving either of them again writes nothing. Saving fails at most for a path with a null character.
-/
theorem saved_keys_reload (digest : Text → Text) (bs : List Block) (h : ¬ TooDeepAt s path) :
    ∃ start told, (new (some path) true).load s = .ok (start, told) ∧
      start.keys = listed s path ∧
      ∀ last, last = bs.foldl (markValid digest) start →
        (∀ q, q ∈ last.keys ↔ q ∈ listed s path ∨ ∃ b ∈ bs, q = key digest b) ∧
        ('\x00' ∉ path.text → ∃ saved, last.save s = .ok saved) ∧
        ∀ last' s', last.save s = .ok (last', s', []) →
          (∃ again told', (new (some path) true).load s' = .ok (again, told') ∧
            again.keys.Perm last.keys ∧ ∀ u, again.save u = .ok (again, u, [])) ∧
          last'.keys = last.keys ∧ ∀ u, last'.save u = .ok (last', u, []) := by
  obtain ⟨start, told, hload⟩ := load_ok h
  have hkeys := keys_of_load hload
  refine ⟨start, told, hload, hkeys, fun last hlast => ?_⟩
  have hm : Marked digest start bs last := hlast ▸ marked_foldl (load_path hload).2 bs
  have hplace : last.path = some path := hm.path.trans (load_path hload).1
  refine ⟨fun q => by rw [hm.mem_iff, hkeys], fun hnull => ?_, fun last' s' hsave => ?_⟩
  · obtain ⟨c, u, told', hsaved⟩ := save_ok (c := last) (fun _ p hp => by
      rwa [← Option.some.inj (hplace.symm.trans hp)]) s
    exact ⟨_, hsaved⟩
  · obtain ⟨again, told', hagain, hmem⟩ := hm.reload hload hsave
    have hnodup := hm.nodup (load_nodup hload List.nodup_nil)
    refine ⟨⟨again, told', hagain, ?_, fun u => save_clean ((load_counts hagain).1 rfl)⟩,
      save_keys hsave, fun u => save_clean (clean_of_save hm.enabled hplace hsave)⟩
    exact (List.perm_ext_iff_of_nodup (load_nodup hagain List.nodup_nil) hnodup).mpr hmem

/-- A file with half of a surrogate pair for a key and with another key twice, and a block marked
twice. -/
theorem saved_keys_reload_half_pair :
    let path := Path.ofString "keys"
    let file := "\x7b\"\\ud83d\": [1],\r\n \"a\": \x7b\x7d, \"a\": 2\x7d".toList
    let s : Store := ⟨[(["keys".toList], .file (Text.toUtf8 file))]⟩
    let b : Block := ⟨.ofString "a.md", 0, 2, "ls".toList, some "bash".toList⟩
    ∃ start told last s' again told', (new (some path) true).load s = .ok (start, told) ∧
      ([b, b].foldl (markValid id) start).save s = .ok (last, s', []) ∧
      (new (some path) true).load s' = .ok (again, told') ∧
      again.keys.Perm [[0xD83D], [0x61], key id b] := by
  intro path file s b
  have hread : s.read path = .ok (Text.toUtf8 file) := by decide +kernel
  have hlist : keysOf (Text.ofFileText file) = .ok (some [[0xD83D], [0x61]]) := by decide +kernel
  have hdepth : ¬ TooDeepAt s path := by
    rintro ⟨bytes, t, hr, ht, hdeep⟩
    obtain rfl := Except.ok.inj (hread.symm.trans hr)
    obtain rfl := Except.ok.inj ((Text.ofUtf8_toUtf8 _).symm.trans ht)
    obtain ⟨e, he⟩ := keysOf_tooDeep.mpr hdeep
    cases hlist.symm.trans he
  obtain ⟨start, told, hload, -, hrest⟩ := saved_keys_reload id [b, b] hdepth
  obtain rfl : start = ⟨some path, true, [[0xD83D], [0x61]], false, .none⟩ := by
    have hstart : ((new (some path) true).load s).map (·.1) =
        .ok ⟨some path, true, [[0xD83D], [0x61]], false, .none⟩ := by
      decide +kernel
    rw [hload] at hstart
    exact Except.ok.inj hstart
  obtain ⟨last, s', hsave⟩ : ∃ last s', ([b, b].foldl (markValid id)
      ⟨some path, true, [[0xD83D], [0x61]], false, .none⟩).save s = .ok (last, s', []) := by
    have hquiet : (([b, b].foldl (markValid id)
        ⟨some path, true, [[0xD83D], [0x61]], false, .none⟩).save s).map (·.2.2) = .ok [] := by
      decide +kernel
    obtain ⟨⟨last, s', told'⟩, hsave, rfl⟩ := ok_of_map hquiet
    exact ⟨last, s', hsave⟩
  have hkeys : ([b, b].foldl (markValid id)
      ⟨some path, true, [[0xD83D], [0x61]], false, .none⟩).keys = [[0xD83D], [0x61], key id b] := by
    decide +kernel
  obtain ⟨⟨again, told', hagain, hperm, -⟩, -, -⟩ := (hrest _ rfl).2.2 last s' hsave
  exact ⟨_, told, last, s', again, told', hload, hsave, hagain, hkeys ▸ hperm⟩

end MarkdownFences.ValidationCache
