import MarkdownFences.Document
import MarkdownFences.Proofs.Result

namespace MarkdownFences.Store

variable {s s' u : Store} {p q : Path} {names k : List Text} {n : Node} {bytes : List UInt8}

def isFixed (names : List Text) : Bool := names = top || names.all (· == up)

theorem node?_eq (s : Store) (names : List Text) :
    s.node? names = if isFixed names then some .directory else s.nodes.lookup names :=
  rfl

theorem lookup_cons_of_ne {name : List Text} (h : k ≠ name) (old : Node)
    (nodes : List (List Text × Node)) : ((name, old) :: nodes).lookup k = nodes.lookup k := by
  rw [List.lookup_cons, beq_false_of_ne h]

theorem lookup_map (nodes : List (List Text × Node)) (names k : List Text) (n : Node) :
    (nodes.map fun e => if e.1 = names then (names, n) else e).lookup k =
      if k = names then (nodes.lookup k).map fun _ => n else nodes.lookup k := by
  induction nodes with
  | nil => simp
  | cons e nodes ih =>
    obtain ⟨name, old⟩ := e
    rw [List.map_cons]
    by_cases hk : k = name
    · subst hk
      by_cases hname : k = names <;> simp [hname]
    · rw [lookup_cons_of_ne hk, ← ih]
      split <;> rename_i hname
      · exact lookup_cons_of_ne (hname ▸ hk) n _
      · exact lookup_cons_of_ne hk old _

theorem lookup_put (s : Store) (names k : List Text) (n : Node) :
    (s.put names n).nodes.lookup k = if k = names then some n else s.nodes.lookup k := by
  rw [put]
  by_cases hk : k = names
  · subst hk
    cases hl : s.nodes.lookup k with
    | none => simp [List.lookup_append, hl]
    | some old => simp [lookup_map, hl]
  · rw [if_neg hk]
    split
    · rw [lookup_map, if_neg hk]
    · rw [List.lookup_append, lookup_cons_of_ne hk, List.lookup_nil, Option.or_none]

theorem node?_put (hn : isFixed names = false) (k : List Text) :
    (s.put names n).node? k = if k = names then some n else s.node? k := by
  rw [node?_eq, node?_eq, lookup_put]
  by_cases hk : k = names
  · rw [hk, hn]
    simp
  · simp [hk]

/-- What was there is still there, although files may say something else. -/
structure Grows (s s' : Store) : Prop where
  directory : ∀ names, s.node? names = some .directory → s'.node? names = some .directory
  file : ∀ names bytes, s.node? names = some (.file bytes) →
    ∃ bytes', s'.node? names = some (.file bytes')

theorem Grows.refl (s : Store) : Grows s s := ⟨fun _ h => h, fun _ bytes h => ⟨bytes, h⟩⟩

theorem Grows.trans (h : Grows s s') (h' : Grows s' u) : Grows s u where
  directory := fun names hn => h'.directory names (h.directory names hn)
  file := fun names bytes hn => by
    obtain ⟨bytes', hn'⟩ := h.file names bytes hn
    exact h'.file names bytes' hn'

theorem isFixed_of_ne_directory (h : s.node? names ≠ some .directory) : isFixed names = false := by
  rw [node?_eq] at h
  cases hf : isFixed names with
  | false => rfl
  | true => exact absurd (if_pos hf) h

theorem grows_put_file (h : s.node? names ≠ some .directory) (bytes : List UInt8) :
    Grows s (s.put names (.file bytes)) := by
  have hf := isFixed_of_ne_directory h
  constructor
  · intro k hk
    rw [node?_put hf, if_neg, hk]
    rintro rfl
    exact h hk
  · intro k old hk
    rw [node?_put hf]
    split
    · exact ⟨bytes, rfl⟩
    · exact ⟨old, hk⟩

section Resolve

theorem foldlM_ok {α β ε : Type} {f g : β → α → Except ε β} {b c : β} {as : List α}
    (hfg : ∀ b a c, f b a = .ok c → g b a = .ok c) (h : as.foldlM f b = .ok c) :
    as.foldlM g b = .ok c := by
  induction as generalizing b with
  | nil => exact h
  | cons a as ih =>
    rw [List.foldlM_cons] at h ⊢
    obtain ⟨d, hd, h⟩ := bind_eq_ok.mp h
    rw [hfg b a d hd]
    exact ih h

theorem Grows.follow (h : Grows s s') {here there : List Text} {name : Text}
    (hf : s.follow p here name = .ok there) : s'.follow p here name = .ok there := by
  rw [Store.follow] at hf ⊢
  cases hn : s.node? here with
  | none => rw [hn] at hf; cases hf
  | some n =>
    cases n with
    | file bytes => rw [hn] at hf; cases hf
    | directory => rwa [h.directory here hn, ← hn]

theorem Grows.resolve (h : Grows s s') (hr : s.resolve p = .ok names) :
    s'.resolve p = .ok names := by
  rw [Store.resolve] at hr ⊢
  split at hr
  case isTrue => cases hr
  case isFalse hz =>
    rw [if_neg hz]
    exact foldlM_ok (fun _ _ _ hf => h.follow hf) hr

end Resolve

theorem node?_eq_none : s.node? names = none ↔
    ¬s.node? names = some .directory ∧ ¬∃ bytes, s.node? names = some (.file bytes) := by
  cases s.node? names with
  | none => simp
  | some n => cases n <;> simp

/-- The same names stand for files, and the same for directories. -/
structure SameShape (s s' : Store) : Prop where
  directory : ∀ names, s'.node? names = some .directory ↔ s.node? names = some .directory
  file : ∀ names, (∃ bytes, s'.node? names = some (.file bytes)) ↔
    ∃ bytes, s.node? names = some (.file bytes)

namespace SameShape

theorem refl (s : Store) : SameShape s s := ⟨fun _ => Iff.rfl, fun _ => Iff.rfl⟩

theorem trans (h : SameShape s s') (h' : SameShape s' u) : SameShape s u :=
  ⟨fun names => (h'.directory names).trans (h.directory names),
    fun names => (h'.file names).trans (h.file names)⟩

theorem grows (h : SameShape s s') : Grows s s' :=
  ⟨fun names hn => (h.directory names).mpr hn,
    fun names bytes hn => (h.file names).mpr ⟨bytes, hn⟩⟩

theorem put (h : s.node? names = some (.file bytes)) (new : List UInt8) :
    SameShape s (s.put names (.file new)) := by
  have hd : s.node? names ≠ some .directory := by
    rw [h]
    nofun
  have hput := node?_put (s := s) (n := .file new) (isFixed_of_ne_directory hd)
  refine ⟨fun k => ?_, fun k => ?_⟩
  · rw [hput]
    split
    case isTrue hk => simp [hk, h]
    case isFalse => exact Iff.rfl
  · rw [hput]
    split
    case isTrue hk => simp [hk, h]
    case isFalse => exact Iff.rfl

theorem missing (h : SameShape s s') (names : List Text) :
    s'.node? names = none ↔ s.node? names = none := by
  rw [node?_eq_none, node?_eq_none, h.directory, h.file]

theorem resolve_eq (h : SameShape s s') (p : Path) : s'.resolve p = s.resolve p := by
  have hfollow : s'.follow p = s.follow p := by
    funext here name
    rw [follow, follow]
    cases hn : s.node? here with
    | none => rw [(h.missing here).mpr hn]
    | some n =>
      cases n with
      | directory => rw [(h.directory here).mpr hn]
      | file bytes =>
        obtain ⟨new, hnew⟩ := (h.file here).mpr ⟨bytes, hn⟩
        rw [hnew]
  rw [resolve, resolve, hfollow]

end SameShape

section Access

theorem read_eq_ok : s.read p = .ok bytes ↔
    ∃ names, s.resolve p = .ok names ∧ s.node? names = some (.file bytes) := by
  rw [read, bind_eq_ok]
  refine exists_congr fun names => and_congr_right fun _ => ?_
  split
  case h_1 hn => simp [hn, pure, Except.pure]
  case h_2 hn => simp [hn, throw, throwThe, MonadExceptOf.throw]
  case h_3 hn => simp [hn, throw, throwThe, MonadExceptOf.throw]

theorem read_put (hr : s.resolve p = .ok names) (hn : s.node? names ≠ some .directory)
    (bytes : List UInt8) : (s.put names (.file bytes)).read p = .ok bytes := by
  refine read_eq_ok.mpr ⟨names, (grows_put_file hn bytes).resolve hr, ?_⟩
  rw [node?_put (isFixed_of_ne_directory hn), if_pos rfl]

theorem readText_eq_ok {t : Text} :
    s.readText p = .ok t ↔ ∃ bytes, s.read p = .ok bytes ∧ Text.ofUtf8 bytes = .ok t := by
  simp only [readText, bind_eq_ok, mapError_eq_ok]

theorem readText_congr {q : Path} {t : Text} (h : s.resolve p = s.resolve q)
    (hq : s.readText q = .ok t) : s.readText p = .ok t := by
  obtain ⟨bytes, hbytes, ht⟩ := readText_eq_ok.mp hq
  obtain ⟨names, hr, hn⟩ := read_eq_ok.mp hbytes
  exact readText_eq_ok.mpr ⟨bytes, read_eq_ok.mpr ⟨names, h.trans hr, hn⟩, ht⟩

theorem write_eq_ok : s.write p bytes = .ok s' ↔
    ∃ names, s.resolve p = .ok names ∧ s.node? names ≠ some .directory ∧
      s' = s.put names (.file bytes) := by
  rw [write, bind_eq_ok]
  refine exists_congr fun names => and_congr_right fun _ => ?_
  split
  case h_1 hn => simp [hn, throw, throwThe, MonadExceptOf.throw]
  case h_2 hn =>
    have hne : s.node? names ≠ some .directory := hn
    simp [hne, pure, Except.pure, eq_comm]

end Access

section MakeDirectory

def Extends (s s' : Store) : Prop := ∀ names n, s.node? names = some n → s'.node? names = some n

theorem Extends.grows (h : Extends s s') : Grows s s' :=
  ⟨fun names hn => h names _ hn, fun names bytes hn => ⟨bytes, h names _ hn⟩⟩

theorem extends_put (h : s.node? names = none) (n : Node) : Extends s (s.put names n) := by
  have hne : s.node? names ≠ some .directory := by
    rw [h]
    nofun
  have hf := isFixed_of_ne_directory hne
  intro k old hk
  rw [node?_put hf, if_neg, hk]
  rintro rfl
  rw [h] at hk
  cases hk

theorem extends_makeStep {x y : Store × List Text} {name : Text}
    (h : makeStep p x name = .ok y) : Extends x.1 y.1 := by
  obtain ⟨s, here⟩ := x
  rw [makeStep] at h
  obtain ⟨names, -, h⟩ := bind_eq_ok.mp h
  split at h
  case h_1 =>
    obtain rfl := Except.ok.inj h
    exact fun _ _ hn => hn
  case h_2 hn =>
    obtain rfl := Except.ok.inj h
    exact extends_put hn _

theorem extends_makeSteps {names : List Text} {x y : Store × List Text}
    (h : names.foldlM (makeStep p) x = .ok y) : Extends x.1 y.1 := by
  induction names generalizing x with
  | nil =>
    obtain rfl := Except.ok.inj h
    exact fun _ _ hn => hn
  | cons name names ih =>
    rw [List.foldlM_cons] at h
    obtain ⟨z, hm, h⟩ := bind_eq_ok.mp h
    exact fun k n hk => ih h k n (extends_makeStep hm k n hk)

theorem extends_makeDirectory (h : s.makeDirectory p = .ok s') : Extends s s' := by
  rw [makeDirectory] at h
  split at h
  case isTrue => cases h
  case isFalse =>
    obtain ⟨⟨made, here⟩, hm, h⟩ := bind_eq_ok.mp h
    dsimp only at h
    split at h
    case h_1 => cases h
    case h_2 =>
      obtain rfl := Except.ok.inj h
      exact extends_makeSteps hm

end MakeDirectory

end MarkdownFences.Store
