import MarkdownFences.Proofs.Check.Findings
import MarkdownFences.Proofs.Check.FixPass
import Mathlib.Data.List.Perm.Basic

namespace MarkdownFences

/-! A place is a line of a file, counted from zero. Every fix has one, and so have the issues that
a fix removes. -/

def Block.place (b : Block) : Path × Option Int := (b.file, some b.openLine)

def FenceFix.place (f : FenceFix) : Path × Option Int := (f.file, some f.line)

def LanguageIssue.place (i : LanguageIssue) : Path × Option Int := (i.file, some i.openLine)

def StructuralIssue.place (i : StructuralIssue) : Path × Option Int := (i.file, i.openLine)

theorem Block.place_of_mismatch {b : Block} {declared : Text} {l : Language} {i : LanguageIssue}
    (h : b.mismatch declared l = some i) : i.place = b.place ∧ i.kind = .incorrectLanguage := by
  obtain rfl := eq_of_mismatch h
  exact ⟨rfl, rfl⟩

namespace Check

variable {τ ρ : Type} {k : Check τ ρ} {b : Block} {f : Finding}

theorem ComesTo.isSound (hk : k.fix = true) (h : k.ComesTo b f) : f.IsSound := by
  cases h with
  | settled h =>
    obtain ⟨rfl, hsome⟩ | ⟨rfl, hb⟩ := settled_cases h
    · exact .inl ⟨rfl, hsome hk⟩
    · exact .inr ⟨.text, rfl, by rw [hb]; rfl⟩
  | @asked known p h l =>
    have htagging := tagging_iff h
    cases p with
    | tagging =>
      refine .inr ⟨l, rfl, ?_⟩
      rw [found, htagging.mp rfl]
      rfl
    | comparison declared =>
      have hsome : b.tag.isSome = true :=
        Option.isSome_iff_ne_none.mpr fun hb => by cases htagging.mpr hb
      obtain ⟨-, hclean⟩ | ⟨i, -, hfound⟩ := found_comparison b declared l
      · rw [hclean]
        exact .inl ⟨rfl, hsome⟩
      · rw [hfound]
        exact .inr ⟨l, rfl, hsome.symm⟩

def issue? (r : Except Fault Finding) : Option LanguageIssue := r.toOption.bind (·.issue)

def fix? (r : Except Fault Finding) : Option FenceFix := r.toOption.bind Finding.fix?

def isUndetected (b : Block) (r : Except Fault Finding) : Bool :=
  b.tag.isNone && r.toOption.isNone

theorem balance (hk : k.fix = true) {r : Except Fault Finding}
    (h : ∀ f, r = .ok f → k.ComesTo b f) :
    (fix? r).toList.map FenceFix.place ++ (if isUndetected b r then [b.place] else []) =
      (issue? r).toList.map LanguageIssue.place ++ if b.tag.isNone then [b.place] else [] := by
  cases r with
  | error e => simp [fix?, issue?, isUndetected, Except.toOption]
  | ok f =>
    have hf := h f rfl
    have hnone : isUndetected b (.ok f) = false := Bool.and_false _
    have hsound := hf.isSound hk
    rw [hnone]
    cases hf.isOf with
    | clean =>
      obtain ⟨-, ht⟩ | ⟨l, ht, -⟩ := hsound
      · have ht : b.tag.isSome = true := ht
        rw [Option.isNone_eq_false_iff.mpr ht]
        rfl
      · cases ht
    | untagged l hb =>
      rw [hb]
      rfl
    | mismatch declared l i hi =>
      obtain ⟨hc, -⟩ | ⟨l', -, ht⟩ := hsound
      · cases hc
      · have hplace := (Block.place_of_mismatch hi).1
        have ht : b.tag.isSome = true := ht.symm
        rw [Option.isNone_eq_false_iff.mpr ht]
        exact congrArg (· :: []) hplace.symm

def undetected (bs : List Block) (rs : List (Except Fault Finding)) : List Block :=
  ((bs.zip rs).filter fun c => isUndetected c.1 c.2).map (·.1)

theorem map_filter_eq_flatMap {α β : Type} (p : α → Bool) (g : α → β) (as : List α) :
    (as.filter p).map g = as.flatMap fun a => if p a then [g a] else [] := by
  induction as with
  | nil => rfl
  | cons a as ih =>
    rw [List.filter_cons, List.flatMap_cons, ← ih]
    split <;> rfl

theorem map_filterMap_eq_flatMap {α β γ : Type} (f : α → Option β) (g : β → γ) (as : List α) :
    (as.filterMap f).map g = as.flatMap fun a => (f a).toList.map g := by
  rw [List.filterMap_eq_flatMap_toList, List.map_flatMap]

/-- Place by place, the fixes and the blocks that are left without a tag are the issues and the
blocks without a tag. -/
theorem balance_all (hk : k.fix = true) {bs : List Block} {rs : List (Except Fault Finding)}
    (h : List.Forall₂ (fun b r => ∀ f, r = .ok f → k.ComesTo b f) bs rs) :
    ((rs.filterMap fix?).map FenceFix.place ++ (undetected bs rs).map Block.place).Perm
      ((rs.filterMap issue?).map LanguageIssue.place ++
        (bs.filter (·.tag.isNone)).map Block.place) := by
  obtain ⟨hlength, hzip⟩ := List.forall₂_iff_zip.mp h
  have hbs : (bs.zip rs).map Prod.fst = bs := List.map_fst_zip (Nat.le_of_eq hlength)
  have hrs : (bs.zip rs).map Prod.snd = rs := List.map_snd_zip (Nat.le_of_eq hlength.symm)
  rw [undetected, List.map_map, map_filter_eq_flatMap]
  generalize bs.zip rs = cs at *
  rw [← hbs, ← hrs, map_filterMap_eq_flatMap, map_filterMap_eq_flatMap, map_filter_eq_flatMap,
    List.flatMap_map, List.flatMap_map, List.flatMap_map]
  refine (List.flatMap_append_perm cs _ _).trans ?_
  refine List.Perm.trans (.of_eq ?_) (List.flatMap_append_perm cs _ _).symm
  exact List.flatMap_congr fun c hc => balance hk (hzip hc)

end Check

end MarkdownFences
