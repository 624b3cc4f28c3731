import MarkdownFences.Digest
import MarkdownFences.Proofs.Path.Normal
import MarkdownFences.Proofs.ValidationCache.Key

namespace MarkdownFences

theorem append_cons_eq_iff {α : Type} {sep : α} {f g r s : List α} :
    f ++ sep :: r = g ++ sep :: s ↔ f = g ∧ r = s ∨ (∃ x, g = f ++ sep :: x ∧ r = x ++ sep :: s) ∨
      ∃ x, f = g ++ sep :: x ∧ s = x ++ sep :: r := by
  rw [List.append_eq_append_iff]
  constructor
  · rintro (⟨x, rfl, hx⟩ | ⟨x, rfl, hx⟩)
    · cases x with
      | nil => exact .inl ⟨by simp, (List.cons.inj hx).2⟩
      | cons c x =>
        obtain ⟨rfl, rfl⟩ := List.cons.inj hx
        exact .inr (.inl ⟨x, rfl, rfl⟩)
    · cases x with
      | nil => exact .inl ⟨by simp, (List.cons.inj hx).2.symm⟩
      | cons c x =>
        obtain ⟨rfl, rfl⟩ := List.cons.inj hx
        exact .inr (.inr ⟨x, rfl, rfl⟩)
  · rintro (⟨rfl, rfl⟩ | ⟨x, rfl, rfl⟩ | ⟨x, rfl, rfl⟩)
    · exact .inl ⟨[], by simp, rfl⟩
    · exact .inl ⟨sep :: x, rfl, rfl⟩
    · exact .inr ⟨sep :: x, rfl, rfl⟩

namespace Block

/-- A block with a path in normal form and a tag, if any, that a fence can declare. -/
structure Regular (b : Block) : Prop where
  file : b.file.Normal
  tag : ∀ tag, b.tag = some tag → Fence.IsTag tag

/-- The blocks have all in common that the payload names. It says the same of a block without a tag
and of one with the tag that stands for none. -/
def Coincides (a b : Block) : Prop :=
  a.file = b.file ∧ a.openNumber = b.openNumber ∧
    a.tag.getD "None".toList = b.tag.getD "None".toList ∧ a.content = b.content

/-- The path of `b` begins with that of `a` and a colon, and what `a` has behind its path is the
remainder of that path followed by what `b` has behind it. -/
def RunsInto (a b : Block) : Prop :=
  ∃ x, b.file.text = a.file.text ++ ':' :: x ∧ a.rest = x ++ ':' :: b.rest

variable {a b : Block}

theorem RunsInto.count_lt (h : a.RunsInto b) : a.file.text.count ':' < b.file.text.count ':' := by
  obtain ⟨x, hx, -⟩ := h
  rw [hx, List.count_append, List.count_cons_self]
  omega

/-- The payload tells blocks apart but for paths with colons in them. -/
theorem Regular.payload_eq_iff (ha : a.Regular) (hb : b.Regular) :
    a.payload = b.payload ↔ a.Coincides b ∨ a.RunsInto b ∨ b.RunsInto a := by
  have hfile : a.file.text = b.file.text ↔ a.file = b.file :=
    ⟨ha.file.text_inj hb.file, congrArg Path.text⟩
  rw [payload_eq, payload_eq, append_cons_eq_iff, hfile, rest_eq_iff ha.tag hb.tag]
  rfl

theorem Coincides.tag_eq (h : a.Coincides b) (ht : a.tag.isSome = b.tag.isSome) :
    a.tag = b.tag := by
  obtain ⟨-, -, htag, -⟩ := h
  cases hat : a.tag with
  | none =>
    rw [hat, Option.isSome_none, eq_comm, Option.isSome_eq_false_iff] at ht
    exact (Option.isNone_iff_eq_none.mp ht).symm
  | some t =>
    rw [hat] at ht
    obtain ⟨u, hu⟩ := Option.isSome_iff_exists.mp ht.symm
    rw [hat, hu] at htag
    rw [hu]
    exact congrArg some htag

end Block

namespace ValidationCache

open Json (Points)

variable {digest : Text → Text} {a b : Block}

/-- Under a digest that does not confuse their payloads two blocks have one key exactly if they
coincide or one runs into the other, which takes a path with more colons than the other has. As long
as the paths have equally many, a key tells file, line and content, and the tag of a block that is
known to have one or to have none. -/
theorem key_eq_iff (ha : a.Regular) (hb : b.Regular)
    (hd : digest a.payload = digest b.payload → a.payload = b.payload) :
    (key digest a = key digest b ↔ a.Coincides b ∨ a.RunsInto b ∨ b.RunsInto a) ∧
    (a.file.text.count ':' = b.file.text.count ':' → a.tag.isSome = b.tag.isSome →
      key digest a = key digest b →
        a.file = b.file ∧ a.openNumber = b.openNumber ∧ a.tag = b.tag ∧ a.content = b.content) := by
  have hkey : key digest a = key digest b ↔ a.Coincides b ∨ a.RunsInto b ∨ b.RunsInto a := by
    rw [← ha.payload_eq_iff hb]
    exact ⟨fun h => hd (Points.ofText_inj h), fun h => by rw [key, h, key]⟩
  refine ⟨hkey, fun hcount htag h => ?_⟩
  obtain hsame | hinto | hinto := hkey.mp h
  · exact ⟨hsame.1, hsame.2.1, hsame.tag_eq htag, hsame.2.2.2⟩
  · exact absurd hinto.count_lt (by omega)
  · exact absurd hinto.count_lt (by omega)

/-- Two blocks in files with a colon in their names, and the digest that keys are made with. -/
theorem key_eq_iff_one_colon_each :
    let a : Block := ⟨.ofString "notes:a.md", 0, 2, "ls:1".toList, some "bash".toList⟩
    let b : Block := { a with file := .ofString "notes:b.md" }
    a.Regular ∧ b.Regular ∧
      (Digest.ofText a.payload = Digest.ofText b.payload → a.payload = b.payload) ∧
      a.file.text.count ':' = b.file.text.count ':' ∧ a.tag.isSome = b.tag.isSome ∧
      key Digest.ofText a ≠ key Digest.ofText b := by
  intro a b
  have htag : ∀ tag, some "bash".toList = some tag → Fence.IsTag tag := by
    rintro tag ⟨⟩
    unfold Fence.IsTag
    decide +kernel
  have ha : a.Regular := ⟨Path.normal_ofText _, htag⟩
  have hb : b.Regular := ⟨Path.normal_ofText _, htag⟩
  have hd : Digest.ofText a.payload = Digest.ofText b.payload → a.payload = b.payload := by
    decide +kernel
  have hcount : a.file.text.count ':' = b.file.text.count ':' := by decide +kernel
  have hfile : a.file ≠ b.file := by decide +kernel
  exact ⟨ha, hb, hd, hcount, rfl, fun h => hfile ((key_eq_iff ha hb hd).2 hcount rfl h).1⟩

/-- Blocks that scans find have one key under every digest although their files, tags and contents
differ, as the path of one goes on with what the other has behind its path: once the one is found
valid the other counts as valid too. A block without a tag has the key of one with the tag that
stands for none. -/
theorem key_collides :
    let a : Block := ⟨.ofString "a.md", 0, 2, "ls -la:1:json:pwd".toList, some "bash".toList⟩
    let b : Block := ⟨.ofString "a.md:1:bash:ls -la", 0, 2, "pwd".toList, some "json".toList⟩
    let c : Block := { b with tag := none }
    let d : Block := { b with tag := some "None".toList }
    a ∈ (scan a.file "```bash\nls -la:1:json:pwd\n```\n".toList).blocks ∧
      b ∈ (scan b.file "```json\npwd\n```\n".toList).blocks ∧
      c ∈ (scan c.file "```\npwd\n```\n".toList).blocks ∧
      d ∈ (scan d.file "```None\npwd\n```\n".toList).blocks ∧
      a.file ≠ b.file ∧ a.tag ≠ b.tag ∧ a.content ≠ b.content ∧ c.tag ≠ d.tag ∧
      ∀ digest, key digest a = key digest b ∧ key digest c = key digest d ∧
        (isValid digest (markValid digest (new (some (.ofString "cache.json")) true) a) b).2 =
          true := by
  intro a b c d
  have hab : a.payload = b.payload := by decide +kernel
  have hcd : c.payload = d.payload := by decide +kernel
  refine ⟨by decide +kernel, by decide +kernel, by decide +kernel, by decide +kernel,
    by decide +kernel, by decide +kernel, by decide +kernel, by decide +kernel, fun digest => ?_⟩
  have hkey : key digest a = key digest b := congrArg (fun t => Points.ofText (digest t)) hab
  refine ⟨hkey, congrArg (fun t => Points.ofText (digest t)) hcd, ?_⟩
  simp [isValid, markValid, new, hkey]

end ValidationCache

end MarkdownFences
