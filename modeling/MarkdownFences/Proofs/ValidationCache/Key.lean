import MarkdownFences.Proofs.Fence.Retag
import MarkdownFences.Proofs.Scan.Blocks
import MarkdownFences.Proofs.Text.Lines
import MarkdownFences.ValidationCache
import Mathlib.Data.List.Basic
import Mathlib.Data.List.TakeWhile

namespace MarkdownFences

namespace Fence

theorem isTag_of_leadingTag {t u : Text} (h : leadingTag t = some u) : IsTag u := by
  cases t with
  | nil => cases h
  | cons c r =>
    rw [leadingTag, Option.ite_none_right_eq_some] at h
    obtain ⟨hc, hu⟩ := h
    rw [← Option.some.inj hu, IsTag, leadingTag, if_pos hc, List.takeWhile_idem]

theorem isTag_of_tag {t u : Text} (h : tag t = some u) : IsTag u := by
  rw [tag, Option.ite_none_right_eq_some] at h
  exact isTag_of_leadingTag h.2

theorem IsTag.colon_not_mem {t : Text} (h : IsTag t) : ':' ∉ t := by
  intro hc
  have htag := h.isTagChar hc
  revert htag
  decide +kernel

end Fence

theorem Scan.isTag_of_mem_blocks {file : Path} {t : Text} {b : Block}
    (hb : b ∈ (scan file t).blocks) {tag : Text} (ht : b.tag = some tag) : Fence.IsTag tag := by
  rw [scan_blocks] at hb
  obtain ⟨p, -, rfl⟩ := List.mem_map.mp hb
  exact Fence.isTag_of_tag ht

theorem Json.Points.ofText_inj {t u : Text} (h : ofText t = ofText u) : t = u :=
  List.map_injective_iff.mpr (fun _ _ hc => Char.toNat_inj.mp hc) h

section Decimal

theorem toList_toString (n : Nat) : (toString n).toList = Nat.toDigits 10 n := by
  rw [Nat.toString_eq_repr, Nat.toList_repr]

theorem colon_not_mem_toString (n : Nat) : ':' ∉ (toString n).toList := by
  rw [toList_toString]
  intro h
  have hdigit := Nat.isDigit_of_mem_toDigits (by decide) (by decide) h
  exact absurd hdigit (by decide)

theorem toString_inj {m n : Nat} (h : (toString m).toList = (toString n).toList) : m = n := by
  rw [toList_toString, toList_toString] at h
  rw [← Nat.ofDigitChars_toDigits (b := 10) (n := m) (by decide) (by decide), h,
    Nat.ofDigitChars_toDigits (by decide) (by decide)]

end Decimal

/-- Nothing in front of the content has a colon in it. -/
structure Block.Plain (b : Block) : Prop where
  file : ':' ∉ b.file.text
  tag : ∀ tag, b.tag = some tag → Fence.IsTag tag

namespace Block

variable {a b : Block}

def rest (b : Block) : Text :=
  (toString b.openNumber).toList ++ ':' :: (b.tag.getD "None".toList ++ ':' :: b.content)

theorem payload_eq (b : Block) : b.payload = b.file.text ++ ':' :: b.rest := by
  simp only [payload, rest, String.toList_append, List.append_assoc]
  rfl

theorem colon_not_mem_tag (ht : ∀ tag, b.tag = some tag → Fence.IsTag tag) :
    ':' ∉ b.tag.getD "None".toList := by
  cases h : b.tag with
  | none => decide
  | some tag => exact (ht tag h).colon_not_mem

theorem pieces_rest (ht : ∀ tag, b.tag = some tag → Fence.IsTag tag) : Text.pieces ':' b.rest =
    (toString b.openNumber).toList :: b.tag.getD "None".toList :: Text.pieces ':' b.content := by
  rw [rest, Text.pieces_append (colon_not_mem_toString _),
    Text.pieces_append (colon_not_mem_tag ht)]

/-- All of a block but its file and where it ends, save that a block without a tag may look like one
with the tag that stands for none. -/
theorem rest_eq_iff (ha : ∀ tag, a.tag = some tag → Fence.IsTag tag)
    (hb : ∀ tag, b.tag = some tag → Fence.IsTag tag) : a.rest = b.rest ↔
      a.openNumber = b.openNumber ∧ a.tag.getD "None".toList = b.tag.getD "None".toList ∧
        a.content = b.content := by
  refine ⟨fun h => ?_, fun ⟨hline, htag, hcontent⟩ => by rw [rest, hline, htag, hcontent, rest]⟩
  have hpieces := congrArg (Text.pieces ':') h
  rw [pieces_rest ha, pieces_rest hb] at hpieces
  simp only [List.cons.injEq] at hpieces
  obtain ⟨hline, htag, hcontent⟩ := hpieces
  exact ⟨toString_inj hline, htag, Text.pieces_inj hcontent⟩

/-- The payload of a block tells all of it but where it ends, save that a block without a tag may
look like one with the tag that stands for none. -/
theorem Plain.payload_inj (ha : a.Plain) (hb : b.Plain) (h : a.payload = b.payload) :
    a.file.text = b.file.text ∧ a.openNumber = b.openNumber ∧
      a.tag.getD "None".toList = b.tag.getD "None".toList ∧ a.content = b.content := by
  have hpieces := congrArg (Text.pieces ':') h
  rw [payload_eq, payload_eq, Text.pieces_append ha.file, Text.pieces_append hb.file] at hpieces
  obtain ⟨hfile, hrest⟩ := List.cons.inj hpieces
  exact ⟨hfile, (rest_eq_iff ha.tag hb.tag).mp (Text.pieces_inj hrest)⟩

end Block

end MarkdownFences
