import MarkdownFences.Proofs.Result
import MarkdownFences.Proofs.Text.Lines
import MarkdownFences.Store

namespace MarkdownFences

/-! Only a path with a null character is refused as such. -/

namespace Path

variable {p : Path}

theorem mem_text {c : Char} (hc : c ≠ '/') (hp : c ≠ '.') : c ∈ p.text ↔ ∃ n ∈ p.names, c ∈ n := by
  rw [text]
  split
  case isTrue h =>
    rw [Bool.and_eq_true, List.isEmpty_iff] at h
    simp [h.2, hp]
  case isFalse =>
    rw [List.mem_append, Text.mem_joined hc]
    simp [hc]

theorem not_mem_parent (h : '\x00' ∉ p.text) : '\x00' ∉ p.parent.text := by
  rw [mem_text (by decide) (by decide)] at h ⊢
  rintro ⟨n, hn, hc⟩
  exact h ⟨n, List.dropLast_subset _ hn, hc⟩

end Path

namespace Store

variable {s : Store} {p : Path}

theorem follow_ne_null (here : List Text) (name : Text) :
    s.follow p here name ≠ .error .nullCharacter := by
  rw [follow]
  split
  · split
    · nofun
    · split <;> nofun
  · nofun
  · nofun

theorem foldlM_ne_error {α β ε : Type} {f : β → α → Except ε β} {e : ε}
    (hf : ∀ b a, f b a ≠ .error e) (as : List α) (b : β) : as.foldlM f b ≠ .error e := by
  induction as generalizing b with
  | nil => nofun
  | cons a as ih =>
    rw [List.foldlM_cons]
    exact bind_ne_error (hf b a) ih

theorem resolve_ne_null (h : '\x00' ∉ p.text) : s.resolve p ≠ .error .nullCharacter := by
  rw [resolve, if_neg (by simpa using h)]
  exact foldlM_ne_error follow_ne_null _ _

theorem read_ne_null (h : '\x00' ∉ p.text) :
    s.read p ≠ .error .nullCharacter := by
  rw [read]
  refine bind_ne_error (resolve_ne_null h) fun names => ?_
  split <;> nofun

theorem write_ne_null (h : '\x00' ∉ p.text) (bytes : List UInt8) :
    s.write p bytes ≠ .error .nullCharacter := by
  rw [write]
  refine bind_ne_error (resolve_ne_null h) fun names => ?_
  split <;> nofun

theorem makeStep_ne_null (x : Store × List Text) (name : Text) :
    makeStep p x name ≠ .error .nullCharacter := by
  obtain ⟨s, here⟩ := x
  rw [makeStep]
  refine bind_ne_error (follow_ne_null here name) fun names => ?_
  split <;> nofun

theorem makeDirectory_ne_null (h : '\x00' ∉ p.text) :
    s.makeDirectory p ≠ .error .nullCharacter := by
  rw [makeDirectory, if_neg (by simpa using h)]
  refine bind_ne_error (foldlM_ne_error makeStep_ne_null _ _) fun ⟨made, names⟩ => ?_
  dsimp only
  split <;> nofun

end Store

end MarkdownFences
