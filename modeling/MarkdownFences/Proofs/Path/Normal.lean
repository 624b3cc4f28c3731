import MarkdownFences.Path
import MarkdownFences.Proofs.Text.Lines
import Mathlib.Data.List.TakeWhile

namespace MarkdownFences.Path

open Text

structure Normal (p : Path) : Prop where
  slashes : p.slashes ≤ 2
  ne_nil : ∀ n ∈ p.names, n ≠ []
  ne_here : ∀ n ∈ p.names, n ≠ ['.']
  slash_not_mem : ∀ n ∈ p.names, '/' ∉ n

variable {p q : Path}

theorem leadingSlashes_le (t : Text) : leadingSlashes t ≤ 2 := by
  rw [leadingSlashes]
  split <;> decide

theorem leadingSlashes_append {k : Nat} (hk : k ≤ 2) {t : Text}
    (ht : ∀ c, t.head? = some c → c ≠ '/') : leadingSlashes (List.replicate k '/' ++ t) = k := by
  have hall : ∀ c ∈ List.replicate k '/', (c == '/') = true := by simp
  have hnone : t.takeWhile (· == '/') = [] := by
    cases t with
    | nil => rfl
    | cons c r => rw [List.takeWhile_cons_of_neg (by simp [ht c rfl])]
  rw [leadingSlashes, List.takeWhile_append_of_pos hall, hnone, List.append_nil,
    List.length_replicate]
  match k, hk with
  | 0, _ => rfl
  | 1, _ => rfl
  | 2, _ => rfl

theorem normal_ofText (t : Text) : (ofText t).Normal := by
  have hname : ∀ n ∈ (ofText t).names, n ∈ pieces '/' t ∧ n ≠ [] ∧ n ≠ ['.'] := by
    intro n hn
    simpa [ofText] using hn
  exact ⟨leadingSlashes_le t, fun n hn => (hname n hn).2.1, fun n hn => (hname n hn).2.2,
    fun n hn => not_mem_of_mem_pieces (hname n hn).1⟩

theorem exists_mem_names_iff {c : Char} (hslash : c ≠ '/') (hpoint : c ≠ '.') (t : Text) :
    (∃ n ∈ (ofText t).names, c ∈ n) ↔ c ∈ t := by
  have hnames (n : Text) (hc : c ∈ n) : n ∈ (ofText t).names ↔ n ∈ pieces '/' t := by
    have hne : n ≠ [] := List.ne_nil_of_mem hc
    have hhere : n ≠ ['.'] := by
      rintro rfl
      exact hpoint (List.mem_singleton.mp hc)
    simp [ofText, hne, hhere]
  calc (∃ n ∈ (ofText t).names, c ∈ n)
    _ ↔ ∃ n ∈ pieces '/' t, c ∈ n := exists_congr fun n => and_congr_left (hnames n)
    _ ↔ c ∈ joined '/' (pieces '/' t) := (mem_joined hslash).symm
    _ ↔ c ∈ t := by rw [joined_pieces]

theorem pieces_replicate (k : Nat) (t : Text) :
    pieces '/' (List.replicate k '/' ++ t) = List.replicate k [] ++ pieces '/' t := by
  induction k with
  | zero => rfl
  | succ k ih => rw [List.replicate_succ, List.cons_append, pieces_sep, ih]; rfl

theorem Normal.ofText_text (h : p.Normal) : ofText p.text = p := by
  obtain ⟨k, names⟩ := p
  cases names with
  | nil =>
    match k, h.slashes with
    | 0, _ => rfl
    | 1, _ => rfl
    | 2, _ => rfl
  | cons n names =>
    obtain ⟨c, r, hn⟩ := List.exists_cons_of_ne_nil (h.ne_nil n List.mem_cons_self)
    have hc : c ≠ '/' := by
      rintro rfl
      exact h.slash_not_mem n List.mem_cons_self (hn ▸ List.mem_cons_self)
    have hhead (d : Char) (hd : (joined '/' (n :: names)).head? = some d) : d ≠ '/' := by
      rw [hn, joined_cons_cons] at hd
      rwa [← Option.some.inj hd]
    have htext : text ⟨k, n :: names⟩ = List.replicate k '/' ++ joined '/' (n :: names) :=
      if_neg (by simp)
    have hkept : (n :: names).filter (fun n => n != [] && n != ['.']) = n :: names :=
      List.filter_eq_self.mpr fun m hm => by simp [h.ne_nil m hm, h.ne_here m hm]
    have hdropped : (List.replicate k ([] : Text)).filter (fun n => n != [] && n != ['.']) = [] :=
      List.filter_eq_nil_iff.mpr fun m hm => by simp [List.eq_of_mem_replicate hm]
    rw [htext, ofText, leadingSlashes_append h.slashes hhead, pieces_replicate,
      pieces_joined (List.cons_ne_nil n names) h.slash_not_mem, List.filter_append, hdropped, hkept,
      List.nil_append]

theorem Normal.text_inj (hp : p.Normal) (hq : q.Normal) (h : p.text = q.text) : p = q := by
  rw [← hp.ofText_text, h, hq.ofText_text]

end MarkdownFences.Path
