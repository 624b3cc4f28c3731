namespace MarkdownFences

variable {α : Type}

def tally (count : α → Nat) : List α → Nat
  | [] => 0
  | x :: xs => count x + tally count xs

theorem tally_append (count : α → Nat) (xs ys : List α) :
    tally count (xs ++ ys) = tally count xs + tally count ys := by
  induction xs with
  | nil => simp [tally]
  | cons x xs ih =>
    rw [List.cons_append, tally, tally, ih]
    omega

end MarkdownFences
