namespace MarkdownFences

variable {α κ : Type} [DecidableEq κ]

/-- Adds an item to those of its key, or opens its key at the end. -/
def addBy (key : α → κ) (x : α) : List (κ × List α) → List (κ × List α)
  | [] => [(key x, [x])]
  | (k, xs) :: rest =>
    if k = key x then (k, xs ++ [x]) :: rest else (k, xs) :: addBy key x rest

def collectBy (key : α → κ) (xs : List α) : List (κ × List α) :=
  xs.foldl (fun groups x => addBy key x groups) []

end MarkdownFences
