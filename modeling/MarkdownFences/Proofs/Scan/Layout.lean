import MarkdownFences.Scan

namespace MarkdownFences.Layout

/-! What the lines of a text are to a reader who can look at all of them at once. A line is
told by its number, counted from zero. -/

def lineAt (ls : List Text) (n : Nat) : Text := ls[n]?.getD []

def isQuad (line : Text) : Bool := Fence.isQuad (Text.trim line)

/-- The lines before one that begin or end a literal example. -/
def quadsBefore (ls : List Text) (n : Nat) : Nat := (ls.take n).countP isQuad

/-- A line outside all literal examples and not at the edge of one. -/
def isVisible (ls : List Text) (n : Nat) : Bool :=
  !isQuad (lineAt ls n) && quadsBefore ls n % 2 == 0

def isFence (ls : List Text) (n : Nat) : Bool :=
  isVisible ls n && Fence.isFence (Text.trim (lineAt ls n))

/-- The fences before a line, in order. -/
def fencesBefore (ls : List Text) (n : Nat) : List Nat := (List.range n).filter (isFence ls)

def fences (ls : List Text) : List Nat := fencesBefore ls ls.length

/-- The first and the second, the third and the fourth, and so on. -/
def pairs : List Nat → List (Nat × Nat)
  | i :: j :: r => (i, j) :: pairs r
  | _ => []

/-- The visible lines after one line and before another. -/
def body (ls : List Text) (i j : Nat) : List Text :=
  ((List.range j).filter fun n => i < n && isVisible ls n).map (lineAt ls)

def content (ls : List Text) (i j : Nat) : Text := Text.unlines (body ls i j)

def tagAt (ls : List Text) (n : Nat) : Option Text := Fence.tag (Text.trim (lineAt ls n))

/-- The block between two fences. -/
def block (file : Path) (ls : List Text) (p : Nat × Nat) : Block :=
  ⟨file, p.1, p.2, content ls p.1 p.2, tagAt ls p.1⟩

def blocks (file : Path) (ls : List Text) : List Block := (pairs (fences ls)).map (block file ls)

def missing (b : Block) : StructuralIssue where
  kind := .missingLanguage
  file := b.file
  line := b.openLine + 1
  endLine := some (b.closeLine + 1)
  content := some b.content
  message := none
  openLine := some b.openLine

/-- Backticks outside all blocks on a line that is no fence. -/
def isMalformed (ls : List Text) (n : Nat) : Bool :=
  isVisible ls n && !isFence ls n && Text.occursIn Fence.mark (lineAt ls n) &&
    (fencesBefore ls n).length % 2 == 0

def malformed (file : Path) (n : Nat) : StructuralIssue where
  kind := .malformedFence
  file
  line := n + 1
  endLine := none
  content := none
  message := some "Code fence not at start of line".toList
  openLine := none

/-- A block without a tag is told of at its closing fence. -/
def issuesAt (file : Path) (ls : List Text) (n : Nat) : List StructuralIssue :=
  ((blocks file ls).filter fun b => b.closeLine == n && b.tag.isNone).map missing ++
    if isMalformed ls n then [malformed file n] else []

/-- The last fence of an odd number opens a block that nothing closes. -/
def unclosed (file : Path) (ls : List Text) : List StructuralIssue :=
  if (fences ls).length % 2 = 0 then []
  else (fences ls).getLast?.toList.map fun i : Nat =>
    { kind := .unclosedBlock
      file
      line := i + 1
      endLine := some (Scan.lastLine ls)
      content := some (content ls i ls.length)
      message := some "Code block not closed".toList
      openLine := some i }

def issues (file : Path) (ls : List Text) : List StructuralIssue :=
  (List.range ls.length).flatMap (issuesAt file ls) ++ unclosed file ls

/-! How the notions change from one line to the next. -/

section Next

variable {ls rest : List Text} {line : Text} {n : Nat}

theorem lineAt_of_drop (h : ls.drop n = line :: rest) : lineAt ls n = line := by
  rw [lineAt, ← List.head?_drop, h]
  rfl

theorem drop_of_drop (h : ls.drop n = line :: rest) : ls.drop (n + 1) = rest := by
  rw [← List.tail_drop, h]
  rfl

theorem lt_of_drop (h : ls.drop n = line :: rest) : n < ls.length := by
  apply Nat.lt_of_not_le
  intro hn
  rw [List.drop_of_length_le hn] at h
  cases h

theorem quadsBefore_succ (h : ls.drop n = line :: rest) :
    quadsBefore ls (n + 1) = quadsBefore ls n + if isQuad line then 1 else 0 := by
  have hn := lt_of_drop h
  have hl : ls[n] = line := by
    have hc := List.drop_eq_getElem_cons hn
    rw [h] at hc
    exact (List.cons.inj hc).1.symm
  rw [quadsBefore, List.take_add_one, List.getElem?_eq_getElem hn, hl]
  simp [quadsBefore, List.countP_append, List.countP_singleton]

theorem quadsBefore_succ_odd (h : ls.drop n = line :: rest) :
    (quadsBefore ls (n + 1) % 2 == 1) = ((quadsBefore ls n % 2 == 1) ^^ isQuad line) := by
  rw [quadsBefore_succ h]
  cases isQuad line with
  | false => simp
  | true =>
    obtain h0 | h1 := Nat.mod_two_eq_zero_or_one (quadsBefore ls n) <;> simp [Nat.add_mod, *]

theorem isVisible_eq (ls : List Text) (n : Nat) :
    isVisible ls n = (!isQuad (lineAt ls n) && !(quadsBefore ls n % 2 == 1)) := by
  obtain h0 | h1 := Nat.mod_two_eq_zero_or_one (quadsBefore ls n) <;> simp [isVisible, *]

theorem fencesBefore_succ (n : Nat) :
    fencesBefore ls (n + 1) = fencesBefore ls n ++ if isFence ls n then [n] else [] := by
  simp only [fencesBefore, List.range_succ, List.filter_append, List.filter_cons, List.filter_nil]

theorem body_succ {i : Nat} (h : i < n) :
    body ls i (n + 1) = body ls i n ++ if isVisible ls n then [lineAt ls n] else [] := by
  simp only [body, List.range_succ, List.filter_append, List.map_append, List.filter_cons,
    List.filter_nil, h, decide_true, Bool.true_and]
  split <;> rfl

theorem body_self (n : Nat) : body ls n (n + 1) = [] := by
  have h : (List.range (n + 1)).filter (fun m => n < m && isVisible ls m) = [] := by
    simp only [List.filter_eq_nil_iff, List.mem_range]
    intro m hm
    simp [Nat.not_lt.mpr (Nat.le_of_lt_succ hm)]
  rw [body, h, List.map_nil]

end Next

theorem mem_fencesBefore {ls : List Text} {i n : Nat} :
    i ∈ fencesBefore ls n ↔ i < n ∧ isFence ls i = true := by
  simp [fencesBefore]

def fencesFrom (ls : List Text) (n : Nat) : List Nat :=
  (List.range' n (ls.length - n)).filter (isFence ls)

theorem range_from {ls : List Text} {n : Nat} (h : n < ls.length) :
    List.range' n (ls.length - n) = n :: List.range' (n + 1) (ls.length - (n + 1)) := by
  have hl : ls.length - n = (ls.length - (n + 1)) + 1 := by omega
  rw [hl, List.range'_succ]

theorem fencesFrom_step {ls : List Text} {n : Nat} (h : n < ls.length) :
    fencesFrom ls n = (if isFence ls n then [n] else []) ++ fencesFrom ls (n + 1) := by
  rw [fencesFrom, range_from h, List.filter_cons]
  split <;> rfl

theorem fences_eq_append {ls : List Text} {n : Nat} (h : n ≤ ls.length) :
    fences ls = fencesBefore ls n ++ fencesFrom ls n := by
  have hr : List.range ls.length = List.range n ++ List.range' n (ls.length - n) := by
    have ha := List.range'_append_1 (s := 0) (m := n) (n := ls.length - n)
    rw [Nat.zero_add, Nat.add_sub_cancel' h] at ha
    rw [List.range_eq_range', List.range_eq_range', ha]
  rw [fences, fencesBefore, hr, List.filter_append]
  rfl

theorem le_of_mem_fencesFrom {ls : List Text} {i n : Nat} (h : i ∈ fencesFrom ls n) : n ≤ i :=
  (List.mem_range'_1.mp (List.mem_filter.mp h).1).1

theorem pairs_append {xs : List Nat} (h : xs.length % 2 = 0) (ys : List Nat) :
    pairs (xs ++ ys) = pairs xs ++ pairs ys := by
  fun_induction pairs xs with
  | case1 i j r ih =>
    have hr : r.length % 2 = 0 := by
      simp only [List.length_cons] at h
      omega
    simp [pairs, ih hr]
  | case2 xs hx =>
    cases xs with
    | nil => rfl
    | cons i r =>
      cases r with
      | nil => simp at h
      | cons j r => exact absurd rfl (hx i j r)

theorem snd_mem_of_mem_pairs {xs : List Nat} {p : Nat × Nat} (h : p ∈ pairs xs) :
    p.2 ∈ xs.tail := by
  fun_induction pairs xs with
  | case1 i j r ih =>
    obtain rfl | hp := List.mem_cons.mp h
    · exact List.mem_cons_self
    · exact List.mem_cons_of_mem j (List.mem_of_mem_tail (ih hp))
  | case2 xs hx => cases h

section Closing

variable {file : Path} {ls : List Text} {n : Nat}

theorem closing_before {xs : List Nat} (h : ∀ i ∈ xs, i ≠ n) :
    ((pairs xs).map (block file ls)).filter (fun b => b.closeLine == n && b.tag.isNone) = [] := by
  simp only [List.filter_eq_nil_iff, List.mem_map]
  rintro b ⟨p, hp, rfl⟩
  have hne := h p.2 (List.mem_of_mem_tail (snd_mem_of_mem_pairs hp))
  simp [block, hne]

theorem closing_of_not_fence (h : isFence ls n = false) :
    (blocks file ls).filter (fun b => b.closeLine == n && b.tag.isNone) = [] := by
  apply closing_before
  rintro i hi rfl
  rw [(mem_fencesBefore.mp hi).2] at h
  cases h

theorem fences_at (hn : n < ls.length) (h : isFence ls n = true) :
    fences ls = fencesBefore ls n ++ (n :: fencesFrom ls (n + 1)) := by
  rw [fences_eq_append (Nat.le_of_lt hn), fencesFrom_step hn, h]
  rfl

theorem ne_of_mem_fencesBefore : ∀ i ∈ fencesBefore ls n, i ≠ n :=
  fun _ hi => Nat.ne_of_lt (mem_fencesBefore.mp hi).1

theorem ne_of_mem_fencesFrom : ∀ i ∈ fencesFrom ls (n + 1), i ≠ n :=
  fun _ hi => Nat.ne_of_gt (le_of_mem_fencesFrom hi)

theorem closing_of_opening (hn : n < ls.length) (h : isFence ls n = true)
    (hb : (fencesBefore ls n).length % 2 = 0) :
    (blocks file ls).filter (fun b => b.closeLine == n && b.tag.isNone) = [] := by
  rw [blocks, fences_at hn h, pairs_append hb, List.map_append, List.filter_append,
    closing_before ne_of_mem_fencesBefore, List.nil_append, List.filter_eq_nil_iff]
  intro b hb
  obtain ⟨p, hp, rfl⟩ := List.mem_map.mp hb
  have hne := ne_of_mem_fencesFrom p.2 (snd_mem_of_mem_pairs hp)
  simp [block, hne]

theorem closing_of_closing (hn : n < ls.length) (h : isFence ls n = true) {xs : List Nat} {i : Nat}
    (hb : fencesBefore ls n = xs ++ [i]) (hx : xs.length % 2 = 0) :
    (blocks file ls).filter (fun b => b.closeLine == n && b.tag.isNone) =
      [block file ls (i, n)].filter fun b => b.tag.isNone := by
  have hxs : ∀ j ∈ xs, j ≠ n := fun j hj =>
    ne_of_mem_fencesBefore j (by rw [hb]; exact List.mem_append_left _ hj)
  have hf : fences ls = xs ++ (i :: n :: fencesFrom ls (n + 1)) := by
    rw [fences_at hn h, hb, List.append_assoc]
    rfl
  rw [blocks, hf, pairs_append hx, List.map_append, List.filter_append, closing_before hxs,
    List.nil_append, pairs, List.map_cons, List.filter_cons, closing_before ne_of_mem_fencesFrom]
  simp [block, List.filter_cons]

end Closing

end MarkdownFences.Layout
