import MarkdownFences.Proofs.Text.Lines
import MarkdownFences.Proofs.Text.Trim
import MarkdownFences.Tag

namespace MarkdownFences.Snippet

open Text

/-- A text is read in code, in a comment up to the end of its line, or in one up to its closing
mark. -/
inductive Mode where
  | code
  | line
  | block
  deriving DecidableEq

/-- The mode that the next line begins in. -/
def Mode.next : Mode → Mode
  | line => code
  | m => m

theorem Mode.code_ne_line : code ≠ line := nofun

theorem Mode.next_ne_line (m : Mode) : m.next ≠ line := by
  cases m <;> nofun

theorem Mode.eq_code_or_block {m : Mode} (h : m ≠ line) : m = code ∨ m = block := by
  cases m with
  | code => exact .inl rfl
  | line => exact absurd rfl h
  | block => exact .inr rfl

theorem Mode.next_of_ne_line {m : Mode} (h : m ≠ line) : m.next = m := by
  obtain rfl | rfl := eq_code_or_block h <;> rfl

/-- What a text holds outside comments but for white space, what follows each closing mark in it,
and the mode that it ends in. -/
structure Reading where
  bare : Text
  closed : List Text
  mode : Mode
  deriving DecidableEq

namespace Reading

def see (c : Char) (x : Reading) : Reading :=
  if isBlank c then x else { x with bare := c :: x.bare }

def close (t : Text) (x : Reading) : Reading := { x with closed := t :: x.closed }

variable {c : Char} {t : Text} {x : Reading}

theorem see_of_isBlank (h : isBlank c = true) : x.see c = x := if_pos h

@[simp]
theorem closed_see : (x.see c).closed = x.closed := by
  rw [see]
  split <;> rfl

@[simp]
theorem mode_see : (x.see c).mode = x.mode := by
  rw [see]
  split <;> rfl

theorem bare_suffix_see : x.bare <:+ (x.see c).bare := by
  rw [see]
  split
  · exact List.suffix_refl _
  · exact List.suffix_cons c x.bare

theorem isBlank_of_bare_see (h : (x.see c).bare = []) : isBlank c = true := by
  rw [see] at h
  split at h
  case isTrue hc => exact hc
  case isFalse => cases h

theorem bare_see : (x.see c).bare = if isBlank c then x.bare else c :: x.bare := by
  rw [see]
  split <;> rfl

@[simp]
theorem closed_close : (x.close t).closed = t :: x.closed := rfl

end Reading

/-- Two slashes open a comment up to the end of the line, a slash and an asterisk one up to the next
closing mark, or up to the end of the text if there is none. -/
def reading : Mode → Text → Reading
  | m, [] => ⟨[], [], m⟩
  | .code, [c] => (reading .code []).see c
  | .code, c :: d :: t =>
    if c = '/' ∧ d = '/' then reading .line t
    else if c = '/' ∧ d = '*' then reading .block t
    else (reading .code (d :: t)).see c
  | .line, c :: t => reading (if c = '\n' then .code else .line) t
  | .block, [_] => reading .block []
  | .block, c :: d :: t =>
    if c = '*' ∧ d = '/' then (reading .code t).close t else reading .block (d :: t)

/-- White space apart, all of the text is in comments. -/
def IsComments (t : Text) : Prop := (reading .code t).bare = []

/-- On the line of a closing mark nothing behind it is bare. -/
def ClosesClean (t : Text) : Prop :=
  ∀ b ∈ (reading .code t).closed, (reading .code (firstLine b)).bare = []

/-- On the line of a closing mark no line comment is behind it. -/
def ClosesUnremarked (t : Text) : Prop :=
  ∀ b ∈ (reading .code t).closed, (reading .code (firstLine b)).mode ≠ .line

variable {c : Char} {m : Mode} {b l s t u : Text} {ls : List Text}

theorem reading_code_cons (h : c = '/' → t.head? ≠ some '/' ∧ t.head? ≠ some '*') :
    reading .code (c :: t) = (reading .code t).see c := by
  cases t with
  | nil => rfl
  | cons d t =>
    have hslash : ¬ (c = '/' ∧ d = '/') := fun ⟨hc, hd⟩ => (h hc).1 (congrArg some hd)
    have hasterisk : ¬ (c = '/' ∧ d = '*') := fun ⟨hc, hd⟩ => (h hc).2 (congrArg some hd)
    rw [reading, if_neg hslash, if_neg hasterisk]

theorem reading_block_cons (h : c = '*' → t.head? ≠ some '/') :
    reading .block (c :: t) = reading .block t := by
  cases t with
  | nil => rfl
  | cons d t => rw [reading, if_neg fun ⟨hc, hd⟩ => h hc (congrArg some hd)]

theorem reading_blank_append (hm : m ≠ .line) (hu : ∀ c ∈ u, isBlank c = true) (t : Text) :
    reading m (u ++ t) = reading m t := by
  induction u with
  | nil => rfl
  | cons c u ih =>
    have hc := hu c List.mem_cons_self
    have ih := ih fun d hd => hu d (List.mem_cons_of_mem c hd)
    obtain rfl | rfl := Mode.eq_code_or_block hm
    · rw [List.cons_append, reading_code_cons fun h => absurd h (ne_of_isBlank hc rfl),
        Reading.see_of_isBlank hc, ih]
    · rw [List.cons_append, reading_block_cons fun h => absurd h (ne_of_isBlank hc rfl), ih]

theorem reading_blank (hm : m ≠ .line) (hu : ∀ c ∈ u, isBlank c = true) :
    reading m u = ⟨[], [], m⟩ := by
  rw [← List.append_nil u, reading_blank_append hm hu, reading]

theorem reading_line (h : '\n' ∉ t) : reading .line t = ⟨[], [], .line⟩ := by
  induction t with
  | nil => rfl
  | cons c t ih =>
    rw [reading, if_neg (Ne.symm (List.ne_of_not_mem_cons h)), ih (List.not_mem_of_not_mem_cons h)]

theorem reading_newline (m : Mode) (t : Text) : reading m ('\n' :: t) = reading m.next t := by
  cases m with
  | code => exact reading_blank_append (u := ['\n']) Mode.code_ne_line (isVoid_iff.mp rfl) t
  | line => rw [reading, if_pos rfl, Mode.next]
  | block => exact reading_blank_append (m := .block) (u := ['\n']) nofun (isVoid_iff.mp rfl) t

def Reading.followedBy (x y : Reading) (t : Text) : Reading :=
  ⟨x.bare ++ y.bare, x.closed.map (· ++ t) ++ y.closed, y.mode⟩

theorem Reading.see_followedBy (c : Char) (x y : Reading) (t : Text) :
    (x.see c).followedBy y t = (x.followedBy y t).see c := by
  rw [see, see]
  split <;> rfl

/-- No mark is made of the last character of one text and the first of the other. -/
def Parted (s t : Text) : Prop :=
  ∀ c d, s.getLast? = some c → t.head? = some d →
    ¬ (c = '/' ∧ (d = '/' ∨ d = '*')) ∧ ¬ (c = '*' ∧ d = '/')

theorem Parted.tail (h : Parted (c :: s) t) : Parted s t := by
  intro d e hd
  refine h d e ?_
  rw [List.getLast?_cons, hd]
  rfl

theorem reading_append (h : Parted l t) (m : Mode) :
    reading m (l ++ t) = (reading m l).followedBy (reading (reading m l).mode t) t := by
  fun_induction reading m l with
  | case1 m => rfl
  | case2 c ih =>
    have hc : c = '/' → t.head? ≠ some '/' ∧ t.head? ≠ some '*' := fun hc =>
      ⟨fun hd => (h c _ rfl hd).1 ⟨hc, .inl rfl⟩, fun hd => (h c _ rfl hd).1 ⟨hc, .inr rfl⟩⟩
    rw [List.singleton_append, reading_code_cons hc, Reading.mode_see, Reading.see_followedBy]
    exact congrArg _ (ih h.tail)
  | case3 c d l hpair ih =>
    rw [List.cons_append, List.cons_append, reading, if_pos hpair]
    exact ih h.tail.tail
  | case4 c d l hline hpair ih =>
    rw [List.cons_append, List.cons_append, reading, if_neg hline, if_pos hpair]
    exact ih h.tail.tail
  | case5 c d l hline hblock ih =>
    rw [List.cons_append, List.cons_append, reading, if_neg hline, if_neg hblock, Reading.mode_see,
      Reading.see_followedBy]
    exact congrArg _ (ih h.tail)
  | case6 c l ih =>
    rw [List.cons_append, reading]
    exact ih h.tail
  | case7 c ih =>
    rw [List.singleton_append, reading_block_cons fun hc hd => (h c _ rfl hd).2 ⟨hc, rfl⟩]
    exact ih h.tail
  | case8 c d l hpair ih =>
    rw [List.cons_append, List.cons_append, reading, if_pos hpair, ih h.tail.tail]
    rfl
  | case9 c d l hpair ih =>
    rw [List.cons_append, List.cons_append, reading, if_neg hpair]
    exact ih h.tail

theorem reading_append_newline (m : Mode) (l t : Text) :
    reading m (l ++ '\n' :: t) =
      (reading m l).followedBy (reading (reading m l).mode.next t) ('\n' :: t) := by
  have hparted : Parted l ('\n' :: t) := by
    rintro c d - ⟨⟩
    simp
  rw [reading_append hparted, reading_newline]

theorem closed_cases (h : b ∈ (reading m t).closed) : (∃ x, t = x ++ '*' :: '/' :: b) ∧
    (reading .code b).bare <:+ (reading m t).bare ∧
    (reading m t).mode = (reading .code b).mode := by
  fun_induction reading m t with
  | case1 m => cases h
  | case2 c ih =>
    rw [Reading.closed_see] at h
    cases h
  | case3 c d t _ ih | case4 c d t _ _ ih =>
    obtain ⟨⟨x, rfl⟩, hread⟩ := ih h
    exact ⟨⟨c :: d :: x, rfl⟩, hread⟩
  | case5 c d t _ _ ih =>
    rw [Reading.closed_see] at h
    obtain ⟨⟨x, hx⟩, hbare, hmode⟩ := ih h
    exact ⟨⟨c :: x, congrArg _ hx⟩, hbare.trans Reading.bare_suffix_see,
      Reading.mode_see.trans hmode⟩
  | case6 c t ih =>
    obtain ⟨⟨x, rfl⟩, hread⟩ := ih h
    exact ⟨⟨c :: x, rfl⟩, hread⟩
  | case7 c ih => cases h
  | case8 c d t hclose ih =>
    obtain ⟨rfl, rfl⟩ := hclose
    rw [Reading.closed_close] at h
    obtain rfl | h := List.mem_cons.mp h
    · exact ⟨⟨[], rfl⟩, List.suffix_refl _, rfl⟩
    · obtain ⟨⟨x, rfl⟩, hread⟩ := ih h
      exact ⟨⟨_ :: _ :: x, rfl⟩, hread⟩
  | case9 c d t _ ih =>
    obtain ⟨⟨x, hx⟩, hread⟩ := ih h
    exact ⟨⟨c :: x, congrArg _ hx⟩, hread⟩

def begun : Mode → List Text → List (Mode × Text)
  | _, [] => []
  | m, l :: ls => (m, l) :: begun (reading m l).mode.next ls

theorem mem_of_mem_begun {x : Mode × Text} (h : x ∈ begun m ls) : x.2 ∈ ls := by
  induction ls generalizing m with
  | nil => cases h
  | cons l ls ih =>
    obtain rfl | h := List.mem_cons.mp h
    · exact List.mem_cons_self
    · exact List.mem_cons_of_mem l (ih h)

theorem mode_of_mem_begun {x : Mode × Text} (hm : m ≠ .line) (h : x ∈ begun m ls) :
    x.1 ≠ .line := by
  induction ls generalizing m with
  | nil => cases h
  | cons l ls ih =>
    obtain rfl | h := List.mem_cons.mp h
    · exact hm
    · exact ih (Mode.next_ne_line _) h

theorem bare_unlines (m : Mode) (ls : List Text) :
    (reading m (unlines ls)).bare = (begun m ls).flatMap fun x => (reading x.1 x.2).bare := by
  induction ls generalizing m with
  | nil => rfl
  | cons l ls ih =>
    cases ls with
    | nil => simp [begun, unlines, joined]
    | cons l' ls =>
      have ih := ih (reading m l).mode.next
      have hl := reading_append_newline m l (unlines (l' :: ls))
      rw [unlines, joined, ← unlines, hl, begun, List.flatMap_cons, ← ih]
      rfl

theorem map_closed (hl : '\n' ∉ l) (m : Mode) {f : Text → Text} (hf : ∀ b, '\n' ∉ b → f b = b) :
    (reading m l).closed.map f = (reading m l).closed := by
  refine (List.map_congr_left fun b hb => ?_).trans (List.map_id _)
  obtain ⟨⟨x, rfl⟩, -⟩ := closed_cases hb
  exact hf b fun h => hl (by simp [h])

theorem closed_unlines (h : ∀ l ∈ ls, '\n' ∉ l) (m : Mode) :
    (reading m (unlines ls)).closed.map firstLine =
      (begun m ls).flatMap fun x => (reading x.1 x.2).closed := by
  induction ls generalizing m with
  | nil => rfl
  | cons l ls ih =>
    have hl := h l List.mem_cons_self
    cases ls with
    | nil =>
      have hlast := map_closed hl m fun b hb => firstLine_of_not_mem hb
      simp [begun, unlines, joined, hlast]
    | cons l' ls =>
      have ih := ih (fun k hk => h k (List.mem_cons_of_mem l hk)) (reading m l).mode.next
      have hread := reading_append_newline m l (unlines (l' :: ls))
      have hthis := map_closed hl m fun b hb => firstLine_append_newline hb (unlines (l' :: ls))
      rw [unlines, joined, ← unlines, hread, begun, List.flatMap_cons, ← ih, Reading.followedBy,
        List.map_append, List.map_map]
      exact congrArg (· ++ _) hthis

def codeLines (t : Text) : List Text :=
  (((begun .code (lines t)).filter (·.1 = .code)).map fun x => trim x.2).filter (· ≠ [])

theorem mem_codeLines : s ∈ codeLines t ↔
    s ≠ [] ∧ ∃ l, (.code, l) ∈ begun .code (lines t) ∧ trim l = s := by
  simp only [codeLines, List.mem_filter, List.mem_map, Prod.exists, decide_eq_true_eq]
  constructor
  · rintro ⟨⟨m, l, ⟨h, rfl⟩, rfl⟩, hs⟩
    exact ⟨hs, l, h, rfl⟩
  · rintro ⟨hs, l, h, rfl⟩
    exact ⟨⟨_, l, ⟨h, rfl⟩, rfl⟩, hs⟩

theorem isComments_iff_begun :
    IsComments t ↔ ∀ x ∈ begun .code (lines t), (reading x.1 x.2).bare = [] := by
  have h := bare_unlines .code (lines t)
  rw [unlines_lines] at h
  rw [IsComments, h, List.flatMap_eq_nil_iff]

theorem forall_closed_iff {P : Text → Prop} :
    (∀ b ∈ (reading .code t).closed, P (firstLine b)) ↔
      ∀ x ∈ begun .code (lines t), ∀ b ∈ (reading x.1 x.2).closed, P b := by
  have h := closed_unlines (fun _ => not_mem_of_mem_lines (t := t)) .code
  rw [unlines_lines] at h
  rw [← List.forall_mem_map, h]
  simp only [List.mem_flatMap, forall_exists_index, and_imp]
  exact ⟨fun hb x hx b => hb b x hx, fun hb b x hx => hb x hx b⟩

theorem reading_block (t : Text) : reading .block t = ⟨[], [], .block⟩ ∨
    ∃ x b, t = x ++ '*' :: '/' :: b ∧ reading .block t = (reading .code b).close b := by
  induction t with
  | nil => exact .inl rfl
  | cons c t ih =>
    by_cases hclose : c = '*' ∧ t.head? = some '/'
    · obtain ⟨rfl, ht⟩ := hclose
      obtain ⟨b, rfl⟩ := List.head?_eq_some_iff.mp ht
      exact .inr ⟨[], b, rfl, by rw [reading, if_pos ⟨rfl, rfl⟩]⟩
    · rw [reading_block_cons fun hc ht => hclose ⟨hc, ht⟩]
      obtain hopen | ⟨x, b, rfl, hread⟩ := ih
      · exact .inl hopen
      · exact .inr ⟨c :: x, b, rfl, hread⟩

/-- A line without bare characters that leaves off in code is void or has a closing mark, the last
one with only white space behind it. -/
theorem exists_closing (hl : '\n' ∉ l) (hbare : (reading m l).bare = [])
    (hmode : (reading m l).mode = .code) :
    m = .code ∧ isVoid l = true ∨ ∃ x b, l = x ++ '*' :: '/' :: b ∧ isVoid b = true := by
  fun_induction reading m l with
  | case1 m => exact .inl ⟨hmode, rfl⟩
  | case2 c ih =>
    have hc := Reading.isBlank_of_bare_see hbare
    exact .inl ⟨rfl, by simp [isVoid, hc]⟩
  | case3 c d l _ ih =>
    have hl : '\n' ∉ l := fun hmem => hl (by simp [hmem])
    rw [reading_line hl] at hmode
    cases hmode
  | case4 c d l _ _ ih =>
    obtain ⟨hm, -⟩ | ⟨x, b, rfl, hb⟩ := ih (fun hmem => hl (by simp [hmem])) hbare hmode
    · cases hm
    · exact .inr ⟨c :: d :: x, b, rfl, hb⟩
  | case5 c d l _ _ ih =>
    have hc := Reading.isBlank_of_bare_see hbare
    rw [Reading.see_of_isBlank hc] at hbare hmode
    obtain ⟨-, hvoid⟩ | ⟨x, b, hx, hb⟩ := ih (List.not_mem_of_not_mem_cons hl) hbare hmode
    · exact .inl ⟨rfl, by rw [isVoid, List.all_cons, hc, ← isVoid, hvoid]; rfl⟩
    · exact .inr ⟨c :: x, b, congrArg _ hx, hb⟩
  | case6 c l ih =>
    rw [if_neg (Ne.symm (List.ne_of_not_mem_cons hl)),
      reading_line (List.not_mem_of_not_mem_cons hl)] at hmode
    cases hmode
  | case7 c ih => cases hmode
  | case8 c d l hclose ih =>
    obtain ⟨rfl, rfl⟩ := hclose
    obtain ⟨-, hvoid⟩ | ⟨x, b, rfl, hb⟩ := ih (fun hmem => hl (by simp [hmem])) hbare hmode
    · exact .inr ⟨[], l, rfl, hvoid⟩
    · exact .inr ⟨_ :: _ :: x, b, rfl, hb⟩
  | case9 c d l _ ih =>
    obtain ⟨hm, -⟩ | ⟨x, b, hx, hb⟩ := ih (List.not_mem_of_not_mem_cons hl) hbare hmode
    · cases hm
    · exact .inr ⟨c :: x, b, congrArg _ hx, hb⟩

theorem endsComment_trim (hb : isVoid b = true) (x : Text) :
    endsComment (trim (x ++ '*' :: '/' :: b)) = true := by
  have hmark : ∃ y, trimLeft (x ++ ['*', '/']) = y ++ ['*', '/'] := by
    rw [trimLeft, List.dropWhile_append]
    split
    case isTrue => exact ⟨[], rfl⟩
    case isFalse => exact ⟨_, rfl⟩
  obtain ⟨y, hy⟩ := hmark
  have htrim : trim (x ++ '*' :: '/' :: b) = y ++ ['*', '/'] := by
    rw [List.append_cons, List.append_cons, trim_append (isVoid_iff.mp hb), List.append_assoc]
    change trimRight (trimLeft (x ++ ['*', '/'])) = _
    rw [hy, List.append_cons]
    exact dropEnding_concat rfl
  rw [htrim, endsComment]
  exact List.isSuffixOf_iff_suffix.mpr (List.suffix_append y _)

def OpensComment (l : Text) : Prop := "//".toList <+: l ∨ "/*".toList <+: l

theorem pair_isPrefix_cons {d e : Char} : [d, e] <+: c :: t ↔ c = d ∧ t.head? = some e := by
  rw [List.cons_prefix_cons, eq_comm]
  cases t <;> simp [eq_comm]

theorem bare_block_iff : (reading .block l).bare = [] ↔
    ∀ b ∈ (reading .block l).closed, (reading .code b).bare = [] := by
  constructor
  · intro h b hb
    have hsuffix := (closed_cases hb).2.1
    rwa [h, List.suffix_nil] at hsuffix
  · intro h
    obtain hread | ⟨x, b, -, hread⟩ := reading_block l
    · rw [hread]
    · rw [hread] at h ⊢
      exact h b List.mem_cons_self

theorem reading_opened (hu : ∀ c ∈ u, isBlank c = true) (t : Text) :
    reading .code (u ++ '/' :: '*' :: t) = reading .block t := by
  rw [reading_blank_append Mode.code_ne_line hu, reading, if_neg (by decide), if_pos ⟨rfl, rfl⟩]

theorem reading_remark (hl : '\n' ∉ l) (h : "//".toList <+: trim l) :
    reading .code l = ⟨[], [], .line⟩ := by
  obtain ⟨front, t, hf, hopen⟩ := exists_of_prefix_trim h
  replace hopen : l = front ++ '/' :: '/' :: t := hopen
  have ht : '\n' ∉ t := fun hmem => hl (by simp [hopen, hmem])
  rw [hopen, reading_blank_append Mode.code_ne_line hf, reading, if_pos ⟨rfl, rfl⟩, reading_line ht]

theorem bare_code_iff (hl : '\n' ∉ l) (hne : trim l ≠ []) : (reading .code l).bare = [] ↔
    OpensComment (trim l) ∧ ∀ b ∈ (reading .code l).closed, (reading .code b).bare = [] := by
  obtain ⟨c, s, hs⟩ := List.exists_cons_of_ne_nil hne
  have hblank := isBlank_head_trim hs
  obtain ⟨front, ending, hf, he, ht⟩ := exists_trim l
  rw [hs] at ht
  rw [OpensComment, hs]
  change _ ↔ (['/', '/'] <+: c :: s ∨ ['/', '*'] <+: c :: s) ∧ _
  rw [pair_isPrefix_cons, pair_isPrefix_cons]
  by_cases hline : c = '/' ∧ s.head? = some '/'
  · obtain ⟨rfl, hd⟩ := hline
    rw [reading_remark hl (hs ▸ pair_isPrefix_cons.mpr ⟨rfl, hd⟩)]
    exact iff_of_true rfl ⟨.inl ⟨rfl, hd⟩, nofun⟩
  · by_cases hopen : c = '/' ∧ s.head? = some '*'
    · obtain ⟨rfl, hd⟩ := hopen
      obtain ⟨s, rfl⟩ := List.head?_eq_some_iff.mp hd
      rw [ht, List.cons_append, List.cons_append, reading_opened hf, bare_block_iff]
      exact (and_iff_right (.inr ⟨rfl, rfl⟩)).symm
    · refine iff_of_false ?_ fun h => not_or.mpr ⟨hline, hopen⟩ h.1
      have hcons : c = '/' → (s ++ ending).head? ≠ some '/' ∧ (s ++ ending).head? ≠ some '*' := by
        intro hc
        cases s with
        | nil =>
          have hend (d : Char) (hd : isBlank d = false) : ending.head? ≠ some d := fun hhead =>
            ne_of_isBlank (he d (List.mem_of_head? hhead)) hd rfl
          exact ⟨hend '/' rfl, hend '*' rfl⟩
        | cons d s => exact ⟨fun hd => hline ⟨hc, hd⟩, fun hd => hopen ⟨hc, hd⟩⟩
      rw [ht, reading_blank_append Mode.code_ne_line hf, List.cons_append, reading_code_cons hcons,
        Reading.bare_see, hblank]
      nofun

/-- A text consists of comments exactly if one opens on each line that begins outside comments and
nothing bare is behind a closing mark. -/
theorem isComments_iff :
    IsComments t ↔ (∀ l ∈ codeLines t, OpensComment l) ∧ ClosesClean t := by
  have hclean : ClosesClean t ↔ _ := forall_closed_iff (P := fun b => (reading .code b).bare = [])
  rw [isComments_iff_begun, hclean]
  constructor
  · intro hbare
    constructor
    · intro s hs
      obtain ⟨hne, l, hl, rfl⟩ := mem_codeLines.mp hs
      exact ((bare_code_iff (not_mem_of_mem_lines (mem_of_mem_begun hl)) hne).mp (hbare _ hl)).1
    · intro x hx b hb
      have hsuffix := (closed_cases hb).2.1
      rwa [hbare x hx, List.suffix_nil] at hsuffix
  · rintro ⟨hopens, hclean⟩ ⟨m, l⟩ hl
    obtain rfl | rfl : m = .code ∨ m = .block :=
      Mode.eq_code_or_block (mode_of_mem_begun Mode.code_ne_line hl)
    · by_cases hne : trim l = []
      · exact congrArg _ (reading_blank Mode.code_ne_line (isBlank_of_trim_eq_nil hne))
      · exact (bare_code_iff (not_mem_of_mem_lines (mem_of_mem_begun hl)) hne).mpr
          ⟨hopens _ (mem_codeLines.mpr ⟨hne, l, hl, rfl⟩), hclean _ hl⟩
    · exact bare_block_iff.mpr (hclean _ hl)

/-- The line begins in a block comment or opens one. -/
def Within (m : Mode) (l : Text) : Prop := m = .block ∨ m = .code ∧ "/*".toList <+: trim l

theorem Within.mode_ne_line (hm : Within m l)
    (h : ∀ b ∈ (reading m l).closed, (reading .code b).mode ≠ .line) :
    (reading m l).mode ≠ .line := by
  have hblock {t : Text} (h : ∀ b ∈ (reading .block t).closed, (reading .code b).mode ≠ .line) :
      (reading .block t).mode ≠ .line := by
    obtain hread | ⟨x, b, -, hread⟩ := reading_block t
    · rw [hread]
      nofun
    · rw [hread] at h ⊢
      exact h b List.mem_cons_self
  obtain rfl | ⟨rfl, hopen⟩ := hm
  · exact hblock h
  · obtain ⟨front, t, hf, rfl⟩ := exists_of_prefix_trim hopen
    change ∀ b ∈ (reading .code (front ++ '/' :: '*' :: t)).closed, _ at h
    change (reading .code (front ++ '/' :: '*' :: t)).mode ≠ .line
    rw [reading_opened hf] at h ⊢
    exact hblock h

theorem Mode.eq_code_of_next (h : m.next = .code) (hm : m ≠ .line) : m = .code :=
  (next_of_ne_line hm).symm.trans h

theorem Within.endsComment (hm : Within m l) (hl : '\n' ∉ l) (hbare : (reading m l).bare = [])
    (h : ∀ b ∈ (reading m l).closed, (reading .code b).mode ≠ .line)
    (hnext : (reading m l).mode.next = .code) : endsComment (trim l) = true := by
  have hmode := Mode.eq_code_of_next hnext (hm.mode_ne_line h)
  obtain ⟨rfl, hvoid⟩ | ⟨x, b, rfl, hb⟩ := exists_closing hl hbare hmode
  · obtain hm | ⟨-, hopen⟩ := hm
    · cases hm
    · rw [trim_eq_nil (isVoid_iff.mp hvoid)] at hopen
      cases List.prefix_nil.mp hopen
  · exact endsComment_trim hb x

theorem Within.next_eq_code (hm : Within m l) (hl : '\n' ∉ l) (hbare : (reading m l).bare = [])
    (h : ∀ b ∈ (reading m l).closed, (reading .code b).mode ≠ .line)
    (hends : Snippet.endsComment (trim l) = true) (hover : ¬ "/*/".toList <:+ trim l) :
    (reading m l).mode.next = .code := by
  have hline := hm.mode_ne_line h
  obtain ⟨y, hy⟩ := List.isSuffixOf_iff_suffix.mp hends
  obtain ⟨front, ending, hf, he, hsplit⟩ := exists_trim l
  replace hsplit : l = (front ++ y) ++ '*' :: '/' :: ending := by
    rw [hsplit, ← hy, List.append_assoc, List.append_assoc]
    rfl
  -- no slash stands before the asterisk, so the mark is read on its own
  have hparted : Parted (front ++ y) ('*' :: '/' :: ending) := by
    rintro c d hc ⟨⟩
    refine ⟨?_, by simp⟩
    rintro ⟨rfl, -⟩
    rw [List.getLast?_append, Option.or_eq_some_iff] at hc
    obtain hc | ⟨-, hc⟩ := hc
    · obtain ⟨y', rfl⟩ := List.getLast?_eq_some_iff.mp hc
      exact hover ⟨y', by rw [← hy, List.append_assoc]; rfl⟩
    · exact ne_of_isBlank (d := '/') (hf _ (List.mem_of_getLast? hc)) rfl rfl
  rw [hsplit, reading_append hparted] at hbare hline ⊢
  cases hmode : (reading m (front ++ y)).mode with
  | code =>
    have hmark : reading .code ('*' :: '/' :: ending) = (reading .code ('/' :: ending)).see '*' :=
      reading_code_cons (by simp)
    rw [hmode, hmark] at hbare
    cases (List.append_eq_nil_iff.mp hbare).2
  | line =>
    have hrest : '\n' ∉ '*' :: '/' :: ending :=
      fun hmem => hl (hsplit ▸ List.mem_append_right _ hmem)
    rw [hmode, reading_line hrest] at hline
    exact absurd rfl hline
  | block =>
    have hmark : reading .block ('*' :: '/' :: ending) = ⟨[], [ending], .code⟩ := by
      rw [reading, if_pos ⟨rfl, rfl⟩, reading_blank Mode.code_ne_line he]
      rfl
    rw [Reading.followedBy, hmark]
    rfl

theorem Within.not_endsComment (hm : Within m l) (hl : '\n' ∉ l) (hbare : (reading m l).bare = [])
    (h : ∀ b ∈ (reading m l).closed, (reading .code b).mode ≠ .line)
    (hover : ¬ "/*/".toList <:+ trim l) :
    (!Snippet.endsComment (trim l)) = decide ((reading m l).mode.next = .block) := by
  have hends := hm.endsComment hl hbare h
  have hcode := hm.next_eq_code hl hbare h
  cases he : Snippet.endsComment (trim l) with
  | true => simp [hcode he hover]
  | false =>
    obtain hnext | hnext := Mode.eq_code_or_block (Mode.next_ne_line (reading m l).mode)
    · cases (hends hnext).symm.trans he
    · simp [hnext]

/-- What is accepted as comments from a line on opens one on it, if it begins outside, and has been
accepted from the next line on. The recogniser may take a block comment for closed that is open, but
not the other way round. -/
theorem opensComment_of_step {inBlock : Bool} (hl : '\n' ∉ l) (hm : m ≠ .line)
    (hin : m = .code → inBlock = false)
    (hclosed : ∀ b ∈ (reading m l).closed,
      (reading .code b).bare = [] ∧ (reading .code b).mode ≠ .line)
    (h : commentLines inBlock (((l :: ls).map trim).filter (· != [])) = true) :
    (m = .code → trim l ≠ [] → OpensComment (trim l)) ∧
      ∃ later, ((reading m l).mode.next = .code → later = false) ∧
        commentLines later ((ls.map trim).filter (· != [])) = true := by
  have hclean := fun b hb => (hclosed b hb).1
  have hends (hm : Within m l) (hbare : (reading m l).bare = []) :=
    hm.endsComment hl hbare fun b hb => (hclosed b hb).2
  by_cases hvoid : trim l = []
  · rw [List.map_cons, List.filter_cons_of_neg (by simp [hvoid])] at h
    rw [reading_blank hm (isBlank_of_trim_eq_nil hvoid)]
    exact ⟨fun _ hne => absurd hvoid hne, inBlock,
      fun hnext => hin (Mode.eq_code_of_next hnext hm), h⟩
  · rw [List.map_cons, List.filter_cons_of_pos (by simpa using hvoid)] at h
    cases inBlock with
    | true =>
      obtain rfl | rfl := Mode.eq_code_or_block hm
      · cases hin rfl
      · refine ⟨nofun, _, fun hnext => ?_, h⟩
        rw [hends (.inl rfl) (bare_block_iff.mpr hclean) hnext, Bool.not_true]
    | false =>
      rw [commentLines] at h
      split at h
      case isTrue hopen =>
        have hopen := List.isPrefixOf_iff_prefix.mp hopen
        refine ⟨fun _ _ => .inr hopen, _, fun hnext => ?_, h⟩
        obtain rfl | rfl := Mode.eq_code_or_block hm
        · have hbare := (bare_code_iff hl hvoid).mpr ⟨.inr hopen, hclean⟩
          rw [hends (.inr ⟨rfl, hopen⟩) hbare hnext, Bool.not_true]
        · rw [hends (.inl rfl) (bare_block_iff.mpr hclean) hnext, Bool.not_true]
      case isFalse =>
        rw [Bool.and_eq_true] at h
        exact ⟨fun _ _ => .inl (List.isPrefixOf_iff_prefix.mp h.1), false, fun _ => rfl, h.2⟩

/-- What is accepted as comments opens a comment on each line that begins outside one, if behind
closing marks there are only white space and block comments. -/
theorem opensComment_of_commentLines {inBlock : Bool} (hnl : ∀ l ∈ ls, '\n' ∉ l) (hm : m ≠ .line)
    (hin : m = .code → inBlock = false)
    (hclosed : ∀ x ∈ begun m ls, ∀ b ∈ (reading x.1 x.2).closed,
      (reading .code b).bare = [] ∧ (reading .code b).mode ≠ .line)
    (h : commentLines inBlock ((ls.map trim).filter (· != [])) = true) :
    ∀ x ∈ begun m ls, x.1 = .code → trim x.2 ≠ [] → OpensComment (trim x.2) := by
  induction ls generalizing m inBlock with
  | nil => nofun
  | cons l ls ih =>
    obtain ⟨hopens, later, hlater, hrest⟩ :=
      opensComment_of_step (hnl l List.mem_cons_self) hm hin (hclosed _ List.mem_cons_self) h
    intro x hx
    obtain rfl | hx := List.mem_cons.mp hx
    · exact hopens
    · exact ih (fun k hk => hnl k (List.mem_cons_of_mem l hk)) (Mode.next_ne_line _) hlater
        (fun y hy => hclosed y (List.mem_cons_of_mem _ hy)) hrest x hx

/-- Comments are accepted as such: the recogniser keeps track of whether a block comment is open. -/
theorem commentLines_of_bare (hnl : ∀ l ∈ ls, '\n' ∉ l) (hm : m ≠ .line)
    (hbare : ∀ x ∈ begun m ls, (reading x.1 x.2).bare = [])
    (hclosed : ∀ x ∈ begun m ls, ∀ b ∈ (reading x.1 x.2).closed, (reading .code b).mode ≠ .line)
    (hover : ∀ l ∈ ls, ¬ "/*/".toList <:+ trim l) :
    commentLines (decide (m = .block)) ((ls.map trim).filter (· != [])) = true := by
  -- on the lines; what the recogniser keeps track of is the mode that the next line begins in
  induction ls generalizing m with
  | nil => rfl
  | cons l ls ih =>
    have hl := hnl l List.mem_cons_self
    have hthis : (reading m l).bare = [] := hbare _ List.mem_cons_self
    have hrest := ih (fun k hk => hnl k (List.mem_cons_of_mem l hk)) (Mode.next_ne_line _)
      (fun y hy => hbare y (List.mem_cons_of_mem _ hy))
      (fun y hy => hclosed y (List.mem_cons_of_mem _ hy))
      fun k hk => hover k (List.mem_cons_of_mem l hk)
    have hlater (hm : Within m l) :=
      hm.not_endsComment hl hthis (hclosed _ List.mem_cons_self) (hover l List.mem_cons_self)
    by_cases hvoid : trim l = []
    · rw [reading_blank hm (isBlank_of_trim_eq_nil hvoid), Mode.next_of_ne_line hm] at hrest
      rwa [List.map_cons, List.filter_cons_of_neg (by simp [hvoid])]
    · rw [List.map_cons, List.filter_cons_of_pos (by simpa using hvoid)]
      obtain rfl | rfl := Mode.eq_code_or_block hm
      · change commentLines false _ = true
        rw [commentLines]
        split
        case isTrue hopen =>
          rwa [hlater (.inr ⟨rfl, List.isPrefixOf_iff_prefix.mp hopen⟩)]
        case isFalse hopen =>
          rw [List.isPrefixOf_iff_prefix] at hopen
          have hremark := ((bare_code_iff hl hvoid).mp hthis).1.resolve_right hopen
          rw [reading_remark hl hremark] at hrest
          rw [Bool.and_eq_true]
          exact ⟨List.isPrefixOf_iff_prefix.mpr hremark, hrest⟩
      · change commentLines true _ = true
        rwa [commentLines, hlater (.inl rfl)]

theorem mem_fullLines_of_mem_codeLines (h : s ∈ codeLines t) : s ∈ fullLines t := by
  obtain ⟨hne, l, hl, rfl⟩ := mem_codeLines.mp h
  exact List.mem_filter.mpr ⟨List.mem_map_of_mem (mem_of_mem_begun hl), by simpa using hne⟩

theorem isComments_iff_of_isCommentOnly (h : isCommentOnly t = true)
    (hunremarked : ClosesUnremarked t) : IsComments t ↔ ClosesClean t := by
  rw [isCommentOnly, Bool.and_eq_true] at h
  refine ⟨fun h => (isComments_iff.mp h).2, fun hclean => isComments_iff.mpr ⟨?_, hclean⟩⟩
  have hclosed : ∀ x ∈ begun .code (lines t), ∀ b ∈ (reading x.1 x.2).closed,
      (reading .code b).bare = [] ∧ (reading .code b).mode ≠ .line :=
    forall_closed_iff.mp fun b hb => ⟨hclean b hb, hunremarked b hb⟩
  have hopens := opensComment_of_commentLines (fun _ => not_mem_of_mem_lines (t := t))
    Mode.code_ne_line (fun _ => rfl) hclosed h.2
  intro s hs
  obtain ⟨hne, l, hl, rfl⟩ := mem_codeLines.mp hs
  exact hopens _ hl rfl hne

theorem isCommentOnly_of_isComments (h : IsComments t) (hunremarked : ClosesUnremarked t)
    (hfull : fullLines t ≠ []) (hover : ∀ l ∈ fullLines t, ¬ "/*/".toList <:+ l) :
    isCommentOnly t = true := by
  have hmarks : ∀ l ∈ lines t, ¬ "/*/".toList <:+ trim l := by
    intro l hl hmark
    by_cases hvoid : trim l = []
    · rw [hvoid] at hmark
      cases List.suffix_nil.mp hmark
    · exact hover _ (List.mem_filter.mpr ⟨List.mem_map_of_mem hl, by simpa using hvoid⟩) hmark
  have hclosed : ∀ x ∈ begun .code (lines t), ∀ b ∈ (reading x.1 x.2).closed,
      (reading .code b).mode ≠ .line :=
    (forall_closed_iff (P := fun b => (reading .code b).mode ≠ .line)).mp hunremarked
  rw [isCommentOnly, Bool.and_eq_true]
  exact ⟨by simpa using hfull, commentLines_of_bare (fun _ => not_mem_of_mem_lines (t := t))
    Mode.code_ne_line (isComments_iff_begun.mp h) hclosed hmarks⟩

theorem isComments_iff_of_onlySlashComments (h : Tag.onlySlashComments t = true) :
    IsComments t ↔ ClosesClean t ∧
      ∀ l ∈ codeLines t, l.head? = some '*' ∨ endsComment l = true → OpensComment l := by
  rw [Tag.onlySlashComments, Bool.and_eq_true, List.all_eq_true] at h
  rw [isComments_iff, and_comm]
  refine and_congr_right fun _ => ⟨fun hopens l hl _ => hopens l hl, fun hopens l hl => ?_⟩
  have hpass := h.2 l (mem_fullLines_of_mem_codeLines hl)
  simp only [Bool.or_eq_true, List.isPrefixOf_iff_prefix, decide_eq_true_eq, or_assoc] at hpass
  obtain hline | hblock | hmark := hpass
  · exact .inl hline
  · exact .inr hblock
  · exact hopens l hl hmark

/-- As long as no line comment is behind a closing mark on its line, a text that is accepted as
nothing but comments consists of comments exactly if nothing bare is behind a closing mark, and
comments are accepted if no line makes a closing mark of an opening one. A text whose lines pass
for lines of comments consists of comments exactly if nothing bare is behind a closing mark and
those lines open a comment that begin outside block comments and pass for an asterisk at the start
or a closing mark at the end. -/
theorem comments_recognised (t : Text) :
    (ClosesUnremarked t →
      (isCommentOnly t = true → (IsComments t ↔ ClosesClean t)) ∧
      (IsComments t → fullLines t ≠ [] → (∀ l ∈ fullLines t, ¬ "/*/".toList <:+ l) →
        isCommentOnly t = true)) ∧
    (Tag.onlySlashComments t = true →
      (IsComments t ↔ ClosesClean t ∧
        ∀ l ∈ codeLines t, l.head? = some '*' ∨ endsComment l = true → OpensComment l)) :=
  ⟨fun hunremarked => ⟨fun h => isComments_iff_of_isCommentOnly h hunremarked,
      fun h => isCommentOnly_of_isComments h hunremarked⟩,
    isComments_iff_of_onlySlashComments⟩

/-- Block comments over several lines and on one, and a line comment. -/
theorem comments_recognised_several_lines :
    let t : Text := "/**\n * Docs for // the helper.\n */ /* and more */\n// x".toList
    ClosesUnremarked t ∧ isCommentOnly t = true ∧ ClosesClean t ∧ Tag.onlySlashComments t = true ∧
      IsComments t ∧
      ∀ l ∈ codeLines t, l.head? = some '*' ∨ endsComment l = true → OpensComment l := by
  intro t
  have honly : isCommentOnly t = true := by decide
  have hslash : Tag.onlySlashComments t = true := by decide
  have hunremarked : ClosesUnremarked t := by
    unfold ClosesUnremarked
    decide
  have hclean : ClosesClean t := by
    unfold ClosesClean
    decide
  have hcomments := (((comments_recognised t).1 hunremarked).1 honly).mpr hclean
  exact ⟨hunremarked, honly, hclean, hslash, hcomments,
    (((comments_recognised t).2 hslash).mp hcomments).2⟩

/-- Code behind a comment on its line is accepted as a comment, and so are code below a line comment
that is behind a block comment, and an item of a list. -/
theorem code_passes_for_comments :
    let assignment : Text := "/* a */ x = 1".toList
    let remarked : Text := "/* a */ // b\nx = 1".toList
    let item : Text := "* item".toList
    isCommentOnly assignment = true ∧ ¬ IsComments assignment ∧
      isCommentOnly remarked = true ∧ ClosesClean remarked ∧ ¬ IsComments remarked ∧
      Tag.onlySlashComments item = true ∧ ClosesClean item ∧ ¬ IsComments item := by
  unfold IsComments ClosesClean
  decide

end MarkdownFences.Snippet
