import MarkdownFences.Proofs.Scan.Layout
import MarkdownFences.Proofs.Text.Trim

namespace MarkdownFences.Scan

open Layout

variable {file : Path} {last : Nat} {ls rest : List Text} {line : Text} {n : Nat} {quad : Bool}

/-- What a scan knows of the fences before line `n`: either they are all paired, or the last one
is alone and its tag and the lines since then are kept. -/
def Follows (ls : List Text) (n : Nat) : Option Opened → Prop
  | none => (fencesBefore ls n).length % 2 = 0
  | some o => o.line < n ∧ (∃ is, fencesBefore ls n = is ++ [o.line] ∧ is.length % 2 = 0) ∧
      o.tag = tagAt ls o.line ∧ o.body.reverse = body ls o.line n

theorem Follows.of_hidden {opened : Option Opened} (h : Follows ls n opened)
    (hv : isVisible ls n = false) : Follows ls (n + 1) opened := by
  have hf : fencesBefore ls (n + 1) = fencesBefore ls n := by
    simp [fencesBefore_succ, isFence, hv]
  cases opened with
  | none =>
    rw [Follows, hf]
    exact h
  | some o =>
    obtain ⟨ho, his, ht, hb⟩ := h
    refine ⟨Nat.lt_succ_of_lt ho, hf ▸ his, ht, ?_⟩
    rw [body_succ ho, hv, hb]
    exact (List.append_nil _).symm

theorem Follows.none_of_plain (h : Follows ls n none) (hf : isFence ls n = false) :
    Follows ls (n + 1) none := by
  rw [Follows, fencesBefore_succ, hf]
  simpa [Follows] using h

theorem Follows.some_of_plain {o : Opened} (h : Follows ls n (some o))
    (hv : isVisible ls n = true) (hf : isFence ls n = false) :
    Follows ls (n + 1) (some { o with body := lineAt ls n :: o.body }) := by
  obtain ⟨ho, his, ht, hb⟩ := h
  refine ⟨Nat.lt_succ_of_lt ho, ?_, ht, ?_⟩
  · rw [fencesBefore_succ, hf]
    simpa using his
  · rw [body_succ ho, hv, List.reverse_cons, hb]
    rfl

theorem Follows.some_of_fence (h : Follows ls n none) (hf : isFence ls n = true) :
    Follows ls (n + 1) (some ⟨n, tagAt ls n, []⟩) := by
  refine ⟨Nat.lt_succ_self n, ⟨fencesBefore ls n, ?_, h⟩, rfl, (body_self n).symm⟩
  rw [fencesBefore_succ, hf]
  rfl

theorem Follows.none_of_fence {o : Opened} (h : Follows ls n (some o))
    (hf : isFence ls n = true) : Follows ls (n + 1) none := by
  obtain ⟨-, ⟨is, his, hl⟩, -⟩ := h
  rw [Follows, fencesBefore_succ, hf, his]
  simp only [if_true, List.length_append, List.length_singleton]
  omega

def pending (opened : Option Opened) : List Nat := opened.toList.map (·.line)

/-- What is told of the lines from `n` on, when the fences before have been dealt with except
for a pending one. -/
def remaining (file : Path) (ls : List Text) (n : Nat) (opened : Option Opened) : Scan where
  issues := (List.range' n (ls.length - n)).flatMap (issuesAt file ls) ++ Layout.unclosed file ls
  blocks := (pairs (pending opened ++ fencesFrom ls n)).map (block file ls)

theorem remaining_issues (file : Path) (hn : n < ls.length) (opened after : Option Opened) :
    (remaining file ls n opened).issues =
      issuesAt file ls n ++ (remaining file ls (n + 1) after).issues := by
  simp only [remaining, range_from hn, List.flatMap_cons, List.append_assoc]

theorem remaining_of_plain (hn : n < ls.length) (hf : isFence ls n = false)
    {opened after : Option Opened} (ho : pending after = pending opened)
    (hi : issuesAt file ls n = []) :
    remaining file ls n opened = remaining file ls (n + 1) after := by
  have hs : fencesFrom ls n = fencesFrom ls (n + 1) := by
    rw [fencesFrom_step hn, hf]
    rfl
  rw [Scan.mk.injEq]
  refine ⟨?_, ?_⟩
  · rw [remaining_issues file hn opened after, hi]
    rfl
  · rw [remaining, remaining, hs, ho]

theorem issuesAt_of_hidden (hv : isVisible ls n = false) : issuesAt file ls n = [] := by
  have hf : isFence ls n = false := by simp [isFence, hv]
  simp [issuesAt, closing_of_not_fence hf, isMalformed, hv]

theorem remaining_of_hidden (hn : n < ls.length) (hv : isVisible ls n = false)
    (opened : Option Opened) : remaining file ls n opened = remaining file ls (n + 1) opened :=
  remaining_of_plain hn (by simp [isFence, hv]) rfl (issuesAt_of_hidden hv)

theorem issuesAt_of_plain_inside {o : Opened} (h : Follows ls n (some o))
    (hf : isFence ls n = false) : issuesAt file ls n = [] := by
  obtain ⟨-, ⟨is, his, hl⟩, -⟩ := h
  have hodd : (fencesBefore ls n).length % 2 = 1 := by
    rw [his, List.length_append, List.length_singleton]
    omega
  simp [issuesAt, closing_of_not_fence hf, isMalformed, hodd]

theorem issuesAt_of_plain_outside (h : Follows ls n none) (hv : isVisible ls n = true)
    (hf : isFence ls n = false) :
    issuesAt file ls n =
      if Text.occursIn Fence.mark (lineAt ls n) then [Layout.malformed file n] else [] := by
  have heven : (fencesBefore ls n).length % 2 = 0 := h
  simp [issuesAt, closing_of_not_fence hf, isMalformed, hv, hf, heven]

theorem issuesAt_of_opening (hn : n < ls.length) (h : Follows ls n none)
    (hf : isFence ls n = true) : issuesAt file ls n = [] := by
  simp [issuesAt, closing_of_opening hn hf h, isMalformed, hf]

theorem block_of_opened (file : Path) {o : Opened} (h : Follows ls n (some o)) :
    (⟨file, o.line, n, o.content, o.tag⟩ : Block) = block file ls (o.line, n) := by
  obtain ⟨-, -, ht, hb⟩ := h
  rw [block, content, ← hb, ← ht]
  rfl

theorem issuesAt_of_closing (hn : n < ls.length) {o : Opened} (h : Follows ls n (some o))
    (hf : isFence ls n = true) :
    issuesAt file ls n =
      if o.tag.isNone then [Layout.missing ⟨file, o.line, n, o.content, o.tag⟩] else [] := by
  have hb := block_of_opened file h
  obtain ⟨-, ⟨is, his, hl⟩, ht, -⟩ := h
  rw [issuesAt, closing_of_closing hn hf his hl, ← hb]
  cases o.tag <;> simp [isMalformed, hf]

theorem remaining_of_plain_outside (hn : n < ls.length) (h : Follows ls n none)
    (hv : isVisible ls n = true) (hf : isFence ls n = false) :
    remaining file ls n none =
      if Text.occursIn Fence.mark (lineAt ls n) then
        (remaining file ls (n + 1) none).addIssue (malformed file n)
      else remaining file ls (n + 1) none := by
  have hi := remaining_issues file hn none none
  rw [issuesAt_of_plain_outside h hv hf] at hi
  have hb : (remaining file ls n none).blocks = (remaining file ls (n + 1) none).blocks := by
    simp [remaining, fencesFrom_step hn, hf]
  cases hm : Text.occursIn Fence.mark (lineAt ls n) <;>
    simp only [hm, if_true, Bool.false_eq_true, if_false] at hi ⊢ <;>
    exact Scan.mk.injEq .. ▸ ⟨hi, hb⟩

theorem remaining_of_opening (hn : n < ls.length) (h : Follows ls n none)
    (hf : isFence ls n = true) :
    remaining file ls n none = remaining file ls (n + 1) (some ⟨n, tagAt ls n, []⟩) := by
  rw [Scan.mk.injEq]
  refine ⟨?_, ?_⟩
  · rw [remaining_issues file hn none (some ⟨n, tagAt ls n, []⟩), issuesAt_of_opening hn h hf]
    rfl
  · simp only [remaining, fencesFrom_step hn, hf, if_true]
    rfl

theorem remaining_of_closing (hn : n < ls.length) {o : Opened} (h : Follows ls n (some o))
    (hf : isFence ls n = true) :
    remaining file ls n (some o) =
      let b : Block := ⟨file, o.line, n, o.content, o.tag⟩
      let s := (remaining file ls (n + 1) none).addBlock b
      if o.tag.isNone then s.addIssue (missing b) else s := by
  have hi := remaining_issues file hn (some o) none
  rw [issuesAt_of_closing hn h hf] at hi
  have hb : (remaining file ls n (some o)).blocks =
      ⟨file, o.line, n, o.content, o.tag⟩ :: (remaining file ls (n + 1) none).blocks := by
    rw [block_of_opened file h]
    simp only [remaining, fencesFrom_step hn, hf, if_true]
    rfl
  cases ht : o.tag.isNone <;>
    simp only [ht, if_true, Bool.false_eq_true, if_false] at hi ⊢ <;>
    exact Scan.mk.injEq .. ▸ ⟨hi, hb⟩

theorem remaining_of_end (h : Follows ls ls.length none) :
    remaining file ls ls.length none = empty := by
  have heven : (fences ls).length % 2 = 0 := h
  simp [remaining, Layout.unclosed, heven, fencesFrom, pending, pairs, empty]

theorem remaining_of_end_opened {o : Opened} (h : Follows ls ls.length (some o)) :
    remaining file ls ls.length (some o) = ⟨[unclosed file (lastLine ls) o], []⟩ := by
  obtain ⟨-, ⟨is, his, hl⟩, -, hb⟩ := h
  have hf : fences ls = is ++ [o.line] := his
  have hodd : ¬ (fences ls).length % 2 = 0 := by
    rw [hf, List.length_append, List.length_singleton]
    omega
  have hc : o.content = content ls o.line ls.length := by rw [Opened.content, hb, content]
  simp only [remaining, Layout.unclosed, hodd, if_false]
  simp [hf, fencesFrom, pending, pairs, unclosed, hc]

/-- A scan of the lines from `n` on, begun with what the lines before it lead to. -/
theorem ofLines_eq_remaining (rest : List Text) (n : Nat) (quad : Bool) (opened : Option Opened)
    (hr : ls.drop n = rest) (hle : n ≤ ls.length) (hq : quad = (quadsBefore ls n % 2 == 1))
    (h : Follows ls n opened) :
    ofLines file (lastLine ls) n quad opened rest = remaining file ls n opened := by
  induction rest generalizing n quad opened with
  | nil =>
    have hn : n = ls.length := Nat.le_antisymm hle (List.drop_eq_nil_iff.mp hr)
    subst hn
    cases opened with
    | none => exact (remaining_of_end h).symm
    | some o => exact (remaining_of_end_opened h).symm
  | cons line rest ih =>
    have hn := lt_of_drop hr
    obtain rfl := lineAt_of_drop hr
    have hnext := drop_of_drop hr
    have hside := quadsBefore_succ_odd hr
    have hvisible := isVisible_eq ls n
    rw [← hq] at hside hvisible
    unfold ofLines
    cases hquad : isQuad (lineAt ls n) with
    | true =>
      -- the edge of a literal example
      rw [hquad, Bool.xor_true] at hside
      have hv : isVisible ls n = false := by rw [hvisible, hquad]; rfl
      rw [Layout.isQuad] at hquad
      simp only [hquad, if_true]
      rw [ih (n + 1) (!quad) opened hnext hn hside.symm (h.of_hidden hv),
        remaining_of_hidden hn hv opened]
    | false =>
      rw [hquad, Bool.xor_false] at hside
      rw [hquad] at hvisible
      rw [Layout.isQuad] at hquad
      simp only [hquad, Bool.false_eq_true, if_false]
      cases quad with
      | true =>
        -- inside a literal example
        rw [if_pos rfl, ih (n + 1) true opened hnext hn hside.symm (h.of_hidden hvisible),
          remaining_of_hidden hn hvisible opened]
      | false =>
        have hv : isVisible ls n = true := hvisible
        have hf : isFence ls n = Fence.isFence (Text.trim (lineAt ls n)) := by simp [isFence, hv]
        have ih' := fun opened => ih (n + 1) false opened hnext hn hside.symm
        rw [if_neg Bool.false_ne_true, ← hf, Text.occursIn_mark_trim]
        cases opened with
        | none =>
          cases hc : isFence ls n with
          | true =>
            rw [if_pos rfl, remaining_of_opening hn h hc]
            exact ih' _ (h.some_of_fence hc)
          | false =>
            rw [remaining_of_plain_outside hn h hv hc, ← ih' none (h.none_of_plain hc)]
            rfl
        | some o =>
          cases hc : isFence ls n with
          | true =>
            rw [remaining_of_closing hn h hc, ← ih' none (h.none_of_fence hc)]
            rfl
          | false =>
            rw [remaining_of_plain hn hc rfl (issuesAt_of_plain_inside h hc)]
            exact ih' _ (h.some_of_plain hv hc)

variable (file : Path) (t : Text)

theorem scan_eq_remaining : scan file t = remaining file (Text.lines t) 0 none :=
  ofLines_eq_remaining (Text.lines t) 0 false none rfl (Nat.zero_le _) rfl rfl

theorem scan_blocks : (scan file t).blocks = Layout.blocks file (Text.lines t) := by
  rw [scan_eq_remaining, remaining, Layout.blocks, fences_eq_append (Nat.zero_le _)]
  rfl

theorem scan_issues : (scan file t).issues = Layout.issues file (Text.lines t) := by
  rw [scan_eq_remaining, remaining, Layout.issues, List.range_eq_range']
  rfl

/-- A scan finds the blocks between paired fences and tells of every block without a tag, every
misplaced mark and a fence without a partner, in the order of the lines that show it. -/
theorem scan_eq_layout :
    (scan file t).blocks = Layout.blocks file (Text.lines t) ∧
      (scan file t).issues = Layout.issues file (Text.lines t) :=
  ⟨scan_blocks file t, scan_issues file t⟩

end MarkdownFences.Scan
