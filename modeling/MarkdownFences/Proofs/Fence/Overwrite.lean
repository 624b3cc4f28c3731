import MarkdownFences.Proofs.Fence.LineEnd

namespace MarkdownFences.Fence

open Text

variable {l new t : Text} {o : Opening}

theorem exists_getLast?_marked (ht : IsTag t) (rest : Text) :
    ∃ c, (marked t rest).getLast? = some c ∧ isBlank c = false := by
  have hne : marked t rest ≠ [] := by simp [marked, mark, List.replicate]
  obtain ⟨c, hc⟩ : ∃ c, (marked t rest).getLast? = some c := ⟨_, List.getLast?_eq_some_getLast hne⟩
  refine ⟨c, hc, ?_⟩
  rw [← trimRight_marked ht] at hc
  exact of_getLast?_dropEnding hc

theorem getLast?_write (ht : IsTag t) (o : Opening) :
    (o.write t).getLast? = some '\r' ↔ o.carriageReturn = true := by
  rw [Opening.write_eq, Opening.lineEnd]
  cases o.carriageReturn with
  | true => exact iff_of_true List.getLast?_concat rfl
  | false =>
    obtain ⟨c, hc, hblank⟩ := exists_getLast?_marked ht o.rest
    rw [if_neg Bool.false_ne_true, List.append_nil, List.getLast?_append, hc, Option.some_or]
    refine iff_of_false (fun hcr => ?_) Bool.false_ne_true
    rw [Option.some.inj hcr] at hblank
    cases hblank

theorem getLast?_ofLine? (ho : Opening.ofLine? l = some o) :
    ('\n' ∉ l → (o.carriageReturn = true ↔ l.getLast? = some '\r')) ∧
      ∀ s, l = s ++ ['\n'] → (o.carriageReturn = true ↔ s.getLast? = some '\r') := by
  obtain ⟨s, feed, hn, rfl | rfl, rfl, hs⟩ := Opening.exists_line ho
  · refine ⟨fun _ => by rw [List.append_nil, hs], fun s' hs' => ?_⟩
    rw [List.append_nil] at hs'
    exact absurd (by simp [hs']) hn
  · refine ⟨fun hl => absurd (by simp) hl, fun s' hs' => ?_⟩
    rw [← List.append_cancel_right hs', hs]

/-- A tag that is written on an opening fence can be read off it again, and the next one takes its
place: what the line becomes then does not depend on it. The indentation stays, and so does the
carriage return at the end of the line. A line feed after it is dropped. -/
theorem retag_overwrites (ht : IsTag t) (h : retag l t = .ok new) :
    isFence (trim new) = true ∧ tag (trim new) = some t ∧
      new.takeWhile isIndent = l.takeWhile isIndent ∧
      ('\n' ∉ l → (new.getLast? = some '\r' ↔ l.getLast? = some '\r')) ∧
      (∀ s, l = s ++ ['\n'] → (new.getLast? = some '\r' ↔ s.getLast? = some '\r')) ∧
      ∀ u, retag new u = retag l u := by
  obtain ⟨o, ho, rfl⟩ := retag_eq_ok h
  have hi : ∀ c ∈ o.indent, isIndent c = true := fun c hc => Opening.isIndent_of_mem_indent ho hc
  obtain ⟨hindent, hrest, -⟩ := Opening.ofLine?_parts ho
  obtain ⟨hline, hfeed⟩ := getLast?_ofLine? ho
  have hread := Opening.ofLine?_write hi hrest ht
  rw [Opening.trim_write hi ht, getLast?_write ht, ← (Opening.ofLine?_parts hread).1]
  refine ⟨isFence_marked ht o.rest, tag_marked ht o.rest, hindent, hline, hfeed, fun u => ?_⟩
  rw [Opening.retag_write hi hrest ht, retag, ho]

/-- A fence with attributes right behind its tag and two carriage returns. -/
theorem retag_overwrites_attributes :
    let l := "\t  ``` c++\x7bline=3\x7d \r\r".toList
    let new := "\t  ```objective-c \x7bline=3\x7d\r".toList
    IsTag "objective-c".toList ∧ retag l "objective-c".toList = .ok new ∧
      isFence (trim new) = true ∧ tag (trim new) = some "objective-c".toList ∧
      '\n' ∉ l ∧ new.getLast? = some '\r' ∧ retag new "f#".toList = retag l "f#".toList := by
  intro l new
  have ht : IsTag "objective-c".toList := by rfl
  have h : retag l "objective-c".toList = .ok new := by rfl
  have hn : '\n' ∉ l := by decide
  obtain ⟨hfence, htag, -, hline, -, hnext⟩ := retag_overwrites ht h
  exact ⟨ht, h, hfence, htag, hn, (hline hn).mpr rfl, hnext _⟩

end MarkdownFences.Fence
