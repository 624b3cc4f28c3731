import MarkdownFences.Proofs.Check.Headers

namespace MarkdownFences

namespace Mark

variable {headed : List Path} {is : List LanguageIssue} {p : Path}

def issue? : Mark → Option LanguageIssue
  | header _ => none
  | issue i => some i

/-- Each of the issues once, and the name of each file that has one, once, before its issues. -/
structure Announces (ms : List Mark) (is : List LanguageIssue) : Prop where
  issues : (ms.filterMap issue?).Perm is
  once : (ms.filterMap header?).Nodup
  files : ∀ p, header p ∈ ms ↔ p ∈ is.map (·.file)
  above : ∀ before i after, ms = before ++ issue i :: after → header i.file ∈ before

theorem Announces.perm {ms : List Mark} {js : List LanguageIssue} (h : Announces ms is)
    (hp : is.Perm js) : Announces ms js :=
  ⟨h.issues.trans hp, h.once, fun p => (h.files p).trans (hp.map _).mem_iff, h.above⟩

theorem issues_ofIssues (headed : List Path) (is : List LanguageIssue) :
    (ofIssues headed is).filterMap issue? = is := by
  induction is generalizing headed with
  | nil => rfl
  | cons i is ih =>
    rw [ofIssues]
    split
    · exact congrArg (i :: ·) (ih headed)
    · exact congrArg (i :: ·) (ih (headed ++ [i.file]))

theorem header_mem_ofIssues :
    header p ∈ ofIssues headed is ↔ p ∈ is.map (·.file) ∧ p ∉ headed := by
  induction is generalizing headed with
  | nil => simp [ofIssues]
  | cons i is ih =>
    rw [ofIssues]
    split
    case isTrue hi =>
      rw [List.contains_iff_mem] at hi
      have hne (hp : p ∉ headed) : p ≠ i.file := fun heq => hp (heq ▸ hi)
      simp only [List.mem_cons, reduceCtorEq, false_or, ih, List.map_cons]
      exact and_congr_left fun hp => by simp [hne hp]
    case isFalse hi =>
      rw [List.contains_iff_mem] at hi
      simp only [List.mem_cons, header.injEq, reduceCtorEq, false_or, ih, List.map_cons,
        List.mem_append, List.not_mem_nil, or_false, not_or]
      constructor
      · rintro (rfl | ⟨hp, hnew, -⟩)
        · exact ⟨.inl rfl, hi⟩
        · exact ⟨.inr hp, hnew⟩
      · rintro ⟨rfl | hp, hnew⟩
        · exact .inl rfl
        · by_cases heq : p = i.file
          · exact .inl heq
          · exact .inr ⟨hp, hnew, heq⟩

theorem named_before {before after : List Mark} {i : LanguageIssue}
    (h : ofIssues headed is = before ++ issue i :: after) :
    i.file ∈ headed ∨ header i.file ∈ before := by
  induction is generalizing headed before with
  | nil => simp [ofIssues] at h
  | cons j is ih =>
    rw [ofIssues] at h
    split at h
    case isTrue hj =>
      cases before with
      | nil =>
        obtain rfl := Mark.issue.inj (List.cons.inj h).1
        exact .inl (List.contains_iff_mem.mp hj)
      | cons m before => exact (ih (List.cons.inj h).2).imp_right (List.mem_cons_of_mem m)
    case isFalse =>
      -- the header comes first, and the issue may be the one right after it
      cases before with
      | nil => cases (List.cons.inj h).1
      | cons m before =>
        obtain ⟨rfl, hrest⟩ := List.cons.inj h
        cases before with
        | nil =>
          obtain rfl := Mark.issue.inj (List.cons.inj hrest).1
          exact .inr List.mem_cons_self
        | cons m before =>
          obtain hi | hi := ih (List.cons.inj hrest).2
          · obtain hi | hi := List.mem_append.mp hi
            · exact .inl hi
            · rw [List.mem_singleton.mp hi]
              exact .inr List.mem_cons_self
          · exact .inr (List.mem_cons_of_mem _ (List.mem_cons_of_mem m hi))

theorem announces_ofIssues (is : List LanguageIssue) : Announces (ofIssues [] is) is where
  issues := .of_eq (issues_ofIssues [] is)
  once := nodup_headers .nil is
  files p := by simp [header_mem_ofIssues]
  above _ _ _ h := (named_before h).resolve_left List.not_mem_nil

end Mark

namespace Check

open Admission (Course Ending Move Moves)

variable {τ ρ : Type} {k : Check τ ρ} {b : Block} {s s' s'' : State τ} {m n : Nat}

def tickText (k : Check τ ρ) (n : Nat) : Text :=
  s!"  [{n}/{k.total}] Validating blocks...".toList

/-- From one state to the other so many checks have ended, and where somebody watches each of them
has been counted on the console. -/
structure Ticks (k : Check τ ρ) (s s' : State τ) (n : Nat) : Prop where
  processed : s'.processed = s.processed + n
  interactive : s'.console.interactive = s.console.interactive
  records : ∃ rs, s'.console.queue = s.console.queue ++ rs ∧ rs.filterMap Record.tick? =
    if s.console.interactive then (List.range' (s.processed + 1) n).map k.tickText else []

theorem Ticks.trans (h : Ticks k s s' m) (h' : Ticks k s' s'' n) : Ticks k s s'' (m + n) := by
  obtain ⟨rs, hqueue, hticks⟩ := h.records
  obtain ⟨rs', hqueue', hticks'⟩ := h'.records
  refine ⟨?_, h'.interactive.trans h.interactive, rs ++ rs', ?_, ?_⟩
  · rw [h'.processed, h.processed, Nat.add_assoc]
  · rw [hqueue', hqueue, List.append_assoc]
  · have hstart : s'.processed + 1 = s.processed + 1 + m := by
      rw [h.processed]
      omega
    rw [List.filterMap_append, hticks, hticks', h.interactive, hstart]
    cases s.console.interactive with
    | false => rfl
    | true =>
      simp only [if_true]
      rw [← List.map_append, List.range'_append_1]

theorem ticks_of_console (k : Check τ ρ) (hp : s'.processed = s.processed)
    (hc : s'.console = s.console) : Ticks k s s' 0 := by
  refine ⟨hp, by rw [hc], [], ?_, ?_⟩
  · rw [hc, List.append_nil]
  · cases s.console.interactive <;> rfl

theorem ticks_tick (k : Check τ ρ) (s : State τ) : Ticks k s (s.tick k) 1 := by
  have htick : (s.tick k).console = s.console.progress (k.tickText (s.processed + 1)) := rfl
  rw [Console.progress] at htick
  cases hi : s.console.interactive with
  | false =>
    rw [if_neg (by simp [hi])] at htick
    refine ⟨rfl, by rw [htick], [], ?_, ?_⟩
    · rw [htick, List.append_nil]
    · rw [hi]
      rfl
  | true =>
    rw [if_pos hi] at htick
    refine ⟨rfl, by rw [htick], [.progress (k.tickText (s.processed + 1))], ?_, ?_⟩
    · rw [htick]
    · rw [hi]
      rfl

theorem ticks_prepare (k : Check τ ρ) (s : State τ) (b : Block) :
    Ticks k s (k.prepare s b).1 0 := by
  rw [prepare_frame]
  exact ticks_of_console k rfl rfl

theorem ticks_emit (k : Check τ ρ) (s : State τ) (t : Text) (headed : List Path) :
    Ticks k s { s with console := s.console.emit t, headed } 0 := by
  refine ⟨rfl, rfl, [.line t], rfl, ?_⟩
  cases s.console.interactive <;> rfl

theorem ticks_report (k : Check τ ρ) (s : State τ) (i : LanguageIssue) :
    Ticks k s (s.report i) 0 := by
  have hhead : Ticks k s (s.head i.file) 0 := by
    rw [State.head]
    split
    · exact ticks_of_console k rfl rfl
    · exact ticks_emit k s _ _
  exact hhead.trans (ticks_emit k (s.head i.file) _ _)

theorem ticks_conclude (k : Check τ ρ) (s : State τ) (b : Block) (p : Purpose)
    (r : Except Fault Language) : Ticks k s (k.conclude s b p r).1 1 := by
  have hsettle (l : Language) : Ticks k s (k.settle s b p l).1 0 := by
    have hsettles := k.settles s b p l
    generalize k.settle s b p l = out at hsettles
    cases hsettles with
    | tagged | agrees => exact ticks_of_console k rfl rfl
    | differs => exact ticks_report k s _
  cases r with
  | error e => exact ticks_tick k s
  | ok l =>
    exact (hsettle l).trans (ticks_tick k _)

theorem ticks_ending (delay : Nat → Block → Nat) {bs : List Block}
    {c d : Course (State τ) (Pending ρ) Finding} {es : List (Except Fault Finding × Nat)}
    (h : Ending (k.worker delay) bs c es d) : Ticks k c.shared d.shared es.length := by
  have hclassifier (s : State τ) (classifier : Classifier.State τ) :
      Ticks k s { s with classifier } 0 := ticks_of_console k rfl rfl
  have hnoted {s : State τ} (i : Nat) (r : Except Fault Finding) (hs : Ticks k c.shared s 1) :
      Ticks k c.shared ((k.worker delay).noted s i r) 1 := by
    refine hs.trans (ticks_of_console k ?_ ?_)
    · cases r <;> rfl
    · cases r <;> rfl
  cases h with
  | @ends i b shared r hb hi hs =>
    refine hnoted i r ?_
    have hstarts := k.starts delay c.shared i b
    have hprepare := ticks_prepare k c.shared b
    rw [hs] at hstarts
    cases hstarts with
    | settled hp =>
      rw [hp] at hprepare
      exact hprepare.trans (ticks_tick k _)
    | @answered s' p classifier r hp hc =>
      rw [hp] at hprepare
      exact (hprepare.trans (hclassifier s' classifier)).trans (ticks_conclude k _ b p r)
  | @waits i b shared q hb hi hs =>
    have hstarts := k.starts delay c.shared i b
    have hprepare := ticks_prepare k c.shared b
    rw [hs] at hstarts
    cases hstarts with
    | @asked s' p classifier q hp hc =>
      rw [hp] at hprepare
      exact hprepare.trans (hclassifier s' classifier)
  | @goesOn i b q shared r hb hi hs =>
    refine hnoted i r ?_
    obtain ⟨rfl, rfl⟩ := Prod.mk.inj hs
    have hticks : Ticks k c.shared (k.finish c.shared b q).1 (0 + 1) :=
      (hclassifier c.shared _).trans (ticks_conclude k _ b q.purpose _)
    exact hticks

/-- The records of checks that have come to these results: an issue is announced once, and so is
its file, and where somebody watches the checks are counted from one on. -/
structure Displays (k : Check τ ρ) (interactive : Bool) (rs : List Record)
    (results : List (Except Fault Finding)) : Prop where
  marks : ∃ ms, rs.filterMap Record.line? = ms.map Mark.text ∧
    Mark.Announces ms (results.filterMap issue?)
  ticks : rs.filterMap Record.tick? =
    if interactive then (List.range results.length).map fun n => k.tickText (n + 1) else []

def Tells (k : Check τ ρ) (s : State τ) (c : Course (State τ) (Pending ρ) Finding) : Prop :=
  ∃ es, Shows s c.shared (issuesOf es) ∧ Ticks k s c.shared es.length ∧
    (es.map (·.1)).Perm c.results

theorem tells_start (k : Check τ ρ) (s : State τ) (bs : List Block) :
    Tells k s (Course.start s bs) := by
  refine ⟨[], Still.shows ⟨rfl, rfl⟩, ticks_of_console k rfl rfl, ?_⟩
  rw [Course.results, Course.start, List.filterMap_map]
  exact .of_eq (List.filterMap_eq_nil_iff.mpr fun _ _ => rfl).symm

theorem Tells.move {delay : Nat → Block → Nat} {bs : List Block}
    {c d : Course (State τ) (Pending ρ) Finding} (h : Tells k s c)
    (hm : Move (k.worker delay) bs c d) : Tells k s d := by
  obtain ⟨es, hshows, hticks, hperm⟩ := h
  obtain ⟨fs, hending⟩ := hm.exists_ending
  refine ⟨es ++ fs, ?_, ?_, ?_⟩
  · rw [issuesOf_append]
    exact hshows.trans (shows_ending delay hending)
  · rw [List.length_append]
    exact hticks.trans (ticks_ending delay hending)
  · rw [List.map_append]
    exact (hperm.append_right _).trans hending.results.symm

theorem displays_of_moves {delay : Nat → Block → Nat} {bs : List Block}
    {c : Course (State τ) (Pending ρ) Finding} (hheaded : s.headed = []) (hp : s.processed = 0)
    (h : Moves (k.worker delay) bs (Course.start s bs) c) :
    ∃ rs, c.shared.console.queue = s.console.queue ++ rs ∧
      k.Displays s.console.interactive rs c.results := by
  have htells : Tells k s c := h.keeps (fun _ _ => Tells.move) (tells_start k s bs)
  obtain ⟨es, hshows, hticks, hperm⟩ := htells
  obtain ⟨rs, hqueue, hrecords⟩ := hticks.records
  refine ⟨rs, hqueue, ⟨Mark.ofIssues [] (issuesOf es), ?_, ?_⟩, ?_⟩
  · have hlines := hshows.lines
    rw [Console.lines, hqueue, List.filterMap_append, hheaded] at hlines
    exact List.append_cancel_left hlines
  · refine (Mark.announces_ofIssues _).perm ?_
    have hissues := hperm.filterMap issue?
    rw [List.filterMap_map] at hissues
    exact hissues
  · have hlength : es.length = c.results.length := by
      rw [← hperm.length_eq, List.length_map]
    have hcounted : (List.range' (0 + 1) es.length).map k.tickText =
        (List.range c.results.length).map fun n => k.tickText (n + 1) := by
      rw [List.range'_eq_map_range, List.map_map, hlength, Nat.zero_add]
      exact List.map_congr_left fun n _ => congrArg k.tickText (Nat.add_comm 1 n)
    rw [hrecords, hp, hcounted]

end Check

end MarkdownFences
