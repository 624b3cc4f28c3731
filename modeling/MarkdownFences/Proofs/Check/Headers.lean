import MarkdownFences.Proofs.Admission.Endings
import MarkdownFences.Proofs.Check.Balance
import MarkdownFences.Proofs.Console.Transcript

namespace MarkdownFences

/-- What checks put on the console to stay there: the name of a file, or an issue. -/
inductive Mark where
  | header (file : Path)
  | issue (i : LanguageIssue)
  deriving DecidableEq, Repr

/-- The same files come one after another: what is between two that are the same is the same. -/
def Grouped (ps : List Path) : Prop := ∀ p q, [p, q, p].Sublist ps → q = p

theorem Grouped.sublist {ps qs : List Path} (h : Grouped ps) (hs : qs.Sublist ps) : Grouped qs :=
  fun p q hpqp => h p q (hpqp.trans hs)

theorem grouped_cons {p : Path} {ps : List Path} :
    Grouped (p :: ps) ↔ Grouped ps ∧ ∀ q, [q, p].Sublist ps → q = p := by
  constructor
  · exact fun h => ⟨h.sublist (List.sublist_cons_self p ps), fun q hs => h p q (hs.cons_cons p)⟩
  · rintro ⟨hgrouped, hfirst⟩ q m hs
    cases hs with
    | cons _ hs => exact hgrouped q m hs
    | cons_cons _ hs => exact hfirst m hs

theorem Grouped.append {p : Path} {ps qs : List Path} (hps : ∀ q ∈ ps, q = p) (hp : p ∉ qs)
    (h : Grouped qs) : Grouped (ps ++ qs) := by
  induction ps with
  | nil => exact h
  | cons q ps ih =>
    obtain ⟨rfl, hps⟩ := List.forall_mem_cons.mp hps
    refine grouped_cons.mpr ⟨ih hps, fun m hs => ?_⟩
    obtain ⟨front, back, heq, hfront, hback⟩ := List.sublist_append_iff.mp hs
    cases back with
    | nil =>
      rw [List.append_nil] at heq
      exact hps m (hfront.subset (heq ▸ List.mem_cons_self))
    | cons b back =>
      have hlast := congrArg List.getLast? heq
      rw [List.getLast?_append_of_ne_nil _ (List.cons_ne_nil b back)] at hlast
      exact absurd (hback.subset (List.mem_of_getLast? hlast.symm)) hp

namespace Mark

def text : Mark → Text
  | header p => p.text
  | issue i => (Issue.language i).render

def header? : Mark → Option Path
  | header p => some p
  | issue _ => none

def above (ms : List Mark) : Option Path := (ms.filterMap header?).getLast?

/-- The last header before each issue names its file. -/
def Attributed (ms : List Mark) : Prop :=
  ∀ before i after, ms = before ++ issue i :: after → above before = some i.file

/-- Issues one after another, and the name of a file before its first issue unless it stands on the
console already. -/
def ofIssues (headed : List Path) : List LanguageIssue → List Mark
  | [] => []
  | i :: is =>
    if headed.contains i.file then issue i :: ofIssues headed is
    else header i.file :: issue i :: ofIssues (headed ++ [i.file]) is

def named (headed : List Path) (is : List LanguageIssue) : List Path :=
  is.foldl (fun ps i => if ps.contains i.file then ps else ps ++ [i.file]) headed

variable {headed : List Path} {is js : List LanguageIssue} {i : LanguageIssue} {ms : List Mark}

theorem ofIssues_append (headed : List Path) (is js : List LanguageIssue) :
    ofIssues headed (is ++ js) = ofIssues headed is ++ ofIssues (named headed is) js := by
  induction is generalizing headed with
  | nil => rfl
  | cons i is ih =>
    simp only [List.cons_append, ofIssues, named, List.foldl_cons]
    split
    · rw [ih]
      rfl
    · rw [ih]
      rfl

theorem named_append (headed : List Path) (is js : List LanguageIssue) :
    named headed (is ++ js) = named (named headed is) js :=
  List.foldl_append

theorem nodup_headers (h : headed.Nodup) (is : List LanguageIssue) :
    (headed ++ (ofIssues headed is).filterMap header?).Nodup := by
  induction is generalizing headed with
  | nil => simpa [ofIssues] using h
  | cons i is ih =>
    rw [ofIssues]
    split
    case isTrue => exact ih h
    case isFalse hnew =>
      have hnodup : (headed ++ [i.file]).Nodup := by
        refine List.nodup_append.mpr ⟨h, List.nodup_singleton _, ?_⟩
        rintro p hp q hq rfl
        rw [List.mem_singleton.mp hq] at hp
        exact hnew (List.contains_iff_mem.mpr hp)
      have hrest := ih hnodup
      rw [List.append_assoc] at hrest
      exact hrest

/-- The last header before each issue names its file, where the one before all is given. -/
def Under (c : Option Path) (ms : List Mark) : Prop :=
  ∀ before i after, ms = before ++ issue i :: after → (above before).or c = some i.file

theorem attributed_iff : Attributed ms ↔ Under none ms := by
  simp only [Attributed, Under, Option.or_none]

variable {c : Option Path} {p : Path}

theorem under_nil (c : Option Path) : Under c [] := by
  intro before i after h
  simp at h

theorem under_issue : Under c (issue i :: ms) ↔ c = some i.file ∧ Under c ms := by
  constructor
  · intro h
    exact ⟨h [] i ms rfl,
      fun before j after hms => h (issue i :: before) j after (by rw [hms]; rfl)⟩
  · rintro ⟨hc, h⟩ before j after hms
    cases before with
    | nil =>
      obtain ⟨hj, -⟩ := List.cons.inj hms
      rw [← Mark.issue.inj hj]
      exact hc
    | cons m before =>
      obtain ⟨rfl, hrest⟩ := List.cons.inj hms
      exact h before j after hrest

theorem above_header (p : Path) (ms : List Mark) :
    above (header p :: ms) = (above ms).or (some p) := by
  have hcons : (header p :: ms).filterMap header? = p :: ms.filterMap header? := rfl
  rw [above, hcons, List.getLast?_cons, above]
  cases (ms.filterMap header?).getLast? <;> rfl

theorem under_header : Under c (header p :: ms) ↔ Under (some p) ms := by
  constructor
  · intro h before j after hms
    have hj := h (header p :: before) j after (by rw [hms]; rfl)
    rw [above_header] at hj
    cases habove : above before with
    | none => rw [habove] at hj; exact hj
    | some q => rw [habove] at hj; exact hj
  · intro h before j after hms
    cases before with
    | nil => cases (List.cons.inj hms).1
    | cons m before =>
      obtain ⟨rfl, hrest⟩ := List.cons.inj hms
      have hj := h before j after hrest
      rw [above_header]
      cases habove : above before with
      | none => rw [habove] at hj; exact hj
      | some q => rw [habove] at hj; exact hj

theorem under_ofIssues (hc : ∀ p, c = some p → p ∈ headed) :
    Under c (ofIssues headed is) ↔ Grouped (is.map (·.file)) ∧
      (∀ p ∈ is.map (·.file), p ∈ headed → c = some p) ∧
      ∀ q p, [q, p].Sublist (is.map (·.file)) → c = some p → q = p := by
  induction is generalizing headed c with
  | nil => simp [ofIssues, under_nil, Grouped]
  | cons i is ih =>
    rw [ofIssues, List.map_cons, grouped_cons]
    split
    case isTrue hi =>
      rw [List.contains_iff_mem] at hi
      rw [under_issue, ih hc]
      constructor
      · rintro ⟨rfl, hgrouped, hheaded, hlast⟩
        refine ⟨⟨hgrouped, fun q hs => hlast q _ hs rfl⟩,
          List.forall_mem_cons.mpr ⟨fun _ => rfl, hheaded⟩, fun q p hs heq => ?_⟩
        cases hs with
        | cons _ hs => exact hlast q p hs heq
        | cons_cons _ hs => exact Option.some.inj heq
      · rintro ⟨⟨hgrouped, -⟩, hheaded, hlast⟩
        obtain ⟨hi', hheaded⟩ := List.forall_mem_cons.mp hheaded
        exact ⟨hi' hi, hgrouped, hheaded, fun q p hs => hlast q p (hs.cons _)⟩
    case isFalse hi =>
      rw [List.contains_iff_mem] at hi
      rw [under_header, under_issue, ih (by simp)]
      constructor
      · rintro ⟨-, hgrouped, hheaded, hlast⟩
        -- a file named before would have to be this one
        have hnew (p : Path) (hp : p ∈ is.map (·.file)) : p ∉ headed := by
          intro hmem
          have heq := Option.some.inj (hheaded p hp (List.mem_append_left _ hmem))
          exact hi (heq ▸ hmem)
        refine ⟨⟨hgrouped, fun q hs => hlast q _ hs rfl⟩, ?_, fun q p hs heq => ?_⟩
        · exact List.forall_mem_cons.mpr ⟨fun h => absurd h hi, fun p hp h => absurd h (hnew p hp)⟩
        · have hp : p ∈ is.map (·.file) := by
            cases hs with
            | cons _ hs => exact hs.subset (by simp)
            | cons_cons _ hs => exact hs.subset (by simp)
          exact absurd (hc p heq) (hnew p hp)
      · rintro ⟨⟨hgrouped, hfirst⟩, hheaded, hlast⟩
        refine ⟨rfl, hgrouped, fun p hp hmem => ?_, fun q p hs heq => ?_⟩
        · obtain hmem | hmem := List.mem_append.mp hmem
          · have hcp := hheaded p (List.mem_cons_of_mem _ hp) hmem
            obtain rfl := hlast i.file p ((List.singleton_sublist.mpr hp).cons_cons _) hcp
            exact absurd hmem hi
          · rw [List.mem_singleton.mp hmem]
        · obtain rfl := Option.some.inj heq
          exact hfirst q hs

/-- Every issue stands under its own header just if the issues of each file come one after
another. -/
theorem attributed_ofIssues (is : List LanguageIssue) :
    Attributed (ofIssues [] is) ↔ Grouped (is.map (·.file)) := by
  rw [attributed_iff, under_ofIssues (c := none) (by simp)]
  simp

end Mark

namespace Check

open Admission (Course Ending)
open Mark (ofIssues named)

variable {τ ρ : Type} {k : Check τ ρ} {b : Block} {s s' s'' : State τ}
variable {is js : List LanguageIssue}

/-- From one state to the other these issues have been put on the console. -/
structure Shows (s s' : State τ) (is : List LanguageIssue) : Prop where
  lines : s'.console.lines = s.console.lines ++ (ofIssues s.headed is).map Mark.text
  headed : s'.headed = named s.headed is

theorem Shows.trans (h : Shows s s' is) (h' : Shows s' s'' js) : Shows s s'' (is ++ js) where
  lines := by
    rw [h'.lines, h.lines, h.headed, Mark.ofIssues_append, List.map_append, List.append_assoc]
  headed := by rw [h'.headed, h.headed, Mark.named_append]

def Still (s s' : State τ) : Prop :=
  s'.console.lines = s.console.lines ∧ s'.headed = s.headed

theorem Still.shows (h : Still s s') : Shows s s' [] :=
  ⟨h.1.trans (List.append_nil _).symm, h.2⟩

theorem still_tick (k : Check τ ρ) (s : State τ) : Still s (s.tick k) :=
  ⟨Console.lines_progress _ _, rfl⟩

theorem still_prepare (k : Check τ ρ) (s : State τ) (b : Block) : Still s (k.prepare s b).1 := by
  rw [prepare_frame]
  exact ⟨rfl, rfl⟩

theorem shows_report (s : State τ) (i : LanguageIssue) : Shows s (s.report i) [i] := by
  rw [State.report, State.head]
  by_cases hi : i.file ∈ s.headed
  · constructor <;> simp [ofIssues, named, hi, Console.lines_emit, Mark.text]
  · constructor <;> simp [ofIssues, named, hi, Console.lines_emit, Mark.text]

theorem shows_settle (k : Check τ ρ) (s : State τ) (b : Block) (p : Purpose) (l : Language) :
    Shows s (k.settle s b p l).1 (k.settle s b p l).2.issue.toList := by
  have hsettles := k.settles s b p l
  generalize k.settle s b p l = out at hsettles
  cases hsettles with
  | tagged | agrees => exact Still.shows ⟨rfl, rfl⟩
  | differs => exact shows_report s _

theorem shows_conclude (k : Check τ ρ) (s : State τ) (b : Block) (p : Purpose)
    (r : Except Fault Language) :
    Shows s (k.conclude s b p r).1 (issue? (k.conclude s b p r).2).toList := by
  cases r with
  | error e => exact (still_tick k s).shows
  | ok l =>
    have hshows := (shows_settle k s b p l).trans (still_tick k _).shows
    rw [List.append_nil] at hshows
    exact hshows

def issuesOf (es : List (Except Fault Finding × Nat)) : List LanguageIssue :=
  es.filterMap fun e => issue? e.1

theorem issuesOf_append (es fs : List (Except Fault Finding × Nat)) :
    issuesOf (es ++ fs) = issuesOf es ++ issuesOf fs :=
  List.filterMap_append

theorem issuesOf_singleton (r : Except Fault Finding) (i : Nat) :
    issuesOf [(r, i)] = (issue? r).toList := by
  rw [issuesOf, List.filterMap_cons]
  cases issue? r <;> rfl

theorem still_noted (delay : Nat → Block → Nat) (s : State τ) (i : Nat) (r : Except Fault Finding) :
    Still s ((k.worker delay).noted s i r) := by
  cases r <;> exact ⟨rfl, rfl⟩

theorem shows_ending (delay : Nat → Block → Nat) {bs : List Block}
    {c d : Course (State τ) (Pending ρ) Finding} {es : List (Except Fault Finding × Nat)}
    (h : Ending (k.worker delay) bs c es d) : Shows c.shared d.shared (issuesOf es) := by
  have hnoted {s : State τ} {i : Nat} {r : Except Fault Finding}
      (hs : Shows c.shared s (issue? r).toList) :
      Shows c.shared ((k.worker delay).noted s i r) (issuesOf [(r, i)]) := by
    rw [issuesOf_singleton, ← List.append_nil (issue? r).toList]
    exact hs.trans (still_noted delay s i r).shows
  cases h with
  | @ends i b shared r hb hi hs =>
    refine hnoted ?_
    have hstarts := k.starts delay c.shared i b
    have hstill := still_prepare k c.shared b
    rw [hs] at hstarts
    cases hstarts with
    | @settled s' f hp =>
      rw [hp] at hstill
      have hnone : issue? (.ok f) = none := issue_of_settled (purpose_of_prepare hp)
      rw [hnone]
      exact hstill.shows.trans (still_tick k _).shows
    | @answered s' p classifier r hp hc =>
      rw [hp] at hstill
      have hanswered : Still c.shared { s' with classifier } := ⟨hstill.1, hstill.2⟩
      exact hanswered.shows.trans (shows_conclude k _ b p r)
  | @waits i b shared q hb hi hs =>
    have hstarts := k.starts delay c.shared i b
    have hstill := still_prepare k c.shared b
    rw [hs] at hstarts
    cases hstarts with
    | asked hp hc =>
      rw [hp] at hstill
      exact Still.shows ⟨hstill.1, hstill.2⟩
  | @goesOn i b q shared r hb hi hs =>
    refine hnoted ?_
    obtain ⟨rfl, rfl⟩ := Prod.mk.inj hs
    have hclassifier : Still c.shared { c.shared with
        classifier := (k.classifier.finish c.shared.classifier q.question).1 } := ⟨rfl, rfl⟩
    exact hclassifier.shows.trans (shows_conclude k _ b q.purpose _)

theorem run_shows {limit : Nat} (hl : 0 < limit) (k : Check τ ρ) (delay : Nat → Block → Nat)
    (s : State τ) (bs : List Block) :
    Shows s (Admission.run (k.worker delay) limit 0 s bs).shared
      (issuesOf (Admission.endings (k.worker delay) limit 0 s bs)) := by
  refine Admission.endings_induction (fun c es => Shows s c.shared (issuesOf es)) hl
    (Still.shows ⟨rfl, rfl⟩) (fun c es fs d h hstep => ?_) 0
  rw [issuesOf_append]
  exact h.trans (shows_ending delay hstep)

theorem issuesOf_zipIdx (rs : List (Except Fault Finding)) :
    issuesOf rs.zipIdx = rs.filterMap issue? := by
  conv_rhs => rw [← List.zipIdx_map_fst 0 rs, List.filterMap_map]
  rfl

theorem file_of_comesTo {f : Finding} {i : LanguageIssue} (h : k.ComesTo b f)
    (hi : f.issue = some i) : i.file = b.file := by
  cases h.isOf with
  | clean => cases hi
  | untagged l hb => cases hi
  | mismatch declared l j hj =>
    obtain rfl := Option.some.inj hi
    exact congrArg Prod.fst (Block.place_of_mismatch hj).1

theorem files_sublist {rs : List (Except Fault Finding)} {bs : List Block}
    (h : List.Forall₂ (fun b r => ∀ f, r = .ok f → k.ComesTo b f) bs rs) :
    ((rs.filterMap issue?).map (·.file)).Sublist (bs.map (·.file)) := by
  induction h with
  | nil => exact .slnil
  | @cons b r bs rs hr _ ih =>
    rw [List.filterMap_cons]
    cases hi : issue? r with
    | none => exact ih.cons b.file
    | some i =>
      cases r with
      | error e => cases hi
      | ok f =>
        simp only [List.map_cons, file_of_comesTo (hr f rfl) hi]
        exact ih.cons_cons b.file

end Check

end MarkdownFences
