import MarkdownFences.Proofs.Classifier.Calls

namespace MarkdownFences.Classifier

open Admission (Stage Course Move Moves)

variable {τ ρ : Type} {c : Classifier τ ρ} {ts : List Text} {t u : Text} {i : Nat}
variable {known known' : List (Text × Language)} {s : State τ} {l l' : Language}
variable {x y : Course (State τ) (Pending ρ) Language} {stage stage' : Stage (Pending ρ) Language}
variable {delay : Nat → Text → Nat} {told : Nat → Fault → List Log.Entry}

/-- A language that content may be found to be in, some answer being given. -/
def MayFind (c : Classifier τ ρ) (t : Text) (l : Language) : Prop :=
  ∃ guess opinion, Snippet.guess t = .ok guess ∧ c.MayGive t (.ok opinion) ∧
    l = reconcile guess opinion t

/-- A call on content begins while another one on it waits for its answer. -/
def Overlaps (ts : List Text) (t : Text) (x y : Course (State τ) (Pending ρ) Language) : Prop :=
  (∃ i : Nat, ts[i]? = some t ∧ x.stages[i]? = some .idle ∧ y.stages[i]? ≠ some .idle) ∧
    ∃ (j : Nat) (p : Pending ρ), ts[j]? = some t ∧ x.stages[j]? = some (.waiting p)

/-- How far one step takes a call, and what is known then. -/
inductive Steps (c : Classifier τ ρ) (known : List (Text × Language)) (t : Text) :
    Stage (Pending ρ) Language → List (Text × Language) → Stage (Pending ρ) Language → Prop
  | ends {known' : List (Text × Language)} {r : Except Fault Language}
      (h : c.Begins known t known' (.done r)) : Steps c known t .idle known' (.done r)
  | waits {known' : List (Text × Language)} {p : Pending ρ}
      (h : c.Begins known t known' (.waiting p)) : Steps c known t .idle known' (.waiting p)
  | goesOn {known' : List (Text × Language)} {p : Pending ρ} {r : Except Fault Language}
      (h : p.Asks c t → c.Ends known t p.guess known' r) :
      Steps c known t (.waiting p) known' (.done r)

theorem exists_steps (h : Move (c.calls delay told) ts x y) :
    ∃ (i : Nat) (t : Text) (stage stage' : Stage (Pending ρ) Language),
      ts[i]? = some t ∧ x.stages[i]? = some stage ∧ y.stages = x.stages.set i stage' ∧
      c.Steps x.shared.memo.entries t stage y.shared.memo.entries stage' := by
  cases h with
  | @ends i t s r ht hi hs =>
    have hbegins := c.start_begins x.shared t
    refine ⟨i, t, _, _, ht, hi, rfl, .ends ?_⟩
    rw [noted_memo]
    rwa [show c.start x.shared t = (s, .done r) from hs] at hbegins
  | @waits i t s p ht hi hs =>
    have hbegins := c.start_begins x.shared t
    refine ⟨i, t, _, _, ht, hi, rfl, .waits ?_⟩
    rwa [show c.start x.shared t = (s, .waiting p) from hs] at hbegins
  | @goesOn i t p s r ht hi hs =>
    refine ⟨i, t, _, _, ht, hi, rfl, .goesOn fun hp => ?_⟩
    have hends := finish_ends hp x.shared
    rw [noted_memo]
    rwa [show c.finish x.shared p = (s, r) from hs] at hends

/-! ### What calls may come to -/

/-- What may be said of a call however the others go on. -/
def MayReach (c : Classifier τ ρ) (t : Text) : Stage (Pending ρ) Language → Prop
  | .idle => True
  | .waiting p => p.Asks c t
  | .done r => ∀ l, r = .ok l → c.MayFind t l

theorem Begins.mayFind {turn : Turn (Pending ρ) (Except Fault Language)}
    (h : c.Begins known t known' turn)
    (hk : ∀ l, known.lookup (c.digest t) = some l → c.MayFind t l) :
    (known' = known ∨ ∃ l, c.MayFind t l ∧ known' = Memo.insert (c.digest t) l known) ∧
      (∀ l, turn = .done (.ok l) → c.MayFind t l) ∧ ∀ p, turn = .waiting p → p.Asks c t := by
  cases h with
  | remembered hl =>
    refine ⟨.inl rfl, fun l h => ?_, nofun⟩
    obtain rfl := Except.ok.inj (Turn.done.inj h)
    exact hk _ hl
  | unguessed => exact ⟨.inl rfl, nofun, nofun⟩
  | found _ hg ho =>
    have hfind : c.MayFind t (reconcile _ _ t) := ⟨_, _, hg, ho, rfl⟩
    refine ⟨.inr ⟨_, hfind, rfl⟩, fun l h => ?_, nofun⟩
    obtain rfl := Except.ok.inj (Turn.done.inj h)
    exact hfind
  | asked _ hp =>
    refine ⟨.inl rfl, nofun, fun p h => ?_⟩
    obtain rfl := Turn.waiting.inj h
    exact hp

theorem Ends.mayFind {p : Pending ρ} {r : Except Fault Language} (hp : p.Asks c t)
    (h : c.Ends known t p.guess known' r) :
    (known' = known ∨ ∃ l, c.MayFind t l ∧ known' = Memo.insert (c.digest t) l known) ∧
      ∀ l, r = .ok l → c.MayFind t l := by
  cases h with
  | failed => exact ⟨.inl rfl, nofun⟩
  | found ho =>
    have hfind : c.MayFind t (reconcile _ _ t) := ⟨_, _, hp.guess, ho, rfl⟩
    refine ⟨.inr ⟨_, hfind, rfl⟩, fun l h => ?_⟩
    obtain rfl := Except.ok.inj h
    exact hfind

theorem Steps.mayReach (h : c.Steps known t stage known' stage') (hstage : MayReach c t stage)
    (hk : ∀ l, known.lookup (c.digest t) = some l → c.MayFind t l) :
    (known' = known ∨ ∃ l, c.MayFind t l ∧ known' = Memo.insert (c.digest t) l known) ∧
      MayReach c t stage' := by
  cases h with
  | ends h =>
    obtain ⟨hknown, hdone, -⟩ := h.mayFind hk
    refine ⟨hknown, fun l hl => hdone l ?_⟩
    rw [hl]
  | waits h =>
    obtain ⟨hknown, -, hwaiting⟩ := h.mayFind hk
    exact ⟨hknown, hwaiting _ rfl⟩
  | goesOn h => exact (h hstage).mayFind hstage

structure Founded (c : Classifier τ ρ) (ts : List Text)
    (x : Course (State τ) (Pending ρ) Language) : Prop where
  memo : ∀ t ∈ ts, ∀ l, x.shared.memo.entries.lookup (c.digest t) = some l → c.MayFind t l
  stages : x.Each (fun _ t stage => MayReach c t stage) ts

theorem founded_start (hs : s.memo.entries = []) : Founded c ts (Course.start s ts) := by
  refine ⟨?_, Course.each_start (fun _ _ => trivial) s ts⟩
  intro t _ l hl
  rw [Course.start, hs] at hl
  cases hl

theorem Founded.move (hd : ∀ a ∈ ts, ∀ b ∈ ts, c.digest a = c.digest b → a = b)
    (h : Founded c ts x) (hm : Move (c.calls delay told) ts x y) : Founded c ts y := by
  obtain ⟨i, t, stage, stage', ht, hi, hstages, hsteps⟩ := exists_steps hm
  have hmem := List.mem_of_getElem? ht
  obtain ⟨hknown, hstage⟩ := hsteps.mayReach (h.stages i t stage ht hi) (h.memo t hmem)
  constructor
  · obtain hknown | ⟨l, hl, hknown⟩ := hknown
    · rw [hknown]
      exact h.memo
    · intro u hu l' hl'
      rw [hknown, Memo.lookup_insert] at hl'
      by_cases heq : c.digest u = c.digest t
      · rw [if_pos heq] at hl'
        rw [hd u hu t hmem heq, ← Option.some.inj hl']
        exact hl
      · rw [if_neg heq] at hl'
        exact h.memo u hu l' hl'
  · exact h.stages.of_set ht hstage hstages

/-! ### Calls that do not overlap -/

/-- Of the calls on one content none overlapped: what one of them came to is remembered, and while
one of them waits there is nothing to remember and no other one that waits. -/
structure Agreed (c : Classifier τ ρ) (ts : List Text) (t : Text)
    (x : Course (State τ) (Pending ρ) Language) : Prop where
  found : ∀ (i : Nat) l, ts[i]? = some t → x.stages[i]? = some (.done (.ok l)) →
    x.shared.memo.entries.lookup (c.digest t) = some l
  unknown : ∀ (i : Nat) p, ts[i]? = some t → x.stages[i]? = some (.waiting p) →
    x.shared.memo.entries.lookup (c.digest t) = none
  alone : ∀ (i j : Nat) p q, ts[i]? = some t → ts[j]? = some t →
    x.stages[i]? = some (.waiting p) → x.stages[j]? = some (.waiting q) → i = j

theorem agreed_start (c : Classifier τ ρ) (ts : List Text) (t : Text) (s : State τ) :
    Agreed c ts t (Course.start s ts) := by
  have hidle (i : Nat) (stage : Stage (Pending ρ) Language)
      (hi : (Course.start s ts : Course _ (Pending ρ) Language).stages[i]? = some stage) :
      stage = .idle := by
    obtain ⟨_, -, rfl⟩ := List.mem_map.mp (List.mem_of_getElem? hi)
    rfl
  constructor
  · intro i l _ hi
    cases hidle i _ hi
  · intro i p _ hi
    cases hidle i _ hi
  · intro i j p q _ _ hi
    cases hidle i _ hi

namespace Agreed

variable (h : Agreed c ts t x) (hstages : y.stages = x.stages.set i stage)

include h hstages

theorem other (hu : ts[i]? = some u) (hne : u ≠ t)
    (hm : y.shared.memo.entries.lookup (c.digest t) = x.shared.memo.entries.lookup (c.digest t)) :
    Agreed c ts t y := by
  have hsame (j : Nat) (ht : ts[j]? = some t) : y.stages[j]? = x.stages[j]? := by
    rw [hstages, List.getElem?_set_ne]
    rintro rfl
    exact hne (Option.some.inj (hu.symm.trans ht))
  constructor
  · intro j l ht hj
    rw [hm]
    exact h.found j l ht (hsame j ht ▸ hj)
  · intro j p ht hj
    rw [hm]
    exact h.unknown j p ht (hsame j ht ▸ hj)
  · intro j k p q htj htk hj hk
    exact h.alone j k p q htj htk (hsame j htj ▸ hj) (hsame k htk ▸ hk)

theorem set (halone : ∀ (j : Nat) p, ts[j]? = some t → x.stages[j]? = some (.waiting p) → j = i)
    (hkept : ∀ l, x.shared.memo.entries.lookup (c.digest t) = some l →
      y.shared.memo.entries.lookup (c.digest t) = some l)
    (hfound : ∀ l, stage = .done (.ok l) → y.shared.memo.entries.lookup (c.digest t) = some l)
    (hwaits : ∀ p, stage = .waiting p → y.shared.memo.entries.lookup (c.digest t) = none) :
    Agreed c ts t y := by
  have hother (j : Nat) (hne : j ≠ i) : y.stages[j]? = x.stages[j]? := by
    rw [hstages, List.getElem?_set_ne hne.symm]
  have hself (stage' : Stage (Pending ρ) Language) (hi : y.stages[i]? = some stage') :
      stage = stage' := by
    rw [hstages, List.getElem?_set, if_pos rfl] at hi
    split at hi
    · exact Option.some.inj hi
    · cases hi
  have hwaiting (j : Nat) (p : Pending ρ) (ht : ts[j]? = some t)
      (hj : y.stages[j]? = some (.waiting p)) : j = i := by
    by_cases hne : j = i
    · exact hne
    · exact halone j p ht (hother j hne ▸ hj)
  constructor
  · intro j l ht hj
    by_cases hne : j = i
    · subst hne
      exact hfound l (hself _ hj)
    · exact hkept l (h.found j l ht (hother j hne ▸ hj))
  · intro j p ht hj
    obtain rfl := hwaiting j p ht hj
    exact hwaits p (hself _ hj)
  · intro j k p q htj htk hj hk
    rw [hwaiting j p htj hj, hwaiting k q htk hk]

end Agreed

theorem Steps.lookup_of_ne (h : c.Steps known u stage known' stage') (hstage : MayReach c u stage)
    (hne : c.digest u ≠ c.digest t) :
    known'.lookup (c.digest t) = known.lookup (c.digest t) := by
  have hinsert (l : Language) :
      (Memo.insert (c.digest u) l known).lookup (c.digest t) = known.lookup (c.digest t) := by
    rw [Memo.lookup_insert, if_neg hne.symm]
  cases h with
  | ends h =>
    cases h with
    | remembered => rfl
    | unguessed => rfl
    | found => exact hinsert _
  | waits h =>
    cases h with
    | asked => rfl
  | goesOn h =>
    cases h hstage with
    | failed => rfl
    | found => exact hinsert _

theorem Steps.ne_idle (h : c.Steps known t stage known' stage') : stage' ≠ .idle := by
  cases h <;> exact nofun

theorem Steps.lookup (h : c.Steps known t stage known' stage') (hstage : MayReach c t stage)
    (hwaiting : ∀ p, stage = .waiting p → known.lookup (c.digest t) = none) :
    (∀ l, known.lookup (c.digest t) = some l → known'.lookup (c.digest t) = some l) ∧
      (∀ l, stage' = .done (.ok l) → known'.lookup (c.digest t) = some l) ∧
      ∀ p, stage' = .waiting p → known'.lookup (c.digest t) = none := by
  have hfound (hk : known.lookup (c.digest t) = none) (l : Language) :
      (∀ l', known.lookup (c.digest t) = some l' →
        (Memo.insert (c.digest t) l known).lookup (c.digest t) = some l') ∧
      (∀ l', (.done (.ok l) : Stage (Pending ρ) Language) = .done (.ok l') →
        (Memo.insert (c.digest t) l known).lookup (c.digest t) = some l') ∧
      ∀ p, (.done (.ok l) : Stage (Pending ρ) Language) = .waiting p →
        (Memo.insert (c.digest t) l known).lookup (c.digest t) = none := by
    refine ⟨fun l' hl' => ?_, fun l' hl' => ?_, nofun⟩
    · rw [hk] at hl'
      cases hl'
    · obtain rfl := Except.ok.inj (Stage.done.inj hl')
      rw [Memo.lookup_insert, if_pos rfl]
  cases h with
  | ends h =>
    cases h with
    | remembered hk =>
      refine ⟨fun _ => id, fun l hl => ?_, nofun⟩
      obtain rfl := Except.ok.inj (Stage.done.inj hl)
      exact hk
    | unguessed => exact ⟨fun _ => id, nofun, nofun⟩
    | found hk => exact hfound hk _
  | waits h =>
    cases h with
    | asked hk => exact ⟨fun _ => id, nofun, fun _ _ => hk⟩
  | goesOn h =>
    cases h hstage with
    | failed => exact ⟨fun _ => id, nofun, nofun⟩
    | found => exact hfound (hwaiting _ rfl) _

theorem Agreed.move (hd : ∀ a ∈ ts, ∀ b ∈ ts, c.digest a = c.digest b → a = b) (ht : t ∈ ts)
    (hreach : x.Each (fun _ t stage => MayReach c t stage) ts) (h : Agreed c ts t x)
    (hm : Move (c.calls delay told) ts x y) (hn : ¬ Overlaps ts t x y) : Agreed c ts t y := by
  obtain ⟨i, u, stage, stage', hu, hi, hstages, hsteps⟩ := exists_steps hm
  have hstage : MayReach c u stage := hreach i u stage hu hi
  by_cases heq : u = t
  · subst heq
    -- a call that begins finds nobody waiting, and one that goes on is the only one that waits
    have halone (j : Nat) (p : Pending ρ) (hj : ts[j]? = some u)
        (hwaiting : x.stages[j]? = some (.waiting p)) : j = i := by
      cases stage with
      | idle =>
        refine absurd ⟨⟨i, hu, hi, ?_⟩, j, p, hj, hwaiting⟩ hn
        rw [hstages, List.getElem?_set_self (List.getElem?_eq_some_iff.mp hi).1]
        exact fun h => hsteps.ne_idle (Option.some.inj h)
      | waiting q => exact h.alone j i p q hj hu hwaiting hi
      | done r => cases hsteps
    obtain ⟨hkept, hfound, hwaits⟩ := hsteps.lookup hstage fun p hp => h.unknown i p hu (hp ▸ hi)
    exact h.set hstages halone hkept hfound hwaits
  · refine h.other hstages hu heq (hsteps.lookup_of_ne hstage fun hdigest => ?_)
    exact heq (hd u (List.mem_of_getElem? hu) t ht hdigest)

/-- Some way leads from one course to another on which no calls on the content overlap. -/
def Spaced (w : Worker (State τ) Text (Pending ρ) Language) (ts : List Text) (t : Text) :
    Course (State τ) (Pending ρ) Language → Course (State τ) (Pending ρ) Language → Prop :=
  Relation.ReflTransGen fun x y => Move w ts x y ∧ ¬ Overlaps ts t x y

theorem Spaced.moves {w : Worker (State τ) Text (Pending ρ) Language}
    (h : Spaced w ts t x y) : Moves w ts x y :=
  Relation.ReflTransGen.mono (fun _ _ => And.left) _ _ h

section Course

variable (hd : ∀ a ∈ ts, ∀ b ∈ ts, c.digest a = c.digest b → a = b) (hs : s.memo.entries = [])

include hd hs

theorem founded_of_moves (h : Moves (c.calls delay told) ts (Course.start s ts) x) :
    Founded c ts x :=
  h.keeps (fun _ _ h hm => h.move hd hm) (founded_start hs)

theorem agreed_of_spaced (ht : t ∈ ts)
    (h : Spaced (c.calls delay told) ts t (Course.start s ts) x) : Agreed c ts t x := by
  induction h with
  | refl => exact agreed_start c ts t s
  | tail hx hm ih =>
    have hreach := (founded_of_moves hd hs (Spaced.moves hx)).stages
    exact ih.move hd ht hreach hm.1 hm.2

/-- Calls on equal content come to one language, unless one of them began while another one waited
and there are answers that come to different ones. -/
theorem agree_unless_overlapping (h : Moves (c.calls delay told) ts (Course.start s ts) x)
    {i j : Nat} (hi : ts[i]? = some t) (hj : ts[j]? = some t)
    (hl : x.stages[i]? = some (.done (.ok l))) (hl' : x.stages[j]? = some (.done (.ok l'))) :
    l = l' ∨ ¬ Spaced (c.calls delay told) ts t (Course.start s ts) x ∧
      c.MayFind t l ∧ c.MayFind t l' := by
  by_cases hspaced : Spaced (c.calls delay told) ts t (Course.start s ts) x
  · have hagreed := agreed_of_spaced hd hs (List.mem_of_getElem? hi) hspaced
    exact .inl (Option.some.inj ((hagreed.found i l hi hl).symm.trans (hagreed.found j l' hj hl')))
  · have hstages := (founded_of_moves hd hs h).stages
    exact .inr ⟨hspaced, hstages i t _ hi hl l rfl, hstages j t _ hj hl' l' rfl⟩

end Course

end MarkdownFences.Classifier
