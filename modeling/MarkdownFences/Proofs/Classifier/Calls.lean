import MarkdownFences.Proofs.Admission.Course
import MarkdownFences.Proofs.Admission.Pass
import MarkdownFences.Proofs.Classifier.Recall

namespace MarkdownFences.Classifier

open Admission (Stage Course Move Moves)

variable {τ ρ : Type} {c : Classifier τ ρ} {f : Text → Except Fault (Option Language)}
variable {ts : List Text} {x y : Course (State τ) (Pending ρ) Language}
variable {delay : Nat → Text → Nat} {told : Nat → Fault → List Log.Entry}

/-- Calls of a classifier, all of them on one memo, as units of work. Something may be told of those
that fail. -/
def calls (c : Classifier τ ρ) (delay : Nat → Text → Nat) (told : Nat → Fault → List Log.Entry) :
    Worker (State τ) Text (Pending ρ) Language where
  delay
  start := fun s _ t => c.start s t
  finish := fun s _ _ p => c.finish s p
  failed := fun s i e => s.note (told i e)

theorem noted_memo (s : State τ) (i : Nat) (r : Except Fault Language) :
    ((c.calls delay told).noted s i r).memo = s.memo := by
  cases r <;> rfl

def Pursues (c : Classifier τ ρ) (f : Text → Except Fault (Option Language)) (t : Text) :
    Stage (Pending ρ) Language → Prop
  | .idle => True
  | .waiting p => p.Awaits c f t
  | .done r => r = judge f t

/-- The memo and the calls at any time. -/
structure Faithful (c : Classifier τ ρ) (f : Text → Except Fault (Option Language))
    (ts : List Text) (x : Course (State τ) (Pending ρ) Language) : Prop where
  memo : Recalls c.digest f ts x.shared.memo.entries
  stages : x.Each (fun _ t stage => Pursues c f t stage) ts

theorem faithful_start {s : State τ} (hs : s.memo.entries = []) :
    Faithful c f ts (Course.start s ts) := by
  refine ⟨?_, Course.each_start (fun _ _ => trivial) s ts⟩
  rw [Course.start, hs]
  exact recalls_nil _ _ _

section Steps

variable (hf : c.Opines f) (hd : ∀ a ∈ ts, ∀ b ∈ ts, c.digest a = c.digest b → a = b)

include hf hd

/-- A call that has to wait may find the memo changed when it goes on. What it remembers then is
what is remembered already, if anything is. -/
theorem Faithful.move (h : Faithful c f ts x) (hm : Move (c.calls delay told) ts x y) :
    Faithful c f ts y := by
  cases hm with
  | ends ht _ hs =>
    obtain ⟨hmemo, hdone, -⟩ := start_recalls hf hd h.memo (List.mem_of_getElem? ht) hs
    refine ⟨?_, h.stages.set ht ?_ _⟩
    · rw [noted_memo]
      exact hmemo
    · exact hdone _ rfl
  | waits ht _ hs =>
    obtain ⟨hmemo, -, hwaiting⟩ := start_recalls hf hd h.memo (List.mem_of_getElem? ht) hs
    refine ⟨hmemo, h.stages.set ht ?_ _⟩
    exact hwaiting _ rfl
  | goesOn ht hi hs =>
    obtain ⟨hmemo, hr⟩ :=
      finish_recalls hf hd h.memo (List.mem_of_getElem? ht) (h.stages _ _ _ ht hi) hs
    refine ⟨?_, h.stages.set ht ?_ _⟩
    · rw [noted_memo]
      exact hmemo
    · exact hr

theorem Faithful.begins (h : Faithful c f ts x) {i : Nat} {t : Text} (ht : ts[i]? = some t)
    (hi : x.stages[i]? = some .idle) : ∃ y, Move (c.calls delay told) ts x y ∧
      (y.stages[i]? = some (.done (judge f t)) ∨ ∃ p, y.stages[i]? = some (.waiting p)) := by
  have hlt := (List.getElem?_eq_some_iff.mp hi).1
  obtain ⟨s, turn, hs⟩ : ∃ s turn, c.start x.shared t = (s, turn) := ⟨_, _, rfl⟩
  cases turn with
  | done r =>
    obtain ⟨-, hdone, -⟩ := start_recalls hf hd h.memo (List.mem_of_getElem? ht) hs
    refine ⟨_, .ends ht hi hs, .inl ?_⟩
    rw [List.getElem?_set_self hlt, hdone r rfl]
  | waiting p => exact ⟨_, .waits ht hi hs, .inr ⟨p, List.getElem?_set_self hlt⟩⟩

theorem Faithful.ends (h : Faithful c f ts x) {i : Nat} {t : Text} (ht : ts[i]? = some t)
    {p : Pending ρ} (hi : x.stages[i]? = some (.waiting p)) :
    ∃ y, Move (c.calls delay told) ts x y ∧ y.stages[i]? = some (.done (judge f t)) := by
  have hlt := (List.getElem?_eq_some_iff.mp hi).1
  obtain ⟨s, r, hs⟩ : ∃ s r, c.finish x.shared p = (s, r) := ⟨_, _, rfl⟩
  obtain ⟨-, hr⟩ :=
    finish_recalls hf hd h.memo (List.mem_of_getElem? ht) (h.stages i t _ ht hi) hs
  refine ⟨_, .goesOn ht hi hs, ?_⟩
  rw [List.getElem?_set_self hlt, hr]

end Steps

theorem judge_of_unadvised (hf : c.Opines f) (ha : c.advisor = none) (t : Text) :
    judge f t = (Snippet.guess t).mapError tooDeep := by
  have hnone : f = fun _ => .ok none := by
    funext u
    have hu : ∀ u, f u = .ok none := by simpa [Opines, ha] using hf
    exact hu u
  rw [hnone, judge_none]

/-- However calls on one memo come between each other, each of them comes to what is found for its
content by itself. Nothing keeps it from that: its first step is its last one or lets it wait, and
there is no third. So it is with any number of calls at a time. -/
theorem calls_transparent (hf : c.Opines f)
    (hd : ∀ a ∈ ts, ∀ b ∈ ts, c.digest a = c.digest b → a = b) {s : State τ}
    (hs : s.memo.entries = []) (h : Moves (c.calls delay told) ts (Course.start s ts) x) :
    (∀ (i : Nat) t r, ts[i]? = some t → x.stages[i]? = some (.done r) → r = judge f t) ∧
    (∀ (i : Nat) t, ts[i]? = some t → x.stages[i]? = some .idle →
      ∃ y, Move (c.calls delay told) ts x y ∧
      (y.stages[i]? = some (.done (judge f t)) ∨ ∃ p, y.stages[i]? = some (.waiting p))) ∧
    (∀ (i : Nat) t p, ts[i]? = some t → x.stages[i]? = some (.waiting p) →
      ∃ y, Move (c.calls delay told) ts x y ∧ y.stages[i]? = some (.done (judge f t))) ∧
    (∀ limit, 0 < limit →
      (Admission.run (c.calls delay told) limit 0 s ts).outcomes = ts.map (judge f)) ∧
    (c.advisor = none → ∀ t, judge f t = (Snippet.guess t).mapError tooDeep) := by
  have hfaithful : Faithful c f ts x :=
    h.keeps (fun _ _ h hm => h.move hf hd hm) (faithful_start hs)
  refine ⟨fun i t r ht hi => hfaithful.stages i t _ ht hi, fun i t ht hi => ?_,
    fun i t p ht hi => ?_, fun limit hl => ?_, judge_of_unadvised hf⟩
  · exact hfaithful.begins hf hd ht hi
  · exact hfaithful.ends hf hd ht hi
  · have hend := Admission.run_induction (w := c.calls delay told) (Faithful c f ts) hl
      (faithful_start hs) (fun _ _ h hm => h.move hf hd hm) 0
    exact Admission.outcomes_eq_map hl (fun _ _ _ hr => hr) hend.stages

/-- Of three calls two are on the same content, and neither finds it in the memo; the advisor fails
the third. -/
theorem calls_transparent_two_alike :
    let answer : Text → Except Fault (Option Language) := fun t =>
      if t = "no".toList then .error ⟨"RuntimeError", .other, none, []⟩ else .ok (some .bash)
    let c : Classifier Unit Text := ⟨id, some (.waiting answer)⟩
    let ts := ["const x = 1", "no", "const x = 1"].map String.toList
    let w := c.calls (fun i _ => 3 - i) fun _ _ => []
    ∃ x, Moves w ts (Course.start ⟨.empty, (), []⟩ ts) x ∧
      x.shared.memo.stats = ⟨0, 3⟩ ∧ x.stages = (ts.map (judge answer)).map .done ∧
      ts.map (fun t => (judge answer t).toOption) = [some .bash, none, some .bash] := by
  intro answer c ts w
  have hf : c.Opines answer := Advisor.waiting_answers answer
  have hd : ∀ a ∈ ts, ∀ b ∈ ts, c.digest a = c.digest b → a = b := fun _ _ _ _ h => h
  obtain ⟨x, hx, htracks, hstages⟩ :=
    Admission.exists_course_run (w := w) (by decide : 0 < 3) 0 ⟨.empty, (), []⟩ ts
  have hall := (calls_transparent hf hd rfl hx).2.2.2.1 3 (by decide)
  have hend : (Admission.step w (Admission.advance w 12
      (Admission.initial 3 0 ⟨.empty, (), []⟩ ts))).isNone = true := by decide +kernel
  refine ⟨x, hx, ?_, ?_, by decide +kernel⟩
  · rw [htracks.shared, Admission.run,
      Admission.finish_eq_advance (Option.isNone_iff_eq_none.mp hend)]
    decide +kernel
  · rw [hstages, hall]

end MarkdownFences.Classifier
