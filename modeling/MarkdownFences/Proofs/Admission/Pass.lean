import MarkdownFences.Admission

namespace MarkdownFences

namespace Worker

variable {σ ι ρ α : Type}

def attend (w : Worker σ ι ρ α) (s : σ) (index : Nat) (item : ι) : σ × Except Fault α :=
  match w.start s index item with
  | (s, .done r) => (s, r)
  | (s, .waiting p) => w.finish s index item p

def visit (w : Worker σ ι ρ α) (s : σ) (index : Nat) (item : ι) : σ × Except Fault α :=
  match w.attend s index item with
  | (s, .error e) => (w.failed s index e, .error e)
  | (s, .ok a) => (s, .ok a)

def pass (w : Worker σ ι ρ α) (s : σ) (index : Nat) : List ι → σ × List (Except Fault α)
  | [] => (s, [])
  | item :: items =>
    let (s, r) := w.visit s index item
    let (s, rs) := w.pass s (index + 1) items
    (s, r :: rs)

theorem pass_cons (w : Worker σ ι ρ α) (s : σ) (index : Nat) (item : ι) (items : List ι) :
    w.pass s index (item :: items) =
      ((w.pass (w.visit s index item).1 (index + 1) items).1,
        (w.visit s index item).2 :: (w.pass (w.visit s index item).1 (index + 1) items).2) :=
  rfl

/-- Every unit ends as soon as it starts. -/
def NeverWaits (w : Worker σ ι ρ α) : Prop :=
  ∀ s index item, ∃ r, (w.start s index item).2 = .done r

theorem length_pass (w : Worker σ ι ρ α) (s : σ) (index : Nat) (items : List ι) :
    (w.pass s index items).2.length = items.length := by
  induction items generalizing s index with
  | nil => rfl
  | cons item items ih => simp [pass, ih]

end Worker

namespace Admission

variable {σ ι ρ α : Type} {w : Worker σ ι ρ α}

theorem finish_of_none {s : State σ ι ρ α} (h : step w s = none) : finish w s = s := by
  rw [finish]
  split
  · rfl
  · rename_i hs
    cases h.symm.trans hs

theorem finish_of_some {s t : State σ ι ρ α} (h : step w s = some t) :
    finish w s = finish w t := by
  rw [finish]
  split
  · rename_i hs
    cases h.symm.trans hs
  · rename_i hs
    rw [Option.some.inj (h.symm.trans hs)]

def advance (w : Worker σ ι ρ α) : Nat → State σ ι ρ α → State σ ι ρ α
  | 0, s => s
  | n + 1, s =>
    match step w s with
    | none => s
    | some t => advance w n t

theorem finish_eq_advance {n : Nat} {s : State σ ι ρ α} (h : step w (advance w n s) = none) :
    finish w s = advance w n s := by
  induction n generalizing s with
  | zero => exact finish_of_none h
  | succ n ih =>
    rw [advance] at h ⊢
    cases hs : step w s with
    | none => exact finish_of_none hs
    | some t =>
      rw [hs] at h
      rw [finish_of_some hs]
      exact ih h

def arrivals (index : Nat) (items : List ι) : List (Event ι ρ) :=
  (items.zipIdx index).map fun x => .arrival x.2 x.1

theorem arrivals_cons (index : Nat) (item : ι) (items : List ι) :
    arrivals (ρ := ρ) index (item :: items) = .arrival index item :: arrivals (index + 1) items :=
  rfl

theorem handle_arrival (hw : w.NeverWaits) (s : State σ ι ρ α) {tokens : Nat}
    (ht : s.tokens = tokens + 1) (hq : s.queue = []) (index : Nat) (item : ι) :
    ∃ t, handle w s (.arrival index item) = t ∧ t.tokens = tokens + 1 ∧ t.queue = [] ∧
      t.events = s.events ∧ t.shared = (w.visit s.shared index item).1 ∧
      t.results = s.results.set index (some (w.visit s.shared index item).2) := by
  obtain ⟨r, hr⟩ := hw s.shared index item
  obtain ⟨shared, hs⟩ : ∃ shared, w.start s.shared index item = (shared, .done r) :=
    ⟨_, Prod.ext rfl hr⟩
  refine ⟨_, rfl, ?_⟩
  cases r with
  | error e => simp [handle, ht, hq, enter, hs, leave, Worker.visit, Worker.attend]
  | ok a => simp [handle, ht, hq, enter, hs, leave, Worker.visit, Worker.attend]

theorem finish_arrivals (hw : w.NeverWaits) (items : List ι) (s : State σ ι ρ α) (index : Nat)
    (ht : 0 < s.tokens) (hq : s.queue = []) (he : s.events = arrivals index items)
    (hl : s.results.length = index + items.length) :
    (finish w s).shared = (w.pass s.shared index items).1 ∧
      (finish w s).results = s.results.take index ++ (w.pass s.shared index items).2.map some := by
  induction items generalizing s index with
  | nil =>
    have hstep : step w s = none := by
      rw [step, he]
      rfl
    rw [finish_of_none hstep]
    exact ⟨rfl, by simpa [Worker.pass] using (List.take_of_length_le (by simp [hl])).symm⟩
  | cons item items ih =>
    obtain ⟨tokens, ht'⟩ := Nat.exists_eq_add_one_of_ne_zero (Nat.ne_of_gt ht)
    obtain ⟨t, htdef, htokens, hqueue, hevents, hshared, hresults⟩ :=
      handle_arrival hw { s with events := arrivals (index + 1) items } ht' hq index item
    have hstep : step w s = some t := by
      rw [step, he, arrivals_cons]
      exact congrArg some htdef
    have hlt : t.results.length = index + 1 + items.length := by
      rw [hresults, List.length_set, hl, List.length_cons]
      omega
    obtain ⟨ihs, ihr⟩ := ih t (index + 1) (by omega) hqueue hevents hlt
    have htake : t.results.take (index + 1) =
        s.results.take index ++ [some (w.visit s.shared index item).2] := by
      rw [hresults, List.take_add_one, List.take_set_of_le (Nat.le_refl index),
        List.getElem?_set_self (by rw [hl, List.length_cons]; omega)]
      rfl
    rw [finish_of_some hstep, ihs, ihr, hshared, htake]
    exact ⟨rfl, by simp [Worker.pass]⟩

/-- Units that never wait are run one after another, whatever the limit. -/
theorem run_eq_pass (hw : w.NeverWaits) {limit : Nat} (hl : 0 < limit) (peak : Nat) (shared : σ)
    (items : List ι) :
    (run w limit peak shared items).shared = (w.pass shared 0 items).1 ∧
      (run w limit peak shared items).outcomes = (w.pass shared 0 items).2 := by
  obtain ⟨hs, hr⟩ := finish_arrivals hw items (initial limit peak shared items) 0 hl rfl rfl
    (by simp [initial])
  refine ⟨hs, ?_⟩
  rw [State.outcomes, run, hr]
  simp [initial]

end Admission

end MarkdownFences
