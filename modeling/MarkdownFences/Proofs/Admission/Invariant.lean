import MarkdownFences.Proofs.Admission.Course
import Mathlib.Data.List.Forall2

namespace MarkdownFences

variable {σ ι ρ α : Type}

/-- What all that units do keeps to: `I` holds of the shared state, `Q` of what a unit waits for,
and `P` of its result. -/
structure Worker.Respects (w : Worker σ ι ρ α) (I : σ → Prop) (Q : ι → ρ → Prop)
    (P : ι → Except Fault α → Prop) : Prop where
  start : ∀ s i x, I s → I (w.start s i x).1
  start_done : ∀ s i x r, I s → (w.start s i x).2 = .done r → P x r
  start_waiting : ∀ s i x p, I s → (w.start s i x).2 = .waiting p → Q x p
  finish : ∀ s i x p, I s → Q x p → I (w.finish s i x p).1 ∧ P x (w.finish s i x p).2
  failed : ∀ s i e, I s → I (w.failed s i e)

namespace Admission

variable {w : Worker σ ι ρ α} {I : σ → Prop} {Q : ι → ρ → Prop} {P : ι → Except Fault α → Prop}
variable {items : List ι} {c d : Course σ ρ α}

def Stage.Suits (Q : ι → ρ → Prop) (P : ι → Except Fault α → Prop) (x : ι) : Stage ρ α → Prop
  | .idle => True
  | .waiting p => Q x p
  | .done r => P x r

structure Sound (I : σ → Prop) (Q : ι → ρ → Prop) (P : ι → Except Fault α → Prop)
    (items : List ι) (c : Course σ ρ α) : Prop where
  shared : I c.shared
  stages : c.Each (fun _ x stage => stage.Suits Q P x) items

theorem sound_start {shared : σ} (h : I shared) (items : List ι) :
    Sound I Q P items (Course.start shared items) :=
  ⟨h, Course.each_start (fun _ _ => trivial) shared items⟩

theorem noted (hw : w.Respects I Q P) {shared : σ} (h : I shared) (index : Nat)
    (r : Except Fault α) : I (w.noted shared index r) := by
  cases r with
  | error e => exact hw.failed _ _ _ h
  | ok a => exact h

theorem Sound.move (hw : w.Respects I Q P) (h : Sound I Q P items c) (hm : Move w items c d) :
    Sound I Q P items d := by
  cases hm with
  | @ends i x shared r hx _ hs =>
    have hI := hw.start c.shared i x h.shared
    rw [hs] at hI
    have hdone : Stage.Suits Q P x (.done r : Stage ρ α) :=
      hw.start_done c.shared i x r h.shared (congrArg Prod.snd hs)
    exact ⟨noted hw hI i r, h.stages.set hx hdone _⟩
  | @waits i x shared p hx _ hs =>
    have hI := hw.start c.shared i x h.shared
    rw [hs] at hI
    have hwaiting : Stage.Suits Q P x (.waiting p : Stage ρ α) :=
      hw.start_waiting c.shared i x p h.shared (congrArg Prod.snd hs)
    exact ⟨hI, h.stages.set hx hwaiting _⟩
  | @goesOn i x p shared r hx hp hs =>
    have hfinish := hw.finish c.shared i x p h.shared (h.stages i x _ hx hp)
    rw [hs] at hfinish
    have hdone : Stage.Suits Q P x (.done r : Stage ρ α) := hfinish.2
    exact ⟨noted hw hfinish.1 i r, h.stages.set hx hdone _⟩

theorem exists_sound_run (hw : w.Respects I Q P) (limit peak : Nat) {shared : σ} (h : I shared)
    (items : List ι) :
    ∃ c, Sound I Q P items c ∧ Tracks items (run w limit peak shared items) c := by
  obtain ⟨c, hc, htracks⟩ := (reachable_run w limit peak shared items).exists_course
  exact ⟨c, hc.keeps (fun _ _ => Sound.move hw) (sound_start h items), htracks⟩

theorem shared_run (hw : w.Respects I Q P) (limit peak : Nat) {shared : σ} (h : I shared)
    (items : List ι) : I (run w limit peak shared items).shared := by
  obtain ⟨c, hsound, htracks⟩ := exists_sound_run hw limit peak h items
  exact htracks.shared ▸ hsound.shared

theorem exists_of_mem_outcomes (hw : w.Respects I Q P) {limit peak : Nat} {shared : σ}
    (h : I shared) {r : Except Fault α} (hr : r ∈ (run w limit peak shared items).outcomes) :
    ∃ x ∈ items, P x r := by
  obtain ⟨c, hsound, htracks⟩ := exists_sound_run hw limit peak h items
  obtain ⟨o, ho, hor⟩ := List.mem_filterMap.mp hr
  obtain rfl : o = some r := hor
  obtain ⟨i, hi⟩ := List.mem_iff_getElem?.mp ho
  have hlt := (List.getElem?_eq_some_iff.mp hi).1
  rw [(reachable_run w limit peak shared items).balanced.results] at hlt
  rw [htracks.results, List.getElem?_map, Option.map_eq_some_iff] at hi
  obtain ⟨stage, hstage, hresult⟩ := hi
  have hmeets := hsound.stages i _ stage (List.getElem?_eq_getElem hlt) hstage
  cases stage with
  | idle => cases hresult
  | waiting => cases hresult
  | done q =>
    obtain rfl := Option.some.inj hresult
    exact ⟨_, List.getElem_mem hlt, hmeets⟩

theorem outcomes_forall₂ (hw : w.Respects I Q P) {limit : Nat} (hl : 0 < limit) (peak : Nat)
    {shared : σ} (h : I shared) (items : List ι) :
    List.Forall₂ P items (run w limit peak shared items).outcomes := by
  have hsound := run_induction (Sound I Q P items) hl (sound_start h items)
    (fun _ _ => Sound.move hw) peak
  refine List.forall₂_iff_get.mpr ⟨(length_outcomes hl peak shared items).symm, ?_⟩
  intro i hx hr
  refine hsound.stages i _ (.done _) (List.getElem?_eq_getElem hx) ?_
  rw [List.getElem?_map, List.getElem?_eq_getElem hr]
  rfl

end Admission

end MarkdownFences
