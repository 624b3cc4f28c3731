import MarkdownFences.Proofs.Run.Outcome

namespace MarkdownFences.Run

variable {job : Job} {s : Store} {r : Report} {x : Fixing}

def repair (readOnly : List Path) (s : Store) (g : Path × List FenceFix) :
    Store × Except Failure FileFix :=
  let (s, _, r) := Repair.file readOnly s g.1 g.2
  (s, r.mapError fun e => ⟨g.1, .write, e.message⟩)

def repairAll (readOnly : List Path) (s : Store) :
    List (Path × List FenceFix) → Store × List (Except Failure FileFix)
  | [] => (s, [])
  | g :: gs =>
    let (s, q) := repair readOnly s g
    let (s, qs) := repairAll readOnly s gs
    (s, q :: qs)

def failed? : Except Failure FileFix → Option Failure
  | .ok _ => none
  | .error e => some e

def Concerns (g : Path × List FenceFix) : Except Failure FileFix → Prop
  | .ok f => f.file = g.1
  | .error e => e.file = g.1 ∧ e.operation = .write

theorem concerns_repair (readOnly : List Path) (s : Store) (g : Path × List FenceFix) :
    Concerns g (repair readOnly s g).2 := by
  rw [repair]
  obtain ⟨told, e, hfile⟩ | ⟨t, o, told, s', -, -, hfile, -⟩ :=
    Repair.file_cases readOnly s g.1 g.2
  · rw [hfile]
    exact ⟨rfl, rfl⟩
  · rw [hfile]
    exact rfl

theorem repairAll_forall₂ {R : Path × List FenceFix → Except Failure FileFix → Prop}
    {gs : List (Path × List FenceFix)} {readOnly : List Path}
    (h : ∀ g ∈ gs, ∀ s, R g (repair readOnly s g).2) (s : Store) :
    List.Forall₂ R gs (repairAll readOnly s gs).2 := by
  induction gs generalizing s with
  | nil => exact .nil
  | cons g gs ih =>
    exact .cons (h g List.mem_cons_self s) (ih (fun g' hg => h g' (List.mem_cons_of_mem g hg)) _)

theorem concerns_repairAll (readOnly : List Path) (s : Store) (gs : List (Path × List FenceFix)) :
    List.Forall₂ Concerns gs (repairAll readOnly s gs).2 :=
  repairAll_forall₂ (fun g _ s => concerns_repair readOnly s g) s

/-- What some repairs make of a report, and the files that they leave. -/
structure Fixing.Has (r : Report) (repairs : Store × List (Except Failure FileFix)) (x : Fixing) :
    Prop where
  store : x.store = repairs.1
  report : x.report = { r with
    failures := r.failures ++ repairs.2.filterMap failed?
    fixes := r.fixes ++ repairs.2.filterMap Except.toOption }

theorem Fixing.Has.refl (r : Report) (s : Store) (lines : List Text) (log : List Log.Entry) :
    Fixing.Has r (s, []) ⟨s, r, lines, log⟩ :=
  ⟨rfl, by simp⟩

theorem fixFile_has (readOnly : List Path) (total : Nat) (x : Fixing) (g : Path × List FenceFix)
    (i : Nat) :
    (x.fixFile readOnly total (g, i)).Has x.report
      ((repair readOnly x.store g).1, [(repair readOnly x.store g).2]) := by
  obtain ⟨p, fs⟩ := g
  rw [repair]
  cases hfile : Repair.file readOnly x.store p fs with
  | mk s' rest =>
    obtain ⟨told, q⟩ := rest
    cases q with
    | error e => exact ⟨by simp [Fixing.fixFile, hfile], by
        simp [Fixing.fixFile, hfile, failed?, Except.toOption]⟩
    | ok f => exact ⟨by simp [Fixing.fixFile, hfile], by
        simp [Fixing.fixFile, hfile, failed?, Except.toOption]⟩

theorem foldl_fixFile_has (readOnly : List Path) (total : Nat) (gs : List (Path × List FenceFix))
    (i : Nat) (x : Fixing) :
    ((gs.zipIdx i).foldl (Fixing.fixFile readOnly total) x).Has x.report
      (repairAll readOnly x.store gs) := by
  induction gs generalizing x i with
  | nil => exact .refl _ _ _ _
  | cons g gs ih =>
    have hg := fixFile_has readOnly total x g i
    have hgs := ih (i + 1) (x.fixFile readOnly total (g, i))
    rw [hg.store] at hgs
    refine ⟨hgs.store, hgs.report.trans ?_⟩
    have hrepairs : (repairAll readOnly x.store (g :: gs)).2 =
        [(repair readOnly x.store g).2] ++
          (repairAll readOnly (repair readOnly x.store g).1 gs).2 :=
      rfl
    rw [hg.report, hrepairs, List.filterMap_append, List.filterMap_append, List.append_assoc,
      List.append_assoc]

def planOf (job : Job) (fixes : List FenceFix) : List (Path × List FenceFix) :=
  if job.fix then FenceFix.plan fixes else []

theorem settleIssues_has {fixes : List FenceFix} (hl : ∀ f ∈ fixes, ∃ b, r.Lists b) :
    (settleIssues job s r fixes).Has r (repairAll job.readOnly s (planOf job fixes)) := by
  rw [settleIssues]
  split
  case isTrue h0 =>
    rw [planOf, fixes_eq_nil hl h0]
    cases job.fix <;> exact .refl _ _ _ _
  case isFalse =>
    rw [planOf]
    cases job.fix with
    | false => exact .refl _ _ _ _
    | true =>
      have hfold := foldl_fixFile_has job.readOnly (FenceFix.plan fixes).length
        (FenceFix.plan fixes) 0 ⟨s, r, [[], "Fixing code blocks...".toList], []⟩
      exact ⟨hfold.store, hfold.report⟩

end MarkdownFences.Run
