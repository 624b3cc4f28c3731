import MarkdownFences.Proofs.Run.Examination

namespace MarkdownFences.Run

variable {s : Store} {p : Path} {ps qs : List Path} {i j : Intake}

def documentsOf (s : Store) (ps : List Path) : List Document :=
  ps.filterMap fun p => (Document.read s p).toOption

def readFailures (s : Store) (ps : List Path) : List Failure :=
  ps.filterMap fun p =>
    match Document.read s p with
    | .ok _ => none
    | .error e => some ⟨p, .read, e.message⟩

theorem documentsOf_append (s : Store) (ps qs : List Path) :
    documentsOf s (ps ++ qs) = documentsOf s ps ++ documentsOf s qs :=
  List.filterMap_append

theorem readFailures_append (s : Store) (ps qs : List Path) :
    readFailures s (ps ++ qs) = readFailures s ps ++ readFailures s qs :=
  List.filterMap_append

theorem Intake.take_eq (h : i.take s p = .ok j) :
    j.documents = i.documents ++ documentsOf s [p] ∧
      j.failures = i.failures ++ readFailures s [p] := by
  rw [Intake.take] at h
  cases hd : Document.read s p with
  | ok d =>
    rw [hd] at h
    obtain rfl := Except.ok.inj h
    simp [documentsOf, readFailures, hd, Except.toOption]
  | error e =>
    rw [hd] at h
    split at h
    case h_1 he => cases he
    case h_2 => cases h
    case h_3 e' _ he =>
      obtain rfl : e = e' := Except.error.inj he
      obtain rfl := Except.ok.inj h
      simp [documentsOf, readFailures, hd, Except.toOption]

theorem Intake.exists_take (h : i.take s p = .ok j) (k : Intake) : ∃ l, k.take s p = .ok l := by
  rw [Intake.take] at h
  rw [Intake.take]
  split at h
  · exact ⟨_, rfl⟩
  · cases h
  · exact ⟨_, rfl⟩

theorem Intake.foldlM_eq (h : ps.foldlM (Intake.take s) i = .ok j) :
    j.documents = i.documents ++ documentsOf s ps ∧ j.failures = i.failures ++ readFailures s ps ∧
      ∀ p ∈ ps, ∃ k, readAll s [p] = .ok k := by
  induction ps generalizing i with
  | nil =>
    obtain rfl := Except.ok.inj h
    exact ⟨(List.append_nil _).symm, (List.append_nil _).symm, nofun⟩
  | cons p ps ih =>
    rw [List.foldlM_cons] at h
    obtain ⟨k, ht, h⟩ := bind_eq_ok.mp h
    obtain ⟨hdocuments, hfailures, hall⟩ := ih h
    obtain ⟨hd, hf⟩ := Intake.take_eq ht
    refine ⟨?_, ?_, List.forall_mem_cons.mpr ⟨?_, hall⟩⟩
    · rw [hdocuments, hd, List.append_assoc, ← documentsOf_append]
      rfl
    · rw [hfailures, hf, List.append_assoc, ← readFailures_append]
      rfl
    · obtain ⟨l, hl⟩ := Intake.exists_take ht .empty
      exact ⟨l, by rw [readAll, List.foldlM_cons, hl]; rfl⟩

theorem readAll_eq (h : readAll s ps = .ok i) :
    i.documents = documentsOf s ps ∧ i.failures = readFailures s ps :=
  have h := Intake.foldlM_eq h
  ⟨h.1, h.2.1⟩

theorem readAll_congr {s' : Store} (h : ∀ p ∈ ps, s'.readText p = s.readText p) :
    readAll s' ps = readAll s ps := by
  have hmore (i : Intake) : ps.foldlM (Intake.take s') i = ps.foldlM (Intake.take s) i := by
    induction ps generalizing i with
    | nil => rfl
    | cons p ps ih =>
      obtain ⟨hp, hps⟩ := List.forall_mem_cons.mp h
      have htake : Intake.take s' i p = Intake.take s i p := by
        rw [Intake.take, Intake.take, Document.read, Document.read, hp]
      rw [List.foldlM_cons, List.foldlM_cons, htake]
      exact congrArg _ (funext fun j => ih hps j)
  exact hmore .empty

theorem readAll_alone (h : readAll s ps = .ok i) (hp : p ∈ ps) : ∃ j, readAll s [p] = .ok j :=
  (Intake.foldlM_eq h).2.2 p hp

section Blocks

variable {ds es : List Document}

theorem scanAll_append (ds es : List Document) :
    (scanAll (ds ++ es)).issues = (scanAll ds).issues ++ (scanAll es).issues ∧
      (scanAll (ds ++ es)).blocks = (scanAll ds).blocks ++ (scanAll es).blocks := by
  simp [scanAll]

theorem scanAll_documentsOf (s : Store) (ps : List Path) :
    (scanAll (documentsOf s ps)).issues =
        ps.flatMap (fun p => (scanAll (documentsOf s [p])).issues) ∧
      (scanAll (documentsOf s ps)).blocks =
        ps.flatMap fun p => (scanAll (documentsOf s [p])).blocks := by
  induction ps with
  | nil => exact ⟨rfl, rfl⟩
  | cons p ps ih =>
    obtain ⟨hissues, hblocks⟩ := scanAll_append (documentsOf s [p]) (documentsOf s ps)
    rw [← documentsOf_append, List.singleton_append] at hissues hblocks
    rw [hissues, hblocks, ih.1, ih.2]
    exact ⟨rfl, rfl⟩

end Blocks

end MarkdownFences.Run
