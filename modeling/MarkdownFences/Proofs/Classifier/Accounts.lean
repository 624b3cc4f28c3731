import MarkdownFences.Proofs.Classifier.Noting
import Mathlib.Data.List.Dedup

namespace MarkdownFences

namespace Memo

theorem map_fst_insert (key : Text) (l : Language) (es : List (Text × Language)) :
    (insert key l es).map (·.1) =
      if key ∈ es.map (·.1) then es.map (·.1) else es.map (·.1) ++ [key] := by
  induction es with
  | nil => rfl
  | cons e es ih =>
    rw [insert]
    by_cases he : e.1 = key
    · simp [he]
    · simp only [if_neg he, List.map_cons, ih, List.mem_cons, Ne.symm he, false_or]
      split <;> rfl

theorem mem_map_fst {key : Text} {es : List (Text × Language)} :
    key ∈ es.map (·.1) ↔ es.lookup key ≠ none := by
  induction es with
  | nil => simp
  | cons e es ih =>
    obtain ⟨k, l⟩ := e
    rw [lookup_cons, List.map_cons, List.mem_cons, ih]
    by_cases hk : key = k <;> simp [hk]

end Memo

namespace Classifier

open Admission (Stage Course Move Moves)

variable {τ ρ : Type} {c : Classifier τ ρ} {ts : List Text} {t : Text}
variable {x y : Course (State (τ × List Text)) (Pending ρ) Language}
variable {stage stage' : Stage (Pending ρ) Language}
variable {delay : Nat → Text → Nat} {told : Nat → Fault → List Log.Entry}

def isBegun : Stage (Pending ρ) Language → Bool
  | .idle => false
  | _ => true

def isCompleted : Stage (Pending ρ) Language → Bool
  | .done (.ok _) => true
  | _ => false

section Picked

variable {σ : Type} (f : Stage (Pending ρ) Language → Bool)

/-- The contents of the calls that have come as far as `f` tells. -/
def picked (ts : List Text) (x : Course σ (Pending ρ) Language) : List Text :=
  (ts.zip x.stages).filterMap fun u => if f u.2 then some u.1 else none

theorem picked_start (hf : f .idle = false) (ts : List Text) (s : σ) :
    picked f ts (Course.start s ts) = [] := by
  refine List.filterMap_eq_nil_iff.mpr fun u hu => ?_
  obtain ⟨_, -, hidle⟩ := List.mem_map.mp (List.of_mem_zip hu).2
  rw [← hidle, hf]
  rfl

theorem subset_of_picked (ts : List Text) (x : Course σ (Pending ρ) Language) :
    picked f ts x ⊆ ts := by
  intro t ht
  obtain ⟨u, hu, hut⟩ := List.mem_filterMap.mp ht
  split at hut
  · rw [← Option.some.inj hut]
    exact (List.of_mem_zip hu).1
  · cases hut

theorem zip_set {α β : Type} {l : List α} {m : List β} {i : Nat} {a : α} (h : l[i]? = some a)
    (b : β) : l.zip (m.set i b) = (l.zip m).set i (a, b) := by
  induction l generalizing m i with
  | nil => cases h
  | cons c l ih =>
    cases m with
    | nil => rfl
    | cons d m =>
      cases i with
      | zero =>
        obtain rfl := Option.some.inj h
        rfl
      | succ i => exact congrArg ((c, d) :: ·) (ih h)

theorem picked_set {x y : Course σ (Pending ρ) Language} {i : Nat} (ht : ts[i]? = some t)
    (hi : x.stages[i]? = some stage) (hy : y.stages = x.stages.set i stage') :
    (picked f ts y ++ if f stage then [t] else []).Perm
      (picked f ts x ++ if f stage' then [t] else []) := by
  have hpicks (stage : Stage (Pending ρ) Language) :
      (if f stage then some t else none).toList = if f stage then [t] else [] := by
    cases f stage <;> rfl
  have hzip : (ts.zip x.stages)[i]? = some (t, stage) := by
    rw [List.getElem?_zip_eq_some]
    exact ⟨ht, hi⟩
  have hperm := Admission.filterMap_set_perm
    (f := fun u : Text × Stage (Pending ρ) Language => if f u.2 then some u.1 else none) hzip
    (t, stage')
  rw [hpicks, hpicks, ← zip_set ht, ← hy] at hperm
  exact hperm

end Picked

/-- Of these contents each was looked up once, and those that were missed and could be asked about
were asked about, in the order in which they were missed. -/
def Looked (c : Classifier τ ρ) (b : Books) (us : List Text) : Prop :=
  ∃ hits misses : List Text, b.stats = ⟨hits.length, misses.length⟩ ∧
    (hits ++ misses).Perm us ∧ b.asked = misses.filter c.asks

structure Remembers (c : Classifier τ ρ) (known : List (Text × Language)) (us : List Text) :
    Prop where
  nodup : (known.map (·.1)).Nodup
  mem_iff : ∀ k, k ∈ known.map (·.1) ↔ k ∈ us.map c.digest

section Books

variable {b b' : Books} {us us' : List Text} {l : Language}

namespace Looked

variable (h : Looked c b us)

include h

theorem total : b.stats.total = us.length := by
  obtain ⟨hits, misses, hstats, hperm, -⟩ := h
  rw [← hperm.length_eq, List.length_append, hstats]
  rfl

theorem perm (hus : us'.Perm us) : Looked c b us' := by
  obtain ⟨hits, misses, hstats, hperm, hasked⟩ := h
  exact ⟨hits, misses, hstats, hperm.trans hus.symm, hasked⟩

theorem hit (t : Text) : Looked c b.hit (us ++ [t]) := by
  obtain ⟨hits, misses, hstats, hperm, hasked⟩ := h
  refine ⟨t :: hits, misses, ?_, ?_, hasked⟩
  · rw [Books.hit, hstats]
    rfl
  · exact (hperm.cons t).trans (List.perm_append_singleton t us).symm

theorem miss (t : Text) : Looked c (b.miss c t) (us ++ [t]) := by
  obtain ⟨hits, misses, hstats, hperm, hasked⟩ := h
  refine ⟨hits, misses ++ [t], ?_, ?_, ?_⟩
  · rw [Books.miss, hstats, List.length_append]
    rfl
  · rw [← List.append_assoc]
    exact hperm.append_right [t]
  · rw [List.filter_append, ← hasked]
    rfl

end Looked

namespace Remembers

variable {known : List (Text × Language)} (h : Remembers c known us)

include h

theorem perm (hus : us'.Perm us) : Remembers c known us' :=
  ⟨h.nodup, fun k => (h.mem_iff k).trans (hus.map c.digest).mem_iff.symm⟩

theorem lookup_ne_none : known.lookup (c.digest t) ≠ none ↔ c.digest t ∈ us.map c.digest := by
  rw [← Memo.mem_map_fst, h.mem_iff]

theorem again (hk : known.lookup (c.digest t) = some l) : Remembers c known (us ++ [t]) := by
  refine ⟨h.nodup, fun k => ?_⟩
  rw [h.mem_iff, List.map_append, List.mem_append, List.map_singleton, List.mem_singleton]
  refine (or_iff_left_of_imp fun hkt => ?_).symm
  rw [hkt, ← h.lookup_ne_none, hk]
  exact nofun

theorem learn (t : Text) (l : Language) :
    Remembers c (Memo.insert (c.digest t) l known) (us ++ [t]) := by
  constructor
  · rw [Memo.map_fst_insert]
    split
    case isTrue => exact h.nodup
    case isFalse hnew =>
      refine List.nodup_append.mpr ⟨h.nodup, List.nodup_singleton _, ?_⟩
      rintro k hk _ hkt rfl
      exact hnew (List.mem_singleton.mp hkt ▸ hk)
  · intro k
    rw [Memo.map_fst_insert, List.map_append, List.mem_append, List.map_singleton,
      List.mem_singleton, ← h.mem_iff]
    split
    case isTrue hold => exact (or_iff_left_of_imp fun hkt => hkt ▸ hold).symm
    case isFalse => rw [List.mem_append, List.mem_singleton]

theorem length_eq (hd : ∀ a ∈ us, ∀ b ∈ us, c.digest a = c.digest b → a = b) :
    known.length = us.dedup.length := by
  have hkeys : (us.dedup.map c.digest).Nodup := us.nodup_dedup.map_on fun a ha a' ha' =>
    hd a (List.mem_dedup.mp ha) a' (List.mem_dedup.mp ha')
  have hperm : (known.map (·.1)).Perm (us.dedup.map c.digest) := by
    refine (List.perm_ext_iff_of_nodup h.nodup hkeys).mpr fun k => ?_
    rw [h.mem_iff, List.mem_map, List.mem_map]
    simp only [List.mem_dedup]
  simpa using hperm.length_eq

end Remembers

end Books

/-- What the books say of the calls so far. A call that waits is about its own content. -/
structure Accounts (c : Classifier τ ρ) (ts : List Text)
    (x : Course (State (τ × List Text)) (Pending ρ) Language) : Prop where
  looked : Looked c x.shared.books (picked isBegun ts x)
  remembers : Remembers c x.shared.books.entries (picked isCompleted ts x)
  waiting : x.Each (fun _ t stage => ∀ p, stage = .waiting p → p.content = t) ts

theorem accounts_start {s : State (τ × List Text)} (hs : s.books = ⟨[], .none, []⟩)
    (ts : List Text) : Accounts c ts (Course.start s ts) := by
  refine ⟨?_, ⟨?_, fun k => ?_⟩, Course.each_start (fun _ _ _ h => by cases h) s ts⟩
  · rw [picked_start _ rfl]
    exact ⟨[], [], congrArg Books.stats hs, .refl _, congrArg Books.asked hs⟩
  · rw [Course.start, hs]
    exact List.nodup_nil
  · rw [picked_start _ rfl, Course.start, hs]
    exact Iff.rfl

theorem Goes.looked {b b' : Books} {us us' : List Text} (h : c.Goes b t stage b' stage')
    (hb : Looked c b us) (hus : (us' ++ if isBegun stage then [t] else []).Perm
      (us ++ if isBegun stage' then [t] else [])) : Looked c b' us' := by
  cases h with
  | remembered => exact (hb.hit t).perm (by simpa [isBegun] using hus)
  | unguessed => exact (hb.miss t).perm (by simpa [isBegun] using hus)
  | settled => exact (hb.miss t).perm (by simpa [isBegun] using hus)
  | waits => exact (hb.miss t).perm (by simpa [isBegun] using hus)
  | failed => exact hb.perm ((List.perm_append_right_iff [t]).mp hus)
  | answered => exact hb.perm ((List.perm_append_right_iff [t]).mp hus)

theorem Goes.remembers {b b' : Books} {us us' : List Text} (h : c.Goes b t stage b' stage')
    (hstage : ∀ p, stage = .waiting p → p.content = t) (hb : Remembers c b.entries us)
    (hus : (us' ++ if isCompleted stage then [t] else []).Perm
      (us ++ if isCompleted stage' then [t] else [])) : Remembers c b'.entries us' := by
  cases h with
  | remembered hk => exact (hb.again hk).perm (by simpa [isCompleted] using hus)
  | unguessed => exact hb.perm (by simpa [isCompleted] using hus)
  | settled => exact (hb.learn t _).perm (by simpa [isCompleted] using hus)
  | waits => exact hb.perm (by simpa [isCompleted] using hus)
  | failed => exact hb.perm (by simpa [isCompleted] using hus)
  | answered =>
    rw [hstage _ rfl]
    exact (hb.learn t _).perm (by simpa [isCompleted] using hus)

theorem Accounts.move (h : Accounts c ts x) (hm : Move (c.noting.calls delay told) ts x y) :
    Accounts c ts y := by
  obtain ⟨i, t, stage, stage', ht, hi, hstages, hgoes⟩ := exists_goes hm
  exact ⟨hgoes.looked h.looked (picked_set _ ht hi hstages),
    hgoes.remembers (h.waiting i t stage ht hi) h.remembers (picked_set _ ht hi hstages),
    h.waiting.of_set ht (fun _ => hgoes.content) hstages⟩

/-! ### Calls one after another -/

structure AskedOnce (c : Classifier τ ρ) (b : Books) (us : List Text) : Prop where
  remembers : Remembers c b.entries us
  nodup : b.asked.Nodup
  mem_iff : ∀ t, t ∈ b.asked ↔ t ∈ us

theorem askedOnce_start {s : State (τ × List Text)} (hs : s.books = ⟨[], .none, []⟩) :
    AskedOnce c s.books [] := by
  rw [hs]
  exact ⟨⟨List.nodup_nil, fun k => Iff.rfl⟩, List.nodup_nil, fun t => Iff.rfl⟩

theorem visit_books {s s' : State (τ × List Text)} {i : Nat} {l : Language}
    (h : (c.noting.calls delay told).visit s i t = (s', .ok l)) :
    (∃ l, s.books.entries.lookup (c.digest t) = some l) ∧ s'.books = s.books.hit ∨
      s.books.entries.lookup (c.digest t) = none ∧ (∃ guess, Snippet.guess t = .ok guess) ∧
        s'.books = (s.books.miss c t).learn c t l := by
  have hattend : (c.noting.calls delay told).attend s i t = (s', .ok l) := by
    rw [Worker.visit] at h
    split at h
    · cases h
    · next hattend =>
      rw [hattend]
      exact h
  have hgoes := start_goes c s t
  rw [Worker.attend] at hattend
  split at hattend
  case h_1 s₁ r hstart =>
    obtain ⟨rfl, rfl⟩ := Prod.mk.inj hattend
    rw [show c.noting.start s t = (s₁, .done (.ok l)) from hstart, stageOf] at hgoes
    generalize s₁.books = b at hgoes ⊢
    cases hgoes with
    | remembered hk => exact .inl ⟨⟨l, hk⟩, rfl⟩
    | settled hk hg => exact .inr ⟨hk, ⟨_, hg⟩, rfl⟩
  case h_2 s₁ p hstart =>
    rw [show c.noting.start s t = (s₁, .waiting p) from hstart, stageOf] at hgoes
    have hends := finish_goes c s₁ t p
    rw [show c.noting.finish s₁ p = (s', .ok l) from hattend] at hends
    generalize s₁.books = b at hgoes hends
    generalize s'.books = b' at hends ⊢
    cases hgoes with
    | waits hk hg hcontent =>
      cases hends with
      | answered =>
        rw [hcontent]
        exact .inr ⟨hk, ⟨_, hg⟩, rfl⟩

section Pass

variable (ha : c.advisor.isSome)

include ha

theorem AskedOnce.visit {s s' : State (τ × List Text)} {i : Nat} {l : Language} {us : List Text}
    (h : AskedOnce c s.books us) (hd : ∀ u ∈ us, c.digest u = c.digest t → u = t)
    (hv : (c.noting.calls delay told).visit s i t = (s', .ok l)) :
    AskedOnce c s'.books (us ++ [t]) := by
  have hknown : c.digest t ∈ us.map c.digest ↔ t ∈ us := by
    rw [List.mem_map]
    exact ⟨fun ⟨u, hu, hut⟩ => hd u hu hut ▸ hu, fun ht => ⟨t, ht, rfl⟩⟩
  obtain ⟨⟨l', hk⟩, hbooks⟩ | ⟨hk, ⟨guess, hg⟩, hbooks⟩ := visit_books hv
  · have ht : t ∈ us := by
      rw [← hknown, ← h.remembers.lookup_ne_none, hk]
      exact nofun
    rw [hbooks]
    refine ⟨h.remembers.again hk, h.nodup, fun u => (h.mem_iff u).trans ?_⟩
    rw [List.mem_append, List.mem_singleton]
    exact (or_iff_left_of_imp fun hu => hu ▸ ht).symm
  · have ht : t ∉ us := by
      rw [← hknown, ← h.remembers.lookup_ne_none, hk]
      exact not_not_intro rfl
    have hasks : c.asks t = true := by
      rw [asks, ha, hg]
      rfl
    rw [hbooks, miss_of_asks _ hasks]
    refine ⟨h.remembers.learn t l, ?_, fun u => ?_⟩
    · refine List.nodup_append.mpr ⟨h.nodup, List.nodup_singleton t, ?_⟩
      rintro u hu _ hut rfl
      exact ht ((h.mem_iff t).mp (List.mem_singleton.mp hut ▸ hu))
    · simp only [Books.learn, List.mem_append, h.mem_iff]

theorem AskedOnce.pass {s : State (τ × List Text)} {i : Nat} {us : List Text}
    (h : AskedOnce c s.books us)
    (hd : ∀ a ∈ us ++ ts, ∀ b ∈ us ++ ts, c.digest a = c.digest b → a = b)
    (hr : ∀ r ∈ ((c.noting.calls delay told).pass s i ts).2, ∃ l, r = .ok l) :
    AskedOnce c ((c.noting.calls delay told).pass s i ts).1.books (us ++ ts) := by
  induction ts generalizing s i us with
  | nil =>
    rw [List.append_nil]
    exact h
  | cons t ts ih =>
    rw [Worker.pass_cons] at hr ⊢
    obtain ⟨⟨l, hl⟩, hrs⟩ := List.forall_mem_cons.mp hr
    have hvisit := h.visit (t := t) ha (fun u hu => hd u (by simp [hu]) t (by simp))
      (Prod.ext rfl hl : (c.noting.calls delay told).visit s i t = (_, .ok l))
    rw [List.append_cons] at hd ⊢
    exact ih hvisit hd hrs

end Pass

/-- However calls on one memo come between each other, each of them is looked up once when it
begins, and the advisor is asked once about each miss that there is a guess for, and about no hit.
A call that fails leaves the entries as they are at each of its steps, and there are as many
entries as different contents on which a call has completed. If calls are made one after another
and none fails, the advisor is asked once about each of these contents. Taking note of what it is
asked about changes nothing. -/
theorem calls_accounted (c : Classifier τ ρ) (delay : Nat → Text → Nat)
    (told : Nat → Fault → List Log.Entry)
    (hd : ∀ a ∈ ts, ∀ b ∈ ts, c.digest a = c.digest b → a = b) {s : State (τ × List Text)}
    (hs : s.books = ⟨[], .none, []⟩) :
    let w := c.noting.calls delay told
    (∀ x, Moves (c.calls delay told) ts (Course.start s.forget ts) x ↔
      ∃ y, Moves w ts (Course.start s ts) y ∧ y.map State.forget = x) ∧
    (∀ x, Moves w ts (Course.start s ts) x →
      x.shared.memo.stats.total = (picked isBegun ts x).length ∧
      (∃ hits misses : List Text, x.shared.memo.stats = ⟨hits.length, misses.length⟩ ∧
        (hits ++ misses).Perm (picked isBegun ts x) ∧
        x.shared.advisor.2 = misses.filter c.asks) ∧
      x.shared.memo.size = (picked isCompleted ts x).dedup.length ∧
      ∀ y, Move w ts x y → ∃ (i : Nat) (t : Text) (stage stage' : Stage (Pending ρ) Language),
        ts[i]? = some t ∧ x.stages[i]? = some stage ∧ y.stages = x.stages.set i stage' ∧
        c.Goes x.shared.books t stage y.shared.books stage' ∧
        ((∀ l, stage' ≠ .done (.ok l)) → y.shared.memo.entries = x.shared.memo.entries)) ∧
    (c.advisor.isSome → (∀ r ∈ (w.pass s 0 ts).2, ∃ l, r = .ok l) →
      (w.pass s 0 ts).1.advisor.2.Perm ts.dedup) := by
  intro w
  refine ⟨fun x => (noting_shadows c delay told).moves_iff (c := Course.start s ts),
    fun x hx => ?_, fun ha hr => ?_⟩
  · have haccounts : Accounts c ts x := hx.keeps (fun _ _ h => h.move) (accounts_start hs ts)
    have hsub := subset_of_picked isCompleted ts x
    refine ⟨haccounts.looked.total, haccounts.looked,
      haccounts.remembers.length_eq fun a ha b hb => hd a (hsub ha) b (hsub hb), fun y hy => ?_⟩
    obtain ⟨i, t, stage, stage', ht, hi, hstages, hgoes⟩ := exists_goes hy
    exact ⟨i, t, stage, stage', ht, hi, hstages, hgoes, hgoes.entries⟩
  · have honce : AskedOnce c (w.pass s 0 ts).1.books ([] ++ ts) :=
      (askedOnce_start hs).pass ha hd hr
    refine (List.perm_ext_iff_of_nodup honce.nodup ts.nodup_dedup).mpr fun t => ?_
    rw [honce.mem_iff, List.mem_dedup, List.nil_append]

/-- Of three calls two are on the same content, and the advisor fails the one between them. If they
come between each other none of them finds anything remembered. One after another, the second of two
on the same content does. -/
theorem calls_accounted_two_alike :
    let answer : Text → Except Fault (Option Language) := fun t =>
      if t = "no".toList then .error ⟨"RuntimeError", .other, none, []⟩ else .ok (some .bash)
    let c : Classifier Unit Text := ⟨id, some (.waiting answer)⟩
    let w := c.noting.calls (fun i _ => 3 - i) fun _ _ => []
    let s : State (Unit × List Text) := ⟨.empty, ((), []), []⟩
    let ts := ["const x = 1", "no", "const x = 1"].map String.toList
    let us := ["const x = 1", "ls", "const x = 1"].map String.toList
    (∃ x, Moves w ts (Course.start s ts) x ∧ x.shared.memo.stats = ⟨0, 3⟩ ∧
      (picked isBegun ts x).length = 3 ∧ x.shared.advisor.2 = ts ∧
      (picked isCompleted ts x).dedup.length = 1) ∧
    (w.pass s 0 us).1.memo.stats = ⟨1, 2⟩ ∧ (w.pass s 0 us).1.advisor.2.Perm us.dedup := by
  intro answer c w s ts us
  have hd (ts : List Text) : ∀ a ∈ ts, ∀ b ∈ ts, c.digest a = c.digest b → a = b :=
    fun _ _ _ _ h => h
  constructor
  · obtain ⟨x, hx, htracks, -⟩ := Admission.exists_course_run (w := w) (by decide : 0 < 3) 0 s ts
    obtain ⟨htotal, -, hsize, -⟩ := (calls_accounted c _ _ (hd ts) (s := s) rfl).2.1 x hx
    have hend : (Admission.step w (Admission.advance w 12
        (Admission.initial 3 0 s ts))).isNone = true := by decide +kernel
    have hbooks : (x.shared.memo.stats, x.shared.advisor.2, x.shared.memo.size) =
        (⟨0, 3⟩, ts, 1) := by
      rw [htracks.shared, Admission.run,
        Admission.finish_eq_advance (Option.isNone_iff_eq_none.mp hend)]
      decide +kernel
    obtain ⟨hstats, hbooks⟩ := Prod.mk.inj hbooks
    obtain ⟨hasked, hone⟩ := Prod.mk.inj hbooks
    rw [hstats] at htotal
    exact ⟨x, hx, hstats, htotal.symm, hasked, hsize.symm.trans hone⟩
  · refine ⟨by decide +kernel, (calls_accounted c _ _ (hd us) (s := s) rfl).2.2 rfl ?_⟩
    have hok : (w.pass s 0 us).2 = [.ok .bash, .ok .bash, .ok .bash] := by decide +kernel
    rw [hok]
    simp

end Classifier

end MarkdownFences
