import Mathlib.Data.List.Basic
import Mathlib.Data.List.Induction
import Mathlib.Data.List.Pairwise
import Mathlib.Order.Basic

set_option autoImplicit false

/-!
# Runs of a deterministic component

A component is a step function on its state; a run feeds it a list of operations. The rules
below are the inductions every whole-run result goes through: a state invariant, and an
invariant that also speaks about the operations so far.
-/
namespace Lib.Runs

section Rules

variable {σ ι : Type*} (step : σ → ι → σ)

def run (s : σ) (ops : List ι) : σ := ops.foldl step s

@[simp] theorem run_nil (s : σ) : run step s [] = s := rfl

@[simp] theorem run_cons (s : σ) (i : ι) (ops : List ι) :
    run step s (i :: ops) = run step (step s i) ops := rfl

theorem run_append (s : σ) (xs ys : List ι) :
    run step s (xs ++ ys) = run step (run step s xs) ys := List.foldl_append

@[simp] theorem run_snoc (s : σ) (ops : List ι) (i : ι) :
    run step s (ops ++ [i]) = step (run step s ops) i := by
  rw [run_append]
  rfl

theorem run_invariant (I : σ → Prop) (hstep : ∀ s i, I s → I (step s i)) {s : σ} (h : I s)
    (ops : List ι) : I (run step s ops) := by
  induction ops generalizing s with
  | nil => exact h
  | cons i ops ih => exact ih (hstep s i h)

/-- Two components that take each step alike. -/
theorem run_related {τ : Type*} {step' : τ → ι → τ} (r : σ → τ → Prop)
    (hstep : ∀ s t i, r s t → r (step s i) (step' t i)) {s : σ} {t : τ} (h : r s t)
    (ops : List ι) : r (run step s ops) (run step' t ops) := by
  induction ops generalizing s t with
  | nil => exact h
  | cons i ops ih => exact ih (hstep s t i h)

/-- A view that follows a component of its own, on those operations that bear on it. -/
theorem run_view {τ κ : Type*} (view : σ → τ) (side : ι → Option κ) (step' : τ → κ → τ)
    (hstep : ∀ s i, view (step s i) = ((side i).map (step' (view s))).getD (view s)) (s : σ)
    (ops : List ι) : view (run step s ops) = run step' (view s) (ops.filterMap side) := by
  induction ops generalizing s with
  | nil => rfl
  | cons i ops ih =>
    rw [run_cons, ih, hstep]
    cases hside : side i with
    | none => rw [List.filterMap_cons_none hside, Option.map_none, Option.getD_none]
    | some k => rw [List.filterMap_cons_some hside, Option.map_some, Option.getD_some, run_cons]

/-- The invariant may mention the operations so far, and a step may use that the history it
    extends is a prefix of the whole run. -/
theorem run_history (I : List ι → σ → Prop) {s : σ} (h0 : I [] s) (ops : List ι)
    (hstep : ∀ pre i, pre ++ [i] <+: ops → I pre (run step s pre) →
      I (pre ++ [i]) (step (run step s pre) i)) : I ops (run step s ops) := by
  induction ops using List.reverseRecOn with
  | nil => exact h0
  | append_singleton ops i ih =>
    rw [run_snoc]
    refine hstep ops i (List.prefix_refl _) (ih ?_)
    intro pre j hp
    exact hstep pre j (hp.trans (List.prefix_append ops [i]))

def EveryStep (P : σ → ι → Prop) (s : σ) (ops : List ι) : Prop :=
  ∀ pre i, pre ++ [i] <+: ops → P (run step s pre) i

def EveryState (I : σ → Prop) (s : σ) (ops : List ι) : Prop :=
  ∀ pre, pre <+: ops → I (run step s pre)

section Every

variable {step} {P : σ → ι → Prop} {I : σ → Prop} {s : σ} {i : ι} {ops : List ι}

theorem everyStep_nil : EveryStep step P s [] := by
  intro pre i hpre
  simp at hpre

theorem everyStep_cons :
    EveryStep step P s (i :: ops) ↔ P s i ∧ EveryStep step P (step s i) ops := by
  constructor
  · intro h
    refine ⟨h [] i ⟨ops, rfl⟩, fun pre j hpre => h (i :: pre) j ?_⟩
    exact (List.prefix_cons_inj i).mpr hpre
  · rintro ⟨hfirst, hrest⟩ pre j hpre
    cases pre with
    | nil =>
      obtain ⟨rfl, -⟩ := List.cons_prefix_cons.mp hpre
      exact hfirst
    | cons i' pre =>
      obtain ⟨rfl, htail⟩ := List.cons_prefix_cons.mp hpre
      exact hrest pre j htail

theorem everyStep_snoc :
    EveryStep step P s (ops ++ [i]) ↔ EveryStep step P s ops ∧ P (run step s ops) i := by
  induction ops generalizing s with
  | nil => simp [everyStep_cons, everyStep_nil]
  | cons j ops ih => rw [List.cons_append, everyStep_cons, ih, everyStep_cons, and_assoc, run_cons]

theorem everyState_nil : EveryState step I s [] ↔ I s := by
  simp [EveryState]

theorem everyState_cons :
    EveryState step I s (i :: ops) ↔ I s ∧ EveryState step I (step s i) ops := by
  constructor
  · intro h
    refine ⟨h [] (List.nil_prefix), fun pre hpre => h (i :: pre) ?_⟩
    exact (List.prefix_cons_inj i).mpr hpre
  · rintro ⟨hfirst, hrest⟩ pre hpre
    cases pre with
    | nil => exact hfirst
    | cons i' pre =>
      obtain ⟨rfl, htail⟩ := List.cons_prefix_cons.mp hpre
      exact hrest pre htail

/-- Where `P` says exactly which steps keep `I`, a run is in `I` throughout if every step of it is
    one of these. `J` holds as long as all went well, and `H` of every step. -/
theorem everyState_iff_of (J : σ → Prop) (H : σ → ι → Prop) (hsteps : EveryStep step H s ops)
    (hJ : ∀ s i, H s i → J s → I s → P s i → J (step s i))
    (hkeeps : ∀ s i, H s i → J s → I s → (I (step s i) ↔ P s i)) (hs : J s) (h : I s) :
    EveryState step I s ops ↔ EveryStep step P s ops := by
  induction ops generalizing s with
  | nil => exact iff_of_true (everyState_nil.mpr h) everyStep_nil
  | cons i ops ih =>
    obtain ⟨hstep, hrest⟩ := everyStep_cons.mp hsteps
    rw [everyState_cons, everyStep_cons]
    constructor
    · intro hstates
      have hnext : I (step s i) := hstates.2 [] List.nil_prefix
      have hP := (hkeeps s i hstep hs h).mp hnext
      exact ⟨hP, (ih hrest (hJ s i hstep hs h hP) hnext).mp hstates.2⟩
    · rintro ⟨hP, hlater⟩
      have hnext : I (step s i) := (hkeeps s i hstep hs h).mpr hP
      exact ⟨h, (ih hrest (hJ s i hstep hs h hP) hnext).mpr hlater⟩

/-- The same where `J` holds throughout. -/
theorem everyState_iff (J : σ → Prop) (hJ : ∀ s i, J s → J (step s i))
    (hkeeps : ∀ s i, J s → I s → (I (step s i) ↔ P s i)) (hs : J s) (h : I s) (ops : List ι) :
    EveryState step I s ops ↔ EveryStep step P s ops :=
  everyState_iff_of J (fun _ _ => True) (fun _ _ _ => trivial) (fun s i _ hs _ _ => hJ s i hs)
    (fun s i _ hs h => hkeeps s i hs h) hs h

/-- A measure that the steps of a kind lower and no other step raises. -/
theorem run_lowers (measure : σ → ℕ) (lowers : ι → Bool)
    (hsteps : EveryStep step (fun s i =>
      measure (step s i) ≤ measure s - if lowers i then 1 else 0) s ops) :
    measure (run step s ops) ≤ measure s - ops.countP lowers := by
  induction ops generalizing s with
  | nil => exact Nat.le_refl _
  | cons i ops ih =>
    obtain ⟨hfirst, hrest⟩ := everyStep_cons.mp hsteps
    have hlater := ih hrest
    rw [run_cons, List.countP_cons]
    omega

end Every

end Rules

section Clock

variable {ι T : Type*} [Preorder T] (time : ι → T)

/-- The operations carry the readings of a clock that starts at `start` and never goes back. -/
def Clocked (start : T) (ops : List ι) : Prop :=
  (∀ i ∈ ops, start ≤ time i) ∧ ops.Pairwise (fun i j => time i ≤ time j)

theorem clocked_append (start : T) (xs ys : List ι) :
    Clocked time start (xs ++ ys) ↔ Clocked time start xs ∧ Clocked time start ys ∧
      ∀ i ∈ xs, ∀ j ∈ ys, time i ≤ time j := by
  unfold Clocked
  rw [List.pairwise_append]
  constructor
  · rintro ⟨hs, hx, hy, hxy⟩
    exact ⟨⟨fun i hi => hs i (List.mem_append_left _ hi), hx⟩,
      ⟨fun i hi => hs i (List.mem_append_right _ hi), hy⟩, hxy⟩
  · rintro ⟨⟨hs, hx⟩, ⟨hs', hy⟩, hxy⟩
    refine ⟨fun i hi => ?_, hx, hy, hxy⟩
    rcases List.mem_append.mp hi with hi | hi
    · exact hs i hi
    · exact hs' i hi

theorem Clocked.of_prefix {start : T} {pre ops : List ι} (h : Clocked time start ops)
    (hp : pre <+: ops) : Clocked time start pre :=
  ⟨fun i hi => h.1 i (hp.subset hi), h.2.sublist hp.sublist⟩

theorem Clocked.snoc {start : T} {pre : List ι} {i : ι} (h : Clocked time start (pre ++ [i])) :
    start ≤ time i ∧ ∀ j ∈ pre, time j ≤ time i := by
  rw [clocked_append] at h
  exact ⟨h.2.1.1 i List.mem_cons_self, fun j hj => h.2.2 j hj i List.mem_cons_self⟩

theorem Clocked.cons {start : T} {i : ι} {ops : List ι} (h : Clocked time start (i :: ops)) :
    start ≤ time i ∧ Clocked time (time i) ops :=
  ⟨h.1 i List.mem_cons_self, fun _ hj => List.rel_of_pairwise_cons h.2 hj, h.2.of_cons⟩

end Clock

end Lib.Runs
