import Mathlib.Data.List.DropRight
import Mathlib.Data.List.SplitBy
import SpeeduinoDash.Lib.Keyed
import SpeeduinoDash.Lib.Runs

set_option autoImplicit false

/-!
# Debouncing a stream of timed samples

The law speaks about the maximal constant runs of the stream: the debounced value is the value
of the last run that stayed long enough. The machine keeps only a pending value, the time it
appeared and the committed value; `committed_eq_settledValue` says it computes the law.
-/
namespace Lib.Debounce
open Lib.Keyed Lib.Runs

variable {τ α : Type*} (longEnough : τ → τ → Bool)

abbrev Sample (τ α : Type*) := τ × α

def Constant (v : α) (run : List (Sample τ α)) : Prop := ∀ x ∈ run, x.2 = v

/-- Some later sample of the run comes long enough after its first. -/
def settled : List (Sample τ α) → Bool
  | [] => false
  | first :: later => later.any (fun x => longEnough first.1 x.1)

theorem settled_snoc {run : List (Sample τ α)} {first : Sample τ α} (x : Sample τ α)
    (hfirst : run.head? = some first) :
    settled longEnough (run ++ [x]) = (settled longEnough run || longEnough first.1 x.1) := by
  cases run with
  | nil => simp at hfirst
  | cons y run =>
    simp only [List.head?_cons, Option.some.injEq] at hfirst
    subst y
    simp [settled]

/-- A sample is no nearer to the times after it than the later samples are. -/
def Monotone (xs : List (Sample τ α)) : Prop :=
  xs.Pairwise (fun x y => ∀ t, longEnough y.1 t = true → longEnough x.1 t = true)

theorem settled_of_sublist {run : List (Sample τ α)} {x y : Sample τ α}
    (hmono : Monotone longEnough run) (hxy : [x, y].Sublist run)
    (hlong : longEnough x.1 y.1 = true) : settled longEnough run = true := by
  cases run with
  | nil => simp at hxy
  | cons z run =>
    apply List.any_eq_true.mpr
    cases hxy with
    | cons _ h =>
      have hx : x ∈ run := h.subset List.mem_cons_self
      have hy : y ∈ run := h.subset (List.mem_cons_of_mem x List.mem_cons_self)
      exact ⟨y, hy, List.rel_of_pairwise_cons hmono hx y.1 hlong⟩
    | cons_cons _ h =>
      have hy : y ∈ run := h.subset List.mem_cons_self
      exact ⟨y, hy, hlong⟩

section Law

variable [DecidableEq α]

def constantRuns (xs : List (Sample τ α)) : List (List (Sample τ α)) :=
  xs.splitBy (fun x y => x.2 == y.2)

def settledValue (init : α) (xs : List (Sample τ α)) : α :=
  (((lastWhere (settled longEnough) (constantRuns xs)).bind List.head?).map Prod.snd).getD init

theorem constantRuns_append {xs run : List (Sample τ α)} {v : α} (hrun : run ≠ [])
    (hv : Constant v run) (hlast : ∀ x ∈ xs.getLast?, x.2 ≠ v) :
    constantRuns (xs ++ run) = constantRuns xs ++ [run] := by
  have hchain : run.IsChain (fun x y => (x.2 == y.2) = true) := by
    apply List.Pairwise.isChain
    apply List.pairwise_of_forall_mem_list
    intro x hx y hy
    rw [beq_iff_eq, hv x hx, hv y hy]
  unfold constantRuns
  rw [List.splitBy_append, List.splitBy_of_isChain hrun hchain]
  intro x hx y hy
  rw [hv y (List.mem_of_mem_head? hy)]
  exact beq_false_of_ne (hlast x hx)

/-- A run that follows a different value decides the law if it settled, and else is noise. -/
theorem settledValue_append {xs run : List (Sample τ α)} {v : α} (init : α)
    (hv : Constant v run) (hlast : ∀ x ∈ xs.getLast?, x.2 ≠ v) :
    settledValue longEnough init (xs ++ run) =
      if settled longEnough run then v else settledValue longEnough init xs := by
  cases run with
  | nil =>
    rw [List.append_nil]
    exact (if_neg Bool.false_ne_true).symm
  | cons x run =>
    unfold settledValue
    rw [constantRuns_append (List.cons_ne_nil x run) hv hlast, lastWhere_snoc]
    split_ifs with h
    · exact hv x List.mem_cons_self
    · rfl

theorem constantRuns_constant {xs run : List (Sample τ α)} (h : run ∈ constantRuns xs) :
    ∃ v, run.head?.map Prod.snd = some v ∧ Constant v run := by
  cases run with
  | nil => exact absurd h (List.nil_notMem_splitBy _ xs)
  | cons x run =>
    refine ⟨x.2, rfl, ?_⟩
    have hchain : (x :: run).IsChain (fun y z => y.2 = z.2) := by
      refine (List.isChain_of_mem_splitBy h).imp ?_
      intro y z hyz
      exact beq_iff_eq.mp hyz
    have htrans : IsTrans (Sample τ α) (fun y z => y.2 = z.2) := ⟨fun _ _ _ => Eq.trans⟩
    intro y hy
    rcases List.mem_cons.mp hy with rfl | hy
    · rfl
    · exact (List.rel_of_pairwise_cons hchain.pairwise hy).symm

theorem settledValue_eq_iff (init v : α) (xs : List (Sample τ α)) :
    settledValue longEnough init xs = v ↔
      (∃ run, lastWhere (settled longEnough) (constantRuns xs) = some run ∧ Constant v run) ∨
      (lastWhere (settled longEnough) (constantRuns xs) = none ∧ init = v) := by
  rw [settledValue]
  cases hrun : lastWhere (settled longEnough) (constantRuns xs) with
  | none => simp
  | some run =>
    obtain ⟨w, hhead, hw⟩ := constantRuns_constant (lastWhere_mem _ hrun).1
    rw [Option.bind_some, hhead, Option.getD_some]
    constructor
    · rintro rfl
      exact .inl ⟨run, rfl, hw⟩
    · rintro (⟨run', hrun', hv⟩ | ⟨hnone, -⟩)
      · obtain rfl : run = run' := Option.some.inj hrun'
        cases run with
        | nil => simp at hhead
        | cons x run => rw [← hw x List.mem_cons_self, hv x List.mem_cons_self]
      · cases hnone

theorem settledValue_of_tail {pre tail : List (Sample τ α)} {v : α} {x y : Sample τ α} (init : α)
    (hv : Constant v tail) (hmono : Monotone longEnough (pre ++ tail))
    (hxy : [x, y].Sublist tail) (hlong : longEnough x.1 y.1 = true) :
    settledValue longEnough init (pre ++ tail) = v := by
  -- The last run reaches back into `pre` as far as `pre` ends in samples of `v`.
  have hsplit : pre = pre.rdropWhile (fun z => z.2 == v) ++ pre.rtakeWhile (fun z => z.2 == v) :=
    (List.rdropWhile_append_rtakeWhile ..).symm
  have hrun : Constant v (pre.rtakeWhile (fun z => z.2 == v) ++ tail) := by
    intro z hz
    rcases List.mem_append.mp hz with hz | hz
    · have hp : (z.2 == v) = true := List.mem_rtakeWhile_imp (p := fun z : Sample τ α => z.2 == v) hz
      exact beq_iff_eq.mp hp
    · exact hv z hz
  have hsub : [x, y].Sublist (pre.rtakeWhile (fun z => z.2 == v) ++ tail) :=
    hxy.trans (List.sublist_append_right ..)
  have hlast : ∀ z ∈ (pre.rdropWhile (fun z => z.2 == v)).getLast?, z.2 ≠ v := by
    intro z hz he
    obtain ⟨hdrop, hz⟩ := List.mem_getLast?_eq_getLast hz
    subst hz
    exact List.rdropWhile_last_not _ _ hdrop (beq_iff_eq.mpr he)
  rw [hsplit, List.append_assoc] at hmono ⊢
  rw [settledValue_append longEnough init hrun hlast, if_pos]
  exact settled_of_sublist longEnough (hmono.sublist (List.sublist_append_right ..)) hsub hlong

end Law

structure Debouncer (τ α : Type*) where
  pending : α
  since : τ
  committed : α

variable [DecidableEq α]

def step (s : Debouncer τ α) (x : Sample τ α) : Debouncer τ α :=
  if x.2 ≠ s.pending then { s with pending := x.2, since := x.1 }
  else if longEnough s.since x.1 ∧ s.pending ≠ s.committed then { s with committed := s.pending }
  else s

/-- `run` is the constant run at the end of the stream `pre ++ run`, and the machine has been
    waiting since its first sample. The very first run may have started before its first sample,
    but then it reads the initial value. -/
structure Waiting (init : α) (pre run : List (Sample τ α)) (s : Debouncer τ α) : Prop where
  constant : Constant s.pending run
  fresh : ∀ x ∈ pre.getLast?, x.2 ≠ s.pending
  committed : s.committed = settledValue longEnough init (pre ++ run)
  since : (∃ first, run.head? = some first ∧ s.since = first.1) ∨ pre = [] ∧ s.pending = init

theorem waiting_start (init : α) (t : τ) : Waiting longEnough init [] [] ⟨init, t, init⟩ where
  constant := by simp [Constant]
  fresh := by simp
  committed := by simp [settledValue, constantRuns]
  since := .inr ⟨rfl, rfl⟩

section Step

variable {longEnough} {init : α} {pre run : List (Sample τ α)} {s : Debouncer τ α}

theorem Waiting.last_ne {x : Sample τ α} (h : Waiting longEnough init pre run s)
    (hx : x.2 ≠ s.pending) (y : Sample τ α) (hy : y ∈ (pre ++ run).getLast?) : y.2 ≠ x.2 ∨
      (run = [] ∧ pre ≠ []) := by
  cases hrun : run.getLast? with
  | some z =>
    rw [List.getLast?_append, hrun, Option.some_or, Option.mem_some_iff] at hy
    subst hy
    refine .inl fun he => hx ?_
    rw [← he]
    exact h.constant z (List.mem_of_getLast? hrun)
  | none =>
    rw [List.getLast?_eq_none_iff] at hrun
    subst hrun
    refine .inr ⟨rfl, fun hpre => ?_⟩
    subst hpre
    simp at hy

theorem Waiting.run_ne_nil (h : Waiting longEnough init pre run s) (hpre : pre ≠ []) :
    run ≠ [] := by
  rcases h.since with ⟨first, hfirst, -⟩ | ⟨hnil, -⟩
  · rintro rfl
    simp at hfirst
  · exact absurd hnil hpre

theorem Waiting.opens (h : Waiting longEnough init pre run s) (x : Sample τ α)
    (hx : x.2 ≠ s.pending) :
    Waiting longEnough init (pre ++ run) [x] (step longEnough s x) := by
  have hlast : ∀ y ∈ (pre ++ run).getLast?, y.2 ≠ x.2 := by
    intro y hy
    rcases h.last_ne hx y hy with hne | ⟨hrun, hpre⟩
    · exact hne
    · exact absurd hrun (h.run_ne_nil hpre)
  have hone : Constant x.2 [x] := by
    intro y hy
    rw [List.mem_singleton.mp hy]
  unfold step
  rw [if_pos hx]
  refine ⟨hone, hlast, ?_, .inl ⟨x, rfl, rfl⟩⟩
  rw [settledValue_append longEnough init hone hlast]
  simpa [settled] using h.committed

/-- What is committed is what the run has settled to. -/
theorem Waiting.committed_eq (h : Waiting longEnough init pre run s) :
    s.committed =
      if settled longEnough run then s.pending else settledValue longEnough init pre := by
  rw [h.committed]
  exact settledValue_append longEnough init h.constant h.fresh

theorem step_of_pending {x : Sample τ α} (hx : x.2 = s.pending) :
    step longEnough s x =
      if longEnough s.since x.1 ∧ s.pending ≠ s.committed then { s with committed := s.pending }
      else s := if_neg (not_not.mpr hx)

variable (longEnough) in
theorem pending_step {x : Sample τ α} (hx : x.2 = s.pending) :
    (step longEnough s x).pending = s.pending ∧ (step longEnough s x).since = s.since := by
  rw [step_of_pending hx]
  split_ifs <;> exact ⟨rfl, rfl⟩

theorem Waiting.extends (h : Waiting longEnough init pre run s) (x : Sample τ α)
    (hx : x.2 = s.pending) :
    Waiting longEnough init pre (run ++ [x]) (step longEnough s x) := by
  have hrun : Constant s.pending (run ++ [x]) := by
    intro y hy
    rcases List.mem_append.mp hy with hy | hy
    · exact h.constant y hy
    · rw [List.mem_singleton.mp hy, hx]
  have hnew := settledValue_append longEnough init hrun h.fresh
  have hold := h.committed_eq
  obtain ⟨hpending, hsince⟩ := pending_step longEnough hx
  rw [← List.append_assoc] at hnew
  refine ⟨by rwa [hpending], by rw [hpending]; exact h.fresh, ?_, ?_⟩
  · rw [← List.append_assoc, hnew, step_of_pending hx]
    rcases h.since with ⟨first, hfirst, ht⟩ | ⟨rfl, hinit⟩
    · rw [settled_snoc longEnough x hfirst, ht]
      cases hs : settled longEnough run <;> cases hl : longEnough first.1 x.1 <;>
        simp_all
      split_ifs <;> simp_all
    · -- The first run reads the initial value: committed or not, that is the law's value.
      have hsame : s.committed = s.pending := by
        rw [hold, hinit]
        split_ifs <;> simp [settledValue, constantRuns]
      rw [if_neg (by simp [hsame]), hsame]
      split_ifs
      · rfl
      · simp [settledValue, constantRuns, hinit]
  · rw [hpending, hsince]
    rcases h.since with ⟨first, hfirst, ht⟩ | ⟨hpre, hinit⟩
    · exact .inl ⟨first, by rw [List.head?_append, hfirst, Option.some_or], ht⟩
    · exact .inr ⟨hpre, hinit⟩

end Step

theorem committed_eq_settledValue (init : α) (t : τ) (xs : List (Sample τ α)) :
    (run (step longEnough) ⟨init, t, init⟩ xs).committed = settledValue longEnough init xs := by
  have h : ∃ pre rn, xs = pre ++ rn ∧
      Waiting longEnough init pre rn (run (step longEnough) ⟨init, t, init⟩ xs) := by
    refine run_history (step longEnough) (fun xs s => ∃ pre rn, xs = pre ++ rn ∧
      Waiting longEnough init pre rn s) ⟨[], [], rfl, waiting_start longEnough init t⟩ xs ?_
    rintro done x - ⟨pre, rn, rfl, hw⟩
    by_cases hx : x.2 = (run (step longEnough) ⟨init, t, init⟩ (pre ++ rn)).pending
    · exact ⟨pre, rn ++ [x], by rw [List.append_assoc], hw.extends x hx⟩
    · exact ⟨pre ++ rn, [x], rfl, hw.opens x hx⟩
  obtain ⟨pre, rn, rfl, hw⟩ := h
  exact hw.committed

end Lib.Debounce
