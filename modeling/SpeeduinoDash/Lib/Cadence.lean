import Mathlib.Algebra.Order.Group.Defs
import Mathlib.Algebra.Order.Sub.Basic
import Mathlib.Data.List.Chain
import Mathlib.Tactic.Abel
import SpeeduinoDash.Lib.Runs

set_option autoImplicit false

/-!
# A polled timer

A loop polls a clock and fires when `interval` has passed since it last fired. The firings are no
closer than the interval, and later than it by less than the loop takes between two polls.
-/
namespace Lib.Cadence
open Lib.Runs

section Polls

variable {T : Type*}

/-- The last of some polls, at first the start of the loop. -/
def lastPoll (start : T) (ts : List T) : T := ts.getLast?.getD start

theorem isChain_lastPoll {r : T → T → Prop} {start : T} {ts us : List T}
    (h : (start :: (ts ++ us)).IsChain r) : (lastPoll start ts :: us).IsChain r := by
  induction ts generalizing start with
  | nil => exact h
  | cons t ts ih =>
    have hrest := ih (List.isChain_cons_cons.mp h).2
    rwa [lastPoll, List.getLast?_cons, Option.getD_some]

end Polls

variable {T : Type*} [AddCommGroup T] [LinearOrder T] (interval : T)

def tick (last t : T) : T := if interval ≤ t - last then t else last

def firings (last : T) : List T → List T
  | [] => []
  | t :: ts => if interval ≤ t - last then t :: firings t ts else firings last ts

theorem firings_isChain (last : T) (ts : List T) :
    (last :: firings interval last ts).IsChain (fun a b => interval ≤ b - a) := by
  induction ts generalizing last with
  | nil => exact List.isChain_singleton last
  | cons t ts ih =>
    rw [firings]
    split_ifs with hdue
    · exact List.isChain_cons_cons.mpr ⟨hdue, ih t⟩
    · exact ih last

variable {interval}

/-- A poll leaves the last firing less than an interval back. -/
theorem sub_tick_lt (hpos : 0 < interval) (last t : T) : t - tick interval last t < interval := by
  rw [tick]
  split_ifs with hdue
  · rwa [sub_self]
  · exact not_le.mp hdue

theorem run_tick (hpos : 0 < interval) {start : T} {ts : List T}
    (hsorted : (start :: ts).Pairwise (· ≤ ·)) :
    run (tick interval) start ts ≤ lastPoll start ts ∧
      lastPoll start ts - run (tick interval) start ts < interval := by
  induction ts using List.reverseRecOn with
  | nil => exact ⟨le_refl start, by rwa [lastPoll, run_nil, List.getLast?_nil, Option.getD_none,
      sub_self]⟩
  | append_singleton ts t ih =>
    have hbefore : (start :: ts).Pairwise (· ≤ ·) :=
      hsorted.sublist (List.sublist_append_left (start :: ts) [t])
    have hlast : lastPoll start ts ≤ t := by
      have hle := (List.pairwise_append.mp (List.cons_append ▸ hsorted)).2.2
      unfold lastPoll
      cases hts : ts.getLast? with
      | none => exact hle start List.mem_cons_self t List.mem_cons_self
      | some u =>
        exact hle u (List.mem_cons_of_mem start (List.mem_of_getLast? hts)) t List.mem_cons_self
    have hconcat : lastPoll start (ts ++ [t]) = t := by
      rw [lastPoll, List.getLast?_concat, Option.getD_some]
    rw [run_snoc, hconcat]
    refine ⟨?_, sub_tick_lt hpos _ t⟩
    rw [tick]
    split_ifs
    · exact le_refl t
    · exact (ih hbefore).1.trans hlast

variable [IsOrderedAddMonoid T]

/-- Polls at most `delay` apart fire less than `interval + delay` apart. -/
theorem firings_prompt (hpos : 0 < interval) {delay last s : T} {ts : List T}
    (hlast : s - last < interval) (hpolls : (s :: ts).IsChain (fun x y => y - x ≤ delay)) :
    (last :: firings interval last ts).IsChain (fun a b => b - a < interval + delay) := by
  induction ts generalizing last s with
  | nil => exact List.isChain_singleton last
  | cons t ts ih =>
    obtain ⟨hdelay, hrest⟩ := List.isChain_cons_cons.mp hpolls
    rw [firings]
    split_ifs with hdue
    · have hself : t - t < interval := by rwa [sub_self]
      refine List.isChain_cons_cons.mpr ⟨?_, ih hself hrest⟩
      calc t - last = (s - last) + (t - s) := by abel
        _ < interval + delay := add_lt_add_of_lt_of_le hlast hdelay
    · exact ih (not_le.mp hdue) hrest

/-- Every time that is an interval before some poll is followed by a firing, within less than the
    interval and a delay. -/
theorem exists_firing (hpos : 0 < interval) {delay a last s : T} {ts : List T}
    (hlast : s - last < interval) (hpolls : (s :: ts).IsChain (fun x y => y - x ≤ delay))
    (hafter : last ≤ a) (hlater : ∃ t ∈ ts, a + interval ≤ t) :
    ∃ us t vs, ts = us ++ t :: vs ∧ interval ≤ t - run (tick interval) last us ∧ a ≤ t ∧
      t < a + interval + delay := by
  induction ts generalizing last s with
  | nil =>
    obtain ⟨t, ht, -⟩ := hlater
    exact absurd ht List.not_mem_nil
  | cons t ts ih =>
    obtain ⟨hdelay, hrest⟩ := List.isChain_cons_cons.mp hpolls
    obtain ⟨u, hu, hfar⟩ := hlater
    by_cases hdue : interval ≤ t - last
    · by_cases hat : a ≤ t
      · refine ⟨[], t, ts, rfl, hdue, hat, ?_⟩
        calc t = last + ((s - last) + (t - s)) := by abel
          _ < last + (interval + delay) :=
            add_lt_add_right (add_lt_add_of_lt_of_le hlast hdelay) last
          _ ≤ a + (interval + delay) := add_le_add_left hafter _
          _ = a + interval + delay := (add_assoc _ _ _).symm
      · have hself : t - t < interval := by rwa [sub_self]
        have hne : u ≠ t := by
          rintro rfl
          exact hat ((le_add_of_nonneg_right hpos.le).trans hfar)
        obtain ⟨us, v, vs, hts, hfires, hav, hva⟩ := ih hself hrest (not_le.mp hat).le
          ⟨u, List.mem_of_ne_of_mem hne hu, hfar⟩
        refine ⟨t :: us, v, vs, by rw [hts, List.cons_append], ?_, hav, hva⟩
        rwa [run_cons, tick, if_pos hdue]
    · have hne : u ≠ t := by
        rintro rfl
        refine hdue (le_sub_iff_add_le'.mpr ?_)
        exact (add_le_add_left hafter interval).trans hfar
      obtain ⟨us, v, vs, hts, hfires, hav, hva⟩ := ih (not_le.mp hdue) hrest hafter
        ⟨u, List.mem_of_ne_of_mem hne hu, hfar⟩
      refine ⟨t :: us, v, vs, by rw [hts, List.cons_append], ?_, hav, hva⟩
      rwa [run_cons, tick, if_neg hdue]

theorem firings_pairwise (hpos : 0 < interval) (last : T) (ts : List T) :
    (firings interval last ts).Pairwise (fun a b => interval ≤ b - a) := by
  have htrans : ∀ a b c : T, interval ≤ b - a → interval ≤ c - b → interval ≤ c - a := by
    intro a b c hab hbc
    calc interval ≤ c - b := hbc
      _ ≤ c - b + (b - a) := le_add_of_nonneg_right (hpos.le.trans hab)
      _ = c - a := by abel
  have : Trans (fun a b : T => interval ≤ b - a) (fun a b : T => interval ≤ b - a)
      (fun a b : T => interval ≤ b - a) := ⟨fun {a b c} => htrans a b c⟩
  exact ((firings_isChain interval last ts).pairwise).of_cons

theorem span_of_firings (hpos : 0 < interval) {a width : T} {ts : List T} (hnonneg : 0 ≤ width)
    (hspaced : ts.Pairwise (fun a b => interval ≤ b - a))
    (hwithin : ∀ t ∈ ts, a ≤ t ∧ t ≤ a + width) : (ts.length - 1) • interval ≤ width := by
  induction ts generalizing a width with
  | nil => simpa using hnonneg
  | cons t ts ih =>
    cases ts with
    | nil => simpa using hnonneg
    | cons u ts =>
      obtain ⟨hfirst, hrest⟩ := List.pairwise_cons.mp hspaced
      have hat : a ≤ t := (hwithin t List.mem_cons_self).1
      have hue : u ≤ a + width := (hwithin u (List.mem_cons_of_mem t List.mem_cons_self)).2
      have hgap : interval ≤ u - a := (hfirst u List.mem_cons_self).trans (sub_le_sub_left hat u)
      have hlater : ∀ v ∈ u :: ts, u ≤ v ∧ v ≤ u + (a + width - u) := by
        intro v hv
        rw [add_sub_cancel]
        refine ⟨?_, (hwithin v (List.mem_cons_of_mem t hv)).2⟩
        rcases List.mem_cons.mp hv with rfl | hv
        · exact le_refl v
        · exact sub_nonneg.mp (hpos.le.trans ((List.pairwise_cons.mp hrest).1 v hv))
      have hshort := ih (sub_nonneg.mpr hue) hrest hlater
      calc ((t :: u :: ts).length - 1) • interval
          = ((u :: ts).length - 1) • interval + interval := succ_nsmul interval ts.length
        _ ≤ (a + width - u) + (u - a) := add_le_add hshort hgap
        _ = width := by abel

/-- Whatever the polls, `n + 1` firings within a window take `n` intervals. -/
theorem firings_window (hpos : 0 < interval) (last : T) (ts : List T) {a width : T}
    (hnonneg : 0 ≤ width) :
    (((firings interval last ts).filter (fun t => a ≤ t ∧ t ≤ a + width)).length - 1) • interval ≤
      width := by
  refine span_of_firings (a := a) hpos hnonneg ((firings_pairwise hpos last ts).filter _) ?_
  intro t ht
  exact of_decide_eq_true (List.mem_filter.mp ht).2

end Lib.Cadence
