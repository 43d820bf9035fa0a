import SpeeduinoDash.BmwClusterSim
import SpeeduinoDash.Lib.Divider

set_option autoImplicit false

/-!
# How often the cluster hears a module

A second is 50 ticks. Every other tick is 25 pairs of ABS frames, and the remainders modulo 5 are
out of step for once where the counter wraps, since `2 ^ 32` is no multiple of 5.
-/
namespace SpeeduinoDash.BmwClusterSim
open Lib.Divider

/-- What happens in a second: the modules that are enabled stay as they are. -/
inductive Op where
  | set (setting : Setting)
  | tick (accepts : CanFrame → Bool)

def step (s : BmwClusterSim) : Op → BmwClusterSim × List CanFrame
  | .set setting => (s.set setting, [])
  | .tick accepts => s.tick accepts

def sent (s : BmwClusterSim) : List Op → List CanFrame
  | [] => []
  | op :: ops => (s.step op).2 ++ (s.step op).1.sent ops

def Op.isTick : Op → Bool
  | .set _ => false
  | .tick _ => true

def ticks (ops : List Op) : ℕ := ops.countP Op.isTick

theorem ticks_set (setting : Setting) (ops : List Op) : ticks (.set setting :: ops) = ticks ops :=
  rfl

theorem ticks_tick (accepts : CanFrame → Bool) (ops : List Op) :
    ticks (.tick accepts :: ops) = ticks ops + 1 := List.countP_cons_of_pos rfl

def getFramesById (frames : List CanFrame) (id : UInt32) : List CanFrame :=
  frames.filter fun frame => frame.id == id

/-- Each module that is enabled is heard as often as its rate says. -/
structure RatesHold (s : BmwClusterSim) (ops : List Op) : Prop where
  asc : s.ascEnabled = true →
    (getFramesById (s.sent ops) Bmw.asc1Id).length = Bmw.ascRateHz
  egs : s.egsEnabled = true →
    (getFramesById (s.sent ops) Bmw.egsId).length = Bmw.egsRateHz
  sas : s.sasEnabled = true →
    (getFramesById (s.sent ops) Bmw.sasId).length = Bmw.sasRateHz
  abs : s.absEnabled = true →
    (getFramesById (s.sent ops) Bmw.abs1Id).length = Bmw.absRateHz ∧
      (getFramesById (s.sent ops) Bmw.abs2Id).length = Bmw.absRateHz

def ticksLeft (s : BmwClusterSim) : ℕ := 2 ^ 32 - 1 - s.tickCounter.toNat

/-- ABS is off, and if the counter wraps within the second the ticks left put ASC and EGS in step
    with what comes after. -/
structure InStep (s : BmwClusterSim) : Prop where
  abs : s.absEnabled = false
  asc : s.ascEnabled = true → 50 ≤ s.ticksLeft ∨ s.ticksLeft % 5 = 0
  egs : s.egsEnabled = true → 50 ≤ s.ticksLeft ∨ s.ticksLeft % 5 ≠ 4

/-- All that the times of the frames depend on. -/
structure Schedule where
  asc : Bool
  egs : Bool
  sas : Bool
  abs : Bool
  tickCounter : UInt32

def schedule (s : BmwClusterSim) : Schedule :=
  ⟨s.ascEnabled, s.egsEnabled, s.sasEnabled, s.absEnabled, s.tickCounter⟩

namespace Schedule

def next (t : Schedule) : Schedule := { t with tickCounter := t.tickCounter + 1 }

def due (t : Schedule) : List UInt32 :=
  (if t.asc ∧ t.tickCounter % 5 = 0 then [Bmw.asc1Id] else []) ++
  (if t.egs ∧ t.tickCounter % 5 = 1 then [Bmw.egsId] else []) ++
  (if t.sas then [Bmw.sasId] else []) ++
  (if t.abs ∧ t.tickCounter % 2 = 0 then [Bmw.abs1Id, Bmw.abs2Id] else [])

def idsIn (t : Schedule) : ℕ → List UInt32
  | 0 => []
  | n + 1 => t.next.due ++ t.next.idsIn n

end Schedule

theorem due_ids (s : BmwClusterSim) : s.due.map CanFrame.id = s.schedule.due := by
  simp only [due, Schedule.due, schedule, List.map_append, apply_ite (List.map CanFrame.id)]
  rfl

theorem set_schedule (s : BmwClusterSim) (setting : Setting) :
    (s.set setting).schedule = s.schedule := by
  cases setting <;> rfl

theorem send_schedule (accepts : CanFrame → Bool) (s : BmwClusterSim) (frame : CanFrame) :
    (s.send accepts frame).schedule = s.schedule := by
  unfold send
  split_ifs <;> rfl

theorem tick_schedule (s : BmwClusterSim) (accepts : CanFrame → Bool) :
    (s.tick accepts).1.schedule = s.schedule.next := by
  have hfold : ∀ (frames : List CanFrame) (s : BmwClusterSim),
      (frames.foldl (send accepts) s).schedule = s.schedule := by
    intro frames
    induction frames with
    | nil => exact fun s => rfl
    | cons frame frames ih => exact fun s => (ih _).trans (send_schedule accepts s frame)
  exact hfold _ _

theorem sent_ids (s : BmwClusterSim) (ops : List Op) :
    (s.sent ops).map CanFrame.id = s.schedule.idsIn (ticks ops) := by
  induction ops generalizing s with
  | nil => rfl
  | cons op ops ih =>
    rw [sent, List.map_append, ih]
    cases op with
    | set setting =>
      rw [step, set_schedule, ticks_set]
      rfl
    | tick accepts =>
      have hdue : (s.tick accepts).2.map CanFrame.id = s.schedule.next.due := due_ids _
      rw [step, tick_schedule, hdue, ticks_tick]
      rfl

theorem length_getFramesById (frames : List CanFrame) (id : UInt32) :
    (getFramesById frames id).length = (frames.map CanFrame.id).count id := by
  rw [getFramesById, ← List.countP_eq_length_filter, List.count, List.countP_map]
  rfl

namespace Schedule

theorem remainder_iff {c m r : UInt32} : c % m = r ↔ c.toNat % m.toNat = r.toNat := by
  rw [← UInt32.toNat_inj, UInt32.toNat_mod]

theorem count_idsIn {id : UInt32} {on : Schedule → Bool} {m r : ℕ}
    (hkeeps : ∀ t, on t.next = on t)
    (hdue : ∀ t, t.due.count id = if on t ∧ t.tickCounter.toNat % m = r then 1 else 0)
    (t : Schedule) (n : ℕ) :
    (t.idsIn n).count id = if on t then hits (2 ^ 32) m r t.tickCounter.toNat n else 0 := by
  induction n generalizing t with
  | zero => simp [idsIn]
  | succ n ih =>
    have hcounter : t.next.tickCounter.toNat = (t.tickCounter.toNat + 1) % 2 ^ 32 :=
      UInt32.toNat_add ..
    rw [idsIn, List.count_append, hdue, ih, hkeeps, hcounter, hits_mod, hits_succ]
    cases on t
    · simp
    · simp

theorem due_asc (t : Schedule) :
    t.due.count Bmw.asc1Id = if t.asc ∧ t.tickCounter.toNat % 5 = 0 then 1 else 0 := by
  have hzero : t.tickCounter % 5 = 0 ↔ t.tickCounter.toNat % 5 = 0 := remainder_iff
  simp only [due, List.count_append, apply_ite (List.count Bmw.asc1Id), hzero]
  simp [Bmw.asc1Id, Bmw.egsId, Bmw.sasId, Bmw.abs1Id, Bmw.abs2Id]

theorem due_egs (t : Schedule) :
    t.due.count Bmw.egsId = if t.egs ∧ t.tickCounter.toNat % 5 = 1 then 1 else 0 := by
  have hone : t.tickCounter % 5 = 1 ↔ t.tickCounter.toNat % 5 = 1 := remainder_iff
  simp only [due, List.count_append, apply_ite (List.count Bmw.egsId), hone]
  simp [Bmw.asc1Id, Bmw.egsId, Bmw.sasId, Bmw.abs1Id, Bmw.abs2Id]

theorem due_sas (t : Schedule) :
    t.due.count Bmw.sasId = if t.sas ∧ t.tickCounter.toNat % 1 = 0 then 1 else 0 := by
  simp only [due, List.count_append, apply_ite (List.count Bmw.sasId), Nat.mod_one, and_true]
  simp [Bmw.asc1Id, Bmw.egsId, Bmw.sasId, Bmw.abs1Id, Bmw.abs2Id]

theorem due_abs (t : Schedule) {id : UInt32} (hid : id = Bmw.abs1Id ∨ id = Bmw.abs2Id) :
    t.due.count id = if t.abs ∧ t.tickCounter.toNat % 2 = 0 then 1 else 0 := by
  have hzero : t.tickCounter % 2 = 0 ↔ t.tickCounter.toNat % 2 = 0 := remainder_iff
  simp only [due, List.count_append, apply_ite (List.count id), hzero]
  rcases hid with rfl | rfl <;>
    simp [Bmw.asc1Id, Bmw.egsId, Bmw.sasId, Bmw.abs1Id, Bmw.abs2Id]

end Schedule

theorem heard {id : UInt32} {on : Schedule → Bool} {m r : ℕ} (hkeeps : ∀ t, on t.next = on t)
    (hdue : ∀ t : Schedule,
      t.due.count id = if on t ∧ t.tickCounter.toNat % m = r then 1 else 0)
    {s : BmwClusterSim} {ops : List Op} (hticks : ticks ops = 50) (hon : on s.schedule = true) :
    (getFramesById (s.sent ops) id).length = hits (2 ^ 32) m r s.tickCounter.toNat 50 := by
  rw [length_getFramesById, sent_ids, Schedule.count_idsIn hkeeps hdue, if_pos hon, hticks]
  rfl

theorem hits_second {m r : ℕ} (hr : r < m) (s : BmwClusterSim) :
    (50 ≤ s.ticksLeft ∧
      hits (2 ^ 32) m r s.tickCounter.toNat 50 + (s.tickCounter.toNat + 1 + (m - 1 - r)) / m =
        (s.tickCounter.toNat + 1 + 50 + (m - 1 - r)) / m) ∨
    (s.ticksLeft < 50 ∧
      hits (2 ^ 32) m r s.tickCounter.toNat 50 + (2 ^ 32 - s.ticksLeft + (m - 1 - r)) / m =
        (2 ^ 32 + (m - 1 - r)) / m + (50 - s.ticksLeft + (m - 1 - r)) / m) := by
  have hlt := s.tickCounter.toNat_lt
  unfold ticksLeft
  simp only [← below_eq hr]
  rcases Nat.lt_or_ge (s.tickCounter.toNat + 50) (2 ^ 32) with hno | hwraps
  · have hsum := hits_of_lt (m := m) (r := r) hno
    exact .inl ⟨by omega, by omega⟩
  · obtain ⟨a, ha⟩ := Nat.exists_eq_add_of_le (show s.tickCounter.toNat + 1 ≤ 2 ^ 32 by omega)
    have hsum := hits_of_wrap (m := m) (r := r) ha.symm (show 50 - a ≤ 2 ^ 32 by omega)
    have hleft : 2 ^ 32 - 1 - s.tickCounter.toNat = a := by omega
    have hstart : 2 ^ 32 - a = s.tickCounter.toNat + 1 := by omega
    rw [Nat.add_sub_of_le (show a ≤ 50 by omega)] at hsum
    refine .inr ⟨by omega, ?_⟩
    rw [hleft, hstart, Nat.add_comm]
    exact hsum

theorem asc_second (s : BmwClusterSim) :
    hits (2 ^ 32) 5 0 s.tickCounter.toNat 50 = 10 ↔ 50 ≤ s.ticksLeft ∨ s.ticksLeft % 5 = 0 := by
  obtain ⟨hleft, hsum⟩ | ⟨hleft, hsum⟩ := hits_second (show 0 < 5 by decide) s
  · omega
  · omega

theorem egs_second (s : BmwClusterSim) :
    hits (2 ^ 32) 5 1 s.tickCounter.toNat 50 = 10 ↔ 50 ≤ s.ticksLeft ∨ s.ticksLeft % 5 ≠ 4 := by
  obtain ⟨hleft, hsum⟩ | ⟨hleft, hsum⟩ := hits_second (show 1 < 5 by decide) s
  · omega
  · omega

theorem abs_second (s : BmwClusterSim) : hits (2 ^ 32) 2 0 s.tickCounter.toNat 50 = 25 := by
  obtain ⟨hleft, hsum⟩ | ⟨hleft, hsum⟩ := hits_second (show 0 < 2 by decide) s
  · omega
  · omega

theorem rates_hold_iff {s : BmwClusterSim} {ops : List Op} (hticks : ticks ops = 50) :
    RatesHold s ops ↔ s.InStep := by
  have hasc : s.ascEnabled = true → _ := heard (fun _ => rfl) Schedule.due_asc hticks
  have hegs : s.egsEnabled = true → _ := heard (fun _ => rfl) Schedule.due_egs hticks
  have hsas : s.sasEnabled = true → _ := heard (fun _ => rfl) Schedule.due_sas hticks
  have habs : s.absEnabled = true → _ :=
    heard (fun _ => rfl) (fun t => t.due_abs (.inl rfl)) hticks
  constructor
  · intro h
    refine ⟨?_, fun hon => ?_, fun hon => ?_⟩
    · by_contra hon
      rw [Bool.not_eq_false] at hon
      have hrate := (h.abs hon).1
      rw [habs hon, abs_second] at hrate
      cases hrate
    · rw [← asc_second, ← hasc hon]
      exact h.asc hon
    · rw [← egs_second, ← hegs hon]
      exact h.egs hon
  · intro h
    refine ⟨fun hon => ?_, fun hon => ?_, fun hon => ?_, fun hon => ?_⟩
    · rw [hasc hon]
      exact (asc_second s).mpr (h.asc hon)
    · rw [hegs hon]
      exact (egs_second s).mpr (h.egs hon)
    · rw [hsas hon]
      exact hits_one ..
    · rw [h.abs] at hon
      cases hon

def second : List Op := List.replicate 50 (.tick fun _ => true)

theorem rates_hold_first : RatesHold {} second :=
  (rates_hold_iff (by decide)).mpr ⟨rfl, fun _ => .inl (by decide), fun _ => .inl (by decide)⟩

/-- The first second of ABS has 25 pairs. -/
theorem abs_too_often : ¬ ∀ s ops, ticks ops = 50 → RatesHold s ops := by
  intro h
  have habs := (h { absEnabled := true } second (by decide)).abs rfl
  revert habs
  decide +kernel

end SpeeduinoDash.BmwClusterSim
