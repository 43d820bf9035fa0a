import SpeeduinoDash.LapTimer

set_option autoImplicit false

/-!
# Sector times

Start times are exact here. The trace keeps whether every sector of the lap under way ended no
earlier than it began, as it does on a clock that never goes back.
-/
namespace SpeeduinoDash
open Lib.History Lib.Runs

/-- The lap's sectors add up to it. -/
structure LapData.SectorsAccount (lap : LapData) : Prop where
  nonneg : ∀ time ∈ lap.sectors, 0 ≤ time
  sum : lap.sectors.sum = lap.time

instance (lap : LapData) : Decidable lap.SectorsAccount :=
  decidable_of_iff ((∀ time ∈ lap.sectors, 0 ≤ time) ∧ lap.sectors.sum = lap.time)
    ⟨fun h => ⟨h.1, h.2⟩, fun h => ⟨h.nonneg, h.sum⟩⟩

namespace LapTimer

theorem assign_next (done : List ℤ) (k : ℕ) (time : ℤ) :
    assign (done ++ List.replicate k 0) done.length time =
      done ++ [time] ++ List.replicate (k - 1) 0 := by
  unfold assign
  rw [List.length_append, List.length_replicate]
  cases k with
  | zero => simp
  | succ k =>
    rw [if_pos (by omega), List.set_append_right _ _ (le_refl _), Nat.sub_self,
      List.replicate_succ, List.set_cons_zero, List.append_assoc]
    rfl

theorem lapHistory_completeLap (stored : ℤ → ℤ) {s : LapTimer} (c : Readings)
    (h : s.isRunning = true) :
    (s.completeLap stored c).lapHistory = push s.maxLapHistory (s.lapData c) s.lapHistory := by
  rw [completeLap_of_running stored c h]
  unfold checkBest
  split_ifs <;> rfl

structure SectorTrace where
  timer : LapTimer
  ordered : Bool := true
deriving DecidableEq

namespace SectorTrace

section Steps

variable (t : SectorTrace)

def changed (op : Op) : SectorTrace := { t with timer := t.timer.changed op }

def perform (p : Call × Readings) : SectorTrace where
  timer := t.timer.perform id p
  ordered :=
    if p.1 = .startLap ∨ t.timer.completes p.1 = true then true
    else t.ordered && decide (t.timer.sectorStartTime ≤ p.2.sector)

def step (op : Op) : SectorTrace :=
  match t.timer.call op with
  | none => t.changed op
  | some p => (t.changed op).perform p

theorem step_timer (op : Op) : (t.step op).timer = t.timer.step id op := by
  unfold step LapTimer.step
  cases t.timer.call op <;> rfl

def HistoryAccounts : Prop := ∀ lap ∈ t.timer.lapHistory, lap.SectorsAccount

/-- The lap ends with its last sector, or where no time has passed in the sector under way. -/
def EndsWithSector (p : Call × Readings) : Prop :=
  match p.1 with
  | .completeSector => t.timer.sectorStartTime ≤ p.2.sector
  | _ => p.2.lap = t.timer.sectorStartTime

/-- A lap that is stored had its sectors in order and ends with a sector. -/
def StoresWholeLap (op : Op) : Prop :=
  ∀ p, t.timer.call op = some p → t.timer.completes p.1 = true →
    0 < t.timer.maxLapHistory ∨ t.timer.lapHistory ≠ [] → t.ordered = true ∧ t.EndsWithSector p

structure Filled (done : List ℤ) (k : ℕ) : Prop where
  times : t.timer.currentSectorTimes = done ++ List.replicate k 0
  sector : t.timer.currentSector = done.length
  sum : done.sum = t.timer.sectorStartTime - t.timer.lapStartTime
  ordered : t.ordered = true ↔ ∀ time ∈ done, 0 ≤ time

def Coherent : Prop := t.timer.isRunning = true → ∃ done k, t.Filled done k

end Steps

variable {t : SectorTrace}

theorem coherent_changed (op : Op) (h : t.Coherent) : (t.changed op).Coherent := by
  intro hrunning
  cases op with
  | stopTimer => cases hrunning
  | resetAll => cases hrunning
  | _ =>
    obtain ⟨done, k, htimes, hsector, hsum, hordered⟩ := h hrunning
    exact ⟨done, k, htimes, hsector, hsum, hordered⟩

theorem historyAccounts_changed (op : Op) (h : t.HistoryAccounts) :
    (t.changed op).HistoryAccounts := by
  cases op with
  | resetAll => exact nofun
  | _ => exact h

theorem filled_startLap (s : LapTimer) (c : Readings) :
    Filled ⟨s.startLap id c, true⟩ [] s.numSectors :=
  ⟨rfl, rfl, (sub_self _).symm, iff_of_true rfl nofun⟩

theorem filled_recordSector {done : List ℤ} {k : ℕ} (c : Readings) (h : t.Filled done k) :
    Filled ⟨t.timer.recordSector id c, t.ordered && decide (t.timer.sectorStartTime ≤ c.sector)⟩
      (done ++ [c.sector - t.timer.sectorStartTime]) (k - 1) := by
  obtain ⟨htimes, hsector, hsum, hordered⟩ := h
  refine ⟨?_, ?_, ?_, ?_⟩
  · change assign t.timer.currentSectorTimes t.timer.currentSector _ = _
    rw [htimes, hsector, assign_next]
  · change t.timer.currentSector + 1 = _
    rw [hsector, List.length_append]
    rfl
  · change _ = c.sector - t.timer.lapStartTime
    rw [List.sum_append, List.sum_singleton, hsum]
    omega
  · rw [Bool.and_eq_true, hordered, decide_eq_true_iff, List.forall_mem_append,
      List.forall_mem_singleton, sub_nonneg]

theorem perform_completes {p : Call × Readings} (h : t.timer.completes p.1 = true) :
    t.perform p = ⟨(t.timer.ending id p.2 p.1).completeLap id p.2, true⟩ := by
  unfold perform
  rw [if_pos (Or.inr h), ← perform_of_completes id p.2 h]

theorem coherent_perform (p : Call × Readings) (h : t.Coherent) : (t.perform p).Coherent := by
  obtain ⟨call, c⟩ := p
  cases hcompletes : t.timer.completes call with
  | true =>
    intro _
    rw [perform_completes (p := (call, c)) hcompletes,
      completeLap_of_running id c (running_ending id c hcompletes)]
    exact ⟨[], _, filled_startLap _ c⟩
  | false =>
    unfold perform
    dsimp only
    rw [hcompletes]
    rcases perform_of_not_completes id c hcompletes with
      ⟨rfl, hstarts⟩ | ⟨hrunning, rfl, -, hrecords⟩ | ⟨-, hstopped, hsame⟩
    · rw [hstarts]
      exact fun _ => ⟨[], _, filled_startLap t.timer c⟩
    · rw [hrecords]
      intro _
      obtain ⟨done, k, hfilled⟩ := h hrunning
      exact ⟨_, _, filled_recordSector c hfilled⟩
    · rw [hsame]
      intro hrunning
      rw [hstopped] at hrunning
      cases hrunning

/-- A lap that ends here has the sectors so far, and nothing for the one under way. -/
theorem sectorsAccount_lapData {done : List ℤ} {k : ℕ} (c : Readings) (h : t.Filled done k) :
    (t.timer.lapData c).SectorsAccount ↔
      t.ordered = true ∧ c.lap = t.timer.sectorStartTime := by
  obtain ⟨htimes, -, hsum, hordered⟩ := h
  have htotal : t.timer.currentSectorTimes.sum =
      t.timer.sectorStartTime - t.timer.lapStartTime := by
    rw [htimes, List.sum_append, hsum]
    simp
  have hnonneg : (∀ time ∈ t.timer.currentSectorTimes, 0 ≤ time) ↔ t.ordered = true := by
    rw [htimes, hordered, List.forall_mem_append]
    refine and_iff_left ?_
    intro time hzero
    exact (List.eq_of_mem_replicate hzero).ge
  constructor
  · rintro ⟨hall, hadds⟩
    refine ⟨hnonneg.mp hall, ?_⟩
    change t.timer.currentSectorTimes.sum = c.lap - t.timer.lapStartTime at hadds
    omega
  · rintro ⟨hinorder, hends⟩
    refine ⟨hnonneg.mpr hinorder, ?_⟩
    change t.timer.currentSectorTimes.sum = c.lap - t.timer.lapStartTime
    omega

theorem sectorsAccount_ending {done : List ℤ} {k : ℕ} {p : Call × Readings} (h : t.Filled done k)
    (hcompletes : t.timer.completes p.1 = true) (hsingle : p.2.sector = p.2.lap) :
    ((t.timer.ending id p.2 p.1).lapData p.2).SectorsAccount ↔
      t.ordered = true ∧ t.EndsWithSector p := by
  obtain ⟨call, c⟩ := p
  cases call with
  | startLap => cases hcompletes
  | completeLap => exact sectorsAccount_lapData c h
  | completeSector =>
    have hlast := sectorsAccount_lapData c (filled_recordSector c h)
    rw [Bool.and_eq_true, decide_eq_true_iff, and_assoc] at hlast
    refine hlast.trans (and_congr_right fun _ => and_iff_left ?_)
    exact hsingle.symm

theorem historyAccounts_perform_iff {p : Call × Readings} (hcoherent : t.Coherent)
    (hsingle : p.2.sector = p.2.lap) (h : t.HistoryAccounts) :
    (t.perform p).HistoryAccounts ↔
      (t.timer.completes p.1 = true → 0 < t.timer.maxLapHistory ∨ t.timer.lapHistory ≠ [] →
        t.ordered = true ∧ t.EndsWithSector p) := by
  cases hcompletes : t.timer.completes p.1 with
  | false =>
    refine iff_of_true ?_ nofun
    unfold HistoryAccounts perform
    dsimp only
    rcases perform_of_not_completes id p.2 hcompletes with
      ⟨-, hstarts⟩ | ⟨-, -, -, hrecords⟩ | ⟨-, -, hsame⟩
    · rw [hstarts]
      exact h
    · rw [hrecords]
      exact h
    · rw [hsame]
      exact h
  | true =>
    obtain ⟨done, k, hfilled⟩ := hcoherent (running_of_completes hcompletes)
    have hkept : (t.timer.ending id p.2 p.1).lapHistory = t.timer.lapHistory ∧
        (t.timer.ending id p.2 p.1).maxLapHistory = t.timer.maxLapHistory := by
      obtain ⟨times, sector, start, delta, hending⟩ := ending_eq id t.timer p.2 p.1
      rw [hending]
      exact ⟨rfl, rfl⟩
    rw [perform_completes hcompletes, ← sectorsAccount_ending hfilled hcompletes hsingle]
    unfold HistoryAccounts
    rw [lapHistory_completeLap id p.2 (running_ending id p.2 hcompletes), hkept.1, hkept.2,
      forall_mem_push_iff h]
    exact ⟨fun hnew _ => hnew, fun hnew => hnew rfl⟩

/-- Each event reads the clock once. -/
def OneReading (op : Op) : Prop := ∀ c ∈ op.readings, c.sector = c.lap ∧ c.lap = c.start

theorem coherent_step (op : Op) (h : t.Coherent) : (t.step op).Coherent := by
  have hchanged := coherent_changed op h
  unfold step
  cases t.timer.call op with
  | none => exact hchanged
  | some p => exact coherent_perform p hchanged

theorem historyAccounts_step_iff {op : Op} (hone : OneReading op) (hcoherent : t.Coherent)
    (h : t.HistoryAccounts) : (t.step op).HistoryAccounts ↔ t.StoresWholeLap op := by
  have hcoherent' := coherent_changed op hcoherent
  have h' := historyAccounts_changed op h
  unfold step StoresWholeLap
  cases hcall : t.timer.call op with
  | none => exact iff_of_true h' nofun
  | some p =>
    have hsingle := (hone p.2 (readings_of_call hcall)).1
    obtain ⟨lapTrigger, sectorTrigger, speed, htimer⟩ := changed_of_call hcall
    have hchanged : t.changed op = ⟨{ t.timer with
        lapTrigger := lapTrigger, sectorTrigger := sectorTrigger, speed := speed }, t.ordered⟩ := by
      unfold changed
      rw [htimer]
    rw [hchanged] at hcoherent' h' ⊢
    refine (historyAccounts_perform_iff hcoherent' hsingle h').trans ⟨?_, fun hstores => ?_⟩
    · rintro hstores _ ⟨⟩
      exact hstores
    · exact hstores p rfl

/-- Every lap in the history adds up in every state of a run exactly where every lap that is stored
    had its sectors in order and ended with one. -/
theorem sectors_account_iff (s : LapTimer) (ops : List Op) (h : ∀ op ∈ ops, OneReading op) :
    EveryState step HistoryAccounts ⟨s.resetAll, true⟩ ops ↔
      EveryStep step StoresWholeLap ⟨s.resetAll, true⟩ ops := by
  refine everyState_iff_of Coherent (fun _ op => OneReading op) ?_ ?_ ?_ nofun nofun
  · intro pre op hpre
    exact h op (hpre.subset (by simp))
  · intro t op _ hcoherent _ _
    exact coherent_step op hcoherent
  · intro t op hone hcoherent haccounts
    exact historyAccounts_step_iff hone hcoherent haccounts

theorem sectors_account_lap :
    EveryState step HistoryAccounts ⟨LapTimer.resetAll {}, true⟩
        [.startLap (.single 0), .completeSector (.single 30000), .completeSector (.single 55000),
          .lapTrigger true (.single 90000)] ↔
      EveryStep step StoresWholeLap ⟨LapTimer.resetAll {}, true⟩
        [.startLap (.single 0), .completeSector (.single 30000), .completeSector (.single 55000),
          .lapTrigger true (.single 90000)] :=
  sectors_account_iff {} _ (by simp [OneReading, Op.readings, Readings.single])

/-- The lap trigger comes in the second of three sectors, 50 seconds after the first ended. -/
theorem early_lap_not_accounted :
    ¬ ∀ s ops, (∀ op ∈ ops, OneReading op) →
      EveryState step HistoryAccounts ⟨LapTimer.resetAll s, true⟩ ops := by
  intro h
  have haccounts := h {} [.startLap (.single 0), .sectorTrigger true (.single 30000),
    .lapTrigger true (.single 80000)] (by simp [OneReading, Op.readings, Readings.single]) _
    List.prefix_rfl
  revert haccounts
  unfold HistoryAccounts
  decide

end SectorTrace

end LapTimer

end SpeeduinoDash
