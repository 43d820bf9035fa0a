import SpeeduinoDash.LastWriter
import SpeeduinoDash.Lib.WrapClock

set_option autoImplicit false

/-!
# Freshness of the CAN data

The parser keeps the time of the last frame in 32 bits and uses 0 for no frame. The clock of the
model is unbounded.
-/
namespace SpeeduinoDash.CanParser
open EngineData Lib.Runs Lib.WrapClock

section History

variable {R : Type}

def Op.clockMs : Op R → Option ℕ
  | .parseFrame _ clockMs => some clockMs
  | _ => none

def acceptTime (times : List ℕ) : Op R → List ℕ
  | .parseFrame frame clockMs => if frame.dlc > canMaxDlc then times else times ++ [clockMs]
  | .loadSignals _ => times
  | .reset => []

/-- The times of the frames accepted since the last reset. -/
def acceptedTimes (ops : List (Op R)) : List ℕ := run acceptTime [] ops

theorem acceptedTimes_snoc (ops : List (Op R)) (op : Op R) :
    acceptedTimes (ops ++ [op]) = acceptTime (acceptedTimes ops) op := run_snoc acceptTime [] ops op

theorem acceptedTimes_sublist (ops : List (Op R)) :
    (acceptedTimes ops).Sublist (ops.filterMap Op.clockMs) := by
  refine run_history acceptTime
    (fun ops times => times.Sublist (ops.filterMap Op.clockMs)) (List.Sublist.refl _) ops ?_
  intro pre op _ ih
  rw [List.filterMap_append]
  cases op with
  | loadSignals table => exact ih.trans (List.sublist_append_left _ _)
  | parseFrame frame clockMs =>
    rw [acceptTime]
    split_ifs
    · exact ih.trans (List.sublist_append_left _ _)
    · exact ih.append (List.Sublist.refl _)
  | reset => exact List.nil_sublist _

end History

variable {R : Type}

/-- What the main loop publishes: the health bit is the freshness at that time. -/
def publishedData (p : CanParser R) (canTimeoutMs : UInt32) (clockMs : ℕ) : EngineData :=
  let data := p.getEngineData
  if p.isDataFresh canTimeoutMs clockMs then { data with flags := data.flags ||| flagCanOk }
  else { data with flags := data.flags &&& ~~~flagCanOk }

theorem publishedData_isCanOk (p : CanParser R) (canTimeoutMs : UInt32) (clockMs : ℕ) :
    (p.publishedData canTimeoutMs clockMs).isCanOk = p.isDataFresh canTimeoutMs clockMs := by
  unfold publishedData
  dsimp only
  split_ifs with hfresh
  · have hset : (p.getEngineData.flags ||| flagCanOk) &&& flagCanOk = flagCanOk := by
      apply UInt16.toBitVec_inj.mp
      ext i hi
      simp only [UInt16.toBitVec_and, UInt16.toBitVec_or, BitVec.getElem_and, BitVec.getElem_or]
      cases (flagCanOk.toBitVec)[i] <;> simp
    rw [isCanOk, hset, hfresh]
    rfl
  · have hclear : p.getEngineData.flags &&& ~~~flagCanOk &&& flagCanOk = 0 := by
      rw [UInt16.and_assoc, UInt16.not_and_self, UInt16.and_zero]
    rw [isCanOk, hclear, Bool.eq_false_of_not_eq_true hfresh]
    rfl

theorem isDataFresh_iff (p : CanParser R) (timeoutMs : UInt32) (clockMs past : ℕ)
    (hpast : p.lastUpdateTimestamp = getMonotonicMs past) (hle : past ≤ clockMs) :
    p.isDataFresh timeoutMs clockMs = true ↔ (clockMs - past) % 4294967296 < timeoutMs.toNat := by
  rw [isDataFresh, decide_eq_true_iff, UInt32.lt_iff_toNat_lt, hpast, getMonotonicMs,
    getMonotonicMs, UInt32.toNat_sub, UInt32.toNat_ofNat', UInt32.toNat_ofNat']
  rw [← elapsed_eq (by omega) hle]
  rfl

theorem recent_iff_last {times : List ℕ} {clockMs past : ℕ} (timeoutMs : ℕ)
    (hclock : Clocked id 0 (times ++ [clockMs])) (hlast : times.getLast? = some past) :
    past ≤ clockMs ∧
      ((∃ time ∈ times, clockMs < time + timeoutMs) ↔ clockMs - past < timeoutMs) := by
  obtain ⟨earlier, rfl⟩ := List.getLast?_eq_some_iff.mp hlast
  rw [clocked_append] at hclock
  obtain ⟨htimes, -, hle⟩ := hclock
  have hpast : past ≤ clockMs :=
    hle past (List.mem_append_right _ List.mem_cons_self) clockMs List.mem_cons_self
  refine ⟨hpast, ?_, ?_⟩
  · rintro ⟨time, hmem, hrecent⟩
    have htime : time ≤ past := by
      rcases List.mem_append.mp hmem with hmem | hmem
      · exact htimes.snoc.2 time hmem
      · exact (List.mem_singleton.mp hmem).le
    omega
  · intro hrecent
    exact ⟨past, List.mem_append_right _ List.mem_cons_self, by omega⟩

section Run

variable [OfScientific R] [Add R] [Mul R] [NatCast R] [IntCast R]
variable [Neg R] [LT R] [DecidableLT R] [Truncate R]

theorem run_lastUpdateTimestamp (ops : List (Op R)) :
    (run step ({} : CanParser R) ops).lastUpdateTimestamp =
      ((acceptedTimes ops).getLast?.map getMonotonicMs).getD 0 := by
  refine run_history step (fun ops p => p.lastUpdateTimestamp =
    ((acceptedTimes ops).getLast?.map getMonotonicMs).getD 0) rfl ops ?_
  intro pre op _ ih
  rw [acceptedTimes_snoc]
  cases op with
  | loadSignals table => exact ih
  | parseFrame frame clockMs =>
    rw [step, acceptTime]
    by_cases hdlc : frame.dlc > canMaxDlc
    · rw [parseFrame_rejected _ clockMs hdlc, if_pos hdlc]
      exact ih
    · rw [lastUpdateTimestamp_parseFrame _ clockMs hdlc, if_neg hdlc]
      simp
  | reset => rfl

theorem run_isDataFresh_iff (ops : List (Op R)) (timeoutMs : UInt32) (clockMs : ℕ)
    (hclock : Clocked id 0 (ops.filterMap Op.clockMs ++ [clockMs])) :
    ((run step ({} : CanParser R) ops).isDataFresh timeoutMs clockMs = true ↔
        ∃ time ∈ acceptedTimes ops, clockMs < time + timeoutMs.toNat) ↔
      (∀ past, (acceptedTimes ops).getLast? = some past →
        clockMs - past < 4294967296 ∨ timeoutMs.toNat ≤ (clockMs - past) % 4294967296) ∧
      (acceptedTimes ops = [] → timeoutMs.toNat ≤ clockMs % 4294967296) := by
  have hstored := run_lastUpdateTimestamp ops
  cases hlast : (acceptedTimes ops).getLast? with
  | none =>
    have hnil := List.getLast?_eq_none_iff.mp hlast
    rw [hlast] at hstored
    have hfresh := isDataFresh_iff _ timeoutMs clockMs 0 hstored (Nat.zero_le clockMs)
    rw [hfresh, hnil]
    simp
  | some past =>
    rw [hlast] at hstored
    have hne : acceptedTimes ops ≠ [] := by
      intro hnil
      simp [hnil] at hlast
    have htimes : Clocked id 0 (acceptedTimes ops ++ [clockMs]) :=
      ⟨fun _ _ => Nat.zero_le _, hclock.2.sublist ((acceptedTimes_sublist ops).append_right _)⟩
    obtain ⟨hle, hrecent⟩ := recent_iff_last timeoutMs.toNat htimes hlast
    have hlimit : timeoutMs.toNat ≤ 4294967296 := timeoutMs.toNat_lt.le
    rw [isDataFresh_iff _ timeoutMs clockMs past hstored hle, hrecent, recent_exact_iff hlimit]
    simp [hne]

/-- Freshness is exact at time `clockMs` in exactly these cases: the last accepted frame is less
    than 2^32 ms old or its age wraps to no less than the timeout, or there is none since the
    last reset and the clock itself reads no less than the timeout. The published health bit is
    the answer. -/
theorem fresh_exact_iff (ops : List (Op R)) (timeoutMs : UInt32) (clockMs : ℕ)
    (hclock : Clocked id 0 (ops.filterMap Op.clockMs ++ [clockMs])) :
    let p := run step ({} : CanParser R) ops
    ((p.isDataFresh timeoutMs clockMs = true ↔
        ∃ time ∈ acceptedTimes ops, clockMs < time + timeoutMs.toNat) ↔
      (∀ past, (acceptedTimes ops).getLast? = some past →
        clockMs - past < 4294967296 ∨ timeoutMs.toNat ≤ (clockMs - past) % 4294967296) ∧
      (acceptedTimes ops = [] → timeoutMs.toNat ≤ clockMs % 4294967296)) ∧
    (p.publishedData timeoutMs clockMs).isCanOk = p.isDataFresh timeoutMs clockMs := by
  intro p
  exact ⟨run_isDataFresh_iff ops timeoutMs clockMs hclock,
    p.publishedData_isCanOk timeoutMs clockMs⟩

end Run

theorem fresh_exact_iff_expired :
    let p := run step ({} : CanParser ℚ) [.parseFrame rpmFrame 1000]
    p.isDataFresh 500 1500 = true ↔
      ∃ time ∈ acceptedTimes [(.parseFrame rpmFrame 1000 : Op ℚ)], 1500 < time + 500 := by
  have h := fresh_exact_iff [(.parseFrame rpmFrame 1000 : Op ℚ)] 500 1500
    ⟨fun _ _ => Nat.zero_le _, by simp [Op.clockMs]⟩
  refine h.1.mpr ⟨?_, ?_⟩
  · intro past hpast
    exact .inl (by omega)
  · intro hnil
    exact absurd hnil (by decide)

/-- 49.7 days after the only frame its data count as fresh again. -/
theorem fresh_after_wrap :
    ¬ ∀ (ops : List (Op ℚ)) (timeoutMs : UInt32) (clockMs : ℕ),
      Clocked id 0 (ops.filterMap Op.clockMs ++ [clockMs]) →
      ((run step ({} : CanParser ℚ) ops).isDataFresh timeoutMs clockMs = true ↔
        ∃ time ∈ acceptedTimes ops, clockMs < time + timeoutMs.toNat) := by
  intro hclaim
  have hfresh := hclaim [.parseFrame rpmFrame 1000] 500 4294968306
    ⟨fun _ _ => Nat.zero_le _, by simp [Op.clockMs]⟩
  have hstale : ¬ ∃ time ∈ acceptedTimes [(.parseFrame rpmFrame 1000 : Op ℚ)],
      4294968306 < time + (500 : UInt32).toNat := by
    decide
  exact hstale (hfresh.mp (by decide))

end SpeeduinoDash.CanParser
