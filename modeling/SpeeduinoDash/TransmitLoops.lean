import SpeeduinoDash.ClusterRates
import SpeeduinoDash.Lib.PacedTiming
import SpeeduinoDash.WidebandForwarder

set_option autoImplicit false

/-!
# The threads that transmit by themselves

The cluster simulator and the wideband forwarder each have a thread that sends a round of frames and
sleeps out the rest of its interval. One caller starts and stops it; the setters of other threads
come between any two of its steps. Times are nanoseconds.
-/
namespace SpeeduinoDash
open Lib.Runs Lib.PacedLoop

namespace WidebandForwarder

/-- `intervalUs`, for the rate that the thread finds when it begins. -/
def transmitInterval (f : WidebandForwarder) : ℕ := 1000000 / f.rateHz.toNat * 1000

/-- `setEnabled false` is a setting after which the loop is stopped. -/
def transmitLoop : Program WidebandForwarder Op (CanFrame → Bool) CanFrame where
  interval := transmitInterval
  set op f := f.step op
  statements := [fun accepts f => ((f.sendNow accepts).1, (f.sendNow accepts).2.toList)]

def transmitting (ops : List (Lib.PacedLoop.Op Op (CanFrame → Bool))) :
    State WidebandForwarder CanFrame :=
  run transmitLoop.step { device := {} } ops

end WidebandForwarder

namespace BmwClusterSim

inductive Call where
  | set (setting : Setting)
  | enableASC (enable : Bool)
  | enableEGS (enable : Bool)
  | enableSAS (enable : Bool)
  | enableABS (enable : Bool)

def call (s : BmwClusterSim) : Call → BmwClusterSim
  | .set setting => s.set setting
  | .enableASC enable => { s with ascEnabled := enable }
  | .enableEGS enable => { s with egsEnabled := enable }
  | .enableSAS enable => { s with sasEnabled := enable }
  | .enableABS enable => { s with absEnabled := enable }

def sendIf (isDue : BmwClusterSim → Bool) (frames : BmwClusterSim → List CanFrame)
    (accepts : CanFrame → Bool) (s : BmwClusterSim) : BmwClusterSim × List CanFrame :=
  if isDue s then ((frames s).foldl (send accepts) s, frames s) else (s, [])

def ascDue (s : BmwClusterSim) : Bool := s.ascEnabled ∧ s.tickCounter % 5 = 0

def egsDue (s : BmwClusterSim) : Bool := s.egsEnabled ∧ s.tickCounter % 5 = 1

def absDue (s : BmwClusterSim) : Bool := s.absEnabled ∧ s.tickCounter % 2 = 0

/-- The statements of `tick`; other threads may come in between. -/
def tickStatements :
    List ((CanFrame → Bool) → BmwClusterSim → BmwClusterSim × List CanFrame) :=
  [fun _ s => ({ s with tickCounter := s.tickCounter + 1 }, []),
   sendIf ascDue fun s => [s.sendASC1],
   sendIf egsDue fun s => [s.sendEGS],
   sendIf (fun s => s.sasEnabled) fun s => [s.sendSAS],
   sendIf absDue sendABS]

def tickInterval : ℕ := 20000000

def transmitLoop : Program BmwClusterSim Call (CanFrame → Bool) CanFrame where
  interval _ := tickInterval
  set x s := s.call x
  statements := tickStatements

def transmitting (ops : List (Lib.PacedLoop.Op Call (CanFrame → Bool))) :
    State BmwClusterSim CanFrame :=
  run transmitLoop.step { device := {} } ops

/-! The statements in a row -/

theorem foldl_send (accepts : CanFrame → Bool) (frames : List CanFrame) (s : BmwClusterSim) :
    ∃ sent failed, frames.foldl (send accepts) s =
      { s with framesSent := sent, framesFailed := failed } := by
  induction frames generalizing s with
  | nil => exact ⟨s.framesSent, s.framesFailed, rfl⟩
  | cons frame frames ih =>
    rw [List.foldl_cons]
    unfold send
    split_ifs
    · obtain ⟨sent, failed, hrest⟩ := ih { s with framesSent := s.framesSent + 1 }
      exact ⟨sent, failed, hrest⟩
    · obtain ⟨sent, failed, hrest⟩ := ih { s with framesFailed := s.framesFailed + 1 }
      exact ⟨sent, failed, hrest⟩

def runStatements (accepts : CanFrame → Bool) (s : BmwClusterSim) :
    BmwClusterSim × List CanFrame :=
  tickStatements.foldl (fun done statement =>
    ((statement accepts done.1).1, done.2 ++ (statement accepts done.1).2)) (s, [])

/-- A module after others: their frames have changed nothing that it reads. -/
theorem sendIf_after {isDue : BmwClusterSim → Bool} {frames : BmwClusterSim → List CanFrame}
    (hdue : ∀ s sent failed,
      isDue { s with framesSent := sent, framesFailed := failed } = isDue s)
    (hframes : ∀ s sent failed,
      frames { s with framesSent := sent, framesFailed := failed } = frames s)
    (accepts : CanFrame → Bool) (s : BmwClusterSim) (earlier : List CanFrame) :
    sendIf isDue frames accepts (earlier.foldl (send accepts) s) =
      ((earlier ++ if isDue s then frames s else []).foldl (send accepts) s,
        if isDue s then frames s else []) := by
  obtain ⟨sent, failed, hearlier⟩ := foldl_send accepts earlier s
  have hsame : isDue (earlier.foldl (send accepts) s) = isDue s := by rw [hearlier, hdue]
  have hgiven : frames (earlier.foldl (send accepts) s) = frames s := by rw [hearlier, hframes]
  rw [sendIf, hsame, hgiven, List.foldl_append]
  split_ifs <;> rfl

/-- The statements are those of `tick`. -/
theorem runStatements_eq_tick (accepts : CanFrame → Bool) (s : BmwClusterSim) :
    runStatements accepts s = s.tick accepts := by
  have hasc := @sendIf_after ascDue (fun s => [s.sendASC1]) (fun _ _ _ => rfl) (fun _ _ _ => rfl)
    accepts { s with tickCounter := s.tickCounter + 1 } []
  have hegs := @sendIf_after egsDue (fun s => [s.sendEGS]) (fun _ _ _ => rfl) (fun _ _ _ => rfl)
    accepts
  have hsas := @sendIf_after (fun s => s.sasEnabled) (fun s => [s.sendSAS]) (fun _ _ _ => rfl)
    (fun _ _ _ => rfl) accepts
  have habs := @sendIf_after absDue sendABS (fun _ _ _ => rfl) (fun _ _ _ => rfl) accepts
  unfold runStatements tickStatements tick due
  simp only [List.foldl_cons, List.foldl_nil] at hasc ⊢
  rw [hasc, hegs, hsas, habs]
  simp [ascDue, egsDue, absDue]

/-! Which frames a statement sends -/

inductive Module where
  | asc
  | egs
  | sas
  | abs1
  | abs2
deriving DecidableEq

namespace Module

def id : Module → UInt32
  | .asc => Bmw.asc1Id
  | .egs => Bmw.egsId
  | .sas => Bmw.sasId
  | .abs1 => Bmw.abs1Id
  | .abs2 => Bmw.abs2Id

def place : Module → ℕ
  | .asc => 1
  | .egs => 2
  | .sas => 3
  | .abs1 => 4
  | .abs2 => 4

def divider : Module → ℕ
  | .asc => 5
  | .egs => 5
  | .sas => 1
  | .abs1 => 2
  | .abs2 => 2

def remainder : Module → ℕ
  | .egs => 1
  | _ => 0

/-- The most ticks from one to the next: where the counter wraps, EGS comes one late. -/
def wait (m : Module) : ℕ := m.divider + m.remainder

/-- What `2 ^ 32` lacks to the next multiple of the divider. -/
def gain : Module → ℕ
  | .asc => 4
  | .egs => 4
  | _ => 0

def enabled (s : BmwClusterSim) : Module → Bool
  | .asc => s.ascEnabled
  | .egs => s.egsEnabled
  | .sas => s.sasEnabled
  | .abs1 => s.absEnabled
  | .abs2 => s.absEnabled

def Hit (m : Module) (round : ℕ) : Prop := round % 2 ^ 32 % m.divider = m.remainder

end Module

theorem Module.remainder_lt (m : Module) : m.remainder < m.divider := by
  cases m <;> decide

theorem Module.dvd_gain (m : Module) : m.divider ∣ 2 ^ 32 + m.gain := by
  cases m <;> decide

theorem Module.gain_lt (m : Module) : m.gain < m.divider := by
  cases m <;> decide

theorem sendIf_ids {isDue : BmwClusterSim → Bool} {frames : BmwClusterSim → List CanFrame}
    (accepts : CanFrame → Bool) (s : BmwClusterSim) :
    (sendIf isDue frames accepts s).2.map CanFrame.id =
      if isDue s then (frames s).map CanFrame.id else [] := by
  unfold sendIf
  split_ifs <;> rfl

theorem statement_ids
    {statement : (CanFrame → Bool) → BmwClusterSim → BmwClusterSim × List CanFrame} {place : ℕ}
    (hstatement : tickStatements[place]? = some statement)
    (accepts : CanFrame → Bool) (s : BmwClusterSim) (m : Module) :
    ((statement accepts s).2.map CanFrame.id).count m.id =
      if place = m.place ∧ m.enabled s = true ∧ s.tickCounter.toNat % m.divider = m.remainder
      then 1 else 0 := by
  have hzero : ∀ n : UInt32, s.tickCounter % n = 0 ↔ s.tickCounter.toNat % n.toNat = 0 := by
    intro n
    exact Schedule.remainder_iff
  have hone : s.tickCounter % 5 = 1 ↔ s.tickCounter.toNat % 5 = 1 := Schedule.remainder_iff
  rcases place with _ | _ | _ | _ | _ | place
  · cases hstatement
    cases m <;> simp [Module.place]
  · cases hstatement
    rw [sendIf_ids]
    cases m <;> simp [ascDue, hzero, Module.place, Module.enabled, Module.id, Module.divider,
      Module.remainder, sendASC1, apply_ite (List.count _), Bmw.asc1Id, Bmw.egsId, Bmw.sasId,
      Bmw.abs1Id, Bmw.abs2Id]
  · cases hstatement
    rw [sendIf_ids]
    cases m <;> simp [egsDue, hone, Module.place, Module.enabled, Module.id, Module.divider,
      Module.remainder, sendEGS, apply_ite (List.count _), Bmw.asc1Id, Bmw.egsId, Bmw.sasId,
      Bmw.abs1Id, Bmw.abs2Id]
  · cases hstatement
    rw [sendIf_ids]
    cases m <;> simp [Module.place, Module.enabled, Module.id, Module.divider, Nat.mod_one,
      Module.remainder, sendSAS, apply_ite (List.count _), Bmw.asc1Id, Bmw.egsId, Bmw.sasId,
      Bmw.abs1Id, Bmw.abs2Id]
  · cases hstatement
    rw [sendIf_ids]
    cases m <;> simp [absDue, hzero, Module.place, Module.enabled, Module.id, Module.divider,
      Module.remainder, sendABS, frameFront, frameRear, wheelFrame, apply_ite (List.count _),
      Bmw.asc1Id, Bmw.egsId, Bmw.sasId, Bmw.abs1Id, Bmw.abs2Id]
  · cases hstatement

theorem foldl_send_schedule (accepts : CanFrame → Bool) (frames : List CanFrame)
    (s : BmwClusterSim) : (frames.foldl (send accepts) s).schedule = s.schedule := by
  obtain ⟨sent, failed, hrest⟩ := foldl_send accepts frames s
  rw [hrest]
  rfl

theorem sendIf_schedule {isDue : BmwClusterSim → Bool} {frames : BmwClusterSim → List CanFrame}
    (accepts : CanFrame → Bool) (s : BmwClusterSim) :
    (sendIf isDue frames accepts s).1.schedule = s.schedule := by
  unfold sendIf
  split_ifs
  · exact foldl_send_schedule accepts _ s
  · rfl

/-- The first statement counts the tick, the others leave the counter and the switches alone. -/
theorem statement_schedule
    {statement : (CanFrame → Bool) → BmwClusterSim → BmwClusterSim × List CanFrame} {place : ℕ}
    (hstatement : tickStatements[place]? = some statement) (accepts : CanFrame → Bool)
    (s : BmwClusterSim) :
    (statement accepts s).1.schedule = if place = 0 then s.schedule.next else s.schedule := by
  rcases place with _ | _ | _ | _ | _ | place
  · cases hstatement
    rfl
  · cases hstatement
    exact sendIf_schedule accepts s
  · cases hstatement
    exact sendIf_schedule accepts s
  · cases hstatement
    exact sendIf_schedule accepts s
  · cases hstatement
    exact sendIf_schedule accepts s
  · cases hstatement

theorem call_tickCounter (s : BmwClusterSim) (x : Call) :
    (s.call x).tickCounter = s.tickCounter := by
  cases x with
  | set setting => exact congrArg Schedule.tickCounter (set_schedule s setting)
  | _ => rfl

/-! The counter and the rounds -/

def pendingTick : Option ThreadPlace → ℕ
  | some (.body _ _ 0) => 1
  | _ => 0

theorem pendingTick_first (interval start : ℕ) : pendingTick (some (.body interval start 0)) = 1 :=
  rfl

theorem pendingTick_later (interval start next : ℕ) :
    pendingTick (some (.body interval start (next + 1))) = 0 := rfl

theorem pendingTick_timing (interval since : ℕ) : pendingTick (some (.timing interval since)) = 0 :=
  rfl

/-- The counter counts the rounds, and a frame is sent by the statement of its module in a round in
    which it is due. -/
structure Counted (s : State BmwClusterSim CanFrame) : Prop where
  counter : (s.device.tickCounter.toNat + pendingTick s.thread) % 2 ^ 32 = s.rounds % 2 ^ 32
  sent : ∀ x ∈ s.log, ∀ m : Module, (x.events.map CanFrame.id).count m.id ≤ 1 ∧
    (m.id ∈ x.events.map CanFrame.id → x.place = m.place ∧ m.Hit x.round)

theorem toNat_counter (c : UInt32) : c.toNat < 2 ^ 32 ∧ (c + 1).toNat = (c.toNat + 1) % 2 ^ 32 :=
  ⟨c.toNat_lt, UInt32.toNat_add c 1⟩

theorem Counted.stands {s : State BmwClusterSim CanFrame} (h : Counted s) {interval start next : ℕ}
    (hthread : s.thread = some (.body interval start (next + 1))) :
    s.device.tickCounter.toNat = s.rounds % 2 ^ 32 := by
  have hcounter := h.counter
  rw [hthread, pendingTick_later, Nat.add_zero] at hcounter
  rwa [Nat.mod_eq_of_lt s.device.tickCounter.toNat_lt] at hcounter

theorem Module.place_pos (m : Module) : 0 < m.place := by
  cases m <;> decide

theorem counted_runs {s : State BmwClusterSim CanFrame} (h : Counted s)
    {interval start next : ℕ} (hthread : s.thread = some (.body interval start next))
    {statement : (CanFrame → Bool) → BmwClusterSim → BmwClusterSim × List CanFrame}
    (hstatement : tickStatements[next]? = some statement) (accepts : CanFrame → Bool) :
    Counted
      { s with
        device := (statement accepts s.device).1
        thread := some (.body interval start (next + 1))
        log := s.log ++
          [⟨s.sessions, interval, s.rounds, next, s.now, (statement accepts s.device).2⟩] } := by
  have hschedule := congrArg Schedule.tickCounter (statement_schedule hstatement accepts s.device)
  refine ⟨?_, fun x hx m => ?_⟩
  · have hcounter := h.counter
    obtain ⟨-, hcount⟩ := toNat_counter s.device.tickCounter
    rw [hthread] at hcounter
    cases next with
    | zero =>
      have htick : (statement accepts s.device).1.tickCounter = s.device.tickCounter + 1 :=
        hschedule
      rw [pendingTick_first] at hcounter
      dsimp only
      rw [htick, hcount, pendingTick_later, Nat.add_zero, Nat.mod_mod, hcounter]
    | succ next =>
      have hsame : (statement accepts s.device).1.tickCounter = s.device.tickCounter := hschedule
      dsimp only
      rw [hsame]
      exact hcounter
  · obtain hold | rfl := List.mem_append.mp hx |>.imp_right List.mem_singleton.mp
    · exact h.sent x hold m
    · dsimp only
      rw [← List.count_pos_iff, statement_ids hstatement accepts s.device m]
      split_ifs with hdue
      · refine ⟨Nat.le_refl 1, fun _ => ⟨hdue.1, ?_⟩⟩
        obtain ⟨k, hk⟩ := Nat.exists_eq_succ_of_ne_zero
          (Nat.ne_of_gt (Nat.lt_of_lt_of_eq m.place_pos hdue.1.symm))
        rw [Module.Hit, ← h.stands (hk ▸ hthread)]
        exact hdue.2.2
      · exact ⟨Nat.zero_le 1, fun habsurd => absurd habsurd (Nat.lt_irrefl 0)⟩

theorem counted_moves {s s' : State BmwClusterSim CanFrame} {accepts : CanFrame → Bool}
    (h : Counted s) (hmoves : transmitLoop.Moves s accepts s') : Counted s' := by
  have hcounter := h.counter
  cases hmoves with
  | runs hthread hstatement => exact counted_runs h hthread hstatement accepts
  | begins hthread =>
    rw [hthread, pendingTick_timing, Nat.add_zero] at hcounter
    refine ⟨?_, h.sent⟩
    dsimp only
    rw [pendingTick_first, Nat.add_mod, hcounter, ← Nat.add_mod]
  | enters hthread =>
    rw [hthread] at hcounter
    exact ⟨hcounter, h.sent⟩
  | wakes hthread _ _ =>
    rw [hthread] at hcounter
    exact ⟨hcounter, h.sent⟩
  | returns hthread _ _ =>
    rw [hthread] at hcounter
    exact ⟨hcounter, h.sent⟩
  | @rests interval start next hthread hend =>
    rw [hthread] at hcounter
    cases next with
    | zero => exact absurd hend (by decide)
    | succ next => exact ⟨hcounter, h.sent⟩

theorem counted_step (s : State BmwClusterSim CanFrame)
    (op : Lib.PacedLoop.Op Call (CanFrame → Bool)) (hcoherent : s.Coherent) (h : Counted s) :
    Counted (transmitLoop.step s op) := by
  have hcounter := h.counter
  refine Program.step_rule fun s' hacts => ?_
  cases hacts with
  | turns hdevice =>
    obtain rfl | ⟨x, -, rfl⟩ := hdevice
    · exact ⟨h.counter, h.sent⟩
    · refine ⟨?_, h.sent⟩
      dsimp only [transmitLoop]
      rwa [call_tickCounter]
  | spawns hspawning =>
    have hfits := hcoherent.fits
    rw [State.Fits, hspawning] at hfits
    rw [hfits.2] at hcounter
    exact ⟨hcounter, h.sent⟩
  | joins hfinished =>
    rw [hfinished] at hcounter
    exact ⟨hcounter, h.sent⟩
  | moves hmoves => exact counted_moves h hmoves
  | passes _ => exact ⟨h.counter, h.sent⟩

theorem keeps : transmitLoop.Keeps fun _ => True := ⟨fun _ _ _ => trivial, fun _ _ _ _ _ => trivial⟩

theorem sound (ops : List (Lib.PacedLoop.Op Call (CanFrame → Bool))) :
    Program.Sound transmitLoop (fun _ => True) (· = tickInterval) (transmitting ops) :=
  Program.sound_run keeps (fun _ _ => rfl) trivial ops

theorem counted (ops : List (Lib.PacedLoop.Op Call (CanFrame → Bool))) :
    Counted (transmitting ops) := by
  have hboth := run_invariant transmitLoop.step
    (fun s : State BmwClusterSim CanFrame => s.Coherent ∧ Counted s)
    (fun s op h => ⟨transmitLoop.coherent_step s op h.1, counted_step s op h.1 h.2⟩)
    (s := { device := {} }) ⟨⟨rfl, rfl⟩, rfl, by simp⟩ ops
  exact hboth.2

/-! How often a frame is sent -/

theorem count_frames {m : Module} {l : List (Stamp CanFrame)}
    (hsent : ∀ x ∈ l, (x.events.map CanFrame.id).count m.id ≤ 1) :
    (getFramesById (l.flatMap Stamp.events) m.id).length =
      (l.filter fun x => m.id ∈ x.events.map CanFrame.id).length := by
  rw [length_getFramesById]
  induction l with
  | nil => rfl
  | cons x l ih =>
    have hfirst := hsent x List.mem_cons_self
    have hrest := ih fun y hy => hsent y (List.mem_cons_of_mem x hy)
    rw [List.flatMap_cons, List.map_append, List.count_append, hrest, List.filter_cons]
    by_cases hmem : m.id ∈ x.events.map CanFrame.id
    · have hpos := List.count_pos_iff.mpr hmem
      rw [if_pos (decide_eq_true hmem), List.length_cons]
      omega
    · rw [if_neg (by simpa using hmem), List.count_eq_zero_of_not_mem hmem, Nat.zero_add]

/-- Whatever the setters, the caller and the scheduler do: in a session of the loop, a window that
    is shorter than the counter's period has at most two frames of a module more than its periods
    fit in. -/
theorem cluster_paced (ops : List (Lib.PacedLoop.Op Call (CanFrame → Bool))) (m : Module)
    (session a width : ℕ) (hwidth : width < 2 ^ 32 * tickInterval) :
    ((getFramesById ((transmitting ops).eventsIn session a width) m.id).length - 2) *
      (m.divider * tickInterval) ≤ width := by
  have hsound := sound ops
  have hcounted := counted ops
  generalize transmitting ops = s at hsound hcounted ⊢
  have hlog : ∀ x ∈ s.log.filter (fun x => x.session = session ∧ a ≤ x.time ∧ x.time ≤ a + width),
      x ∈ s.log ∧ x.session = session ∧ a ≤ x.time ∧ x.time ≤ a + width := by
    intro x hx
    obtain ⟨hmem, hwithin⟩ := List.mem_filter.mp hx
    exact ⟨hmem, of_decide_eq_true hwithin⟩
  rw [State.eventsIn, count_frames fun x hx => (hcounted.sent x (hlog x hx).1 m).1]
  have hsub := (List.filter_sublist (p := fun x => decide (m.id ∈ x.events.map CanFrame.id))
    (l := s.log.filter fun x => x.session = session ∧ a ≤ x.time ∧ x.time ≤ a + width)).trans
      List.filter_sublist
  have hdue : ∀ x ∈ (s.log.filter fun x => x.session = session ∧ a ≤ x.time ∧
      x.time ≤ a + width).filter fun x => m.id ∈ x.events.map CanFrame.id,
      (x ∈ s.log ∧ x.session = session ∧ a ≤ x.time ∧ x.time ≤ a + width) ∧
        x.place = m.place ∧ m.Hit x.round := by
    intro x hx
    obtain ⟨hmem, hsends⟩ := List.mem_filter.mp hx
    exact ⟨hlog x hmem, (hcounted.sent x (hlog x hmem).1 m).2 (of_decide_eq_true hsends)⟩
  have hsorted := hsound.ordered.sorted.sublist hsub
  generalize (s.log.filter fun x => x.session = session ∧ a ≤ x.time ∧ x.time ≤ a + width).filter
    (fun x => decide (m.id ∈ x.events.map CanFrame.id)) = l at hdue hsorted ⊢
  refine @span_of_window _ (Lib.Divider.mark (2 ^ 32) m.gain) m.divider tickInterval session a width
    (Nat.zero_lt_of_lt m.remainder_lt) l hsorted ?_ ?_ ?_
  · intro x hx
    obtain ⟨⟨hmem, hsession, hwithin⟩, -⟩ := hdue x hx
    exact ⟨hsession, hsound.holds.log x hmem, hwithin⟩
  · refine hsorted.imp_of_mem fun {x y} hx hy hbefore => ?_
    have hx := (hdue x hx).2
    have hy := (hdue y hy).2
    have hround : x.round < y.round := by
      have hplace := hbefore.place
      rw [hx.1, hy.1] at hplace
      omega
    exact Lib.Divider.mark_apart m.dvd_gain hx.2 hy.2 hround
  · intro x hx y hy hbefore
    obtain ⟨⟨hmem, hsession, hstart, -⟩, -⟩ := hdue x hx
    obtain ⟨⟨-, hsession', -, hend⟩, -⟩ := hdue y hy
    have hnear : y.round ≤ x.round + 2 ^ 32 := by
      by_contra hfar
      have hspaced := hbefore.spaced (hsession.trans hsession'.symm) (2 ^ 32) (by omega)
      rw [hsound.holds.log x hmem] at hspaced
      omega
    have hgain := Lib.Divider.mark_gain (g := m.gain) (by decide : 0 < 2 ^ 32) hnear
    have hlt := m.gain_lt
    omega

/-- The rounds of the first second, each as soon as it is due. -/
def firstTicks : List (Lib.PacedLoop.Op Call (CanFrame → Bool)) :=
  [.start, .proceed, .loop fun _ => true] ++
    (List.replicate 50 (List.replicate 8 (.loop fun _ => true) ++ [.pass tickInterval])).flatten

theorem cluster_paced_second :
    let sent := getFramesById ((transmitting firstTicks).eventsIn 1 0 1000000000) Module.egs.id
    sent.length = 10 ∧ (sent.length - 2) * (Module.egs.divider * tickInterval) ≤ 1000000000 :=
  ⟨by decide +kernel, cluster_paced firstTicks .egs 1 0 1000000000 (by decide)⟩

/-! How long it takes to the next frame -/

def Call.disables (m : Module) : Call → Bool
  | .set _ => false
  | .enableASC enable => m = .asc && !enable
  | .enableEGS enable => m = .egs && !enable
  | .enableSAS enable => m = .sas && !enable
  | .enableABS enable => (m = .abs1 || m = .abs2) && !enable

def staysOn (m : Module) : Lib.PacedLoop.Op Call (CanFrame → Bool) → Bool
  | .set x => !x.disables m
  | op => op.goesOn

theorem goesOn_of_staysOn {m : Module} {op : Lib.PacedLoop.Op Call (CanFrame → Bool)}
    (h : staysOn m op = true) : op.goesOn = true := by
  cases op with
  | set x => rfl
  | _ => exact h

theorem enabled_call {m : Module} {x : Call} (hx : x.disables m = false) {s : BmwClusterSim}
    (h : m.enabled s = true) : m.enabled (s.call x) = true := by
  cases x with
  | set setting =>
    have hschedule := set_schedule s setting
    simp only [schedule, Schedule.mk.injEq] at hschedule
    cases m <;> simp_all [Module.enabled, call]
  | _ => cases m <;> simp_all [Module.enabled, call, Call.disables]

theorem enabled_of_schedule (m : Module) {s s' : BmwClusterSim}
    (hasc : s'.ascEnabled = s.ascEnabled) (hegs : s'.egsEnabled = s.egsEnabled)
    (hsas : s'.sasEnabled = s.sasEnabled) (habs : s'.absEnabled = s.absEnabled) :
    m.enabled s' = m.enabled s := by
  cases m <;> assumption

theorem enabled_statement
    {statement : (CanFrame → Bool) → BmwClusterSim → BmwClusterSim × List CanFrame} {place : ℕ}
    (hstatement : tickStatements[place]? = some statement) (accepts : CanFrame → Bool)
    (s : BmwClusterSim) (m : Module) : m.enabled (statement accepts s).1 = m.enabled s := by
  have hschedule := statement_schedule hstatement accepts s
  have hfields : (statement accepts s).1.schedule.asc = s.schedule.asc ∧
      (statement accepts s).1.schedule.egs = s.schedule.egs ∧
      (statement accepts s).1.schedule.sas = s.schedule.sas ∧
      (statement accepts s).1.schedule.abs = s.schedule.abs := by
    rw [hschedule]
    split_ifs <;> exact ⟨rfl, rfl, rfl, rfl⟩
  exact enabled_of_schedule m hfields.1 hfields.2.1 hfields.2.2.1 hfields.2.2.2

/-- Since `s₀` the module has been on, and its statement has sent it in every round in which it was
    due. -/
structure Served (m : Module) (s₀ s : State BmwClusterSim CanFrame) : Prop where
  enabled : m.enabled s.device = true
  now : s₀.now ≤ s.now
  sent : ∀ x ∈ s.log, s₀.rounds < x.round → s₀.now ≤ x.time ∧
    (x.place = m.place → m.Hit x.round → m.id ∈ x.events.map CanFrame.id)

theorem served_runs {m : Module} {s₀ s : State BmwClusterSim CanFrame} (hcounted : Counted s)
    (h : Served m s₀ s) {interval start next : ℕ}
    (hthread : s.thread = some (.body interval start next))
    {statement : (CanFrame → Bool) → BmwClusterSim → BmwClusterSim × List CanFrame}
    (hstatement : tickStatements[next]? = some statement) (accepts : CanFrame → Bool) :
    Served m s₀
      { s with
        device := (statement accepts s.device).1
        thread := some (.body interval start (next + 1))
        log := s.log ++
          [⟨s.sessions, interval, s.rounds, next, s.now, (statement accepts s.device).2⟩] } := by
  refine ⟨(enabled_statement hstatement accepts s.device m).trans h.enabled, h.now, ?_⟩
  intro x hx hround
  obtain hold | rfl := List.mem_append.mp hx |>.imp_right List.mem_singleton.mp
  · exact h.sent x hold hround
  · refine ⟨h.now, fun hplace hhit => ?_⟩
    dsimp only at hplace hhit ⊢
    obtain ⟨k, hk⟩ := Nat.exists_eq_succ_of_ne_zero
      (Nat.ne_of_gt (Nat.lt_of_lt_of_eq m.place_pos hplace.symm))
    rw [Module.Hit, ← hcounted.stands (hk ▸ hthread)] at hhit
    rw [← List.count_pos_iff, statement_ids hstatement accepts s.device m,
      if_pos ⟨hplace, h.enabled, hhit⟩]
    exact Nat.one_pos

theorem served_step {m : Module} {s₀ s : State BmwClusterSim CanFrame} (hcounted : Counted s)
    (h : Served m s₀ s) {op : Lib.PacedLoop.Op Call (CanFrame → Bool)}
    (hop : staysOn m op = true) : Served m s₀ (transmitLoop.step s op) := by
  refine Program.step_rule fun s' hacts => ?_
  cases hacts with
  | turns hdevice =>
    obtain rfl | ⟨x, rfl | rfl, rfl⟩ := hdevice
    · exact ⟨h.enabled, h.now, h.sent⟩
    · exact ⟨enabled_call (by simpa [staysOn] using hop) h.enabled, h.now, h.sent⟩
    · cases hop
  | spawns _ => exact ⟨h.enabled, h.now, h.sent⟩
  | joins _ => exact ⟨h.enabled, h.now, h.sent⟩
  | moves hmoves =>
    cases hmoves with
    | runs hthread hstatement => exact served_runs hcounted h hthread hstatement _
    | _ => exact ⟨h.enabled, h.now, h.sent⟩
  | passes _ => exact ⟨h.enabled, Nat.le_add_right_of_le h.now, h.sent⟩

theorem served_run {m : Module} {s₀ s : State BmwClusterSim CanFrame} (hcoherent : s.Coherent)
    (hcounted : Counted s) (h : Served m s₀ s)
    {ops : List (Lib.PacedLoop.Op Call (CanFrame → Bool))}
    (hops : ∀ op ∈ ops, staysOn m op = true) : Served m s₀ (run transmitLoop.step s ops) := by
  induction ops generalizing s with
  | nil => exact h
  | cons op ops ih =>
    exact ih (transmitLoop.coherent_step s op hcoherent) (counted_step s op hcoherent hcounted)
      (served_step hcounted h (hops op List.mem_cons_self))
      (fun op' hop' => hops op' (List.mem_cons_of_mem op hop'))

/-- From any moment on at which the loop runs and the module is on, and while they stay so: a frame
    of the module is sent within the rounds it waits for at most, if no step of the thread is late
    by more than `delay` and no round takes longer than `work`. -/
theorem cluster_heard {m : Module} {before during : List (Lib.PacedLoop.Op Call (CanFrame → Bool))}
    {delay work : ℕ} (hidle : (transmitting before).control = .idle)
    (hrunning : (transmitting before).running = true)
    (henabled : m.enabled (transmitting before).device = true)
    (hduring : ∀ op ∈ during, staysOn m op = true)
    (htimely : EveryState transmitLoop.step (State.OnTime delay work) (transmitting before) during)
    (hlate : (transmitting before).now + m.wait * State.roundTime tickInterval delay work + work <
      (transmitting (before ++ during)).now) :
    ∃ x ∈ (transmitting (before ++ during)).log, (transmitting before).now ≤ x.time ∧
      ∃ frame ∈ x.events, frame.id = m.id := by
  have hsplit : transmitting (before ++ during) =
      run transmitLoop.step (transmitting before) during := run_append ..
  obtain ⟨n, hpos, hwait, hhit⟩ := Lib.Divider.exists_hit m.remainder_lt
    (show m.divider ≤ 2 ^ 32 by cases m <;> decide) (transmitting before).rounds
  have hrounds := Nat.mul_le_mul_right (State.roundTime tickInterval delay work) hwait
  have hsound : Program.Sound transmitLoop (fun _ => True) (· ≤ tickInterval)
      (transmitting before) :=
    Program.sound_run (I := (· ≤ tickInterval)) keeps (fun _ _ => Nat.le_refl tickInterval) trivial
      before
  rw [hsplit] at hlate ⊢
  unfold Module.wait at hlate
  have hran : (run transmitLoop.step (transmitting before) during).Ran
      ((transmitting before).rounds + n) m.place :=
    Program.heard keeps (fun _ _ => Nat.le_refl tickInterval) hsound hidle hrunning
      (fun op hop => goesOn_of_staysOn (hduring op hop)) htimely (by cases m <;> decide) hpos
      (by omega)
  obtain ⟨x, hx, hround, hplace⟩ := hran
  have hstart : Served m (transmitting before) (transmitting before) := by
    refine ⟨henabled, Nat.le_refl _, fun y hy hnew => ?_⟩
    have hold := ((sound before).ordered.past y hy).2.1
    exact absurd hnew (Nat.not_lt.mpr hold)
  have hserved := served_run (sound before).coherent (counted before) hstart hduring
  obtain ⟨htime, hsends⟩ := hserved.sent x hx (by omega)
  obtain ⟨frame, hframe, hid⟩ := List.mem_map.mp (hsends hplace (by rwa [hround]))
  exact ⟨x, hx, htime, frame, hframe, hid⟩

def steeringOn : List (Lib.PacedLoop.Op Call (CanFrame → Bool)) :=
  [.set (.enableSAS true), .start, .proceed, .loop fun _ => true]

/-- Two rounds that take no time, up to the next reading of the clock. -/
def twoRounds : List (Lib.PacedLoop.Op Call (CanFrame → Bool)) :=
  List.replicate 8 (.loop fun _ => true) ++ [.pass tickInterval] ++
    List.replicate 8 (.loop fun _ => true) ++ [.pass 1]

theorem cluster_heard_steering :
    ∃ x ∈ (transmitting (steeringOn ++ twoRounds)).log, 0 ≤ x.time ∧
      ∃ frame ∈ x.events, frame.id = Bmw.sasId := by
  refine @cluster_heard .sas steeringOn twoRounds 0 0 rfl rfl rfl (by decide) ?_ (by decide)
  simp only [twoRounds, List.replicate, List.cons_append, List.nil_append, everyState_cons,
    everyState_nil]
  repeat' apply And.intro
  all_goals exact Nat.le_of_ble_eq_true rfl

end BmwClusterSim

namespace WidebandForwarder

theorem rate_step (f : WidebandForwarder) (op : Op)
    (h : 1 ≤ f.rateHz.toNat ∧ f.rateHz.toNat ≤ 50) :
    1 ≤ (f.step op).rateHz.toNat ∧ (f.step op).rateHz.toNat ≤ 50 := by
  cases op with
  | setRate rateHz =>
    dsimp only [step, setRate]
    split_ifs with hlow hhigh
    · decide
    · decide
    · rw [UInt32.lt_iff_toNat_lt] at hlow hhigh
      exact ⟨Nat.le_of_not_lt hlow, Nat.le_of_not_lt hhigh⟩
  | sendNow accepts =>
    dsimp only [step, sendNow]
    split_ifs <;> exact h
  | _ => exact h

theorem keeps : transmitLoop.Keeps fun f => 1 ≤ f.rateHz.toNat ∧ f.rateHz.toNat ≤ 50 where
  set op f := rate_step f op
  run statement hstatement accepts f h := by
    cases List.mem_singleton.mp hstatement
    exact rate_step f (.sendNow accepts) h

/-- From 50 Hz down to 1 Hz. -/
theorem transmitInterval_bounds {f : WidebandForwarder}
    (h : 1 ≤ f.rateHz.toNat ∧ f.rateHz.toNat ≤ 50) :
    20000000 ≤ f.transmitInterval ∧ f.transmitInterval ≤ 1000000000 := by
  have hmost := Nat.div_le_self 1000000 f.rateHz.toNat
  have hleast : 1000000 / 50 ≤ 1000000 / f.rateHz.toNat := Nat.div_le_div_left h.2 h.1
  unfold transmitInterval
  omega

theorem sound (ops : List (Lib.PacedLoop.Op Op (CanFrame → Bool))) :
    Program.Sound transmitLoop (fun f => 1 ≤ f.rateHz.toNat ∧ f.rateHz.toNat ≤ 50)
      (· ≤ 1000000000) (transmitting ops) :=
  Program.sound_run (I := (· ≤ 1000000000)) keeps (fun _ h => (transmitInterval_bounds h).2)
    (by decide) ops

theorem length_events {l : List (Stamp CanFrame)} (h : ∀ x ∈ l, x.events.length ≤ 1) :
    (l.flatMap Stamp.events).length ≤ l.length := by
  induction l with
  | nil => simp
  | cons x l ih =>
    have hfirst := h x List.mem_cons_self
    have hrest := ih fun y hy => h y (List.mem_cons_of_mem x hy)
    rw [List.flatMap_cons, List.length_append, List.length_cons]
    omega

theorem one_frame (ops : List (Lib.PacedLoop.Op Op (CanFrame → Bool))) :
    ∀ x ∈ (transmitting ops).log, x.events.length ≤ 1 := by
  have hstep : ∀ (s : State WidebandForwarder CanFrame) op,
      (∀ x ∈ s.log, x.events.length ≤ 1) →
      ∀ x ∈ (transmitLoop.step s op).log, x.events.length ≤ 1 := by
    intro s op h x hx
    obtain hsame | ⟨interval, start, next, statement, accepts, -, -, hstatement, hlog⟩ :=
      transmitLoop.log_step s op
    · exact h x (hsame ▸ hx)
    · rw [hlog] at hx
      obtain hold | rfl := List.mem_append.mp hx |>.imp_right List.mem_singleton.mp
      · exact h x hold
      · cases List.mem_singleton.mp (List.mem_of_getElem? hstatement)
        dsimp only
        rw [Option.length_toList]
        split_ifs <;> decide
  exact run_invariant transmitLoop.step _ hstep (by simp) ops

/-- The session of a thread keeps to the rate that the thread finds when it begins, between 1 and
    50 frames a second, whatever rate is set later: a window has at most two frames more than its
    intervals fit in. -/
theorem forwarder_paced {before : List (Lib.PacedLoop.Op Op (CanFrame → Bool))} {since : ℕ}
    (hbegins : (transmitting before).thread = some (.entering since)) (accepts : CanFrame → Bool)
    (after : List (Lib.PacedLoop.Op Op (CanFrame → Bool))) (a width : ℕ) :
    (((transmitting (before ++ .loop accepts :: after)).eventsIn (transmitting before).sessions a
        width).length - 2) * (transmitting before).device.transmitInterval ≤ width ∧
      20000000 ≤ (transmitting before).device.transmitInterval ∧
      (transmitting before).device.transmitInterval ≤ 1000000000 := by
  refine ⟨?_, transmitInterval_bounds (sound before).holds.device⟩
  have hsplit : transmitting (before ++ .loop accepts :: after) =
      run transmitLoop.step (transmitLoop.step (transmitting before) (.loop accepts)) after :=
    run_append ..
  have hreads := run_invariant transmitLoop.step _ Program.reads_step
    (Program.reads_start (p := transmitLoop) (sound before).ordered hbegins accepts) after
  rw [← hsplit] at hreads
  have hsound := sound (before ++ .loop accepts :: after)
  have hone := one_frame (before ++ .loop accepts :: after)
  generalize transmitting (before ++ .loop accepts :: after) = s at hreads hsound hone ⊢
  generalize (transmitting before).sessions = n at hreads ⊢
  have hlog : ∀ x ∈ s.log.filter (fun x => x.session = n ∧ a ≤ x.time ∧ x.time ≤ a + width),
      x ∈ s.log ∧ x.session = n ∧ a ≤ x.time ∧ x.time ≤ a + width := by
    intro x hx
    obtain ⟨hmem, hwithin⟩ := List.mem_filter.mp hx
    exact ⟨hmem, of_decide_eq_true hwithin⟩
  have hsorted := hsound.ordered.sorted.sublist
    (List.filter_sublist (p := fun x => decide (x.session = n ∧ a ≤ x.time ∧ x.time ≤ a + width)))
  have hcount := length_events fun x hx => hone x (hlog x hx).1
  rw [State.eventsIn]
  generalize s.log.filter (fun x => x.session = n ∧ a ≤ x.time ∧ x.time ≤ a + width) = l
    at hlog hsorted hcount ⊢
  have hspan := @span_of_window _ (fun round => round) 1
    (transmitting before).device.transmitInterval n a width Nat.one_pos l hsorted ?_ ?_ ?_
  · rw [Nat.one_mul] at hspan
    exact Nat.le_trans (Nat.mul_le_mul_right _ (Nat.sub_le_sub_right hcount 2)) hspan
  · intro x hx
    obtain ⟨hmem, hsession, hwithin⟩ := hlog x hx
    exact ⟨hsession, hreads.log x hmem hsession, hwithin⟩
  · refine hsorted.imp_of_mem fun {x y} hx hy hbefore => ?_
    have hplace := hbefore.place
    have hfirst := hsound.place x (hlog x hx).1
    have hsecond := hsound.place y (hlog y hy).1
    dsimp only [transmitLoop, List.length_singleton] at hfirst hsecond
    omega
  · intro x _ y _ _
    omega

def switchedOn : List (Lib.PacedLoop.Op Op (CanFrame → Bool)) :=
  [.set (.setEnabled true), .start, .proceed]

/-- A second of rounds, at whose beginning the rate is lowered. -/
def lowered : List (Lib.PacedLoop.Op Op (CanFrame → Bool)) :=
  .set (.setRate 1) ::
    (List.replicate 20 (List.replicate 4 (.loop fun _ => true) ++ [.pass 50000000])).flatten

theorem forwarder_paced_first :
    let interval := (transmitting switchedOn).device.transmitInterval
    let sent := (transmitting (switchedOn ++ .loop (fun _ => true) :: lowered)).eventsIn
      (transmitting switchedOn).sessions 0 1000000000
    interval = 50000000 ∧ sent.length = 20 ∧ (sent.length - 2) * interval ≤ 1000000000 :=
  ⟨by decide +kernel, by decide +kernel,
    (@forwarder_paced switchedOn 0 rfl (fun _ => true) lowered 0 1000000000).1⟩

end WidebandForwarder

/-- Both threads can be stopped, and send nothing once they have been. -/
theorem transmitters_stop :
    Program.Stops BmwClusterSim.transmitLoop {} BmwClusterSim.tickInterval ∧
      Program.Stops WidebandForwarder.transmitLoop {} 1000000000 :=
  ⟨Program.stops BmwClusterSim.keeps (fun _ _ => Nat.le_refl _) trivial,
    Program.stops WidebandForwarder.keeps
      (fun _ h => (WidebandForwarder.transmitInterval_bounds h).2) (by decide)⟩

end SpeeduinoDash
