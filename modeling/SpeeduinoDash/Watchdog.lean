import Mathlib.Data.Int.Notation
import Mathlib.Data.List.Count
import Mathlib.Tactic.SplitIfs
import SpeeduinoDash.Lib.Runs

set_option autoImplicit false

/-!
# The systemd watchdog notifier

One thread makes the calls of `start` and `stop`, and the notifier's own thread runs `notifyLoop`;
their steps interleave in any order, and other threads may call `notify`. Times are microseconds.
-/
namespace SpeeduinoDash
open Lib.Runs

inductive Notification where
  | ready
  | stopping
  | watchdog (manual : Bool)
deriving DecidableEq

/-- Where `notifyLoop` is: before it reads `running_`, before the health check, before it reads
    `running_` again with some time still to sleep, or returned. -/
inductive LoopPc where
  | head
  | checking
  | sleeping (remaining : ℕ)
  | finished
deriving DecidableEq

/-- Where the calling thread is in `start` (before READY, before the thread is made) or in `stop`
    (before STOPPING, in the join). -/
inductive ControlPc where
  | idle
  | readying
  | spawning
  | stopping
  | joining
deriving DecidableEq

/-- `thread` is none unless `thread_` is joinable, `terminated` is set if a joinable thread is
    assigned over, and `pauses` holds `wasRunning_` of the open pauses, the innermost first. -/
structure WatchdogNotifier where
  enabled : Bool := false
  timeout : ℕ := 0
  interval : ℕ := 0
  running : Bool := false
  thread : Option LoopPc := none
  control : ControlPc := .idle
  pauses : List Bool := []
  notifyCount : UInt64 := 0
  skipCount : UInt64 := 0
  sent : List Notification := []
  terminated : Bool := false

namespace WatchdogNotifier

def sleepChunk : ℕ := 100000

/-- `ret` and `usec` are what `sd_watchdog_enabled` gives. -/
def new (ret : ℤ) (usec : UInt64) : WatchdogNotifier :=
  if 0 < ret ∧ 0 < usec then
    { enabled := true, timeout := usec.toNat, interval := usec.toNat / 2 }
  else {}

def send (s : WatchdogNotifier) (n : Notification) : WatchdogNotifier :=
  { s with sent := s.sent ++ [n] }

def notify (s : WatchdogNotifier) (manual : Bool) : WatchdogNotifier :=
  if s.enabled then { s.send (.watchdog manual) with notifyCount := s.notifyCount + 1 } else s

/-- `start` up to the exchange of `running_`. -/
def start (s : WatchdogNotifier) : WatchdogNotifier :=
  if !s.enabled then s
  else if s.running then s
  else { s with running := true, control := .readying }

/-- `stop` up to the exchange of `running_`. -/
def stop (s : WatchdogNotifier) : WatchdogNotifier :=
  if !s.running then s else { s with running := false, control := .stopping }

def pause (s : WatchdogNotifier) : WatchdogNotifier :=
  let s' := { s with pauses := s.running :: s.pauses }
  if s.running then s'.stop else s'

def resume (s : WatchdogNotifier) : WatchdogNotifier :=
  match s.pauses with
  | [] => s
  | wasRunning :: rest =>
    let s' := { s with pauses := rest }
    if wasRunning then s'.start else s'

def proceed (s : WatchdogNotifier) : WatchdogNotifier :=
  match s.control with
  | .idle => s
  | .readying => { s.send .ready with control := .spawning }
  | .spawning =>
    { s with
      thread := some .head
      terminated := s.terminated || s.thread.isSome
      control := .idle }
  | .stopping => { s.send .stopping with control := .joining }
  | .joining =>
    match s.thread with
    | none => { s with control := .idle }
    | some .finished => { s with thread := none, control := .idle }
    | some _ => s

/-- The next step of `notifyLoop`; a health check that throws is one that fails. -/
def notifyLoop (s : WatchdogNotifier) (healthy : Bool) : WatchdogNotifier :=
  match s.thread with
  | none => s
  | some .head => { s with thread := some (if s.running then .checking else .finished) }
  | some .checking =>
    let s' := if healthy then s.notify false else { s with skipCount := s.skipCount + 1 }
    { s' with thread := some (.sleeping s.interval) }
  | some (.sleeping remaining) =>
    { s with
      thread := some (if 0 < remaining ∧ s.running then
        .sleeping (remaining - min remaining sleepChunk) else .head) }
  | some .finished => s

inductive Op where
  | start
  | stop
  | pause
  | resume
  | proceed
  | loop (healthy : Bool)
  | notify
deriving DecidableEq

/-- A call begins only when the last one has returned. -/
def step (s : WatchdogNotifier) : Op → WatchdogNotifier
  | .start => if s.control = .idle then s.start else s
  | .stop => if s.control = .idle then s.stop else s
  | .pause => if s.control = .idle then s.pause else s
  | .resume => if s.control = .idle then s.resume else s
  | .proceed => s.proceed
  | .loop healthy => s.notifyLoop healthy
  | .notify => s.notify true

/-- What systemd may see of a service: READY, automatic notifications, STOPPING, and at most one
    more notification of a loop that was under way. -/
inductive Phase where
  | down
  | up
  | closing
deriving DecidableEq

def Phase.next : Phase → Notification → Option Phase
  | p, .watchdog true => some p
  | .down, .ready => some .up
  | .closing, .ready => some .up
  | .up, .watchdog false => some .up
  | .up, .stopping => some .closing
  | .closing, .watchdog false => some .down
  | _, _ => none

def phaseOf (log : List Notification) : Option Phase := log.foldlM Phase.next .down

theorem phaseOf_snoc (log : List Notification) (n : Notification) :
    phaseOf (log ++ [n]) = (phaseOf log).bind (fun p => p.next n) := by
  rw [phaseOf, List.foldlM_append, phaseOf]
  cases log.foldlM Phase.next .down <;> simp

def isWatchdog : Notification → Bool
  | .watchdog _ => true
  | _ => false

def Fits (s : WatchdogNotifier) (p : Phase) : Prop :=
  match s.control with
  | .idle => if s.running then p = .up ∧ ∃ pc, s.thread = some pc ∧ pc ≠ .finished
      else p ≠ .up ∧ s.thread = none
  | .readying => s.running = true ∧ s.thread = none ∧ p ≠ .up
  | .spawning => s.running = true ∧ s.thread = none ∧ p = .up
  | .stopping => s.running = false ∧ s.thread.isSome ∧ p = .up
  | .joining => s.running = false ∧ s.thread.isSome ∧
      (p = .closing ∨ p = .down ∧ s.thread ≠ some .checking)

structure Coherent (s : WatchdogNotifier) : Prop where
  fits : ∃ p, phaseOf s.sent = some p ∧ s.Fits p
  alive : s.terminated = false
  enabled : s.enabled = false → s.running = false ∧ s.thread = none
  counted : s.notifyCount = UInt64.ofNat (s.sent.countP isWatchdog)

section Steps

variable {s : WatchdogNotifier}

theorem counted_snoc (h : s.notifyCount = UInt64.ofNat (s.sent.countP isWatchdog))
    (manual : Bool) : s.notifyCount + 1 =
      UInt64.ofNat ((s.sent ++ [Notification.watchdog manual]).countP isWatchdog) := by
  rw [List.countP_append, UInt64.ofNat_add, ← h]
  rfl

theorem Coherent.setPauses (h : s.Coherent) (pauses : List Bool) :
    Coherent { s with pauses := pauses } := ⟨h.fits, h.alive, h.enabled, h.counted⟩

theorem Coherent.start (h : s.Coherent) (hidle : s.control = .idle) : s.start.Coherent := by
  obtain ⟨⟨p, hp, hfits⟩, halive, henabled, hcounted⟩ := h
  unfold WatchdogNotifier.start
  split_ifs with hdisabled hrunning
  · exact ⟨⟨p, hp, hfits⟩, halive, henabled, hcounted⟩
  · exact ⟨⟨p, hp, hfits⟩, halive, henabled, hcounted⟩
  · rw [Fits, hidle] at hfits
    rw [if_neg hrunning] at hfits
    refine ⟨⟨p, hp, rfl, hfits.2, hfits.1⟩, halive, ?_, hcounted⟩
    have hon : s.enabled = true := by simpa using hdisabled
    intro hoff
    exact absurd (hon.symm.trans hoff) (by decide)

theorem Coherent.stop (h : s.Coherent) (hidle : s.control = .idle) : s.stop.Coherent := by
  obtain ⟨⟨p, hp, hfits⟩, halive, henabled, hcounted⟩ := h
  unfold WatchdogNotifier.stop
  split_ifs with hrunning
  · exact ⟨⟨p, hp, hfits⟩, halive, henabled, hcounted⟩
  · rw [Fits, hidle] at hfits
    rw [Bool.not_eq_true, Bool.not_eq_false'] at hrunning
    rw [if_pos hrunning] at hfits
    obtain ⟨hup, pc, hpc, -⟩ := hfits
    refine ⟨⟨p, hp, rfl, by rw [hpc]; rfl, hup⟩, halive, ?_, hcounted⟩
    intro hoff
    exact ⟨rfl, (henabled hoff).2⟩

theorem Coherent.pause (h : s.Coherent) (hidle : s.control = .idle) : s.pause.Coherent := by
  unfold WatchdogNotifier.pause
  dsimp only
  split_ifs
  · exact (h.setPauses _).stop hidle
  · exact h.setPauses _

theorem Coherent.resume (h : s.Coherent) (hidle : s.control = .idle) : s.resume.Coherent := by
  unfold WatchdogNotifier.resume
  split
  · exact h
  · dsimp only
    split_ifs
    · exact (h.setPauses _).start hidle
    · exact h.setPauses _

theorem Coherent.proceed (h : s.Coherent) : s.proceed.Coherent := by
  obtain ⟨⟨p, hp, hfits⟩, halive, henabled, hcounted⟩ := h
  unfold WatchdogNotifier.proceed
  rw [Fits] at hfits
  cases hcontrol : s.control with
  | idle =>
    rw [hcontrol] at hfits
    exact ⟨⟨p, hp, by rwa [Fits, hcontrol]⟩, halive, henabled, hcounted⟩
  | readying =>
    rw [hcontrol] at hfits
    obtain ⟨hrunning, hthread, hdown⟩ := hfits
    have hnext : phaseOf (s.send .ready).sent = some .up := by
      change phaseOf (s.sent ++ [.ready]) = _
      rw [phaseOf_snoc, hp]
      cases p
      · rfl
      · exact absurd rfl hdown
      · rfl
    refine ⟨⟨.up, hnext, hrunning, hthread, rfl⟩, halive, henabled, ?_⟩
    simpa [send, isWatchdog] using hcounted
  | spawning =>
    rw [hcontrol] at hfits
    obtain ⟨hrunning, hthread, hup⟩ := hfits
    refine ⟨⟨p, hp, ?_⟩, by simp [halive, hthread], ?_, hcounted⟩
    · simp [Fits, hrunning, hup]
    · intro hoff
      rw [hrunning] at henabled
      exact absurd (henabled hoff).1 (by simp)
  | stopping =>
    rw [hcontrol] at hfits
    obtain ⟨hrunning, hthread, hup⟩ := hfits
    have hnext : phaseOf (s.send .stopping).sent = some .closing := by
      change phaseOf (s.sent ++ [.stopping]) = _
      rw [phaseOf_snoc, hp, hup]
      rfl
    refine ⟨⟨.closing, hnext, hrunning, hthread, .inl rfl⟩, halive, henabled, ?_⟩
    simpa [send, isWatchdog] using hcounted
  | joining =>
    rw [hcontrol] at hfits
    obtain ⟨hrunning, hthread, hphase⟩ := hfits
    have hdown : p ≠ .up := by
      rcases hphase with hp | ⟨hp, -⟩ <;> rw [hp] <;> decide
    have hreturned : Coherent { s with thread := none, control := .idle } := by
      refine ⟨⟨p, hp, ?_⟩, halive, fun hoff => ⟨(henabled hoff).1, rfl⟩, hcounted⟩
      simp [Fits, hrunning, hdown]
    have hwaits : s.Coherent := by
      refine ⟨⟨p, hp, ?_⟩, halive, henabled, hcounted⟩
      rw [Fits, hcontrol]
      exact ⟨hrunning, hthread, hphase⟩
    obtain ⟨pc, hpc⟩ := Option.isSome_iff_exists.mp hthread
    simp only [hpc]
    cases pc with
    | finished => exact hreturned
    | _ => exact hwaits

theorem Coherent.notify (h : s.Coherent) : (s.notify true).Coherent := by
  obtain ⟨⟨p, hp, hfits⟩, halive, henabled, hcounted⟩ := h
  unfold WatchdogNotifier.notify
  split_ifs
  · have hnext : phaseOf (s.send (.watchdog true)).sent = some p := by
      change phaseOf (s.sent ++ [.watchdog true]) = _
      rw [phaseOf_snoc, hp]
      rfl
    refine ⟨⟨p, hnext, hfits⟩, halive, henabled, ?_⟩
    exact counted_snoc hcounted true
  · exact ⟨⟨p, hp, hfits⟩, halive, henabled, hcounted⟩

end Steps

section Loop

variable {s : WatchdogNotifier}

theorem Coherent.enabled_of_thread (h : s.Coherent) (hthread : s.thread.isSome) :
    s.enabled = true := by
  cases henabled : s.enabled with
  | true => rfl
  | false =>
    rw [(h.enabled henabled).2] at hthread
    cases hthread

theorem Coherent.moveTo (h : s.Coherent) (hthread : s.thread.isSome) (pc : LoopPc)
    (hchecking : pc = .checking → s.running = true) (hfinished : pc = .finished → s.running = false) :
    Coherent { s with thread := some pc } := by
  have hon := h.enabled_of_thread hthread
  obtain ⟨⟨p, hp, hfits⟩, halive, -, hcounted⟩ := h
  refine ⟨⟨p, hp, ?_⟩, halive, fun hoff => absurd (hon.symm.trans hoff) (by decide), hcounted⟩
  cases hcontrol : s.control with
  | idle =>
    rw [Fits, hcontrol] at hfits
    simp only [Fits]
    cases hrunning : s.running with
    | true =>
      rw [if_pos hrunning] at hfits
      refine ⟨hfits.1, pc, rfl, fun hpc => ?_⟩
      exact absurd (hrunning.symm.trans (hfinished hpc)) (by decide)
    | false =>
      rw [if_neg (by simp [hrunning])] at hfits
      rw [hfits.2] at hthread
      cases hthread
  | readying =>
    rw [Fits, hcontrol] at hfits
    rw [hfits.2.1] at hthread
    cases hthread
  | spawning =>
    rw [Fits, hcontrol] at hfits
    rw [hfits.2.1] at hthread
    cases hthread
  | stopping =>
    rw [Fits, hcontrol] at hfits
    simp only [Fits]
    exact ⟨hfits.1, rfl, hfits.2.2⟩
  | joining =>
    rw [Fits, hcontrol] at hfits
    simp only [Fits]
    refine ⟨hfits.1, rfl, hfits.2.2.imp_right (fun hdown => ⟨hdown.1, fun hpc => ?_⟩)⟩
    exact absurd (hfits.1.symm.trans (hchecking (Option.some.inj hpc))) (by decide)

/-- A notification of the loop, which is not the second one after STOPPING. -/
theorem Coherent.notifies (h : s.Coherent) (hthread : s.thread = some .checking) (pc : LoopPc)
    (hpc : pc ≠ .finished) (hpc' : pc ≠ .checking) :
    Coherent { s.notify false with thread := some pc } := by
  have hon := h.enabled_of_thread (by rw [hthread]; rfl)
  obtain ⟨⟨p, hp, hfits⟩, halive, -, hcounted⟩ := h
  have hsent : ∀ q, p.next (.watchdog false) = some q →
      phaseOf (s.sent ++ [.watchdog false]) = some q := by
    intro q hq
    rw [phaseOf_snoc, hp]
    exact hq
  have hnotify : s.notify false =
      { s.send (.watchdog false) with notifyCount := s.notifyCount + 1 } := if_pos hon
  have hoff : s.enabled = false → s.running = false ∧ some pc = none :=
    fun hoff => absurd (hon.symm.trans hoff) (by decide)
  rw [hnotify]
  cases hcontrol : s.control with
  | idle =>
    rw [Fits, hcontrol] at hfits
    cases hrunning : s.running with
    | true =>
      rw [if_pos hrunning] at hfits
      obtain ⟨rfl, -⟩ := hfits
      refine ⟨⟨.up, hsent .up rfl, ?_⟩, halive, hoff, counted_snoc hcounted false⟩
      simp only [Fits, hcontrol, send]
      rw [if_pos hrunning]
      exact ⟨trivial, pc, rfl, hpc⟩
    | false =>
      rw [if_neg (by simp [hrunning]), hthread] at hfits
      cases hfits.2
  | readying =>
    rw [Fits, hcontrol, hthread] at hfits
    cases hfits.2.1
  | spawning =>
    rw [Fits, hcontrol, hthread] at hfits
    cases hfits.2.1
  | stopping =>
    rw [Fits, hcontrol] at hfits
    obtain ⟨hrunning, -, rfl⟩ := hfits
    refine ⟨⟨.up, hsent .up rfl, ?_⟩, halive, hoff, counted_snoc hcounted false⟩
    simp only [Fits, hcontrol, send]
    exact ⟨hrunning, rfl, trivial⟩
  | joining =>
    rw [Fits, hcontrol] at hfits
    obtain ⟨hrunning, -, rfl | ⟨-, hnot⟩⟩ := hfits
    · refine ⟨⟨.down, hsent .down rfl, ?_⟩, halive, hoff, counted_snoc hcounted false⟩
      simp only [Fits, hcontrol, send]
      exact ⟨hrunning, rfl, .inr ⟨trivial, fun h => hpc' (Option.some.inj h)⟩⟩
    · exact absurd hthread hnot

theorem Coherent.notifyLoop (h : s.Coherent) (healthy : Bool) : (s.notifyLoop healthy).Coherent := by
  unfold WatchdogNotifier.notifyLoop
  cases hthread : s.thread with
  | none => exact h
  | some pc =>
    have hsome : s.thread.isSome := by rw [hthread]; rfl
    cases pc with
    | head =>
      refine h.moveTo hsome _ ?_ ?_ <;> cases s.running <;> simp
    | checking =>
      cases healthy with
      | true => exact h.notifies hthread (.sleeping s.interval) (by simp) (by simp)
      | false =>
        have hskipped : Coherent { s with skipCount := s.skipCount + 1 } :=
          ⟨h.fits, h.alive, h.enabled, h.counted⟩
        exact hskipped.moveTo hsome (.sleeping s.interval) (by simp) (by simp)
    | sleeping remaining =>
      refine h.moveTo hsome _ ?_ ?_
      · split_ifs <;> simp
      · split_ifs <;> simp
    | finished => exact h

end Loop

theorem coherent_step (s : WatchdogNotifier) (op : Op) (h : s.Coherent) : (s.step op).Coherent := by
  cases op with
  | start =>
    rw [step]
    split_ifs with hidle
    · exact h.start hidle
    · exact h
  | stop =>
    rw [step]
    split_ifs with hidle
    · exact h.stop hidle
    · exact h
  | pause =>
    rw [step]
    split_ifs with hidle
    · exact h.pause hidle
    · exact h
  | resume =>
    rw [step]
    split_ifs with hidle
    · exact h.resume hidle
    · exact h
  | proceed => exact h.proceed
  | loop healthy => exact h.notifyLoop healthy
  | notify => exact h.notify

theorem coherent_run (ret : ℤ) (usec : UInt64) (ops : List Op) :
    (run step (new ret usec) ops).Coherent := by
  refine run_invariant step Coherent coherent_step ?_ ops
  unfold new
  split_ifs
  · exact ⟨⟨.down, rfl, by decide, rfl⟩, rfl, fun h => Bool.noConfusion h, rfl⟩
  · exact ⟨⟨.down, rfl, by decide, rfl⟩, rfl, fun _ => ⟨rfl, rfl⟩, rfl⟩

theorem Coherent.running_eq {s : WatchdogNotifier} (h : s.Coherent) (hidle : s.control = .idle) :
    s.running = s.thread.isSome := by
  obtain ⟨p, -, hfits⟩ := h.fits
  rw [Fits, hidle] at hfits
  cases hrunning : s.running with
  | true =>
    rw [if_pos hrunning] at hfits
    obtain ⟨-, pc, hpc, -⟩ := hfits
    rw [hpc]
    rfl
  | false =>
    rw [if_neg (by simp [hrunning])] at hfits
    rw [hfits.2]
    rfl

/-- In every interleaving systemd sees sessions of READY, notifications and STOPPING with at most
    one notification behind; there is one loop thread at most, and none once `stop` has returned;
    and the counter counts the notifications. -/
theorem sessions (ret : ℤ) (usec : UInt64) (ops : List Op) :
    let s := run step (new ret usec) ops
    (phaseOf s.sent).isSome ∧ s.terminated = false ∧
    (s.control = .idle → s.running = s.thread.isSome) ∧
    (s.control = .idle → (s.running = true ↔ phaseOf s.sent = some .up)) ∧
    s.notifyCount = UInt64.ofNat (s.sent.countP isWatchdog) := by
  intro s
  have hcoherent : s.Coherent := coherent_run ret usec ops
  obtain ⟨p, hp, hfits⟩ := hcoherent.fits
  refine ⟨Option.isSome_iff_exists.mpr ⟨p, hp⟩, hcoherent.alive, hcoherent.running_eq, ?_,
    hcoherent.counted⟩
  · intro hidle
    rw [Fits, hidle] at hfits
    rw [hp, Option.some.injEq]
    cases hrunning : s.running with
    | true =>
      rw [if_pos hrunning] at hfits
      exact iff_of_true rfl hfits.1
    | false =>
      rw [if_neg (by simp [hrunning])] at hfits
      exact iff_of_false Bool.false_ne_true hfits.1

theorem notify_kept (s : WatchdogNotifier) (manual : Bool) :
    (s.notify manual).control = s.control ∧ (s.notify manual).running = s.running ∧
      (s.notify manual).thread = s.thread ∧ (s.notify manual).pauses = s.pauses ∧
      (s.notify manual).enabled = s.enabled := by
  unfold WatchdogNotifier.notify
  split_ifs <;> exact ⟨rfl, rfl, rfl, rfl, rfl⟩

theorem notifyLoop_kept (s : WatchdogNotifier) (healthy : Bool) :
    (s.notifyLoop healthy).control = s.control ∧ (s.notifyLoop healthy).running = s.running ∧
      (s.notifyLoop healthy).pauses = s.pauses ∧ (s.notifyLoop healthy).enabled = s.enabled := by
  unfold WatchdogNotifier.notifyLoop
  rcases s.thread with _ | pc
  · exact ⟨rfl, rfl, rfl, rfl⟩
  · cases pc with
    | checking =>
      obtain ⟨hcontrol, hrunning, -, hpauses, henabled⟩ := notify_kept s false
      cases healthy with
      | true => exact ⟨hcontrol, hrunning, hpauses, henabled⟩
      | false => exact ⟨rfl, rfl, rfl, rfl⟩
    | _ => exact ⟨rfl, rfl, rfl, rfl⟩

def stepsLeft : Option LoopPc → ℕ
  | some .checking => 3
  | some (.sleeping _) => 2
  | some .head => 1
  | _ => 0

theorem notifyLoop_stepsLeft {s : WatchdogNotifier} (hrunning : s.running = false)
    (healthy : Bool) : stepsLeft (s.notifyLoop healthy).thread = stepsLeft s.thread - 1 := by
  unfold WatchdogNotifier.notifyLoop
  rcases hthread : s.thread with _ | pc
  · simp [stepsLeft, hthread]
  · cases pc with
    | finished => simp [stepsLeft, hthread]
    | _ => simp [stepsLeft, hrunning]

def isLoop : Op → Bool
  | .loop _ => true
  | _ => false

theorem joining_step {s : WatchdogNotifier} (hcontrol : s.control = .joining)
    (hrunning : s.running = false) (op : Op) :
    (s.step op).control = .idle ∨ (s.step op).control = .joining ∧ (s.step op).running = false ∧
      stepsLeft (s.step op).thread = stepsLeft s.thread - if isLoop op then 1 else 0 := by
  have hbusy : s.control ≠ .idle := by
    rw [hcontrol]
    decide
  cases op with
  | start => exact .inr (by rw [step, if_neg hbusy]; exact ⟨hcontrol, hrunning, rfl⟩)
  | stop => exact .inr (by rw [step, if_neg hbusy]; exact ⟨hcontrol, hrunning, rfl⟩)
  | pause => exact .inr (by rw [step, if_neg hbusy]; exact ⟨hcontrol, hrunning, rfl⟩)
  | resume => exact .inr (by rw [step, if_neg hbusy]; exact ⟨hcontrol, hrunning, rfl⟩)
  | proceed =>
    rw [step, WatchdogNotifier.proceed, hcontrol]
    rcases hthread : s.thread with _ | pc
    · exact .inl rfl
    · cases pc with
      | finished => exact .inl rfl
      | _ => exact .inr ⟨hcontrol, hrunning, by rw [hthread]; rfl⟩
  | loop healthy =>
    obtain ⟨hcontrol', hrunning', -, -⟩ := notifyLoop_kept s healthy
    exact .inr ⟨hcontrol'.trans hcontrol, hrunning'.trans hrunning,
      notifyLoop_stepsLeft hrunning healthy⟩
  | notify =>
    obtain ⟨hcontrol', hrunning', hthread, -, -⟩ := notify_kept s true
    exact .inr ⟨hcontrol'.trans hcontrol, hrunning'.trans hrunning, congrArg stepsLeft hthread⟩

theorem join_returns {s : WatchdogNotifier} (hcontrol : s.control = .joining)
    (hrunning : s.running = false) (ops : List Op)
    (hloop : stepsLeft s.thread ≤ ops.countP isLoop) :
    ∃ pre, pre <+: ops ++ [.proceed] ∧ (run step s pre).control = .idle := by
  induction ops generalizing s with
  | nil =>
    refine ⟨[.proceed], List.prefix_refl _, ?_⟩
    change s.proceed.control = .idle
    rw [List.countP_nil, Nat.le_zero] at hloop
    rw [WatchdogNotifier.proceed, hcontrol]
    rcases hthread : s.thread with _ | pc
    · rfl
    · rw [hthread] at hloop
      cases pc with
      | finished => rfl
      | _ => simp [stepsLeft] at hloop
  | cons op ops ih =>
    rcases joining_step hcontrol hrunning op with hidle | ⟨hcontrol', hrunning', hleft⟩
    · exact ⟨[op], ⟨ops ++ [.proceed], rfl⟩, hidle⟩
    · have hloop' : stepsLeft (s.step op).thread ≤ ops.countP isLoop := by
        rw [hleft]
        rw [List.countP_cons] at hloop
        omega
      obtain ⟨pre, hpre, hidle⟩ := ih hcontrol' hrunning' hloop'
      exact ⟨op :: pre, (List.prefix_cons_inj op).mpr hpre, hidle⟩

/-- No call of `stop` hangs: once STOPPING is out, three steps of the loop let it return, however
    long the interval is and whatever runs in between. -/
theorem stop_returns (ret : ℤ) (usec : UInt64) (ops later : List Op)
    (hcontrol : (run step (new ret usec) ops).control = .joining)
    (hloop : 3 ≤ later.countP isLoop) :
    ∃ pre, pre <+: later ++ [.proceed] ∧
      (run step (new ret usec) (ops ++ pre)).control = .idle := by
  let s := run step (new ret usec) ops
  obtain ⟨⟨p, -, hfits⟩, -, -, -⟩ : s.Coherent := coherent_run ret usec ops
  have hrunning : s.running = false := by
    rw [Fits, show s.control = .joining from hcontrol] at hfits
    exact hfits.1
  have hleft : stepsLeft s.thread ≤ 3 := by
    unfold stepsLeft
    split <;> omega
  obtain ⟨pre, hpre, hidle⟩ := join_returns hcontrol hrunning later (Nat.le_trans hleft hloop)
  exact ⟨pre, hpre, by rw [run_append]; exact hidle⟩

def untilJoin : List Op :=
  [.start, .proceed, .proceed, .loop true, .loop true, .stop, .proceed]

theorem stop_returns_asleep :
    ∃ pre, pre <+: [.loop true, .loop true, .loop false] ++ [.proceed] ∧
      (run step (new 1 30000000) (untilJoin ++ pre)).control = .idle :=
  stop_returns 1 30000000 untilJoin [.loop true, .loop true, .loop false] (by decide) (by decide)

/-- While pauses are open the outermost one knows whether the notifier ran, and the inner ones have
    found it stopped. -/
structure Paused (wasRunning : Bool) (s : WatchdogNotifier) : Prop where
  stopped : s.running = false
  pauses : ∃ n, s.pauses = List.replicate n false ++ [wasRunning]
  enabled : wasRunning = true → s.enabled = true

theorem Paused.of_eq {wasRunning : Bool} {s s' : WatchdogNotifier} (h : s.Paused wasRunning)
    (hrunning : s'.running = s.running) (hpauses : s'.pauses = s.pauses)
    (henabled : s'.enabled = s.enabled) : s'.Paused wasRunning :=
  ⟨hrunning ▸ h.stopped, hpauses ▸ h.pauses, henabled ▸ h.enabled⟩

theorem paused_pause {s : WatchdogNotifier} (h : s.Coherent) (hnone : s.pauses = []) :
    s.pause.Paused s.running := by
  have hon : s.running = true → s.enabled = true := by
    intro hrunning
    cases henabled : s.enabled with
    | true => rfl
    | false => exact absurd (hrunning.symm.trans (h.enabled henabled).1) (by decide)
  unfold WatchdogNotifier.pause WatchdogNotifier.stop
  rw [hnone]
  cases hrunning : s.running with
  | true => exact ⟨rfl, ⟨0, rfl⟩, fun _ => hon hrunning⟩
  | false => exact ⟨rfl, ⟨0, rfl⟩, fun h => Bool.noConfusion h⟩

theorem proceed_kept (s : WatchdogNotifier) :
    s.proceed.running = s.running ∧ s.proceed.pauses = s.pauses ∧ s.proceed.enabled = s.enabled := by
  unfold WatchdogNotifier.proceed
  split
  · exact ⟨rfl, rfl, rfl⟩
  · exact ⟨rfl, rfl, rfl⟩
  · exact ⟨rfl, rfl, rfl⟩
  · exact ⟨rfl, rfl, rfl⟩
  · split <;> exact ⟨rfl, rfl, rfl⟩

theorem stop_of_stopped {s : WatchdogNotifier} (h : s.running = false) : s.stop = s :=
  if_pos (by rw [h]; rfl)

theorem start_pauses (s : WatchdogNotifier) : s.start.pauses = s.pauses := by
  unfold WatchdogNotifier.start
  split_ifs <;> rfl

/-- The innermost of several pauses is destroyed, or a new one made: nothing starts. -/
theorem resume_inner {wasRunning : Bool} {s : WatchdogNotifier} (h : s.Paused wasRunning)
    (hopen : s.resume.pauses ≠ []) : s.resume.Paused wasRunning := by
  obtain ⟨hstopped, ⟨n, hpauses⟩, henabled⟩ := h
  cases n with
  | zero =>
    have hempty : s.resume.pauses = [] := by
      rw [WatchdogNotifier.resume, hpauses]
      cases wasRunning with
      | true => exact start_pauses _
      | false => rfl
    exact absurd hempty hopen
  | succ n =>
    have hresume : s.resume = { s with pauses := List.replicate n false ++ [wasRunning] } := by
      rw [WatchdogNotifier.resume, hpauses]
      rfl
    rw [hresume]
    exact ⟨hstopped, ⟨n, rfl⟩, henabled⟩

theorem paused_step {wasRunning : Bool} {s : WatchdogNotifier} (h : s.Paused wasRunning) (op : Op)
    (hop : op ≠ .start) (hopen : (s.step op).pauses ≠ []) : (s.step op).Paused wasRunning := by
  cases op with
  | start => exact absurd rfl hop
  | stop =>
    rw [step, stop_of_stopped h.stopped, ite_self]
    exact h
  | pause =>
    have hpause : s.pause = { s with pauses := false :: s.pauses } := by
      rw [WatchdogNotifier.pause, h.stopped]
      rfl
    rw [step, hpause]
    split_ifs
    · obtain ⟨n, hpauses⟩ := h.pauses
      exact ⟨h.stopped, ⟨n + 1, by rw [hpauses]; rfl⟩, h.enabled⟩
    · exact h
  | resume =>
    rw [step] at hopen ⊢
    split_ifs at hopen ⊢
    · exact resume_inner h hopen
    · exact h
  | proceed =>
    obtain ⟨hrunning, hpauses, henabled⟩ := proceed_kept s
    exact h.of_eq hrunning hpauses henabled
  | loop healthy =>
    obtain ⟨-, hrunning, hpauses, henabled⟩ := notifyLoop_kept s healthy
    exact h.of_eq hrunning hpauses henabled
  | notify =>
    obtain ⟨-, hrunning, -, hpauses, henabled⟩ := notify_kept s true
    exact h.of_eq hrunning hpauses henabled

theorem paused_run {wasRunning : Bool} {s : WatchdogNotifier} (h : s.Paused wasRunning)
    {ops : List Op} (hstart : Op.start ∉ ops)
    (hopen : EveryState step (fun s => s.pauses ≠ []) s ops) :
    (run step s ops).Paused wasRunning := by
  induction ops generalizing s with
  | nil => exact h
  | cons op ops ih =>
    obtain ⟨-, hrest⟩ := everyState_cons.mp hopen
    have hop : op ≠ .start := fun heq => hstart (heq ▸ List.mem_cons_self)
    have hnext := paused_step h op hop (hrest [] List.nil_prefix)
    exact ih hnext (fun hmem => hstart (List.mem_cons_of_mem op hmem)) hrest

/-- While a `ScopedWatchdogPause` is open, inner ones included, and nobody calls `start`, the
    notifier is stopped and sends nothing of itself once the pause has been made; when the
    outermost one is destroyed the notifier runs exactly if it ran before. -/
theorem pause_restores (ret : ℤ) (usec : UInt64) (ops paused : List Op)
    (hidle : (run step (new ret usec) ops).control = .idle)
    (hnone : (run step (new ret usec) ops).pauses = []) (hstart : Op.start ∉ paused)
    (hopen : EveryState step (fun s => s.pauses ≠ [])
      (run step (new ret usec) (ops ++ [.pause])) paused) :
    let before := run step (new ret usec) ops
    let s := run step (new ret usec) (ops ++ [.pause] ++ paused)
    s.running = false ∧
    (s.control = .idle → ∀ healthy, s.notifyLoop healthy = s) ∧
    (s.control = .idle → s.pauses.length = 1 → (s.step .resume).running = before.running) := by
  intro before s
  have hbegun : (run step (new ret usec) (ops ++ [.pause])).Paused before.running := by
    rw [run_snoc, step, if_pos hidle]
    exact paused_pause (coherent_run ret usec ops) hnone
  have hpaused : s.Paused before.running := by
    change (run step (new ret usec) (ops ++ [.pause] ++ paused)).Paused before.running
    rw [run_append]
    exact paused_run hbegun hstart hopen
  refine ⟨hpaused.stopped, ?_, ?_⟩
  · intro hcontrol healthy
    have hthread := (coherent_run ret usec (ops ++ [.pause] ++ paused)).running_eq hcontrol
    rw [show (run step (new ret usec) (ops ++ [.pause] ++ paused)).running = false from
      hpaused.stopped] at hthread
    have hnothread : s.thread = none := Option.isNone_iff_eq_none.mp (by
      rw [← Option.not_isSome, ← hthread]
      rfl)
    rw [WatchdogNotifier.notifyLoop, hnothread]
  · intro hcontrol hlength
    obtain ⟨n, hpauses⟩ := hpaused.pauses
    have hzero : n = 0 := by
      rw [hpauses, List.length_append, List.length_replicate, List.length_singleton] at hlength
      omega
    rw [step, if_pos hcontrol, WatchdogNotifier.resume, hpauses, hzero]
    cases hwas : before.running with
    | false => exact hpaused.stopped
    | true =>
      have hon := hpaused.enabled hwas
      simp [WatchdogNotifier.start, hon, hpaused.stopped]

def untilRunning : List Op := [.start, .proceed, .proceed, .loop true, .loop true]

/-- The pause stops the notifier and the loop returns; an inner pause changes nothing. -/
def duringPause : List Op :=
  [.proceed, .loop true, .loop true, .proceed, .pause, .notify, .resume]

theorem pause_restores_running :
    ((run step (new 1 30000000) (untilRunning ++ [.pause] ++ duringPause)).step .resume).running =
      (run step (new 1 30000000) untilRunning).running := by
  have hopen : EveryState step (fun s => s.pauses ≠ [])
      (run step (new 1 30000000) (untilRunning ++ [.pause])) duringPause := by
    simp only [duringPause, everyState_cons, everyState_nil]
    decide
  exact (pause_restores 1 30000000 untilRunning duringPause (by decide) (by decide) (by decide)
    hopen).2.2 (by decide) (by decide)

end WatchdogNotifier

end SpeeduinoDash
