import SpeeduinoDash.CrashLockout

set_option autoImplicit false

/-!
# A user stop and the crash logic

`stop` ends the process by the signals a crash is known by, and a restart timer that a crash has
set is never taken back. A trace carries along which timers crashes have set, and on which process
`stop` was called.
-/
namespace SpeeduinoDash

/-- A process that never came up does not finish. -/
def Killed.ended : Killed → Option (ℤ × ExitStatus)
  | .startsAndDies exitCode status => some (exitCode, status)
  | _ => none

namespace OpenAutoController
open Lib.Runs

def endInStart (c : OpenAutoController) (l : Launch) : Option (ℤ × ExitStatus) :=
  if c.running = false ∧ (c.findExecutable l).isSome ∧ c.process ≠ .notRunning then l.killed.ended
  else none

def endIn (c : OpenAutoController) : Event → Option (ℤ × ExitStatus)
  | .processFinished exitCode status =>
    if c.process = .running then some (exitCode, status) else none
  | .startTimer i l => if i < c.startTimers.length then c.endInStart l else none
  | .usbCheck device l | .scanForDevices device l =>
    if device.isSome ∧ c.connected = false ∧ c.autoStart = true ∧ c.running = false then
      c.endInStart l
    else none
  | .start l => c.endInStart l
  | .stop ended | .restart ended => if c.running then ended else none
  | .toggle l ended => if c.running then ended else c.endInStart l
  | _ => none

def counts (c : OpenAutoController) (ended : Option (ℤ × ExitStatus)) : Bool :=
  ended.any (fun p => decide (p.2 = .crashExit)) && c.autoStart

def crashTimers (c : OpenAutoController) (ended : Option (ℤ × ExitStatus)) : List ℕ :=
  if c.counts ended = true ∧ c.crashRestartCount < maxCrashRestarts then [c.currentRestartDelayMs]
  else []

def keptTimers (c : OpenAutoController) : Event → List ℕ
  | .startTimer i _ => c.startTimers.eraseIdx i
  | _ => c.startTimers

def Event.askedTimers : Event → List ℕ
  | .restart _ => [restartDelayMs]
  | _ => []

def Event.callsStop (c : OpenAutoController) : Event → Bool
  | .stop _ | .restart _ => true
  | .toggle _ _ => c.running
  | _ => false

structure Judged (c : OpenAutoController) (timers : List ℕ) (ended : Option (ℤ × ExitStatus))
    (o : Outcome) : Prop where
  crashLoop : o.crashLoop = (c.counts ended && decide (maxCrashRestarts ≤ c.crashRestartCount))
  count : c.counts ended = false → o.controller.crashRestartCount ≤ c.crashRestartCount
  startTimers : o.controller.startTimers = timers ++ c.crashTimers ended

theorem judged_of_frame {c c' : OpenAutoController} {timers : List ℕ} (issued : Option Starter)
    (hcount : c'.crashRestartCount ≤ c.crashRestartCount) (htimers : c'.startTimers = timers) :
    Judged c timers none ⟨c', false, issued⟩ := by
  refine ⟨rfl, fun _ => hcount, ?_⟩
  rw [htimers]
  exact (List.append_nil timers).symm

theorem setConnected_crashes (c : OpenAutoController) (connected : Bool) :
    (c.setConnected connected).crashRestartCount = c.crashRestartCount ∧
    (c.setConnected connected).currentRestartDelayMs = c.currentRestartDelayMs := by
  unfold setConnected
  split_ifs <;> exact ⟨rfl, rfl⟩

theorem onProcessFinished_judged (c : OpenAutoController) (exitCode : ℤ) (status : ExitStatus) :
    Judged c c.startTimers (some (exitCode, status)) (c.onProcessFinished exitCode status) := by
  obtain ⟨-, -, -, htimers⟩ :=
    setConnected_frame { c with process := .notRunning, running := false } false
  obtain ⟨hcount, hdelay⟩ :=
    setConnected_crashes { c with process := .notRunning, running := false } false
  unfold onProcessFinished
  generalize setConnected { c with process := .notRunning, running := false } false = d at *
  dsimp only at htimers hcount hdelay
  cases status with
  | normalExit =>
    refine ⟨rfl, fun _ => Nat.zero_le _, ?_⟩
    simpa [crashTimers, counts, resetCrashes] using htimers
  | crashExit =>
    cases hauto : c.autoStart with
    | false =>
      refine ⟨by simp [counts, hauto], fun _ => Nat.le_of_eq hcount, ?_⟩
      simpa [crashTimers, counts, hauto] using htimers
    | true =>
      have hcounts : c.counts (some (exitCode, .crashExit)) = true := by simp [counts, hauto]
      dsimp only
      rw [hcount, if_pos rfl]
      split_ifs with hmany
      · have hloop : maxCrashRestarts ≤ c.crashRestartCount := Nat.lt_succ_iff.mp hmany
        refine ⟨by simp [hcounts, hloop], fun h => absurd h (by simp [hcounts]), ?_⟩
        rw [crashTimers, if_neg fun h => Nat.not_lt.mpr hloop h.2, List.append_nil]
        exact htimers
      · have hfew : c.crashRestartCount < maxCrashRestarts := Nat.not_lt.mp hmany
        refine ⟨by simp [hfew], fun h => absurd h (by simp [hcounts]), ?_⟩
        rw [crashTimers, if_pos ⟨hcounts, hfew⟩, ← htimers, ← hdelay]

theorem killStarting_judged (c : OpenAutoController) (killed : Killed) :
    Judged c c.startTimers (if c.process = .notRunning then none else killed.ended)
      (c.killStarting killed) := by
  unfold killStarting
  split_ifs
  · exact judged_of_frame none (Nat.le_refl _) rfl
  · cases killed with
    | outlives => exact judged_of_frame none (Nat.le_refl _) rfl
    | failsToStart => exact judged_of_frame none (Nat.le_refl _) rfl
    | startsAndDies exitCode status =>
      have hjudged := onProcessFinished_judged c.onProcessStarted exitCode status
      exact ⟨hjudged.crashLoop, hjudged.count, hjudged.startTimers⟩

/-- However the launch goes, no crash is seen in it. -/
theorem launch_crashes (c : OpenAutoController) (launched : Launched) :
    (c.launch launched).crashRestartCount = c.crashRestartCount ∧
    (c.launch launched).startTimers = c.startTimers := by
  cases launched <;> exact ⟨rfl, rfl⟩

theorem start_judged (c : OpenAutoController) (l : Launch) :
    Judged c c.startTimers (c.endInStart l) (c.start l) := by
  have hfind : { c with errorMessage := "" }.findExecutable l = c.findExecutable l := rfl
  unfold start
  dsimp only
  rw [hfind]
  split_ifs with hrunning
  · have hnone : c.endInStart l = none := by simp [endInStart, hrunning]
    rw [hnone]
    exact judged_of_frame none (Nat.le_refl _) rfl
  · cases hpath : c.findExecutable l with
    | none =>
      have hnone : c.endInStart l = none := by simp [endInStart, hpath]
      rw [hnone]
      exact judged_of_frame none (Nat.le_refl _) rfl
    | some path =>
      have hended : c.endInStart l =
          if c.process = .notRunning then none else l.killed.ended := by
        by_cases hprocess : c.process = .notRunning <;> simp [endInStart, hrunning, hpath, hprocess]
      rw [hended]
      have hkilled := killStarting_judged { c with errorMessage := "", executablePath := path }
        l.killed
      dsimp only
      generalize killStarting { c with errorMessage := "", executablePath := path } l.killed = o
        at hkilled
      obtain ⟨hcount, htimers⟩ := launch_crashes o.controller l.launched
      refine ⟨hkilled.crashLoop, fun h => ?_, ?_⟩
      · rw [hcount]
        exact hkilled.count h
      · rw [htimers]
        exact hkilled.startTimers

theorem stop_judged (c : OpenAutoController) (ended : Option (ℤ × ExitStatus)) :
    Judged c c.startTimers (if c.running then ended else none) (c.stop ended) := by
  unfold stop
  cases hrunning : c.running with
  | false => exact judged_of_frame none (Nat.le_refl _) rfl
  | true =>
    cases ended with
    | none =>
      obtain ⟨-, -, -, htimers⟩ := setConnected_frame c false
      obtain ⟨hcount, -⟩ := setConnected_crashes c false
      exact judged_of_frame none (Nat.le_of_eq hcount) htimers
    | some ended =>
      obtain ⟨exitCode, status⟩ := ended
      have hjudged := onProcessFinished_judged c exitCode status
      dsimp only
      generalize c.onProcessFinished exitCode status = o at hjudged
      obtain ⟨-, -, -, htimers⟩ := setConnected_frame o.controller false
      obtain ⟨hcount, -⟩ := setConnected_crashes o.controller false
      refine ⟨hjudged.crashLoop, fun h => ?_, ?_⟩
      · exact hcount.trans_le (hjudged.count h)
      · exact htimers.trans hjudged.startTimers

theorem checkUsbDevices_judged (c : OpenAutoController) (device : Option (String × String))
    (l : Launch) :
    Judged c c.startTimers
      (if device.isSome ∧ c.connected = false ∧ c.autoStart = true ∧ c.running = false then
        c.endInStart l
      else none) (c.checkUsbDevices device l) := by
  cases device with
  | none => exact judged_of_frame none (Nat.le_refl _) rfl
  | some device =>
    have hstart := start_judged (c.detectAndroidAutoDevice (some device)) l
    unfold checkUsbDevices
    by_cases hcheck : c.connected = false ∧ c.autoStart = true ∧ c.running = false
    · rw [if_pos ⟨rfl, hcheck⟩]
      dsimp only
      rw [if_pos ⟨rfl, hcheck⟩]
      exact ⟨hstart.crashLoop, hstart.count, hstart.startTimers⟩
    · rw [if_neg fun h => hcheck h.2]
      dsimp only
      rw [if_neg fun h => hcheck h.2]
      exact judged_of_frame none (Nat.le_refl _) rfl

theorem output_crashes (c : OpenAutoController) (output : Output) :
    (c.onReadyReadStdout output).crashRestartCount = c.crashRestartCount ∧
    (c.onReadyReadStdout output).startTimers = c.startTimers := by
  have hset : ∀ connected, (c.setConnected connected).crashRestartCount = c.crashRestartCount ∧
      (c.setConnected connected).startTimers = c.startTimers := by
    intro connected
    obtain ⟨-, -, -, htimers⟩ := setConnected_frame c connected
    exact ⟨(setConnected_crashes c connected).1, htimers⟩
  cases output with
  | phoneConnected => exact hset true
  | phoneDisconnected => exact hset false
  | wireless => exact ⟨rfl, rfl⟩
  | other => exact ⟨rfl, rfl⟩

theorem stability_crashes (c : OpenAutoController) :
    c.onStabilityCheck.crashRestartCount ≤ c.crashRestartCount ∧
    c.onStabilityCheck.startTimers = c.startTimers := by
  unfold onStabilityCheck
  dsimp only
  split_ifs
  · exact ⟨Nat.zero_le _, rfl⟩
  · exact ⟨Nat.le_refl _, rfl⟩

theorem Judged.unasked {c : OpenAutoController} {timers : List ℕ}
    {ended : Option (ℤ × ExitStatus)} {o : Outcome} (h : Judged c timers ended o) :
    o.crashLoop = (c.counts ended && decide (maxCrashRestarts ≤ c.crashRestartCount)) ∧
    (c.counts ended = false → o.controller.crashRestartCount ≤ c.crashRestartCount) ∧
    o.controller.startTimers = timers ++ c.crashTimers ended ++ [] := by
  rw [List.append_nil]
  exact ⟨h.crashLoop, h.count, h.startTimers⟩

theorem step_judged (c : OpenAutoController) (e : Event) :
    (c.step e).crashLoop =
      (c.counts (c.endIn e) && decide (maxCrashRestarts ≤ c.crashRestartCount)) ∧
    (c.counts (c.endIn e) = false → (c.next e).crashRestartCount ≤ c.crashRestartCount) ∧
    (c.next e).startTimers = c.keptTimers e ++ c.crashTimers (c.endIn e) ++ e.askedTimers := by
  have hframe : ∀ c' : OpenAutoController, c'.crashRestartCount ≤ c.crashRestartCount →
      c'.startTimers = c.startTimers → Judged c c.startTimers none ⟨c', false, none⟩ :=
    fun _ hcount htimers => judged_of_frame none hcount htimers
  unfold next
  cases e with
  | processStarted =>
    rw [step]
    split_ifs
    · exact (hframe c.onProcessStarted (Nat.le_refl _) rfl).unasked
    · exact (hframe c (Nat.le_refl _) rfl).unasked
  | processFinished exitCode status =>
    rw [step, endIn]
    split_ifs
    · exact (onProcessFinished_judged c exitCode status).unasked
    · exact (hframe c (Nat.le_refl _) rfl).unasked
  | processFailedToStart =>
    rw [step]
    split_ifs
    · exact (hframe _ (Nat.le_refl _) rfl).unasked
    · exact (hframe c (Nat.le_refl _) rfl).unasked
  | processError error => exact (hframe _ (Nat.le_refl _) rfl).unasked
  | output output =>
    obtain ⟨hcount, htimers⟩ := output_crashes c output
    rw [step]
    split_ifs
    · exact (hframe _ (Nat.le_of_eq hcount) htimers).unasked
    · exact (hframe c (Nat.le_refl _) rfl).unasked
  | startTimer i l =>
    rw [step, endIn, keptTimers]
    split_ifs with hset
    · have hstart := start_judged { c with startTimers := c.startTimers.eraseIdx i } l
      exact Judged.unasked ⟨hstart.crashLoop, hstart.count, hstart.startTimers⟩
    · rw [List.eraseIdx_of_length_le (Nat.not_lt.mp hset)]
      exact (hframe c (Nat.le_refl _) rfl).unasked
  | stabilityTimer =>
    obtain ⟨hcount, htimers⟩ := stability_crashes c
    rw [step]
    split_ifs
    · exact (hframe _ hcount htimers).unasked
    · exact (hframe c (Nat.le_refl _) rfl).unasked
  | usbCheck device l => exact (checkUsbDevices_judged c device l).unasked
  | scanForDevices device l => exact (checkUsbDevices_judged c device l).unasked
  | start l =>
    have hstart := start_judged c l
    exact Judged.unasked ⟨hstart.crashLoop, hstart.count, hstart.startTimers⟩
  | stop ended => exact (stop_judged c ended).unasked
  | restart ended =>
    have hstop := stop_judged c ended
    refine ⟨hstop.crashLoop, hstop.count, ?_⟩
    exact congrArg (· ++ [restartDelayMs]) hstop.startTimers
  | toggle l ended =>
    rw [step, endIn]
    have hstop := stop_judged c ended
    cases hrunning : c.running with
    | true =>
      rw [hrunning] at hstop
      exact hstop.unasked
    | false =>
      have hstart := start_judged c l
      exact Judged.unasked ⟨hstart.crashLoop, hstart.count, hstart.startTimers⟩
  | setAutoStart autoStart => exact (hframe _ (Nat.le_refl _) rfl).unasked

/-- `byCrash` says which of the timers crashes have set, `told` that the process that runs is one
    that `stop` was called on, and `stopped` that no new process has crashed since `stop` was
    last called. -/
structure Traced where
  controller : OpenAutoController := {}
  byCrash : List Bool := []
  told : Bool := false
  stopped : Bool := false

namespace Traced

def endsStopped (t : Traced) (e : Event) : Bool :=
  (t.told || e.callsStop t.controller) && (t.controller.endIn e).isSome

def newCrash (t : Traced) (e : Event) : Bool :=
  !(t.told || e.callsStop t.controller) &&
    (t.controller.endIn e).any (fun p => decide (p.2 = .crashExit))

def firesCrashTimer (t : Traced) : Event → Bool
  | .startTimer i l =>
    (t.controller.step (.startTimer i l)).issued == some .timer && t.byCrash.getD i false
  | _ => false

def next (t : Traced) (e : Event) : Traced where
  controller := t.controller.next e
  byCrash :=
    (match e with
      | .startTimer i _ => t.byCrash.eraseIdx i
      | _ => t.byCrash) ++
    (t.controller.crashTimers (t.controller.endIn e)).map (fun _ => true) ++
    e.askedTimers.map (fun _ => false)
  told := (t.controller.next e).running && (t.told || e.callsStop t.controller)
  stopped := e.callsStop t.controller || t.stopped && !t.newCrash e

/-- The end that `stop` brings about is not counted as a crash and sets no timer, and no timer that
    a crash has set fires while the stop stands. -/
structure Respects (t : Traced) (e : Event) : Prop where
  crashLoop : t.endsStopped e = true → (t.controller.step e).crashLoop = false
  count : t.endsStopped e = true →
    (t.controller.next e).crashRestartCount ≤ t.controller.crashRestartCount
  startTimers : t.endsStopped e = true →
    (t.controller.next e).startTimers = t.controller.keptTimers e ++ e.askedTimers
  timers : t.stopped = true → t.firesCrashTimer e = false

/-- `stop` is called while no crash has a timer set, and a process that it was called on ends
    normally or with auto-start off. -/
structure Orderly (t : Traced) (e : Event) : Prop where
  timers : e.callsStop t.controller = true → true ∉ t.byCrash
  ended : ∀ exitCode, t.endsStopped e = true →
    t.controller.endIn e = some (exitCode, .crashExit) → t.controller.autoStart = false

end Traced

def StopRespected (events : List Event) : Prop := EveryStep Traced.next Traced.Respects {} events

def OrderlyStops (events : List Event) : Prop := EveryStep Traced.next Traced.Orderly {} events

theorem counts_eq_false_iff (c : OpenAutoController) (ended : Option (ℤ × ExitStatus)) :
    c.counts ended = false ↔
      ∀ exitCode, ended = some (exitCode, .crashExit) → c.autoStart = false := by
  unfold counts
  obtain _ | ⟨exitCode, _ | _⟩ := ended
  · simp
  · simp
  · simp

theorem crashTimers_of_counts {c : OpenAutoController} {ended : Option (ℤ × ExitStatus)}
    (h : c.counts ended = false) : c.crashTimers ended = [] := by
  rw [crashTimers, if_neg]
  simp [h]

/-- The end in a step stays without consequences exactly if the crash logic does not count it. -/
theorem uncounted_iff (c : OpenAutoController) (e : Event) :
    ((c.step e).crashLoop = false ∧ (c.next e).crashRestartCount ≤ c.crashRestartCount ∧
      (c.next e).startTimers = c.keptTimers e ++ e.askedTimers) ↔
    c.counts (c.endIn e) = false := by
  obtain ⟨hloop, hcount, htimers⟩ := c.step_judged e
  rw [hloop, htimers]
  constructor
  · rintro ⟨hnoLoop, -, hsame⟩
    by_contra hcounts
    rw [Bool.not_eq_false] at hcounts
    have hfew : c.crashRestartCount < maxCrashRestarts := by simpa [hcounts] using hnoLoop
    rw [crashTimers, if_pos ⟨hcounts, hfew⟩] at hsame
    have hlength := congrArg List.length hsame
    simp at hlength
  · intro hcounts
    refine ⟨by simp [hcounts], hcount hcounts, ?_⟩
    rw [crashTimers_of_counts hcounts, List.append_nil]

namespace Traced

theorem run_controller (events : List Event) :
    (run Traced.next {} events).controller = after events := by
  refine run_related Traced.next (fun t c => t.controller = c) ?_ rfl events
  intro t c e h
  rw [← h]
  rfl

theorem next_length {t : Traced} (h : t.byCrash.length = t.controller.startTimers.length)
    (e : Event) : (t.next e).byCrash.length = (t.next e).controller.startTimers.length := by
  obtain ⟨-, -, htimers⟩ := t.controller.step_judged e
  rw [show (t.next e).controller = t.controller.next e from rfl, htimers]
  simp only [next, List.length_append, List.length_map, Nat.add_right_cancel_iff]
  cases e with
  | startTimer i l => simp only [keptTimers, List.length_eraseIdx, h]
  | _ => exact h

theorem length_run (events : List Event) :
    (run Traced.next {} events).byCrash.length = (after events).startTimers.length := by
  rw [← run_controller]
  exact run_invariant Traced.next
    (fun t => t.byCrash.length = t.controller.startTimers.length) (fun _ e h => next_length h e)
    rfl events

theorem mem_byCrash_next {t : Traced} {e : Event} (h : true ∈ (t.next e).byCrash) :
    true ∈ t.byCrash ∨ t.controller.counts (t.controller.endIn e) = true := by
  simp only [next, List.mem_append] at h
  obtain (hkept | hcrash) | hasked := h
  · left
    cases e with
    | startTimer i l => exact List.mem_of_mem_eraseIdx hkept
    | _ => exact hkept
  · right
    by_contra hcounts
    rw [Bool.not_eq_true] at hcounts
    simp [crashTimers_of_counts hcounts] at hcrash
  · simp at hasked

def Quiet (t : Traced) : Prop := t.stopped = true → true ∉ t.byCrash

theorem Orderly.counts {t : Traced} {e : Event} (h : t.Orderly e)
    (hends : t.endsStopped e = true) :
    t.controller.counts (t.controller.endIn e) = false :=
  (counts_eq_false_iff _ _).mpr fun exitCode => h.ended exitCode hends

theorem newCrash_of_counts {t : Traced} {e : Event}
    (hcounts : t.controller.counts (t.controller.endIn e) = true)
    (hends : t.endsStopped e = false) :
    e.callsStop t.controller = false ∧ t.newCrash e = true := by
  unfold OpenAutoController.counts at hcounts
  unfold endsStopped at hends
  unfold newCrash
  cases hended : t.controller.endIn e with
  | none =>
    rw [hended] at hcounts
    cases hcounts
  | some ended =>
    rw [hended] at hcounts hends
    have hother : (t.told || e.callsStop t.controller) = false := by simpa using hends
    have hcrash : decide (ended.2 = .crashExit) = true := (Bool.and_eq_true_iff.mp hcounts).1
    refine ⟨(Bool.or_eq_false_iff.mp hother).2, ?_⟩
    rw [hother]
    exact hcrash

theorem Orderly.next_quiet {t : Traced} {e : Event} (h : t.Orderly e) (hquiet : t.Quiet) :
    (t.next e).Quiet := by
  intro hstopped hmem
  have hcalls : true ∈ t.byCrash → e.callsStop t.controller = false ∧ t.stopped = false := by
    intro hbefore
    constructor
    · by_contra hcalls
      exact h.timers (by simpa using hcalls) hbefore
    · by_contra hstanding
      exact hquiet (by simpa using hstanding) hbefore
  obtain hbefore | hcounts := mem_byCrash_next hmem
  · obtain ⟨hcall, hstanding⟩ := hcalls hbefore
    simp [next, hcall, hstanding] at hstopped
  · have hends : t.endsStopped e = false := by
      by_contra hends
      rw [h.counts (by simpa using hends)] at hcounts
      cases hcounts
    obtain ⟨hcall, hcrash⟩ := newCrash_of_counts hcounts hends
    simp [next, hcall, hcrash] at hstopped

theorem firesCrashTimer_mem {t : Traced} {e : Event} (h : t.firesCrashTimer e = true) :
    true ∈ t.byCrash := by
  cases e with
  | startTimer i l =>
    simp only [firesCrashTimer, Bool.and_eq_true] at h
    have hget := h.2
    rw [List.getD_eq_getElem?_getD] at hget
    cases hi : t.byCrash[i]? with
    | none => simp [hi] at hget
    | some b =>
      rw [hi] at hget
      rw [← show b = true from hget]
      exact List.mem_of_getElem? hi
  | _ => cases h

theorem Orderly.respects {t : Traced} {e : Event} (h : t.Orderly e) (hquiet : t.Quiet) :
    t.Respects e := by
  have hends : t.endsStopped e = true → _ := fun hends =>
    (uncounted_iff t.controller e).mpr (h.counts hends)
  refine ⟨fun he => (hends he).1, fun he => (hends he).2.1, fun he => (hends he).2.2, ?_⟩
  intro hstopped
  by_contra hfires
  exact hquiet hstopped (firesCrashTimer_mem (by simpa using hfires))

theorem told_running (events : List Event) :
    (run Traced.next {} events).told = true →
      (run Traced.next {} events).controller.running = true := by
  apply run_invariant Traced.next (fun t => t.told = true → t.controller.running = true)
  · intro t e _ htold
    have hboth : ((t.controller.next e).running &&
        (t.told || e.callsStop t.controller)) = true := htold
    exact (Bool.and_eq_true_iff.mp hboth).1
  · nofun

theorem orderly_startTimer {t : Traced} (htold : t.told = true → t.controller.running = true)
    (i : ℕ) (l : Launch) : t.Orderly (.startTimer i l) := by
  refine ⟨nofun, fun exitCode hends hended => ?_⟩
  have hrunning : t.controller.running = true := by
    apply htold
    simp only [endsStopped, Bool.and_eq_true, Event.callsStop, Bool.or_false] at hends
    exact hends.1
  simp [endIn, endInStart, hrunning] at hended

theorem fires_of_mem {t : Traced} (hlength : t.byCrash.length = t.controller.startTimers.length)
    (h : true ∈ t.byCrash) (l : Launch) : ∃ i, t.firesCrashTimer (.startTimer i l) = true := by
  obtain ⟨i, hi, hget⟩ := List.getElem_of_mem h
  refine ⟨i, ?_⟩
  have hset : i < t.controller.startTimers.length := by omega
  simp [firesCrashTimer, step, hset, hi, hget]

theorem stopped_of_callsStop {t : Traced} {e : Event}
    (hcalls : e.callsStop t.controller = true) : (t.next e).stopped = true := by
  simp [next, hcalls]

theorem mem_byCrash_of_callsStop {t : Traced} {e : Event}
    (hcalls : e.callsStop t.controller = true) (h : true ∈ t.byCrash) :
    true ∈ (t.next e).byCrash := by
  simp only [next, List.mem_append]
  refine .inl (.inl ?_)
  cases e with
  | startTimer i l => cases hcalls
  | _ => exact h

end Traced

theorem OrderlyStops.quiet {events : List Event} (h : OrderlyStops events) :
    (run Traced.next {} events).Quiet := by
  induction events using List.reverseRecOn with
  | nil => nofun
  | append_singleton events e ih =>
    obtain ⟨hbefore, hstep⟩ := everyStep_snoc.mp h
    rw [run_snoc]
    exact hstep.next_quiet (ih hbefore)

theorem OrderlyStops.respected {events : List Event} (h : OrderlyStops events) :
    StopRespected events := by
  induction events using List.reverseRecOn with
  | nil => exact everyStep_nil
  | append_singleton events e ih =>
    obtain ⟨hbefore, hstep⟩ := everyStep_snoc.mp h
    exact everyStep_snoc.mpr ⟨ih hbefore, hstep.respects (OrderlyStops.quiet hbefore)⟩

theorem OrderlyStops.startTimer {events : List Event} (h : OrderlyStops events) (i : ℕ)
    (l : Launch) : OrderlyStops (events ++ [.startTimer i l]) :=
  everyStep_snoc.mpr ⟨h, Traced.orderly_startTimer (Traced.told_running events) i l⟩

/-- What `stop` has to undo and does not shows in the next timer. -/
theorem orderly_of_respected {events : List Event} {e : Event}
    (h : ∀ i l, StopRespected (events ++ [e] ++ [.startTimer i l])) :
    (run Traced.next {} events).Orderly e := by
  have hsteps := fun i l => everyStep_snoc.mp (h i l)
  constructor
  · intro hcalls hmem
    have hset := Traced.mem_byCrash_of_callsStop hcalls hmem
    rw [← run_snoc Traced.next] at hset
    have hlength := Traced.length_run (events ++ [e])
    rw [← Traced.run_controller] at hlength
    obtain ⟨i, hfires⟩ := Traced.fires_of_mem hlength hset launchedInTime
    have hstopped : (run Traced.next {} (events ++ [e])).stopped = true := by
      rw [run_snoc Traced.next]
      exact Traced.stopped_of_callsStop hcalls
    have hquiet := (hsteps i launchedInTime).2.timers hstopped
    rw [hquiet] at hfires
    cases hfires
  · intro exitCode hends
    obtain ⟨hbefore, -⟩ := hsteps 0 launchedInTime
    have hstep := (everyStep_snoc.mp hbefore).2
    have huncounted := (uncounted_iff _ e).mp
      ⟨hstep.crashLoop hends, hstep.count hends, hstep.startTimers hends⟩
    exact (counts_eq_false_iff _ _).mp huncounted exitCode

/-- Stops are respected in every run in which they are orderly. Where they are not, one is not
    respected, or will not be if a timer fires next. -/
theorem stop_respected_iff (events : List Event) :
    (OrderlyStops events → StopRespected events) ∧
    ((∀ pre, pre <+: events → ∀ i l, StopRespected (pre ++ [.startTimer i l])) ↔
      OrderlyStops events) := by
  refine ⟨OrderlyStops.respected, fun h pre e hpre => ?_, fun h pre hpre i l => ?_⟩
  · exact orderly_of_respected (h (pre ++ [e]) hpre)
  · have hpart : OrderlyStops pre := fun pre' e hpre' => h pre' e (hpre'.trans hpre)
    exact (hpart.startTimer i l).respected

/-- The process ends on the SIGTERM of `stop` and is started again. -/
theorem stopped_restarted : ¬ ∀ events, StopRespected events := by
  intro h
  have hrespects := h
    [.start launchedInTime, .stop (some (15, .crashExit)), .startTimer 0 launchedInTime]
    [.start launchedInTime, .stop (some (15, .crashExit))] (.startTimer 0 launchedInTime)
    List.prefix_rfl
  have hfires := hrespects.timers (by decide +kernel)
  revert hfires
  decide +kernel

end OpenAutoController

end SpeeduinoDash
