import SpeeduinoDash.OpenAutoState

set_option autoImplicit false

/-!
# After a crash loop has been reported

The report says that automatic restart is disabled. Nothing records it: the count starts over,
auto-start stays on and the timers that are set stay set.
-/
namespace SpeeduinoDash.OpenAutoController
open Lib.Runs

def Event.userStarts : Event → Bool
  | .start _ | .restart _ | .toggle _ _ => true
  | _ => false

def Event.seesPhone : Event → Bool
  | .usbCheck device _ | .scanForDevices device _ => device.isSome
  | _ => false

def timerFires (c : OpenAutoController) : Event → Bool
  | .startTimer i _ => decide (i < c.startTimers.length)
  | _ => false

def startsByItself (c : OpenAutoController) (e : Event) : Bool :=
  (c.step e).issued == some .timer || (c.step e).issued == some .usbCheck

theorem stop_issued (c : OpenAutoController) (ended : Option (ℤ × ExitStatus)) :
    (c.stop ended).issued = none := by
  obtain ⟨-, hstop⟩ | hstop | hended := c.stop_cases ended
  · rw [hstop]
  · rw [hstop]
  · exact hended.issued

theorem checkUsbDevices_issued {c : OpenAutoController} (h : c.Coherent)
    (device : Option (String × String)) (l : Launch) :
    (c.checkUsbDevices device l).issued =
      if device.isSome ∧ c.autoStart = true ∧ c.running = false then some .usbCheck else none := by
  obtain ⟨hrunning, -, hconnected, hautoStart, -⟩ := c.detect_frame device
  unfold checkUsbDevices
  dsimp only
  rw [hrunning, hconnected, hautoStart]
  by_cases hcheck : device.isSome ∧ c.autoStart = true ∧ c.running = false
  · obtain ⟨hdevice, hauto, hrun⟩ := hcheck
    rw [if_pos ⟨hdevice, (h.idle hrun).connected, hauto, hrun⟩, if_pos ⟨hdevice, hauto, hrun⟩]
  · rw [if_neg hcheck, if_neg]
    intro hall
    exact hcheck ⟨hall.1, hall.2.2⟩

theorem startsByItself_iff {c : OpenAutoController} (h : c.Coherent) (e : Event) :
    startsByItself c e = true ↔
      timerFires c e = true ∨ e.seesPhone = true ∧ c.autoStart = true ∧ c.running = false := by
  have hnothing : ∀ o : Outcome, o.issued = none →
      (o.issued == some .timer || o.issued == some .usbCheck) = false := by
    intro o ho
    rw [ho]
    rfl
  unfold startsByItself
  cases e with
  | processFinished exitCode status =>
    rw [step]
    split_ifs
    · rw [hnothing _ (onProcessFinished_ended c exitCode status).issued]
      simp [timerFires, Event.seesPhone]
    · simp [timerFires, Event.seesPhone]
  | startTimer i l =>
    rw [step]
    split_ifs with hset
    · simp [timerFires, hset]
    · simp [timerFires, hset, Event.seesPhone]
  | usbCheck device l =>
    rw [step, checkUsbDevices_issued h]
    split_ifs with hcheck
    · simpa [timerFires, Event.seesPhone] using hcheck
    · simpa [timerFires, Event.seesPhone] using hcheck
  | scanForDevices device l =>
    rw [step, checkUsbDevices_issued h]
    split_ifs with hcheck
    · simpa [timerFires, Event.seesPhone] using hcheck
    · simpa [timerFires, Event.seesPhone] using hcheck
  | start l => simp [step, timerFires, Event.seesPhone]
  | stop ended =>
    rw [step, hnothing _ (stop_issued c ended)]
    simp [timerFires, Event.seesPhone]
  | restart ended =>
    have hstop := stop_issued c ended
    simp [step, hstop, timerFires, Event.seesPhone]
  | toggle l ended =>
    rw [step]
    split_ifs
    · rw [hnothing _ (stop_issued c ended)]
      simp [timerFires, Event.seesPhone]
    · simp [timerFires, Event.seesPhone]
  | _ => simp [step, timerFires, Event.seesPhone]

/-- `e` reports a crash loop, and from there to `f` the user does not start OpenAuto. -/
structure Window (events pre : List Event) (e : Event) (mid : List Event) (f : Event) : Prop where
  run : pre ++ e :: mid ++ [f] <+: events
  reported : ((after pre).step e).crashLoop = true
  handsOff : ∀ g ∈ mid ++ [f], g.userStarts = false

def LockoutHolds (events : List Event) : Prop :=
  ∀ pre e mid f, Window events pre e mid f → startsByItself (after (pre ++ e :: mid)) f = false

/-- No timer that is set fires, and no USB check sees a phone with auto-start on and OpenAuto
    down. -/
def Undisturbed (events : List Event) : Prop :=
  ∀ pre e mid f, Window events pre e mid f →
    timerFires (after (pre ++ e :: mid)) f = false ∧
    (f.seesPhone = true → (after (pre ++ e :: mid)).autoStart = false ∨
      (after (pre ++ e :: mid)).running = true)

/-- A report from the end of the process itself, or from `stop`: not from within a `start`. -/
def Event.endsProcess : Event → Bool
  | .processFinished _ _ | .stop _ => true
  | _ => false

def Event.setsAutoStart (autoStart : Bool) : Event → Bool
  | .setAutoStart autoStart' => autoStart'
  | _ => autoStart

def autoStartAfter (mid : List Event) : Bool := mid.foldl Event.setsAutoStart true

theorem after_snoc (events : List Event) (e : Event) :
    after (events ++ [e]) = (after events).next e := run_snoc ..

structure Down (autoStart : Bool) (startTimers : List ℕ) (c : OpenAutoController) : Prop where
  process : c.process = .notRunning
  running : c.running = false
  connected : c.connected = false
  autoStart : c.autoStart = autoStart
  startTimers : c.startTimers = startTimers

theorem Ended.down {c : OpenAutoController} {o : Outcome} (h : Ended c o)
    (hloop : o.crashLoop = true) : Down true c.startTimers o.controller := by
  obtain ⟨hauto, htimers⟩ := h.reported hloop
  exact ⟨h.process, h.running, h.connected, h.autoStart.trans hauto, htimers⟩

theorem down_of_report {c : OpenAutoController} {e : Event} (he : e.endsProcess = true)
    (hloop : (c.step e).crashLoop = true) : Down true c.startTimers (c.next e) := by
  unfold next
  cases e with
  | processFinished exitCode status =>
    rw [step] at hloop ⊢
    split_ifs at hloop ⊢
    exact (onProcessFinished_ended c exitCode status).down hloop
  | stop ended =>
    rw [step] at hloop ⊢
    obtain ⟨-, hstop⟩ | hstop | hended := c.stop_cases ended
    · rw [hstop] at hloop
      cases hloop
    · rw [hstop] at hloop
      cases hloop
    · exact hended.down hloop
  | _ => cases he

theorem down_checkUsbDevices {autoStart : Bool} {timers : List ℕ} {c : OpenAutoController}
    (h : Down autoStart timers c) {device : Option (String × String)} {l : Launch}
    (hnone : (c.checkUsbDevices device l).issued ≠ some .usbCheck) :
    Down autoStart timers (c.checkUsbDevices device l).controller := by
  obtain ⟨hrunning, hprocess, hconnected, hautoStart, htimers⟩ := c.detect_frame device
  unfold checkUsbDevices at hnone ⊢
  dsimp only at hnone ⊢
  split_ifs at hnone ⊢
  · exact absurd rfl hnone
  · exact ⟨hprocess.trans h.process, hrunning.trans h.running, hconnected.trans h.connected,
      hautoStart.trans h.autoStart, htimers.trans h.startTimers⟩

theorem Down.next {autoStart : Bool} {timers : List ℕ} {c : OpenAutoController}
    (h : Down autoStart timers c) {g : Event} (huser : g.userStarts = false)
    (hself : startsByItself c g = false) : Down (g.setsAutoStart autoStart) timers (c.next g) := by
  unfold OpenAutoController.next
  cases g with
  | processStarted =>
    have hprocess : c.process ≠ .starting := by simp [h.process]
    simpa [step, hprocess, Event.setsAutoStart] using h
  | processFinished exitCode status =>
    have hprocess : c.process ≠ .running := by simp [h.process]
    simpa [step, hprocess, Event.setsAutoStart] using h
  | processFailedToStart =>
    have hprocess : c.process ≠ .starting := by simp [h.process]
    simpa [step, hprocess, Event.setsAutoStart] using h
  | processError error => exact ⟨h.process, h.running, h.connected, h.autoStart, h.startTimers⟩
  | output output =>
    have hprocess : c.process ≠ .running := by simp [h.process]
    simpa [step, hprocess, Event.setsAutoStart] using h
  | startTimer i l =>
    rw [step]
    split_ifs with hset
    · simp [startsByItself, step, hset] at hself
    · exact h
  | stabilityTimer =>
    rw [step]
    dsimp only [onStabilityCheck, resetCrashes]
    split_ifs <;> exact ⟨h.process, h.running, h.connected, h.autoStart, h.startTimers⟩
  | usbCheck device l =>
    apply down_checkUsbDevices h
    intro hissued
    simp [startsByItself, step, hissued] at hself
  | scanForDevices device l =>
    apply down_checkUsbDevices h
    intro hissued
    simp [startsByItself, step, hissued] at hself
  | stop ended =>
    have hstop : c.stop ended = ⟨c, false, none⟩ := if_pos h.running
    rw [step, hstop]
    exact h
  | setAutoStart autoStart' => exact ⟨h.process, h.running, h.connected, rfl, h.startTimers⟩
  | _ => cases huser

theorem lockout_down {events pre mid : List Event} {e f : Event} (hholds : LockoutHolds events)
    (hwindow : Window events pre e mid f) (he : e.endsProcess = true) :
    Down (autoStartAfter mid) (after pre).startTimers (after (pre ++ e :: mid)) := by
  induction mid using List.reverseRecOn generalizing f with
  | nil =>
    have hdown := down_of_report he hwindow.reported
    rw [after_snoc]
    exact hdown
  | append_singleton mid g ih =>
    have hearlier : Window events pre e mid g := by
      refine ⟨?_, hwindow.reported, fun g' hmem => ?_⟩
      · have hrun := hwindow.run
        rw [← List.cons_append, ← List.append_assoc, List.append_assoc _ [g]] at hrun
        exact (List.prefix_append_right_inj _ |>.mpr (List.prefix_append [g] [f])).trans hrun
      · exact hwindow.handsOff g' (List.mem_append_left _ hmem)
    have hdown := ih hearlier
    have huser := hwindow.handsOff g (by simp)
    have hnext := hdown.next huser (hholds pre e mid g hearlier)
    rw [← List.cons_append, ← List.append_assoc, after_snoc, autoStartAfter, List.foldl_append]
    exact hnext

/-- The lockout holds exactly where it is undisturbed. After a report from the end of the process
    OpenAuto is down all through it, with the timers that were set before and auto-start as it was
    set last. -/
theorem lockout_holds_iff (events : List Event) :
    (LockoutHolds events ↔ Undisturbed events) ∧
    (LockoutHolds events → ∀ pre e mid f, Window events pre e mid f → e.endsProcess = true →
      Down (autoStartAfter mid) (after pre).startTimers (after (pre ++ e :: mid))) := by
  constructor
  · apply forall₄_congr
    intro pre e mid f
    apply imp_congr_right
    intro _
    have hself := startsByItself_iff (after_coherent (pre ++ e :: mid)) f
    rw [← Bool.not_eq_true, hself, not_or, Bool.not_eq_true]
    apply and_congr_right
    intro _
    rw [not_and, not_and_or, Bool.not_eq_true, Bool.not_eq_false]
  · intro hholds pre e mid f hwindow he
    exact lockout_down hholds hwindow he

def launchedInTime : Launch := ⟨fun _ => true, "/home/pi", .outlives, .inTime⟩

def fourCrashes : List Event :=
  [.start launchedInTime, .processFinished 1 .crashExit, .startTimer 0 launchedInTime,
    .processFinished 1 .crashExit, .startTimer 0 launchedInTime, .processFinished 1 .crashExit,
    .startTimer 0 launchedInTime]

/-- The next USB check that sees a phone starts OpenAuto again. -/
theorem started_after_report : ¬ ∀ events, LockoutHolds events := by
  intro h
  have hwindow : Window
      (fourCrashes ++ [.processFinished 1 .crashExit] ++
        [.usbCheck (some ("/dev", "Pixel")) launchedInTime])
      fourCrashes (.processFinished 1 .crashExit) []
      (.usbCheck (some ("/dev", "Pixel")) launchedInTime) := by
    refine ⟨List.prefix_rfl, by decide +kernel, fun g hmem => ?_⟩
    rw [List.nil_append, List.mem_singleton] at hmem
    rw [hmem]
    rfl
  have hstarted := h _ _ _ _ _ hwindow
  revert hstarted
  decide +kernel

end SpeeduinoDash.OpenAutoController
