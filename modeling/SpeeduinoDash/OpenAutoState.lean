import SpeeduinoDash.OpenAutoController

set_option autoImplicit false

/-!
# The controller and its process

The controller keeps its own flags beside the state of the process, and they agree.
-/
namespace SpeeduinoDash.OpenAutoController
open Lib.Runs

/-- `m_running` follows the process, and a phone is connected to a running process only. -/
structure Coherent (c : OpenAutoController) : Prop where
  running : c.running = true ↔ c.process = .running
  connected : c.connected = true → c.running = true

structure Idle (c : OpenAutoController) : Prop where
  running : c.running = false
  connected : c.connected = false
  process : c.process ≠ .running

theorem Idle.coherent {c : OpenAutoController} (h : c.Idle) : c.Coherent := by
  obtain ⟨hrunning, hconnected, hprocess⟩ := h
  constructor
  · rw [hrunning]
    exact iff_of_false nofun hprocess
  · rw [hconnected]
    nofun

theorem Coherent.idle {c : OpenAutoController} (h : c.Coherent) (hrunning : c.running = false) :
    c.Idle := by
  refine ⟨hrunning, ?_, ?_⟩
  · by_contra hconnected
    have := h.connected (by simpa using hconnected)
    simp [hrunning] at this
  · intro hprocess
    have := h.running.mpr hprocess
    simp [hrunning] at this

theorem setConnected_false (c : OpenAutoController) : (c.setConnected false).connected = false := by
  unfold setConnected
  split_ifs <;> simp_all

theorem setConnected_frame (c : OpenAutoController) (connected : Bool) :
    (c.setConnected connected).running = c.running ∧
    (c.setConnected connected).process = c.process ∧
    (c.setConnected connected).autoStart = c.autoStart ∧
    (c.setConnected connected).startTimers = c.startTimers := by
  unfold setConnected
  split_ifs <;> exact ⟨rfl, rfl, rfl, rfl⟩

structure Ended (c : OpenAutoController) (o : Outcome) : Prop where
  running : o.controller.running = false
  connected : o.controller.connected = false
  process : o.controller.process = .notRunning
  autoStart : o.controller.autoStart = c.autoStart
  reported : o.crashLoop = true → c.autoStart = true ∧ o.controller.startTimers = c.startTimers
  issued : o.issued = none

theorem Ended.idle {c : OpenAutoController} {o : Outcome} (h : Ended c o) : o.controller.Idle :=
  ⟨h.running, h.connected, by simp [h.process]⟩

theorem onProcessFinished_ended (c : OpenAutoController) (exitCode : ℤ) (status : ExitStatus) :
    Ended c (c.onProcessFinished exitCode status) := by
  have hconnected := setConnected_false { c with process := .notRunning, running := false }
  obtain ⟨hrunning, hprocess, hautoStart, htimers⟩ :=
    setConnected_frame { c with process := .notRunning, running := false } false
  unfold onProcessFinished
  generalize setConnected { c with process := .notRunning, running := false } false = d at *
  cases status with
  | normalExit => exact ⟨hrunning, hconnected, hprocess, hautoStart, nofun, rfl⟩
  | crashExit =>
    dsimp only
    split_ifs with hauto hmany
    · exact ⟨hrunning, hconnected, hprocess, hautoStart, fun _ => ⟨hauto, htimers⟩, rfl⟩
    · exact ⟨hrunning, hconnected, hprocess, hautoStart, nofun, rfl⟩
    · exact ⟨hrunning, hconnected, hprocess, hautoStart, nofun, rfl⟩

theorem onProcessStarted_coherent (c : OpenAutoController) : c.onProcessStarted.Coherent :=
  ⟨iff_of_true rfl rfl, fun _ => rfl⟩

theorem launch_coherent {c : OpenAutoController} (h : c.Idle) (launched : Launched) :
    (c.launch launched).Coherent := by
  cases launched with
  | inTime => exact onProcessStarted_coherent _
  | failed => exact Idle.coherent ⟨h.running, h.connected, nofun⟩
  | late => exact Idle.coherent ⟨h.running, h.connected, nofun⟩

theorem killStarting_idle {c : OpenAutoController} (h : c.Idle) (killed : Killed) :
    (c.killStarting killed).controller.Idle := by
  unfold killStarting
  split_ifs
  · exact h
  · cases killed with
    | outlives => exact h
    | failsToStart => exact ⟨h.running, h.connected, nofun⟩
    | startsAndDies exitCode status =>
      exact (onProcessFinished_ended c.onProcessStarted exitCode status).idle

theorem start_coherent {c : OpenAutoController} (h : c.Coherent) (l : Launch) :
    (c.start l).controller.Coherent := by
  unfold start
  split_ifs with hrunning
  · exact h
  · have hidle : c.Idle := h.idle (by simpa using hrunning)
    dsimp only
    split
    · exact Idle.coherent ⟨hidle.running, hidle.connected, hidle.process⟩
    · apply launch_coherent
      apply killStarting_idle
      exact ⟨hidle.running, hidle.connected, hidle.process⟩

theorem stop_cases (c : OpenAutoController) (ended : Option (ℤ × ExitStatus)) :
    (c.running = false ∧ c.stop ended = ⟨c, false, none⟩) ∨
    c.stop ended = ⟨c.setConnected false, false, none⟩ ∨ Ended c (c.stop ended) := by
  unfold stop
  split_ifs with hrunning
  · exact .inl ⟨hrunning, rfl⟩
  · cases ended with
    | none => exact .inr (.inl rfl)
    | some ended =>
      obtain ⟨exitCode, status⟩ := ended
      have h := onProcessFinished_ended c exitCode status
      have hframe := setConnected_frame (c.onProcessFinished exitCode status).controller false
      have hconnected := setConnected_false (c.onProcessFinished exitCode status).controller
      obtain ⟨hrun, hprocess, hautoStart, htimers⟩ := hframe
      refine .inr (.inr ⟨hrun.trans h.running, hconnected, hprocess.trans h.process,
        hautoStart.trans h.autoStart, fun hloop => ?_, h.issued⟩)
      obtain ⟨hauto, hsame⟩ := h.reported hloop
      exact ⟨hauto, htimers.trans hsame⟩

theorem stop_coherent {c : OpenAutoController} (h : c.Coherent)
    (ended : Option (ℤ × ExitStatus)) : (c.stop ended).controller.Coherent := by
  obtain ⟨-, hstop⟩ | hstop | hended := c.stop_cases ended
  · rw [hstop]
    exact h
  · rw [hstop]
    obtain ⟨hrunning, hprocess, -, -⟩ := setConnected_frame c false
    constructor
    · rw [hrunning, hprocess]
      exact h.running
    · rw [setConnected_false]
      nofun
  · exact hended.idle.coherent

theorem detect_frame (c : OpenAutoController) (device : Option (String × String)) :
    (c.detectAndroidAutoDevice device).running = c.running ∧
    (c.detectAndroidAutoDevice device).process = c.process ∧
    (c.detectAndroidAutoDevice device).connected = c.connected ∧
    (c.detectAndroidAutoDevice device).autoStart = c.autoStart ∧
    (c.detectAndroidAutoDevice device).startTimers = c.startTimers := by
  cases device <;> exact ⟨rfl, rfl, rfl, rfl, rfl⟩

theorem checkUsbDevices_coherent {c : OpenAutoController} (h : c.Coherent)
    (device : Option (String × String)) (l : Launch) :
    (c.checkUsbDevices device l).controller.Coherent := by
  have hdetect : (c.detectAndroidAutoDevice device).Coherent := by
    obtain ⟨hrunning, hprocess, hconnected, -, -⟩ := c.detect_frame device
    constructor
    · rw [hrunning, hprocess]
      exact h.running
    · rw [hrunning, hconnected]
      exact h.connected
  unfold checkUsbDevices
  dsimp only
  split_ifs
  · exact start_coherent hdetect l
  · exact hdetect

theorem output_coherent {c : OpenAutoController} (hrunning : c.running = true)
    (hprocess : c.process = .running) (output : Output) :
    (c.onReadyReadStdout output).Coherent := by
  have hset : ∀ connected, (c.setConnected connected).Coherent := by
    intro connected
    obtain ⟨hrun, hproc, -, -⟩ := setConnected_frame c connected
    exact ⟨iff_of_true (hrun.trans hrunning) (hproc.trans hprocess), fun _ => hrun.trans hrunning⟩
  cases output with
  | phoneConnected => exact ⟨(hset true).running, (hset true).connected⟩
  | phoneDisconnected => exact hset false
  | wireless => exact ⟨iff_of_true hrunning hprocess, fun _ => hrunning⟩
  | other => exact ⟨iff_of_true hrunning hprocess, fun _ => hrunning⟩

theorem next_coherent (c : OpenAutoController) (e : Event) (h : c.Coherent) :
    (c.next e).Coherent := by
  unfold next
  cases e with
  | processStarted =>
    rw [step]
    dsimp only
    split_ifs
    · exact onProcessStarted_coherent c
    · exact h
  | processFinished exitCode status =>
    rw [step]
    split_ifs
    · exact (onProcessFinished_ended c exitCode status).idle.coherent
    · exact h
  | processFailedToStart =>
    rw [step]
    dsimp only
    split_ifs with hstarting
    · have hrunning : c.running = false := by
        by_contra hrun
        have hproc := h.running.mp (by simpa using hrun)
        rw [hstarting] at hproc
        cases hproc
      have hidle := h.idle hrunning
      exact Idle.coherent ⟨hidle.running, hidle.connected, nofun⟩
    · exact h
  | processError error => exact ⟨h.running, h.connected⟩
  | output output =>
    rw [step]
    dsimp only
    split_ifs with hprocess
    · exact output_coherent (h.running.mpr hprocess) hprocess output
    · exact h
  | startTimer i l =>
    rw [step]
    split_ifs
    · have hfewer : { c with startTimers := c.startTimers.eraseIdx i }.Coherent :=
        ⟨h.running, h.connected⟩
      exact start_coherent hfewer l
    · exact h
  | stabilityTimer =>
    rw [step]
    dsimp only [onStabilityCheck, resetCrashes]
    split_ifs <;> exact ⟨h.running, h.connected⟩
  | usbCheck device l => exact checkUsbDevices_coherent h device l
  | start l => exact start_coherent h l
  | stop ended => exact stop_coherent h ended
  | restart ended =>
    have hstop := stop_coherent h ended
    exact ⟨hstop.running, hstop.connected⟩
  | toggle l ended =>
    rw [step]
    split_ifs
    · exact stop_coherent h ended
    · exact start_coherent h l
  | scanForDevices device l => exact checkUsbDevices_coherent h device l
  | setAutoStart autoStart => exact ⟨h.running, h.connected⟩

theorem after_coherent (events : List Event) : (after events).Coherent := by
  apply run_invariant next Coherent next_coherent
  exact ⟨by decide, by decide⟩

end SpeeduinoDash.OpenAutoController
