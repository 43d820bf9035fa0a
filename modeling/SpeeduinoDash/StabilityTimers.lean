import Mathlib.Order.Nat
import SpeeduinoDash.OpenAutoController

set_option autoImplicit false

/-!
# Whose stability timer it is

Every process that comes up arms a timer that will ask whether OpenAuto is running. The answer is
about the process that is running then, and nothing stops the timers of the ones before it.
-/
namespace SpeeduinoDash
open Lib.Runs

def processStabilityCheckMs : ℕ := 5000

namespace OpenAutoController

/-- From `c` to `d` no stability timer fires, and whoever was not running came up. -/
structure Grows (c d : OpenAutoController) : Prop where
  timers : c.stabilityTimers ≤ d.stabilityTimers
  cameUp : d.running = true → c.running = true ∨ c.stabilityTimers < d.stabilityTimers

theorem Grows.refl (c : OpenAutoController) : Grows c c := ⟨Nat.le_refl _, .inl⟩

theorem Grows.trans {c d e : OpenAutoController} (hcd : Grows c d) (hde : Grows d e) :
    Grows c e := by
  refine ⟨hcd.timers.trans hde.timers, fun hrunning => ?_⟩
  rcases hde.cameUp hrunning with hd | hmore
  · rcases hcd.cameUp hd with hc | hmore
    · exact .inl hc
    · exact .inr (hmore.trans_le hde.timers)
  · exact .inr (hcd.timers.trans_lt hmore)

theorem Grows.of_same {c d : OpenAutoController} (htimers : d.stabilityTimers = c.stabilityTimers)
    (hrunning : d.running = true → c.running = true) : Grows c d :=
  ⟨htimers.ge, fun h => .inl (hrunning h)⟩

theorem setConnected_grows (c : OpenAutoController) (connected : Bool) :
    Grows c (c.setConnected connected) := by
  unfold setConnected
  split_ifs
  · exact .refl c
  · exact .of_same rfl id
  · exact .of_same rfl id

theorem onProcessStarted_grows (c : OpenAutoController) : Grows c c.onProcessStarted :=
  ⟨Nat.le_succ _, fun _ => .inr (Nat.lt_succ_self _)⟩

theorem onProcessFinished_grows (c : OpenAutoController) (exitCode : ℤ) (status : ExitStatus) :
    Grows c (c.onProcessFinished exitCode status).controller := by
  have hended : Grows c { c with process := .notRunning, running := false } := .of_same rfl nofun
  have hset := hended.trans (setConnected_grows _ false)
  unfold onProcessFinished
  generalize setConnected { c with process := .notRunning, running := false } false = d at hset
  refine hset.trans ?_
  cases status with
  | normalExit => exact .of_same rfl id
  | crashExit =>
    dsimp only
    split_ifs <;> exact .of_same rfl id

theorem killStarting_grows (c : OpenAutoController) (killed : Killed) :
    Grows c (c.killStarting killed).controller := by
  unfold killStarting
  split_ifs
  · exact .refl c
  · cases killed with
    | outlives => exact .refl c
    | failsToStart => exact .of_same rfl id
    | startsAndDies exitCode status =>
      exact (onProcessStarted_grows c).trans (onProcessFinished_grows _ exitCode status)

theorem launch_grows (c : OpenAutoController) (launched : Launched) :
    Grows c (c.launch launched) := by
  cases launched with
  | inTime => exact onProcessStarted_grows _
  | failed => exact .of_same rfl id
  | late => exact .of_same rfl id

theorem start_grows (c : OpenAutoController) (l : Launch) : Grows c (c.start l).controller := by
  unfold start
  split_ifs
  · exact .refl c
  · dsimp only
    split
    · exact .of_same rfl id
    · rename_i path _
      have hfound : Grows c { c with errorMessage := "", executablePath := path } :=
        .of_same rfl id
      exact (hfound.trans (killStarting_grows _ _)).trans (launch_grows _ _)

theorem stop_grows (c : OpenAutoController) (ended : Option (ℤ × ExitStatus)) :
    Grows c (c.stop ended).controller := by
  unfold stop
  split_ifs
  · exact .refl c
  · cases ended with
    | none => exact setConnected_grows c false
    | some ended => exact (onProcessFinished_grows c _ _).trans (setConnected_grows _ false)

theorem checkUsbDevices_grows (c : OpenAutoController) (device : Option (String × String))
    (l : Launch) : Grows c (c.checkUsbDevices device l).controller := by
  have hdetect : Grows c (c.detectAndroidAutoDevice device) := by
    cases device <;> exact .of_same rfl id
  unfold checkUsbDevices
  dsimp only
  split_ifs
  · exact hdetect.trans (start_grows _ l)
  · exact hdetect

theorem onReadyReadStdout_grows (c : OpenAutoController) (output : Output) :
    Grows c (c.onReadyReadStdout output) := by
  cases output with
  | phoneConnected =>
    have hsame : Grows (c.setConnected true) { c.setConnected true with connectionType := "USB" } :=
      .of_same rfl id
    exact (setConnected_grows c true).trans hsame
  | phoneDisconnected => exact setConnected_grows c false
  | wireless => exact .of_same rfl id
  | other => exact .refl c

theorem next_grows (c : OpenAutoController) {e : Event} (he : e ≠ .stabilityTimer) :
    Grows c (c.next e) := by
  unfold next
  cases e with
  | processStarted =>
    rw [step]
    dsimp only
    split_ifs
    · exact onProcessStarted_grows c
    · exact .refl c
  | processFinished exitCode status =>
    rw [step]
    split_ifs
    · exact onProcessFinished_grows c exitCode status
    · exact .refl c
  | processFailedToStart =>
    rw [step]
    dsimp only
    split_ifs <;> exact .of_same rfl id
  | processError error => exact .of_same rfl id
  | output output =>
    rw [step]
    dsimp only
    split_ifs
    · exact onReadyReadStdout_grows c output
    · exact .refl c
  | startTimer i l =>
    rw [step]
    split_ifs
    · have hfewer : Grows c { c with startTimers := c.startTimers.eraseIdx i } := .of_same rfl id
      exact hfewer.trans (start_grows _ l)
    · exact .refl c
  | stabilityTimer => exact absurd rfl he
  | usbCheck device l => exact checkUsbDevices_grows c device l
  | start l => exact start_grows c l
  | stop ended => exact stop_grows c ended
  | restart ended =>
    obtain ⟨htimers, hcameUp⟩ := stop_grows c ended
    exact ⟨htimers, hcameUp⟩
  | toggle l ended =>
    rw [step]
    split_ifs
    · exact stop_grows c ended
    · exact start_grows c l
  | scanForDevices device l => exact checkUsbDevices_grows c device l
  | setAutoStart autoStart => exact .of_same rfl id

theorem stabilityTimer_running (c : OpenAutoController) :
    (c.next .stabilityTimer).running = c.running := by
  rw [next, step]
  dsimp only [onStabilityCheck, resetCrashes]
  split_ifs <;> rfl

theorem next_stabilityTimer {c : OpenAutoController} (h : 0 < c.stabilityTimers) :
    c.next .stabilityTimer = c.onStabilityCheck := if_pos h

theorem stabilityTimers_onStabilityCheck (c : OpenAutoController) :
    c.onStabilityCheck.stabilityTimers = c.stabilityTimers - 1 := by
  dsimp only [onStabilityCheck, resetCrashes]
  split_ifs <;> rfl

end OpenAutoController

open OpenAutoController (Event)

structure StabilityTimer where
  instance_ : ℕ
  armed : ℕ
deriving DecidableEq

/-- The controller with the timers it has counted only: who armed them and when. `instances` is
    how many processes have come up, `upSince` since when the one that is running runs. -/
structure TimedController where
  controller : OpenAutoController := {}
  instances : ℕ := 0
  upSince : Option ℕ := none
  timers : List StabilityTimer := []

/-- `which` is the stability timer that fires, where the event is that one does. A call that waits
    is over at `time`. -/
structure TimedEvent where
  time : ℕ
  event : Event
  which : ℕ := 0

namespace TimedController

def fired (s : TimedController) (t : TimedEvent) : Option StabilityTimer :=
  match t.event with
  | .stabilityTimer => s.timers[t.which]?.filter (·.armed + processStabilityCheckMs ≤ t.time)
  | _ => none

def started (s : TimedController) (e : Event) : ℕ :=
  (s.controller.next e).stabilityTimers - s.controller.stabilityTimers

def step (s : TimedController) (t : TimedEvent) : TimedController :=
  match t.event with
  | .stabilityTimer =>
    if (s.fired t).isSome then
      { s with
        controller := s.controller.next .stabilityTimer
        timers := s.timers.eraseIdx t.which }
    else s
  | e =>
    { controller := s.controller.next e
      instances := s.instances + s.started e
      upSince :=
        if (s.controller.next e).running then
          if s.started e = 0 then s.upSince else some t.time
        else none
      timers :=
        s.timers ++ (List.range (s.started e)).map fun k => ⟨s.instances + k + 1, t.time⟩ }

def after (events : List TimedEvent) : TimedController := run step {} events

/-- A stability timer that resets the crashes is that of the process that is running, which has
    run ever since for long enough. -/
def ResetByOwn (s : TimedController) (t : TimedEvent) : Prop :=
  ∀ timer, s.fired t = some timer → s.controller.running = true →
    timer.instance_ = s.instances ∧
      ∃ since, s.upSince = some since ∧ since + processStabilityCheckMs ≤ t.time

/-- A process that stays up finds no stability timer set, and it is the only one to come up. -/
def OnlyOne (s : TimedController) (t : TimedEvent) : Prop :=
  t.event ≠ .stabilityTimer → (s.controller.next t.event).running = true →
    s.started t.event ≠ 0 → s.timers = [] ∧ s.started t.event = 1

theorem step_of_ne {s : TimedController} {t : TimedEvent} (ht : t.event ≠ .stabilityTimer) :
    s.step t =
      { controller := s.controller.next t.event
        instances := s.instances + s.started t.event
        upSince :=
          if (s.controller.next t.event).running then
            if s.started t.event = 0 then s.upSince else some t.time
          else none
        timers :=
          s.timers ++
            (List.range (s.started t.event)).map fun k => ⟨s.instances + k + 1, t.time⟩ } := by
  obtain ⟨time, event, which⟩ := t
  cases event with
  | stabilityTimer => exact absurd rfl ht
  | _ => rfl

/-- Where a stability timer would fire, it does or nothing happens. -/
theorem step_stabilityTimer (s : TimedController) (time which : ℕ) :
    (s.step ⟨time, .stabilityTimer, which⟩ = s ∧ s.fired ⟨time, .stabilityTimer, which⟩ = none) ∨
    (∃ timer, s.fired ⟨time, .stabilityTimer, which⟩ = some timer ∧
      s.timers[which]? = some timer ∧ timer.armed + processStabilityCheckMs ≤ time ∧
      s.step ⟨time, .stabilityTimer, which⟩ =
        { s with
          controller := s.controller.next .stabilityTimer
          timers := s.timers.eraseIdx which }) := by
  cases hfired : s.fired ⟨time, .stabilityTimer, which⟩ with
  | none => exact .inl ⟨by simp [step, hfired], rfl⟩
  | some timer =>
    have hset := hfired
    rw [fired, Option.filter_eq_some_iff, decide_eq_true_eq] at hset
    exact .inr ⟨timer, rfl, hset.1, hset.2, by simp [step, hfired]⟩

structure Counted (s : TimedController) : Prop where
  length : s.timers.length = s.controller.stabilityTimers
  numbered : ∀ timer ∈ s.timers, timer.instance_ ≤ s.instances

theorem Counted.set {s : TimedController} (h : s.Counted) {which : ℕ} {timer : StabilityTimer}
    (hwhich : s.timers[which]? = some timer) :
    which < s.timers.length ∧ 0 < s.controller.stabilityTimers := by
  obtain ⟨hlt, -⟩ := List.getElem?_eq_some_iff.mp hwhich
  refine ⟨hlt, ?_⟩
  rw [← h.length]
  exact Nat.zero_lt_of_lt hlt

theorem Counted.fire {s : TimedController} (h : s.Counted) (time which : ℕ) :
    (s.step ⟨time, .stabilityTimer, which⟩).Counted := by
  obtain ⟨hstep, -⟩ | ⟨timer, -, hwhich, -, hstep⟩ := s.step_stabilityTimer time which
  · rw [hstep]
    exact h
  · obtain ⟨hlt, hpos⟩ := h.set hwhich
    rw [hstep, OpenAutoController.next_stabilityTimer hpos]
    constructor
    · dsimp only
      rw [List.length_eraseIdx_of_lt hlt, h.length,
        OpenAutoController.stabilityTimers_onStabilityCheck]
    · intro other hmem
      exact h.numbered other (List.mem_of_mem_eraseIdx hmem)

theorem Counted.grow {s : TimedController} (h : s.Counted) {t : TimedEvent}
    (ht : t.event ≠ .stabilityTimer) : (s.step t).Counted := by
  rw [step_of_ne ht]
  constructor
  · have hlength := h.length
    have hmore := (OpenAutoController.next_grows s.controller ht).timers
    simp only [List.length_append, List.length_map, List.length_range, started]
    omega
  · intro timer hmem
    rcases List.mem_append.mp hmem with hold | hnew
    · exact (h.numbered timer hold).trans (Nat.le_add_right _ _)
    · obtain ⟨k, hk, rfl⟩ := List.mem_map.mp hnew
      have hlt := List.mem_range.mp hk
      dsimp only
      omega

theorem step_counted (s : TimedController) (t : TimedEvent) (h : s.Counted) :
    (s.step t).Counted := by
  by_cases ht : t.event = .stabilityTimer
  · obtain ⟨time, event, which⟩ := t
    subst ht
    exact h.fire time which
  · exact h.grow ht

theorem after_counted (events : List TimedEvent) : (after events).Counted := by
  apply run_invariant step Counted step_counted
  exact ⟨rfl, nofun⟩

theorem fired_next {s : TimedController} {t : TimedEvent} {timer : StabilityTimer}
    (h : s.Counted) (hfired : s.fired t = some timer) :
    (s.step t).controller = s.controller.onStabilityCheck := by
  obtain ⟨time, event, which⟩ := t
  cases event with
  | stabilityTimer =>
    obtain ⟨-, hnone⟩ | ⟨_, -, hwhich, -, hstep⟩ := s.step_stabilityTimer time which
    · rw [hnone] at hfired
      cases hfired
    · rw [hstep]
      exact OpenAutoController.next_stabilityTimer (h.set hwhich).2
  | _ => cases hfired

/-- While OpenAuto runs, the only stability timers are its own. -/
def OnlyOwn (s : TimedController) : Prop :=
  s.controller.running = true →
    ∃ since, s.upSince = some since ∧ ∀ timer ∈ s.timers, timer = ⟨s.instances, since⟩

theorem OnlyOwn.step {s : TimedController} {t : TimedEvent} (h : s.OnlyOwn) (ht : s.OnlyOne t) :
    (s.step t).OnlyOwn := by
  by_cases hevent : t.event = .stabilityTimer
  · obtain ⟨time, event, which⟩ := t
    subst hevent
    obtain ⟨hstep, -⟩ | ⟨-, -, -, -, hstep⟩ := s.step_stabilityTimer time which
    · rw [hstep]
      exact h
    · rw [hstep]
      intro hrunning
      rw [OpenAutoController.stabilityTimer_running] at hrunning
      obtain ⟨since, hsince, hown⟩ := h hrunning
      exact ⟨since, hsince, fun timer hmem => hown timer (List.mem_of_mem_eraseIdx hmem)⟩
  · rw [step_of_ne hevent]
    intro hrunning
    have hafter : (s.controller.next t.event).running = true := hrunning
    by_cases hstarted : s.started t.event = 0
    · -- nothing came up, so it was running before
      have hbefore : s.controller.running = true := by
        rcases (OpenAutoController.next_grows s.controller hevent).cameUp hafter with hb | hmore
        · exact hb
        · rw [started] at hstarted
          omega
      obtain ⟨since, hsince, hown⟩ := h hbefore
      exact ⟨since, by simp [hafter, hstarted, hsince], by simpa [hstarted] using hown⟩
    · obtain ⟨hnone, hone⟩ := ht hevent hafter hstarted
      exact ⟨t.time, by simp [hafter, hone], by simp [hnone, hone]⟩

theorem OnlyOwn.resetByOwn {s : TimedController} (h : s.OnlyOwn) (t : TimedEvent) :
    s.ResetByOwn t := by
  intro timer hfired hrunning
  obtain ⟨since, hsince, hown⟩ := h hrunning
  obtain ⟨time, event, which⟩ := t
  cases event with
  | stabilityTimer =>
    rw [fired, Option.filter_eq_some_iff, decide_eq_true_eq] at hfired
    obtain ⟨hwhich, htime⟩ := hfired
    obtain rfl := hown timer (List.mem_of_getElem? hwhich)
    exact ⟨rfl, since, hsince, htime⟩
  | _ => cases hfired

theorem after_onlyOwn {events : List TimedEvent} (h : EveryStep step OnlyOne {} events) :
    (after events).OnlyOwn := by
  apply run_history step (fun _ s => s.OnlyOwn) (fun hrunning => by cases hrunning)
  intro pre t hpre hown
  exact hown.step (h pre t hpre)

/-- After a step that breaks the rule, an earlier process's timer is set while another one runs. -/
theorem foreign_of_not_onlyOne {s : TimedController} {t : TimedEvent} (hcounted : s.Counted)
    (h : ¬ s.OnlyOne t) :
    (s.step t).controller.running = true ∧
      ∃ timer, (s.step t).timers[0]? = some timer ∧ timer.instance_ ≠ (s.step t).instances := by
  unfold OnlyOne at h
  push Not at h
  obtain ⟨hevent, hrunning, hstarted, hmany⟩ := h
  rw [step_of_ne hevent]
  refine ⟨hrunning, ?_⟩
  cases htimers : s.timers with
  | cons timer rest =>
    have hle := hcounted.numbered timer (by simp [htimers])
    refine ⟨timer, rfl, ?_⟩
    dsimp only
    omega
  | nil =>
    have hne := hmany htimers
    have hpos : 0 < s.started t.event := Nat.pos_of_ne_zero hstarted
    refine ⟨⟨s.instances + 0 + 1, t.time⟩, ?_, ?_⟩
    · simp [List.getElem?_range hpos]
    · dsimp only
      omega

/-- The reset is the running process's own wherever a stability timer might fire next, exactly
    where every process that stays up comes up alone, with no stability timer set. -/
theorem reset_by_own_iff (events : List TimedEvent) :
    (EveryStep step OnlyOne {} events → EveryStep step ResetByOwn {} events) ∧
    ((∀ pre, pre <+: events → ∀ t, (∀ e ∈ pre, e.time ≤ t.time) → (after pre).ResetByOwn t) ↔
      EveryStep step OnlyOne {} events) := by
  have hown : EveryStep step OnlyOne {} events →
      ∀ pre, pre <+: events → ∀ t, (after pre).ResetByOwn t := by
    intro h pre hpre t
    refine (after_onlyOwn ?_).resetByOwn t
    intro pre' t' hpre'
    exact h pre' t' (hpre'.trans hpre)
  refine ⟨fun h pre t hpre => hown h pre (List.prefix_append pre [t] |>.trans hpre) t, ?_,
    fun h pre hpre t _ => hown h pre hpre t⟩
  intro h pre t hpre
  by_contra hbreaks
  obtain ⟨hrunning, timer, hset, hforeign⟩ :=
    foreign_of_not_onlyOne (after_counted pre) hbreaks
  have hafter : after (pre ++ [t]) = (after pre).step t := run_snoc ..
  -- late enough for the timer to fire
  let late := ((pre ++ [t]).map TimedEvent.time).max?.getD 0 +
    (timer.armed + processStabilityCheckMs)
  have hlate : ∀ e ∈ pre ++ [t], e.time ≤ late := by
    intro e hmem
    exact (List.le_max?_getD_of_mem (List.mem_map_of_mem hmem)).trans (Nat.le_add_right _ _)
  have hreset := h (pre ++ [t]) hpre ⟨late, .stabilityTimer, 0⟩ hlate
  rw [hafter] at hreset
  have hfired : ((after pre).step t).fired ⟨late, .stabilityTimer, 0⟩ = some timer := by
    rw [fired, Option.filter_eq_some_iff, decide_eq_true_eq]
    exact ⟨hset, Nat.le_add_left _ _⟩
  exact hforeign (hreset timer hfired hrunning).1

def brought : Launch := ⟨fun _ => true, "/home/pi", .outlives, .inTime⟩

/-- OpenAuto crashes a second after it has come up and is started again two seconds later. The
    timer of its first process fires another two seconds later. -/
def crashedEarly : List TimedEvent :=
  [⟨0, .start brought, 0⟩, ⟨1000, .processFinished 1 .crashExit, 0⟩, ⟨3000, .startTimer 0 brought, 0⟩,
    ⟨5000, .stabilityTimer, 0⟩]

theorem reset_by_earlier :
    ¬ ∀ events, Clocked TimedEvent.time 0 events → EveryStep step ResetByOwn {} events := by
  intro h
  have hclocked : Clocked TimedEvent.time 0 crashedEarly := by
    constructor <;> simp [crashedEarly]
  have hreset := h crashedEarly hclocked (crashedEarly.take 3) ⟨5000, .stabilityTimer, 0⟩
    List.prefix_rfl ⟨1, 0⟩ (by decide +kernel) (by decide +kernel)
  revert hreset
  decide +kernel

end TimedController

end SpeeduinoDash
