import SpeeduinoDash.BusState
import SpeeduinoDash.Lib.SelfLocks

set_option autoImplicit false

/-!
# The handler's lock and its callbacks

Any number of threads call the public methods, and the callbacks may call them again. Of a getter
only the locking matters here.
-/
namespace SpeeduinoDash.CanErrorHandler
open Lib.LockedCalls Lib.Runs

inductive Method where
  | enableErrorFrames
  | processErrorFrame (now : ℤ) (canId : UInt32) (data : Vector UInt8 8)
  | currentState
  | getCounters
  | getStats
  | hasError
  | isOperational
  | setBusStateCallback (callback : Bool)
  | setErrorEventCallback (callback : Bool)
  | triggerRecovery
  | resetStats
  | timeSinceLastError
  | getStatusString

def Method.body : Method → List MethodStmt
  | .processErrorFrame now canId data => CanErrorHandler.processErrorFrame now canId data
  | .setBusStateCallback callback => CanErrorHandler.setBusStateCallback callback
  | .setErrorEventCallback callback => CanErrorHandler.setErrorEventCallback callback
  | .resetStats => CanErrorHandler.resetStats
  | .getCounters | .getStats | .timeSinceLastError | .getStatusString => [.lock, .unlock]
  | .enableErrorFrames | .currentState | .hasError | .isOperational | .triggerRecovery => []

def Method.locks : Method → Bool
  | .enableErrorFrames | .currentState | .hasError | .isOperational | .triggerRecovery => false
  | _ => true

abbrev Threads (T : Type) := System T CanErrorHandler CanErrorEvent CanNotification

def idle (T : Type) (h : CanErrorHandler) : Threads T := { object := h }

def IsErrorEvent (told : CanNotification) : Prop := ∃ event, told = .errorEvent event

section Bodies

@[simp] theorem keeps_setStats (f : CanErrorStats → CanErrorStats) : (setStats f).Keeps := trivial

@[simp] theorem keeps_setCounters (counters : CanErrorCounters) : (setCounters counters).Keeps :=
  trivial

@[simp] theorem keeps_setEvent (f : CanErrorHandler → CanErrorEvent → CanErrorEvent) :
    (setEvent f).Keeps := trivial

@[simp] theorem keeps_updateState (newState : CanBusState) : (updateState newState).Keeps := trivial

@[simp] theorem keeps_invokeErrorCallback : invokeErrorCallback.Keeps := trivial

theorem disciplined_processErrorFrame (now : ℤ) (canId : UInt32) (data : Vector UInt8 8) :
    Disciplined false (processErrorFrame now canId data) := by
  simp only [processErrorFrame, List.append_assoc, List.cons_append, List.nil_append]
  constructor
  · rfl
  · simp [disciplined_append, disciplined_cons, forall_mem_ifSet, or_imp, forall_and, Disciplined]

theorem disciplined_body (m : Method) : Disciplined false m.body := by
  cases m with
  | processErrorFrame now canId data => exact disciplined_processErrorFrame now canId data
  | _ =>
    simp [Method.body, setBusStateCallback, setErrorEventCallback, resetStats, setStats,
      setCounters, Disciplined]

theorem tells_frameStmt {stmt : MethodStmt} (h : FrameStmt stmt) : stmt.Tells IsErrorEvent := by
  cases h with
  | updateState newState =>
    intro h k hk
    obtain ⟨-, hchange⟩ := Option.ite_none_right_eq_some.mp hk
    rw [← Option.some.inj hchange]
    intro herror
    obtain ⟨event, herror⟩ := herror
    cases herror
  | invokeErrorCallback =>
    intro h event k hk
    obtain ⟨-, hevent⟩ := Option.ite_none_right_eq_some.mp hk
    exact ⟨event, (Option.some.inj hevent).symm⟩
  | _ => trivial

theorem tells_body (m : Method) : ∀ stmt ∈ m.body, stmt.Tells IsErrorEvent := by
  cases m with
  | processErrorFrame now canId data =>
    intro stmt hmem
    exact tells_frameStmt (frameStmt_processErrorFrame now canId data stmt hmem)
  | _ =>
    simp [Method.body, setBusStateCallback, setErrorEventCallback, resetStats, setStats,
      setCounters, Stmt.Tells]

theorem body_of_locks {m : Method} (h : m.locks = true) : ∃ rest, m.body = .lock :: rest := by
  cases m with
  | processErrorFrame now canId data =>
    exact ⟨(processErrorFrame now canId data).tail, by simp [Method.body, processErrorFrame]⟩
  | setBusStateCallback callback => exact ⟨_, rfl⟩
  | setErrorEventCallback callback => exact ⟨_, rfl⟩
  | resetStats => exact ⟨_, rfl⟩
  | getCounters => exact ⟨_, rfl⟩
  | getStats => exact ⟨_, rfl⟩
  | timeSinceLastError => exact ⟨_, rfl⟩
  | getStatusString => exact ⟨_, rfl⟩
  | _ => cases h

theorem lock_mem_body (m : Method) : .lock ∈ m.body ↔ m.locks = true := by
  constructor
  · intro hmem
    cases m with
    | enableErrorFrames => cases hmem
    | currentState => cases hmem
    | hasError => cases hmem
    | isOperational => cases hmem
    | triggerRecovery => cases hmem
    | _ => rfl
  · intro hlocks
    obtain ⟨rest, hrest⟩ := body_of_locks hlocks
    rw [hrest]
    exact List.mem_cons_self

end Bodies

section Threads

variable {T : Type} [DecidableEq T]

abbrev threadStep : Threads T → Event T Method → Threads T :=
  Lib.LockedCalls.step Method.body {}

omit [DecidableEq T] in
theorem idle_idle (h : CanErrorHandler) : (idle T h).Idle := ⟨rfl, fun _ => rfl⟩

/-- An error-event callback is where a thread calls out with the lock. -/
theorem inside_errorEvent_iff (h : CanErrorHandler) (events : List (Event T Method)) (t : T) :
    (∃ told, (run threadStep (idle T h) events).Inside t told true) ↔
      ∃ event locked, (run threadStep (idle T h) events).Inside t (.errorEvent event) locked := by
  have hsound := run_sound Method.body {} disciplined_body tells_body (idle_idle h) events
  constructor
  · intro hin
    obtain ⟨told, hin⟩ := hin
    obtain ⟨event, rfl⟩ := (hsound.inside_iff hin).1.mp rfl
    exact ⟨event, true, hin⟩
  · intro hin
    obtain ⟨event, locked, hin⟩ := hin
    obtain rfl : locked = true := (hsound.inside_iff hin).1.mpr ⟨event, rfl⟩
    exact ⟨_, hin⟩

/-- No thread waits for itself exactly where no locking method is called inside an error-event
    callback; and all callbacks are made with the lock given up exactly where no thread comes to
    the error-event callback with one installed. -/
theorem no_selfLock_iff (h : CanErrorHandler) (events : List (Event T Method)) :
    (SelfLockFree Method.body {} (idle T h) events ↔
      EveryStep threadStep
        (fun s e => ∀ t m, e = .call t m →
          (∃ event locked, s.Inside t (.errorEvent event) locked) → m.locks = false)
        (idle T h) events) ∧
    ((∀ made ∈ (run threadStep (idle T h) events).log, made.2 = false) ↔
      EveryStep threadStep (fun s e => ∀ t, e = .advance t → ∀ told, ¬ s.CallsHolding t told)
        (idle T h) events) := by
  constructor
  · rw [selfLockFree_iff disciplined_body tells_body
      (fun m hmem => body_of_locks ((lock_mem_body m).mp hmem)) (idle_idle h) events]
    apply forall_congr'
    intro pre
    apply forall_congr'
    intro e
    apply imp_congr_right
    intro hpre
    apply forall₂_congr
    intro t m
    rw [inside_errorEvent_iff, lock_mem_body, Bool.not_eq_true]
  · exact released_iff Method.body {} disciplined_body tells_body (idle_idle h) rfl events

def statsFromCallback : List (Event ℕ Method) :=
  .call 0 (.processErrorFrame 0 canErrTrx (Vector.replicate 8 0)) ::
    (List.replicate 7 (.advance 0) ++ [.call 0 .getStats])

theorem selfLock_from_errorCallback : ¬ ∀ (h : CanErrorHandler) (events : List (Event ℕ Method)),
    SelfLockFree Method.body {} (idle ℕ h) events ∧
      ∀ made ∈ (run threadStep (idle ℕ h) events).log, made.2 = false := by
  intro hall
  have hfree := (hall { errorCallback := true } statsFromCallback).1
  exact hfree statsFromCallback (List.prefix_refl _) 0 ⟨rfl, _, _, _, rfl⟩

def Operation.method : Operation → Method
  | .processErrorFrame now canId data => .processErrorFrame now canId data
  | .resetStats => .resetStats

theorem body_method (op : Operation) : op.method.body = op.body := by
  cases op <;> rfl

structure Shows (s : Threads T) (w : Watched) : Prop where
  idle : s.Idle
  object : s.object = w.handler
  log : s.log.map Prod.fst = w.told

/-- One thread that runs alone, with callbacks that do not call back, does what `step` says. -/
theorem step_runs_alone {s : Threads T} {w : Watched} (h : Shows s w) (t : T) (op : Operation) :
    ∃ events, Shows (run threadStep s (.call t op.method :: events)) (step w op) := by
  obtain ⟨events, hidle, locals, houtcome⟩ :=
    call_alone Method.body {} disciplined_body h.idle t op.method
  have hstart : s.outcome {} = ⟨w.handler, {}, w.told⟩ := by
    rw [System.outcome, h.object, h.log]
  rw [hstart, body_method] at houtcome
  exact ⟨events, hidle, congrArg Outcome.object houtcome, congrArg Outcome.told houtcome⟩

theorem run_runs_alone (t : T) (ops : List Operation) {s : Threads T} {w : Watched}
    (h : Shows s w) : ∃ events, Shows (run threadStep s events) (run step w ops) := by
  induction ops generalizing s w with
  | nil => exact ⟨[], h⟩
  | cons op ops ih =>
    obtain ⟨events, hfirst⟩ := step_runs_alone h t op
    obtain ⟨events', hrest⟩ := ih hfirst
    refine ⟨(.call t op.method :: events) ++ events', ?_⟩
    rw [run_append]
    exact hrest

end Threads

end SpeeduinoDash.CanErrorHandler
