import SpeeduinoDash.CanErrorHandler
import SpeeduinoDash.Lib.Monitor

set_option autoImplicit false

/-!
# The bus state over a run of error frames

Each call runs on its own, with callbacks that do not call back. `told` is what the callbacks
have been told since the start.
-/
namespace SpeeduinoDash.CanErrorHandler
open Lib.LockedCalls Lib.Runs

inductive Operation where
  | processErrorFrame (now : ℤ) (canId : UInt32) (data : Vector UInt8 8)
  | resetStats

def Operation.body : Operation → List MethodStmt
  | .processErrorFrame now canId data => CanErrorHandler.processErrorFrame now canId data
  | .resetStats => CanErrorHandler.resetStats

structure Watched where
  handler : CanErrorHandler
  told : List CanNotification := []

/-- The event that a call fills in starts out empty. -/
def step (w : Watched) (op : Operation) : Watched :=
  let o := run perform ⟨w.handler, {}, w.told⟩ op.body
  ⟨o.object, o.told⟩

theorem handler_step (w : Watched) (op : Operation) :
    (step w op).handler = (run perform ⟨w.handler, {}, w.told⟩ op.body).object := rfl

theorem currentState_frame (w : Watched) (now : ℤ) (canId : UInt32) (data : Vector UInt8 8) :
    (step w (.processErrorFrame now canId data)).handler.currentState =
      frameState canId data w.handler.currentState := by
  have hstate := stateOf_processErrorFrame ⟨w.handler, {}, w.told⟩ now canId data
  unfold stateOf at hstate
  rw [handler_step, Operation.body, hstate]

theorem isOperational_eq_false (h : CanErrorHandler) :
    h.isOperational = false ↔ h.currentState = .busOff := by
  simp [isOperational]

section BusOff

def Operation.restarts : Operation → Bool
  | .processErrorFrame _ canId _ => hasClass canId canErrRestarted
  | .resetStats => true

/-- A level of the error counters, in the data of a CRTL frame. -/
def reportsLevel (byte : UInt8) : Bool :=
  hasBit byte canErrCrtlRxWarning || hasBit byte canErrCrtlTxWarning ||
    hasBit byte canErrCrtlRxPassive || hasBit byte canErrCrtlTxPassive ||
    hasBit byte canErrCrtlActive

/-- A frame that reports a level, and neither bus-off nor a restart. -/
def Operation.overwritesBusOff : Operation → Bool
  | .processErrorFrame _ canId data =>
    hasClass canId canErrCrtl && reportsLevel data[1]! && !hasClass canId canErrBusoff &&
      !hasClass canId canErrRestarted
  | .resetStats => false

theorem crtlState_busOff (byte : UInt8) :
    crtlState byte .busOff = .busOff ↔ reportsLevel byte = false := by
  unfold crtlState reportsLevel
  split_ifs <;> simp_all

theorem step_busOff_iff {w : Watched} (hoff : w.handler.currentState = .busOff) {op : Operation}
    (hop : op.restarts = false) :
    (step w op).handler.currentState = .busOff ↔ op.overwritesBusOff = false := by
  cases op with
  | resetStats => cases hop
  | processErrorFrame now canId data =>
    have hrestarted : hasClass canId canErrRestarted = false := hop
    rw [currentState_frame, hoff, frameState, Operation.overwritesBusOff, hrestarted]
    cases hbusoff : hasClass canId canErrBusoff with
    | true => simp
    | false =>
      cases hcrtl : hasClass canId canErrCrtl with
      | false => simp
      | true => simpa using crtlState_busOff data[1]!

theorem not_overwritesBusOff_of_restarts {op : Operation} (hop : op.restarts = true) :
    op.overwritesBusOff = false := by
  cases op with
  | resetStats => rfl
  | processErrorFrame now canId data =>
    have hrestarted : hasClass canId canErrRestarted = true := hop
    simp [Operation.overwritesBusOff, hrestarted]

theorem run_busOff {w : Watched} (hoff : w.handler.currentState = .busOff) (ops : List Operation)
    (hops : ∀ op ∈ ops, op.restarts = false)
    (hkept : EveryStep step
      (fun w op => w.handler.currentState = .busOff → op.overwritesBusOff = false) w ops) :
    (run step w ops).handler.currentState = .busOff := by
  induction ops generalizing w with
  | nil => exact hoff
  | cons op ops ih =>
    obtain ⟨hfirst, hrest⟩ := everyStep_cons.mp hkept
    have hnext : (step w op).handler.currentState = .busOff :=
      (step_busOff_iff hoff (hops op List.mem_cons_self)).mpr (hfirst hoff)
    exact ih hnext (fun op' hmem => hops op' (List.mem_cons_of_mem op hmem)) hrest

/-- Bus-off lasts until a restart exactly where no frame that comes during bus-off reports a level
    without reporting bus-off again. -/
theorem busOff_lasts_iff (w : Watched) (ops : List Operation) :
    (∀ pre mid, pre ++ mid <+: ops → (run step w pre).handler.currentState = .busOff →
      (∀ op ∈ mid, op.restarts = false) →
      (run step w (pre ++ mid)).handler.currentState = .busOff ∧
        (run step w (pre ++ mid)).handler.isOperational = false) ↔
      EveryStep step
        (fun w op => w.handler.currentState = .busOff → op.overwritesBusOff = false) w ops := by
  constructor
  · intro hlasts pre op hpre hoff
    cases hop : op.restarts with
    | true => exact not_overwritesBusOff_of_restarts hop
    | false =>
      have hnext := (hlasts pre [op] hpre hoff (by simpa using hop)).1
      rw [run_snoc] at hnext
      exact (step_busOff_iff hoff hop).mp hnext
  · intro hkept pre mid hpre hoff hmid
    have hoff' : (run step w (pre ++ mid)).handler.currentState = .busOff := by
      rw [run_append]
      apply run_busOff hoff mid hmid
      intro pre' op hpre'
      rw [← run_append]
      apply hkept
      apply List.IsPrefix.trans _ hpre
      rw [List.append_assoc]
      exact (List.prefix_append_right_inj pre).mpr hpre'
    exact ⟨hoff', (isOperational_eq_false _).mpr hoff'⟩

def warningAfterBusOff : List Operation :=
  [.processErrorFrame 0 canErrBusoff (Vector.replicate 8 0),
    .processErrorFrame 1 canErrCrtl #v[0, 0x04, 0, 0, 0, 0, 0, 0]]

theorem busOff_left_by_warning : ¬ ∀ (w : Watched) (ops pre mid : List Operation),
    pre ++ mid <+: ops → (run step w pre).handler.currentState = .busOff →
      (∀ op ∈ mid, op.restarts = false) →
      (run step w (pre ++ mid)).handler.currentState = .busOff ∧
        (run step w (pre ++ mid)).handler.isOperational = false := by
  intro hall
  have hlasts := hall ⟨{}, []⟩ warningAfterBusOff (warningAfterBusOff.take 1)
    (warningAfterBusOff.drop 1) (List.prefix_refl _) (by decide +kernel) (by decide +kernel)
  exact absurd hlasts.2 (by decide +kernel)

end BusOff

section Listener
open Lib.Monitor

def CanNotification.busChange : CanNotification → Option (CanBusState × CanBusState)
  | .busState oldState newState => some (oldState, newState)
  | .errorEvent _ => none

def busChanges (told : List CanNotification) : List (CanBusState × CanBusState) :=
  told.filterMap CanNotification.busChange

def listening (errorCallback : Bool) : Watched :=
  ⟨{ stateCallback := true, errorCallback := errorCallback }, []⟩

theorem stateCallback_perform {stmt : MethodStmt} (hstmt : FrameStmt stmt) (o : CallOutcome) :
    (perform o stmt).object.stateCallback = o.object.stateCallback := by
  cases hstmt <;> rfl

def Informed (o : CallOutcome) : Prop :=
  Trail .errorActive (busChanges o.told) o.object.currentState

theorem informed_updateState {o : CallOutcome} (hinstalled : o.object.stateCallback = true)
    (h : Informed o) (newState : CanBusState) : Informed (perform o (updateState newState)) := by
  unfold Informed at h ⊢
  by_cases hsame : o.object.currentState = newState
  · have hquiet : busChanges (perform o (updateState newState)).told = busChanges o.told := by
      simp [perform, updateState, hsame]
    rw [hquiet]
    exact hsame ▸ h
  · have htold : busChanges (perform o (updateState newState)).told =
        busChanges o.told ++ [(o.object.currentState, newState)] := by
      simp [perform, updateState, hsame, hinstalled, busChanges, CanNotification.busChange]
    rw [htold]
    exact h.snoc hsame

theorem informed_perform {o : CallOutcome} (hinstalled : o.object.stateCallback = true)
    (h : Informed o) {stmt : MethodStmt} (hstmt : FrameStmt stmt) : Informed (perform o stmt) := by
  cases hstmt with
  | updateState newState => exact informed_updateState hinstalled h newState
  | invokeErrorCallback =>
    have hquiet : busChanges (perform o invokeErrorCallback).told = busChanges o.told := by
      cases hcallback : o.object.errorCallback <;>
        simp [perform, invokeErrorCallback, hcallback, busChanges, CanNotification.busChange]
    unfold Informed
    rw [hquiet]
    exact h
  | _ => exact h

theorem stateCallback_run {stmts : List MethodStmt} (hstmts : ∀ stmt ∈ stmts, FrameStmt stmt)
    (o : CallOutcome) : (run perform o stmts).object.stateCallback = o.object.stateCallback := by
  induction stmts generalizing o with
  | nil => rfl
  | cons stmt stmts ih =>
    rw [run_cons, ih (fun stmt' hmem => hstmts stmt' (List.mem_cons_of_mem stmt hmem))]
    exact stateCallback_perform (hstmts stmt List.mem_cons_self) o

theorem informed_run {stmts : List MethodStmt} (hstmts : ∀ stmt ∈ stmts, FrameStmt stmt)
    {o : CallOutcome} (hinstalled : o.object.stateCallback = true) (h : Informed o) :
    Informed (run perform o stmts) := by
  induction stmts generalizing o with
  | nil => exact h
  | cons stmt stmts ih =>
    have hfirst := hstmts stmt List.mem_cons_self
    apply ih (fun stmt' hmem => hstmts stmt' (List.mem_cons_of_mem stmt hmem))
    · exact (stateCallback_perform hfirst o).trans hinstalled
    · exact informed_perform hinstalled h hfirst

def InStep (w : Watched) : Prop :=
  Trail .errorActive (busChanges w.told) w.handler.currentState

theorem inStep_step (w : Watched) (op : Operation) :
    InStep (step w op) ↔ Informed (run perform ⟨w.handler, {}, w.told⟩ op.body) := Iff.rfl

theorem inStep_step_iff (w : Watched) (op : Operation) (hinstalled : w.handler.stateCallback = true)
    (h : InStep w) :
    InStep (step w op) ↔ (op = .resetStats → w.handler.currentState = .errorActive) := by
  cases op with
  | processErrorFrame now canId data =>
    have hinformed : Informed ⟨w.handler, {}, w.told⟩ := h
    have hnext := informed_run (frameStmt_processErrorFrame now canId data) hinstalled hinformed
    rw [inStep_step, Operation.body]
    exact iff_of_true hnext nofun
  | resetStats =>
    -- nobody is told, so the last change told of still ends in the old state
    have hold := h.ends
    constructor
    · intro hreset _
      exact hold.symm.trans hreset.ends
    · intro hactive
      have hstate : InStep w := h
      unfold InStep at hstate ⊢
      rw [hactive rfl] at hstate
      exact hstate

theorem stateCallback_step (w : Watched) (op : Operation) (h : w.handler.stateCallback = true) :
    (step w op).handler.stateCallback = true := by
  cases op with
  | resetStats => exact h
  | processErrorFrame now canId data =>
    rw [handler_step, Operation.body, stateCallback_run (frameStmt_processErrorFrame now canId data)]
    exact h

/-- The listener stays in step exactly where no reset comes in another state than ErrorActive. -/
theorem busChanges_in_step_iff (errorCallback : Bool) (ops : List Operation) :
    EveryState step
      (fun w => Trail .errorActive (busChanges w.told) w.handler.currentState)
      (listening errorCallback) ops ↔
      EveryStep step (fun w op => op = .resetStats → w.handler.currentState = .errorActive)
        (listening errorCallback) ops := by
  have hstart : InStep (listening errorCallback) := Trail.nil _
  exact everyState_iff (fun w : Watched => w.handler.stateCallback = true) stateCallback_step
    inStep_step_iff rfl hstart ops

def resetAfterBusOff : List Operation :=
  [.processErrorFrame 0 canErrBusoff (Vector.replicate 8 0), .resetStats]

theorem reset_not_told : ¬ ∀ (errorCallback : Bool) (ops : List Operation),
    EveryState step
      (fun w => Trail .errorActive (busChanges w.told) w.handler.currentState)
      (listening errorCallback) ops := by
  intro hall
  have htrail := hall false resetAfterBusOff resetAfterBusOff (List.prefix_refl _)
  exact absurd htrail.ends (by decide +kernel)

end Listener

end SpeeduinoDash.CanErrorHandler
