import Mathlib.Data.List.GetD
import SpeeduinoDash.CanErrorHandler

set_option autoImplicit false

/-!
# What an error frame is counted as

The call runs on its own. A protocol error is described by its type and its place.
-/
namespace SpeeduinoDash.CanErrorHandler
open Lib.LockedCalls Lib.Runs

section Account

variable (o : CallOutcome)

theorem read_ifSet {α : Type} (read : CallOutcome → α) (bit : Bool) (stmts : List MethodStmt) :
    read (run perform o (ifSet bit stmts)) =
      if bit then read (run perform o stmts) else read o := by
  cases bit <;> rfl

@[simp] theorem stats_setStats (f : CanErrorStats → CanErrorStats) :
    (perform o (setStats f)).object.stats = f o.object.stats := rfl

@[simp] theorem stats_setCounters (counters : CanErrorCounters) :
    (perform o (setCounters counters)).object.stats = o.object.stats := rfl

@[simp] theorem stats_setEvent (f : CanErrorHandler → CanErrorEvent → CanErrorEvent) :
    (perform o (setEvent f)).object.stats = o.object.stats := rfl

@[simp] theorem stats_updateState (newState : CanBusState) :
    (perform o (updateState newState)).object.stats = o.object.stats := rfl

@[simp] theorem stats_invokeErrorCallback :
    (perform o invokeErrorCallback).object.stats = o.object.stats := rfl

@[simp] theorem stats_lock : (perform o .lock).object.stats = o.object.stats := rfl

@[simp] theorem stats_unlock : (perform o .unlock).object.stats = o.object.stats := rfl

@[simp] theorem locals_setStats (f : CanErrorStats → CanErrorStats) :
    (perform o (setStats f)).locals = o.locals := rfl

@[simp] theorem locals_setCounters (counters : CanErrorCounters) :
    (perform o (setCounters counters)).locals = o.locals := rfl

@[simp] theorem locals_setEvent (f : CanErrorHandler → CanErrorEvent → CanErrorEvent) :
    (perform o (setEvent f)).locals = f o.object o.locals := rfl

@[simp] theorem locals_updateState (newState : CanBusState) :
    (perform o (updateState newState)).locals = o.locals := rfl

@[simp] theorem locals_invokeErrorCallback :
    (perform o invokeErrorCallback).locals = o.locals := rfl

@[simp] theorem locals_lock : (perform o .lock).locals = o.locals := rfl

@[simp] theorem locals_unlock : (perform o .unlock).locals = o.locals := rfl

def counted (bit : Bool) : UInt64 := if bit then 1 else 0

theorem add_counted (n : UInt64) (bit : Bool) : n + counted bit = if bit then n + 1 else n := by
  cases bit with
  | false => exact UInt64.add_zero n
  | true => rfl

/-- Every error is counted, and once for each of its classes that has a counter. -/
structure ErrorCounted (canId : UInt32) (before after : CanErrorStats) : Prop where
  totalErrors : after.totalErrors = before.totalErrors + 1
  txTimeouts : after.txTimeouts = before.txTimeouts + counted (hasClass canId canErrTxTimeout)
  arbitrationLost :
    after.arbitrationLost = before.arbitrationLost + counted (hasClass canId canErrLostarb)
  protocolErrors :
    after.protocolErrors = before.protocolErrors + counted (hasClass canId canErrProt)
  noAckErrors : after.noAckErrors = before.noAckErrors + counted (hasClass canId canErrAck)
  busOffEvents : after.busOffEvents = before.busOffEvents + counted (hasClass canId canErrBusoff)
  controllerRestarts : after.controllerRestarts =
    before.controllerRestarts + counted (hasClass canId canErrRestarted)

variable (now : ℤ) (canId : UInt32) (data : Vector UInt8 8)

theorem errorCounted_processErrorFrame : ErrorCounted canId o.object.stats
    (run perform o (processErrorFrame now canId data)).object.stats := by
  constructor
  · simp [processErrorFrame, run_append, read_ifSet _ (fun o => o.object.stats.totalErrors)]
  · simp [processErrorFrame, run_append, read_ifSet _ (fun o => o.object.stats.txTimeouts),
      add_counted]
  · simp [processErrorFrame, run_append, read_ifSet _ (fun o => o.object.stats.arbitrationLost),
      add_counted]
  · simp [processErrorFrame, run_append, read_ifSet _ (fun o => o.object.stats.protocolErrors),
      add_counted]
  · simp [processErrorFrame, run_append, read_ifSet _ (fun o => o.object.stats.noAckErrors),
      add_counted]
  · simp [processErrorFrame, run_append, read_ifSet _ (fun o => o.object.stats.busOffEvents),
      add_counted]
  · simp [processErrorFrame, run_append, read_ifSet _ (fun o => o.object.stats.controllerRestarts),
      add_counted]

theorem event_processErrorFrame (hprot : hasClass canId canErrProt = true) :
    (run perform o (processErrorFrame now canId data)).locals.protocolErrorLocation = data[3]! ∧
    (run perform o (processErrorFrame now canId data)).locals.description =
      parseProtocolError data[2]! data[3]! := by
  constructor
  · simp [processErrorFrame, run_append, hprot,
      read_ifSet _ (fun o => o.locals.protocolErrorLocation)]
  · simp [processErrorFrame, run_append, hprot, read_ifSet _ (fun o => o.locals.description)]

end Account

section Description

def namedTypes : List UInt8 := [0x01, 0x02, 0x04, 0x08, 0x10, 0x20, 0x40, 0x80]

theorem protocolErrorType_unknown {type : UInt8} (h : type ∉ namedTypes) :
    protocolErrorType type = "unknown (0x" ++ hexString type ++ ")" := by
  unfold protocolErrorType
  split
  all_goals first
    | rfl
    | next heq =>
      apply absurd _ h
      rw [show type = UInt8.ofNat type.toNat by simp, heq]
      decide

def typeText (type : UInt8) : List Char := (protocolErrorType type).toList ++ " at ".toList

def digitValue (c : Char) : ℕ := if c.toNat < 58 then c.toNat - 48 else c.toNat - 87

def typeOfText (text : List Char) : UInt8 :=
  match text.getD 0 ' ' with
  | 's' => 0x01
  | 'f' => 0x02
  | 'b' => if text.getD 1 ' ' = 'i' then 0x04 else 0x20
  | 'a' => 0x40
  | 'e' => 0x80
  | _ =>
    if text.getD 2 ' ' = 'a' then if text.getD 15 ' ' = 'd' then 0x08 else 0x10
    else if text.getD 12 ' ' = ')' then UInt8.ofNat (digitValue (text.getD 11 ' '))
    else UInt8.ofNat (16 * digitValue (text.getD 11 ' ') + digitValue (text.getD 12 ' '))

theorem typeOfText_append {text : List Char} (h : 16 ≤ text.length) (rest : List Char) :
    typeOfText (text ++ rest) = typeOfText text := by
  have hget : ∀ i < 16, (text ++ rest).getD i ' ' = text.getD i ' ' := by
    intro i hi
    exact List.getD_append _ _ _ _ (by omega)
  unfold typeOfText
  rw [hget 0 (by decide), hget 1 (by decide), hget 2 (by decide), hget 11 (by decide),
    hget 12 (by decide), hget 15 (by decide)]

theorem typeOfText_typeText (type : UInt8) :
    16 ≤ (typeText type).length ∧ typeOfText (typeText type) = type := by
  by_cases hnamed : type ∈ namedTypes
  · have hall : ∀ type ∈ namedTypes,
        16 ≤ (typeText type).length ∧ typeOfText (typeText type) = type := by decide +kernel
    exact hall type hnamed
  · have hall : ∀ n < 256,
        16 ≤ ("unknown (0x".toList ++ Nat.toDigits 16 n ++ ")".toList ++ " at ".toList).length ∧
          typeOfText ("unknown (0x".toList ++ Nat.toDigits 16 n ++ ")".toList ++ " at ".toList) =
            UInt8.ofNat n := by decide +kernel
    have htype := hall type.toNat type.toNat_lt
    rw [UInt8.ofNat_toNat] at htype
    have hdigits : (hexString type).toList = Nat.toDigits 16 type.toNat := String.toList_ofList
    rw [typeText, protocolErrorType_unknown hnamed, String.toList_append, String.toList_append,
      hdigits]
    exact htype

/-- Descriptions that agree name one type. -/
theorem type_of_parseProtocolError {location location' type type' : UInt8}
    (h : parseProtocolError location type = parseProtocolError location' type') : type = type' := by
  have hread : ∀ location type : UInt8,
      typeOfText (parseProtocolError location type).toList = type := by
    intro location type
    obtain ⟨hlength, htype⟩ := typeOfText_typeText type
    rw [parseProtocolError, String.toList_append, String.toList_append]
    exact (typeOfText_append hlength _).trans htype
  rw [← hread location type, h, hread]

end Description

section Frame

theorem errorCallback_perform {stmt : MethodStmt} (hstmt : FrameStmt stmt) (o : CallOutcome) :
    (perform o stmt).object.errorCallback = o.object.errorCallback := by
  cases hstmt <;> rfl

theorem errorCallback_run {stmts : List MethodStmt} (hstmts : ∀ stmt ∈ stmts, FrameStmt stmt)
    (o : CallOutcome) : (run perform o stmts).object.errorCallback = o.object.errorCallback := by
  induction stmts generalizing o with
  | nil => rfl
  | cons stmt stmts ih =>
    rw [run_cons, ih (fun stmt' hmem => hstmts stmt' (List.mem_cons_of_mem stmt hmem)),
      errorCallback_perform (hstmts stmt List.mem_cons_self)]

variable (h : CanErrorHandler) (now : ℤ) (canId : UInt32) (data : Vector UInt8 8)

def frameOutcome : CallOutcome := run perform ⟨h, {}, []⟩ (processErrorFrame now canId data)

/-- The last statements store the error counters and tell the event. -/
theorem frameOutcome_told (hcallback : h.errorCallback = true) :
    .errorEvent (frameOutcome h now canId data).locals ∈ (frameOutcome h now canId data).told := by
  have hall := frameStmt_processErrorFrame now canId data
  unfold frameOutcome
  unfold processErrorFrame at hall ⊢
  rw [run_append]
  have hfront := errorCallback_run (fun stmt hmem => hall stmt (List.mem_append_left _ hmem))
    (⟨h, {}, []⟩ : CallOutcome)
  generalize run perform (⟨h, {}, []⟩ : CallOutcome) _ = o at hfront ⊢
  have hinstalled : o.object.errorCallback = true := hfront.trans hcallback
  simp [perform, setCounters, setEvent, invokeErrorCallback, hinstalled]

theorem frameOutcome_counters : (frameOutcome h now canId data).object.counters =
    ⟨data[6]!, data[7]!⟩ := by
  unfold frameOutcome processErrorFrame
  rw [run_append]
  rfl

theorem frameOutcome_eq : frameOutcome h now canId data =
    run perform (⟨h, {}, []⟩ : CallOutcome) (processErrorFrame now canId data) := rfl

theorem errorCounted_frameOutcome :
    ErrorCounted canId h.stats (frameOutcome h now canId data).object.stats := by
  rw [frameOutcome_eq]
  exact errorCounted_processErrorFrame (⟨h, {}, []⟩ : CallOutcome) now canId data

theorem event_frameOutcome (hprot : hasClass canId canErrProt = true) :
    (frameOutcome h now canId data).locals.protocolErrorLocation = data[3]! ∧
    (frameOutcome h now canId data).locals.description = parseProtocolError data[2]! data[3]! := by
  rw [frameOutcome_eq]
  exact event_processErrorFrame _ now canId data hprot

structure ErrorTaken (o : CallOutcome) : Prop where
  counted : ErrorCounted canId h.stats o.object.stats
  counters : o.object.counters = ⟨data[6]!, data[7]!⟩
  told : h.errorCallback = true → .errorEvent o.locals ∈ o.told
  location : hasClass canId canErrProt = true → o.locals.protocolErrorLocation = data[3]!
  description : hasClass canId canErrProt = true →
    o.locals.description = protocolErrorType data[2]! ++ " at " ++ protocolErrorPlace data[3]!

/-- The bytes of the type and the place are interchanged in the description. -/
theorem errorTaken_iff :
    ErrorTaken h canId data (frameOutcome h now canId data) ↔
      (hasClass canId canErrProt = true → data[2]! = data[3]!) := by
  constructor
  · intro htaken hprot
    have hdescription := htaken.description hprot
    rw [(event_frameOutcome h now canId data hprot).2] at hdescription
    exact (type_of_parseProtocolError hdescription).symm
  · intro hsame
    refine ⟨errorCounted_frameOutcome h now canId data, frameOutcome_counters h now canId data,
      frameOutcome_told h now canId data, ?_, ?_⟩
    · intro hprot
      exact (event_frameOutcome h now canId data hprot).1
    · intro hprot
      rw [(event_frameOutcome h now canId data hprot).2, hsame hprot]
      rfl

/-- A format error at the start of the frame. -/
theorem description_interchanged :
    let o := frameOutcome { errorCallback := true } 0 0x20000008 #v[0, 0, 0x02, 0x03, 0, 0, 0, 0]
    o.locals.description = "unknown (0x3) at ID bits 28-21" ∧
    ¬ ErrorTaken { errorCallback := true } 0x20000008 #v[0, 0, 0x02, 0x03, 0, 0, 0, 0] o := by
  have hdescription : (frameOutcome { errorCallback := true } 0 0x20000008
      #v[0, 0, 0x02, 0x03, 0, 0, 0, 0]).locals.description = "unknown (0x3) at ID bits 28-21" := by
    decide +kernel
  refine ⟨hdescription, fun htaken => ?_⟩
  have hwanted := htaken.description (by decide)
  rw [hdescription] at hwanted
  revert hwanted
  decide +kernel

end Frame

end SpeeduinoDash.CanErrorHandler
