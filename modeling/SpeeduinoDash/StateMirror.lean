import SpeeduinoDash.AppState
import SpeeduinoDash.Lib.Runs

set_option autoImplicit false

/-!
# The window's copy of the provider's state

A `Connections` object calls a handler when its target emits the signal that the handler is named
after. Four handlers copy one property each; the provider declares the signal of one of them.
-/
namespace SpeeduinoDash

def DataProvider.Signal.name : DataProvider.Signal → String
  | .dataChanged => "dataChanged"
  | .reverseChanged => "reverseChanged"

namespace Hmi
open Lib.Runs

inductive Handler where
  | onCanConnectedChanged
  | onReverseChanged
  | onCelOnChanged
  | onOverheatChanged

namespace Handler

def connections : List Handler :=
  [.onCanConnectedChanged, .onReverseChanged, .onCelOnChanged, .onOverheatChanged]

def signalName : Handler → String
  | .onCanConnectedChanged => "canConnectedChanged"
  | .onReverseChanged => "reverseChanged"
  | .onCelOnChanged => "celOnChanged"
  | .onOverheatChanged => "overheatChanged"

def call (hmi : Hmi) : Handler → Hmi
  | .onCanConnectedChanged =>
    let app := { hmi.app with canConnected := hmi.provider.canConnected }
    { hmi with app := app.updateSystemMode }
  | .onReverseChanged => { hmi with app := hmi.app.setReverseEngaged hmi.provider.reverseEngaged }
  | .onCelOnChanged => { hmi with app := { hmi.app with celOn := hmi.provider.celOn } }
  | .onOverheatChanged =>
    let app := { hmi.app with overheat := hmi.provider.overheat }
    { hmi with app := app.updateSystemMode }

end Handler

def emit (hmi : Hmi) (signal : DataProvider.Signal) : Hmi :=
  run Handler.call hmi
    (Handler.connections.filter (fun handler => handler.signalName == signal.name))

theorem emit_eq (hmi : Hmi) (signal : DataProvider.Signal) :
    hmi.emit signal = hmi.onSignal signal := by
  cases signal with
  | dataChanged =>
    have hnone : Handler.connections.filter
        (fun handler => handler.signalName == DataProvider.Signal.dataChanged.name) = [] := by
      simp [Handler.connections, Handler.signalName, DataProvider.Signal.name]
    rw [emit, hnone]
    rfl
  | reverseChanged =>
    have hone : Handler.connections.filter
        (fun handler => handler.signalName == DataProvider.Signal.reverseChanged.name) =
          [.onReverseChanged] := by
      simp [Handler.connections, Handler.signalName, DataProvider.Signal.name]
    rw [emit, hone]
    rfl

inductive Message where
  | engineData (data : EngineData)
  | reverseEvent (event : ReverseEvent)

def slot (provider : DataProvider) : Message → DataProvider × Option DataProvider.Signal
  | .engineData data => provider.onEngineDataReceived data
  | .reverseEvent event => provider.onReverseEventReceived event

def deliver (hmi : Hmi) (message : Message) : Hmi :=
  let result := slot hmi.provider message
  let hmi' := { hmi with provider := result.1 }
  match result.2 with
  | some signal => hmi'.emit signal
  | none => hmi'

theorem deliver_eq (hmi : Hmi) (message : Message) :
    hmi.deliver message = hmi.afterSlot (slot hmi.provider message) := by
  unfold deliver afterSlot
  obtain ⟨provider, signal⟩ := slot hmi.provider message
  cases signal with
  | none => rfl
  | some signal => exact emit_eq _ _

def delivered (messages : List Message) : Hmi := run deliver {} messages

structure Mirrors (hmi : Hmi) : Prop where
  canConnected : hmi.app.canConnected = hmi.provider.canConnected
  celOn : hmi.app.celOn = hmi.provider.celOn
  overheat : hmi.app.overheat = hmi.provider.overheat
  reverseEngaged : hmi.app.reverseEngaged = hmi.provider.reverseEngaged

structure Frozen (hmi : Hmi) : Prop where
  canConnected : hmi.app.canConnected = false
  celOn : hmi.app.celOn = false
  overheat : hmi.app.overheat = false
  reverseEngaged : hmi.app.reverseEngaged = hmi.provider.reverseEngaged

theorem reverseEventReceived_frame (hmi : Hmi) (event : ReverseEvent) :
    (hmi.reverseEventReceived event).app =
        hmi.app.setReverseEngaged (hmi.reverseEventReceived event).app.reverseEngaged ∧
      (hmi.reverseEventReceived event).provider.data = hmi.provider.data := by
  rw [reverseEventReceived, DataProvider.onReverseEventReceived]
  split <;> exact ⟨rfl, rfl⟩

theorem frozen_deliver (hmi : Hmi) (message : Message) (h : Frozen hmi) :
    Frozen (hmi.deliver message) := by
  rw [deliver_eq]
  cases message with
  | engineData data => exact ⟨h.canConnected, h.celOn, h.overheat, h.reverseEngaged⟩
  | reverseEvent event =>
    obtain ⟨happ, hprovider⟩ := hmi.reverseEventReceived_engaged event h.reverseEngaged
    have hframe := (hmi.reverseEventReceived_frame event).1
    change Frozen (hmi.reverseEventReceived event)
    refine ⟨?_, ?_, ?_, happ.trans hprovider.symm⟩
    · rw [hframe]
      exact h.canConnected
    · rw [hframe]
      exact h.celOn
    · rw [hframe]
      exact h.overheat

theorem delivered_frozen (messages : List Message) : Frozen (delivered messages) :=
  run_invariant deliver Frozen frozen_deliver ⟨rfl, rfl, rfl, rfl⟩ messages

structure Unlit (data : EngineData) : Prop where
  canOk : data.isCanOk = false
  celOn : data.isCelOn = false
  overheat : data.isOverheat = false

theorem Frozen.mirrors_iff {hmi : Hmi} (h : Frozen hmi) :
    Mirrors hmi ↔ Unlit hmi.provider.data := by
  constructor
  · intro hmirrors
    refine ⟨?_, ?_, ?_⟩
    · exact hmirrors.canConnected.symm.trans h.canConnected
    · exact hmirrors.celOn.symm.trans h.celOn
    · exact hmirrors.overheat.symm.trans h.overheat
  · intro hunlit
    refine ⟨?_, ?_, ?_, h.reverseEngaged⟩
    · exact h.canConnected.trans hunlit.canOk.symm
    · exact h.celOn.trans hunlit.celOn.symm
    · exact h.overheat.trans hunlit.overheat.symm

/-- The provider holds the last engine data delivered, at first its default. -/
theorem delivered_data (I : EngineData → Prop) (hnew : I {}) (messages : List Message)
    (h : ∀ data, .engineData data ∈ messages → I data) :
    I (delivered messages).provider.data := by
  refine run_history deliver (fun _ hmi => I hmi.provider.data) hnew messages ?_
  intro before message hpre hbefore
  rw [deliver_eq]
  cases message with
  | engineData data => exact h data (hpre.subset (List.mem_append_right before List.mem_cons_self))
  | reverseEvent event =>
    change I (Hmi.reverseEventReceived _ event).provider.data
    rw [(reverseEventReceived_frame _ event).2]
    exact hbefore

/-- The window's copy is right after every delivery exactly if no engine data delivered sets a
    flag that the copy lacks a live handler for. -/
theorem app_mirrors_iff (messages : List Message) :
    (∀ before message, before ++ [message] <+: messages →
        Mirrors (delivered (before ++ [message]))) ↔
      ∀ data, .engineData data ∈ messages → Unlit data := by
  constructor
  · intro hmirrors data hmem
    obtain ⟨before, since, rfl⟩ := List.append_of_mem hmem
    have hpre : before ++ [.engineData data] <+: before ++ .engineData data :: since :=
      ⟨since, List.append_assoc _ _ _⟩
    have hunlit := (delivered_frozen _).mirrors_iff.mp (hmirrors before _ hpre)
    rw [delivered, run_snoc, deliver_eq] at hunlit
    exact hunlit
  · intro hunlit before message hpre
    refine (delivered_frozen _).mirrors_iff.mpr (delivered_data Unlit ⟨rfl, rfl, rfl⟩ _ ?_)
    intro data hmem
    exact hunlit data (hpre.subset hmem)

theorem can_connected_frozen : ¬ ∀ messages before message, before ++ [message] <+: messages →
    Mirrors (delivered (before ++ [message])) := by
  intro hclaim
  have hmirrors := hclaim [.engineData { flags := EngineData.flagCanOk }] []
    (.engineData { flags := EngineData.flagCanOk }) (List.prefix_refl _)
  exact absurd hmirrors.canConnected (by decide)

end Hmi

end SpeeduinoDash
