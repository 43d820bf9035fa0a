import SpeeduinoDash.DataProvider

set_option autoImplicit false

/-!
# The state of the HMI window

`AppState` is the QML singleton, `Hmi` the window with its data provider. The window's
`Connections` object has a handler for one signal that the provider declares, `reverseChanged`.
-/
namespace SpeeduinoDash

inductive Screen where
  | home
  | dash
  | config
  | openAuto
deriving DecidableEq

inductive Overlay where
  | none
  | reverseCamera
deriving DecidableEq

structure AppState where
  currentScreen : Screen := .home
  currentOverlay : Overlay := .none
  canConnected : Bool := false
  reverseEngaged : Bool := false
  celOn : Bool := false
  overheat : Bool := false

namespace AppState

def goTo (app : AppState) (screen : Screen) : AppState := { app with currentScreen := screen }

def goHome (app : AppState) : AppState := app.goTo .home

def goDash (app : AppState) : AppState := app.goTo .dash

def goConfig (app : AppState) : AppState := app.goTo .config

def goOpenAuto (app : AppState) : AppState := app.goTo .openAuto

def navigate (app : AppState) : Screen → AppState
  | .home => app.goHome
  | .dash => app.goDash
  | .config => app.goConfig
  | .openAuto => app.goOpenAuto

theorem navigate_eq (app : AppState) (screen : Screen) : app.navigate screen = app.goTo screen := by
  cases screen <;> rfl

def goBack (app : AppState) : AppState := app.goTo .home

def canGoBack (app : AppState) : Bool := app.currentScreen != .home

def showReverseCamera (app : AppState) : AppState := { app with currentOverlay := .reverseCamera }

def hideReverseCamera (app : AppState) : AppState := { app with currentOverlay := .none }

def hideOverlay (app : AppState) : AppState := { app with currentOverlay := .none }

def setReverseEngaged (app : AppState) (engaged : Bool) : AppState :=
  { app with reverseEngaged := engaged }

def updateSystemMode (app : AppState) : AppState := app

def escape (app : AppState) : AppState :=
  if app.currentOverlay ≠ .none then
    if app.currentOverlay ≠ .reverseCamera ∨ ¬ app.reverseEngaged then app.hideOverlay else app
  else if app.canGoBack then app.goBack
  else app

def tapOverlay (app : AppState) : AppState :=
  if app.currentOverlay = .reverseCamera then
    if ¬ app.reverseEngaged then app.hideReverseCamera else app
  else app

def tapCloseButton (app : AppState) : AppState :=
  if app.currentOverlay = .reverseCamera then app.hideReverseCamera else app

end AppState

structure Hmi where
  provider : DataProvider := {}
  app : AppState := {}

namespace Hmi

/-- The handlers of the window's `Connections` to the provider. -/
def onSignal (hmi : Hmi) : DataProvider.Signal → Hmi
  | .reverseChanged =>
    { hmi with app := hmi.app.setReverseEngaged hmi.provider.reverseEngaged }
  | .dataChanged => hmi

def afterSlot (hmi : Hmi) (slot : DataProvider × Option DataProvider.Signal) : Hmi :=
  let hmi' := { hmi with provider := slot.1 }
  match slot.2 with
  | some signal => hmi'.onSignal signal
  | none => hmi'

def reverseEventReceived (hmi : Hmi) (event : ReverseEvent) : Hmi :=
  hmi.afterSlot (hmi.provider.onReverseEventReceived event)

theorem reverseEventReceived_overlay (hmi : Hmi) (event : ReverseEvent) :
    (hmi.reverseEventReceived event).app.currentOverlay = hmi.app.currentOverlay := by
  rw [reverseEventReceived, DataProvider.onReverseEventReceived]
  split <;> rfl

theorem reverseEventReceived_engaged (hmi : Hmi) (event : ReverseEvent)
    (h : hmi.app.reverseEngaged = hmi.provider.reverseEngaged) :
    (hmi.reverseEventReceived event).app.reverseEngaged = event.engaged ∧
      (hmi.reverseEventReceived event).provider.reverseEngaged = event.engaged := by
  rw [reverseEventReceived, DataProvider.onReverseEventReceived]
  split
  · exact ⟨rfl, rfl⟩
  · rename_i hsame
    have hevent := Decidable.of_not_not hsame
    exact ⟨h.trans hevent, hevent⟩

end Hmi

end SpeeduinoDash
