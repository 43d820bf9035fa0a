import Mathlib.Data.Nat.Notation
import Mathlib.Tactic.SplitIfs
import SpeeduinoDash.Lib.Runs

set_option autoImplicit false

/-!
# The embedded OpenAuto and its video widget

Containers and windows are numbered. What the toolkit and the library make of a call (whether new
window flags hide the widget, whether the initialization fails) comes with the operation.
-/
namespace SpeeduinoDash
open Lib.Runs

structure OpenAutoEmbedded where
  running : Bool := false
  connected : Bool := false
  errorMessage : String := ""
  phoneName : String := ""
  videoVisible : Bool := false
  containerRegistered : Bool := false
  container : Option ℕ := none
  containerWindow : Option ℕ := none
  /-- Whether the video widget is shown. -/
  shown : Bool := false
  /-- The containers whose `destroyed` is connected to `onContainerDestroyed`. -/
  connections : List ℕ := []
  /-- The containers that wait for a window. -/
  deferred : List ℕ := []
deriving DecidableEq

namespace OpenAutoEmbedded

/-- `setVideoContainer` of a container with a window. `hides` is whether `setWindowFlags` hides the
    widget. -/
def register (s : OpenAutoEmbedded) (container window : ℕ) (hides : Bool) : OpenAutoEmbedded :=
  let s :=
    { s with
      connections :=
        if container ∈ s.connections then s.connections else container :: s.connections
      container := some container
      containerWindow := some window
      containerRegistered := true
      shown := s.shown && !hides }
  if s.connected && s.videoVisible then { s with shown := true } else s

def setVideoContainer (s : OpenAutoEmbedded) (container window : Option ℕ) (hides : Bool) :
    OpenAutoEmbedded :=
  match container, window with
  | none, _ => s
  | some container, none => { s with deferred := container :: s.deferred }
  | some container, some window => s.register container window hides

/-- A container that waits for a window registers itself at each one it gets. -/
def windowChanged (s : OpenAutoEmbedded) (container : ℕ) (window : Option ℕ) (hides : Bool) :
    OpenAutoEmbedded :=
  if container ∈ s.deferred then
    match window with
    | none => s
    | some window => s.register container window hides
  else s

def onContainerDestroyed (s : OpenAutoEmbedded) : OpenAutoEmbedded :=
  { s with container := none, containerWindow := none, containerRegistered := false, shown := false }

/-- The pointer to a container that is destroyed goes, and so do its connections once they have
    been served. -/
def containerDestroyed (s : OpenAutoEmbedded) (container : ℕ) : OpenAutoEmbedded :=
  let gone :=
    { s with
      container := if s.container = some container then none else s.container
      connections := s.connections.filter (· ≠ container)
      deferred := s.deferred.filter (· ≠ container) }
  if container ∈ s.connections then gone.onContainerDestroyed else gone

def setVideoVisible (s : OpenAutoEmbedded) (visible : Bool) : OpenAutoEmbedded :=
  if s.videoVisible = visible then s
  else
    let s := { s with videoVisible := visible }
    if s.containerRegistered = false then s
    else if visible then
      if s.connected then { s with shown := true } else s
    else { s with shown := false }

def setConnected (s : OpenAutoEmbedded) (connected : Bool) : OpenAutoEmbedded :=
  if s.connected = connected then s
  else if connected then { s with connected := true }
  else { s with connected := false, phoneName := "" }

def onProjectionActive (s : OpenAutoEmbedded) (active : Bool) : OpenAutoEmbedded :=
  if active then
    let connected := s.setConnected true
    if s.videoVisible && s.containerRegistered then { connected with shown := true } else connected
  else { s with shown := false }.setConnected false

/-- `failure` is the error of an initialization that fails. -/
def start (s : OpenAutoEmbedded) (failure : Option String) : OpenAutoEmbedded :=
  if s.running then s
  else
    match failure with
    | some message => { s with errorMessage := message }
    | none => { s with running := true, errorMessage := "" }

def stop (s : OpenAutoEmbedded) : OpenAutoEmbedded :=
  if s.running = false then s else { s with running := false }.setConnected false

inductive Op where
  | setVideoContainer (container window : Option ℕ) (hides : Bool)
  | windowChanged (container : ℕ) (window : Option ℕ) (hides : Bool)
  | containerDestroyed (container : ℕ)
  | setVideoVisible (visible : Bool)
  | onProjectionActive (active : Bool)
  | start (failure : Option String)
  | stop

def next (s : OpenAutoEmbedded) : Op → OpenAutoEmbedded
  | .setVideoContainer container window hides => s.setVideoContainer container window hides
  | .windowChanged container window hides => s.windowChanged container window hides
  | .containerDestroyed container => s.containerDestroyed container
  | .setVideoVisible visible => s.setVideoVisible visible
  | .onProjectionActive active => s.onProjectionActive active
  | .start failure => s.start failure
  | .stop => s.stop

def after (ops : List Op) : OpenAutoEmbedded := run next {} ops

section Effects

variable (s : OpenAutoEmbedded)

theorem register_eq (container window : ℕ) (hides : Bool) :
    s.register container window hides =
      { s with
        connections :=
          if container ∈ s.connections then s.connections else container :: s.connections
        container := some container
        containerWindow := some window
        containerRegistered := true
        shown := (s.connected && s.videoVisible) || (s.shown && !hides) } := by
  unfold register
  dsimp only
  by_cases hboth : (s.connected && s.videoVisible) = true
  · rw [if_pos hboth, hboth]
    rfl
  · rw [if_neg hboth, Bool.eq_false_iff.mpr hboth]
    rfl

theorem setVideoVisible_eq (visible : Bool) :
    s.setVideoVisible visible =
      { s with
        videoVisible := visible
        shown :=
          if s.videoVisible ≠ visible ∧ s.containerRegistered = true then
            visible && (s.connected || s.shown)
          else s.shown } := by
  unfold setVideoVisible
  dsimp only
  by_cases hsame : s.videoVisible = visible
  · subst hsame
    simp
  · rw [if_neg hsame]
    cases hregistered : s.containerRegistered with
    | false => simp
    | true =>
      cases visible with
      | false => simp [hsame]
      | true => cases hconnected : s.connected <;> simp [hsame]

theorem setConnected_eq (connected : Bool) :
    ∃ phoneName, s.setConnected connected = { s with connected, phoneName } := by
  unfold setConnected
  split_ifs with hsame hon
  · subst hsame
    exact ⟨s.phoneName, rfl⟩
  · subst hon
    exact ⟨s.phoneName, rfl⟩
  · rw [Bool.not_eq_true] at hon
    subst hon
    exact ⟨"", rfl⟩

theorem onProjectionActive_eq (active : Bool) : ∃ phoneName,
    s.onProjectionActive active =
      { s with
        connected := active
        phoneName
        shown := active && ((s.videoVisible && s.containerRegistered) || s.shown) } := by
  unfold onProjectionActive
  cases active with
  | true =>
    obtain ⟨phoneName, hconnected⟩ := s.setConnected_eq true
    refine ⟨phoneName, ?_⟩
    dsimp only
    rw [hconnected, if_pos rfl]
    by_cases hboth : (s.videoVisible && s.containerRegistered) = true
    · rw [if_pos hboth, hboth]
      rfl
    · rw [if_neg hboth, Bool.eq_false_iff.mpr hboth]
      rfl
  | false =>
    obtain ⟨phoneName, hconnected⟩ := setConnected_eq { s with shown := false } false
    exact ⟨phoneName, hconnected⟩

theorem start_eq (failure : Option String) :
    ∃ running errorMessage, s.start failure = { s with running, errorMessage } := by
  unfold start
  split_ifs
  · exact ⟨s.running, s.errorMessage, rfl⟩
  · cases failure with
    | some message => exact ⟨s.running, message, rfl⟩
    | none => exact ⟨true, "", rfl⟩

theorem stop_eq (hrunning : s.running = true) :
    ∃ phoneName, s.stop = { s with running := false, connected := false, phoneName } := by
  obtain ⟨phoneName, hconnected⟩ := setConnected_eq { s with running := false } false
  refine ⟨phoneName, ?_⟩
  unfold stop
  rw [if_neg (by simp [hrunning]), hconnected]

end Effects

end OpenAutoEmbedded

end SpeeduinoDash
