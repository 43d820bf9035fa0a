import SpeeduinoDash.AppState
import SpeeduinoDash.Lib.Runs

set_option autoImplicit false

/-!
# The reverse camera overlay over whole runs

Reverse events set the flag, the camera test, Escape and taps set the overlay.
-/
namespace SpeeduinoDash.Hmi
open Lib.Runs

inductive Op where
  | reverseEvent (event : ReverseEvent)
  | navigate (screen : Screen)
  | testCamera
  | escape
  | tapOverlay
  | tapCloseButton

def step (hmi : Hmi) : Op → Hmi
  | .reverseEvent event => hmi.reverseEventReceived event
  | .navigate screen => { hmi with app := hmi.app.navigate screen }
  | .testCamera => { hmi with app := hmi.app.showReverseCamera }
  | .escape => { hmi with app := hmi.app.escape }
  | .tapOverlay => { hmi with app := hmi.app.tapOverlay }
  | .tapCloseButton => { hmi with app := hmi.app.tapCloseButton }

def after (ops : List Op) : Hmi := run step {} ops

def Accepted (before : List Op) (event : ReverseEvent) : Prop :=
  (after before).provider.reverseEngaged ≠ event.engaged

def Op.releases : Op → Bool
  | .reverseEvent event => !event.engaged
  | .tapCloseButton => true
  | _ => false

/-- The camera is shown from an event that engages reverse up to the next event that disengages
    it or a tap on the close button. -/
def ShowsCamera (ops : List Op) : Prop :=
  ∀ before event since, before ++ .reverseEvent event :: since <+: ops → event.engaged = true →
    Accepted before event → (∀ op ∈ since, op.releases = false) →
    (after (before ++ .reverseEvent event :: since)).app.currentOverlay = .reverseCamera

def DismissesCamera (ops : List Op) : Prop :=
  ∀ before event, before ++ [.reverseEvent event] <+: ops → event.engaged = false →
    Accepted before event →
    (after (before ++ [.reverseEvent event])).app.currentOverlay ≠ .reverseCamera

/-- Every accepted event finds the overlay as it has to be afterwards. -/
def Prepared (ops : List Op) : Prop :=
  ∀ before event, before ++ [.reverseEvent event] <+: ops → Accepted before event →
    ((after before).app.currentOverlay = .reverseCamera ↔ event.engaged = true)

def Synced (hmi : Hmi) : Prop := hmi.app.reverseEngaged = hmi.provider.reverseEngaged

theorem synced_step (hmi : Hmi) (op : Op) (h : Synced hmi) : Synced (step hmi op) := by
  cases op with
  | reverseEvent event =>
    obtain ⟨happ, hprovider⟩ := hmi.reverseEventReceived_engaged event h
    exact happ.trans hprovider.symm
  | navigate screen =>
    have happ : (hmi.app.navigate screen).reverseEngaged = hmi.app.reverseEngaged := by
      rw [AppState.navigate_eq]
      rfl
    exact happ.trans h
  | testCamera => exact h
  | escape =>
    have happ : hmi.app.escape.reverseEngaged = hmi.app.reverseEngaged := by
      rw [AppState.escape]
      split_ifs <;> rfl
    exact happ.trans h
  | tapOverlay =>
    have happ : hmi.app.tapOverlay.reverseEngaged = hmi.app.reverseEngaged := by
      rw [AppState.tapOverlay]
      split_ifs <;> rfl
    exact happ.trans h
  | tapCloseButton =>
    have happ : hmi.app.tapCloseButton.reverseEngaged = hmi.app.reverseEngaged := by
      rw [AppState.tapCloseButton]
      split_ifs <;> rfl
    exact happ.trans h

theorem after_synced (ops : List Op) : Synced (after ops) := by
  have hnew : Synced {} := rfl
  exact run_invariant step Synced synced_step hnew ops

structure Held (hmi : Hmi) : Prop where
  synced : Synced hmi
  engaged : hmi.app.reverseEngaged = true
  overlay : hmi.app.currentOverlay = .reverseCamera

/-- Escape and a tap respect the engaged flag: only a release ends the hold. -/
theorem held_step (hmi : Hmi) (op : Op) (hop : op.releases = false) (h : Held hmi) :
    Held (step hmi op) := by
  have hsynced := synced_step hmi op h.synced
  cases op with
  | reverseEvent event =>
    have hengaged : event.engaged = true := by simpa [Op.releases] using hop
    have happ := (hmi.reverseEventReceived_engaged event h.synced).1
    exact ⟨hsynced, happ.trans hengaged, (hmi.reverseEventReceived_overlay event).trans h.overlay⟩
  | navigate screen =>
    refine ⟨hsynced, ?_, ?_⟩
    · rw [step, AppState.navigate_eq]
      exact h.engaged
    · rw [step, AppState.navigate_eq]
      exact h.overlay
  | testCamera => exact ⟨hsynced, h.engaged, rfl⟩
  | escape =>
    have hkeep : hmi.app.escape = hmi.app := by
      rw [AppState.escape, if_pos (by simp [h.overlay]), if_neg (by simp [h.overlay, h.engaged])]
    refine ⟨hsynced, ?_, ?_⟩
    · change hmi.app.escape.reverseEngaged = true
      rw [hkeep, h.engaged]
    · change hmi.app.escape.currentOverlay = .reverseCamera
      rw [hkeep, h.overlay]
  | tapOverlay =>
    have hkeep : hmi.app.tapOverlay = hmi.app := by
      rw [AppState.tapOverlay, if_pos h.overlay, if_neg (by simp [h.engaged])]
    refine ⟨hsynced, ?_, ?_⟩
    · change hmi.app.tapOverlay.reverseEngaged = true
      rw [hkeep, h.engaged]
    · change hmi.app.tapOverlay.currentOverlay = .reverseCamera
      rw [hkeep, h.overlay]
  | tapCloseButton => simp [Op.releases] at hop

theorem held_run (hmi : Hmi) (since : List Op) (hsince : ∀ op ∈ since, op.releases = false)
    (h : Held hmi) : Held (run step hmi since) := by
  induction since generalizing hmi with
  | nil => exact h
  | cons op since ih =>
    apply ih
    · intro op' hop'
      exact hsince op' (List.mem_cons_of_mem op hop')
    · exact held_step hmi op (hsince op List.mem_cons_self) h

theorem after_event (before : List Op) (event : ReverseEvent) :
    after (before ++ [.reverseEvent event]) = (after before).reverseEventReceived event := by
  rw [after, run_snoc]
  rfl

theorem after_event_overlay (before : List Op) (event : ReverseEvent) :
    (after (before ++ [.reverseEvent event])).app.currentOverlay =
      (after before).app.currentOverlay := by
  rw [after_event, reverseEventReceived_overlay]

theorem prepared_of_follows {ops : List Op} (hshows : ShowsCamera ops)
    (hdismisses : DismissesCamera ops) : Prepared ops := by
  intro before event hprefix haccepted
  rw [← after_event_overlay before event]
  cases hevent : event.engaged with
  | true =>
    have hshown := hshows before event [] hprefix hevent haccepted
    simp only [iff_true]
    exact hshown (fun _ hmem => absurd hmem List.not_mem_nil)
  | false =>
    have hhidden := hdismisses before event hprefix hevent haccepted
    simpa using hhidden

theorem showsCamera_of_prepared {ops : List Op} (h : Prepared ops) : ShowsCamera ops := by
  intro before event since hprefix hevent haccepted hsince
  have hbefore : before ++ [.reverseEvent event] <+: ops := by
    rw [List.append_cons] at hprefix
    exact (List.prefix_append _ since).trans hprefix
  have hheld : Held (after (before ++ [.reverseEvent event])) := by
    refine ⟨after_synced _, ?_, ?_⟩
    · rw [after_event]
      have happ := (after before).reverseEventReceived_engaged event (after_synced before)
      exact happ.1.trans hevent
    · rw [after_event_overlay]
      exact (h before event hbefore haccepted).mpr hevent
  rw [List.append_cons, after, run_append]
  exact (held_run _ since hsince hheld).overlay

theorem dismissesCamera_of_prepared {ops : List Op} (h : Prepared ops) : DismissesCamera ops := by
  intro before event hprefix hevent haccepted hshown
  rw [after_event_overlay] at hshown
  have := (h before event hprefix haccepted).mp hshown
  rw [hevent] at this
  cases this

/-- The overlay follows reverse gear exactly in the runs whose accepted events find it right
    already: no event changes it. -/
theorem follows_reverse_iff (ops : List Op) :
    ShowsCamera ops ∧ DismissesCamera ops ↔ Prepared ops := by
  constructor
  · rintro ⟨hshows, hdismisses⟩
    exact prepared_of_follows hshows hdismisses
  · intro h
    exact ⟨showsCamera_of_prepared h, dismissesCamera_of_prepared h⟩

theorem reverse_opens_no_camera : ¬ ∀ ops, ShowsCamera ops ∧ DismissesCamera ops := by
  intro hclaim
  have hshown := (hclaim [.reverseEvent { engaged := true }]).1 [] { engaged := true } []
    (List.prefix_refl _) rfl (by unfold Accepted; decide) (by simp)
  exact absurd hshown (by decide)

end SpeeduinoDash.Hmi
