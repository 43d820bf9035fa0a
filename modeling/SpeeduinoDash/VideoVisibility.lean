import SpeeduinoDash.OpenAutoEmbedded

set_option autoImplicit false

/-!
# When the video is shown

Every operation but one leaves the widget as its three flags say. `stop` takes the connection away
and leaves the widget.
-/
namespace SpeeduinoDash.OpenAutoEmbedded
open Lib.Runs

def onDisplay (s : OpenAutoEmbedded) : Bool :=
  s.connected && s.videoVisible && s.containerRegistered

def ShownAsFlagged (s : OpenAutoEmbedded) : Prop := s.shown = s.onDisplay

def StopsOffDisplay (s : OpenAutoEmbedded) (op : Op) : Prop :=
  op = .stop → s.running = true → s.onDisplay = false

def CallsWhileRunning (s : OpenAutoEmbedded) (op : Op) : Prop :=
  ∀ active, op = .onProjectionActive active → s.running = true

theorem register_shown {s : OpenAutoEmbedded} (h : s.ShownAsFlagged) (container window : ℕ)
    (hides : Bool) : (s.register container window hides).ShownAsFlagged := by
  rw [ShownAsFlagged, onDisplay] at h ⊢
  rw [register_eq]
  dsimp only
  rw [h]
  cases s.connected && s.videoVisible <;> rfl

theorem setVideoContainer_shown {s : OpenAutoEmbedded} (h : s.ShownAsFlagged)
    (container window : Option ℕ) (hides : Bool) :
    (s.setVideoContainer container window hides).ShownAsFlagged := by
  unfold setVideoContainer
  split
  · exact h
  · exact h
  · exact register_shown h _ _ hides

theorem windowChanged_shown {s : OpenAutoEmbedded} (h : s.ShownAsFlagged) (container : ℕ)
    (window : Option ℕ) (hides : Bool) :
    (s.windowChanged container window hides).ShownAsFlagged := by
  unfold windowChanged
  split_ifs
  · cases window with
    | none => exact h
    | some window => exact register_shown h _ _ hides
  · exact h

theorem containerDestroyed_shown {s : OpenAutoEmbedded} (h : s.ShownAsFlagged) (container : ℕ) :
    (s.containerDestroyed container).ShownAsFlagged := by
  unfold containerDestroyed
  dsimp only
  by_cases hconnected : container ∈ s.connections
  · rw [if_pos hconnected]
    exact (Bool.and_false _).symm
  · rw [if_neg hconnected]
    exact h

theorem setVideoVisible_shown {s : OpenAutoEmbedded} (h : s.ShownAsFlagged) (visible : Bool) :
    (s.setVideoVisible visible).ShownAsFlagged := by
  rw [ShownAsFlagged, onDisplay] at h ⊢
  rw [setVideoVisible_eq]
  dsimp only
  split_ifs with hnew
  · -- it was shown only if connected
    rw [h, hnew.2]
    cases s.connected <;> simp
  · rw [h]
    rcases not_and_or.mp hnew with hsame | hunregistered
    · rw [not_not.mp hsame]
    · rw [Bool.not_eq_true] at hunregistered
      rw [hunregistered, Bool.and_false, Bool.and_false]

theorem onProjectionActive_shown {s : OpenAutoEmbedded} (h : s.ShownAsFlagged) (active : Bool) :
    (s.onProjectionActive active).ShownAsFlagged := by
  obtain ⟨phoneName, heq⟩ := s.onProjectionActive_eq active
  rw [ShownAsFlagged, onDisplay] at h ⊢
  rw [heq]
  dsimp only
  rw [h, Bool.and_assoc, Bool.and_assoc]
  cases s.videoVisible && s.containerRegistered <;> simp

theorem start_shown {s : OpenAutoEmbedded} (h : s.ShownAsFlagged) (failure : Option String) :
    (s.start failure).ShownAsFlagged := by
  obtain ⟨running, errorMessage, heq⟩ := s.start_eq failure
  rw [heq]
  exact h

theorem stop_shown_iff {s : OpenAutoEmbedded} (h : s.ShownAsFlagged) :
    s.stop.ShownAsFlagged ↔ (s.running = true → s.onDisplay = false) := by
  cases hrunning : s.running with
  | false =>
    have hsame : s.stop = s := if_pos hrunning
    rw [hsame]
    exact iff_of_true h nofun
  | true =>
    obtain ⟨phoneName, heq⟩ := s.stop_eq hrunning
    rw [heq, imp_iff_right rfl]
    exact iff_of_eq (congrArg (· = false) h)

theorem next_shown_iff (s : OpenAutoEmbedded) (op : Op) (h : s.ShownAsFlagged) :
    (s.next op).ShownAsFlagged ↔ s.StopsOffDisplay op := by
  cases op with
  | setVideoContainer container window hides =>
    exact iff_of_true (setVideoContainer_shown h container window hides) nofun
  | windowChanged container window hides =>
    exact iff_of_true (windowChanged_shown h container window hides) nofun
  | containerDestroyed container => exact iff_of_true (containerDestroyed_shown h container) nofun
  | setVideoVisible visible => exact iff_of_true (setVideoVisible_shown h visible) nofun
  | onProjectionActive active => exact iff_of_true (onProjectionActive_shown h active) nofun
  | start failure => exact iff_of_true (start_shown h failure) nofun
  | stop =>
    refine (stop_shown_iff h).trans ?_
    simp [StopsOffDisplay]

theorem shown_as_flagged_iff (ops : List Op) :
    EveryState next ShownAsFlagged {} ops ↔ EveryStep next StopsOffDisplay {} ops := by
  have hinitial : ShownAsFlagged {} := rfl
  exact everyState_iff (fun _ => True) (fun _ _ => id) (fun s op _ => next_shown_iff s op) trivial
    hinitial ops

def stoppedOnDisplay : List Op :=
  [.setVideoContainer (some 1) (some 1) true, .setVideoVisible true, .start none,
    .onProjectionActive true, .stop]

theorem shown_after_stop :
    ¬ ∀ ops, EveryStep next CallsWhileRunning {} ops → EveryState next ShownAsFlagged {} ops := by
  intro h
  have hcalls : EveryStep next CallsWhileRunning {} stoppedOnDisplay := by
    simp only [stoppedOnDisplay, everyStep_cons]
    exact ⟨nofun, nofun, nofun, fun _ _ => by decide, nofun, everyStep_nil⟩
  have hshown := h stoppedOnDisplay hcalls stoppedOnDisplay List.prefix_rfl
  revert hshown
  unfold ShownAsFlagged
  decide

end SpeeduinoDash.OpenAutoEmbedded
