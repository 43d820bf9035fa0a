import SpeeduinoDash.HealthSections

set_option autoImplicit false

/-!
# The mode follows health

Between the change of a subsystem's health and the call of `updateSystemMode` the mutex may be
released, so mode and health part for a while. Whoever parted them still owes the update.
-/
namespace SpeeduinoDash.SystemHealth
open Lib.Monitor Lib.Runs

abbrev HealthEvent : Type := Event Operation Notification

def requested (shutdown : Bool) : HealthEvent → Bool
  | .called .requestShutdown => true
  | .called (.reset _) => false
  | _ => shutdown

def shutdownSinceReset (log : List HealthEvent) : Bool := run requested false log

theorem shutdownSinceReset_snoc (log : List HealthEvent) (e : HealthEvent) :
    shutdownSinceReset (log ++ [e]) = requested (shutdownSinceReset log) e :=
  run_snoc requested false log e

theorem requested_ordinary {op : Operation} (h : op.ordinary = true) (shutdown : Bool) :
    requested shutdown (.called op) = shutdown := by
  cases op <;> first | rfl | cases h

def ModeInOrder (h : SystemHealth) : Prop :=
  h.currentMode = if h.shutdownRequested then .safeShutdown else modeFor h.health

/-- Safe shutdown is forced by a request and ended by a reset, never computed. -/
def ShutdownInOrder (h : SystemHealth) : Prop :=
  h.shutdownRequested = true ↔ h.currentMode = .safeShutdown

theorem modeFor_healthy : modeFor (fun _ => true) = .normal := by decide

theorem modeFor_ne_safeShutdown (health : SubsystemId → Bool) :
    modeFor health ≠ .safeShutdown := by
  unfold modeFor
  dsimp only
  split_ifs <;> exact SystemMode.noConfusion

theorem requestShutdown_cases (h : SystemHealth) :
    (h.shutdownRequested = true ∧ finish (h.perform .requestShutdown) = (h, none)) ∨
    (h.shutdownRequested = false ∧ finish (h.perform .requestShutdown) =
      ({ h with shutdownRequested := true, currentMode := .safeShutdown },
        h.notifyModeChange h.currentMode .safeShutdown)) := by
  cases hrequested : h.shutdownRequested with
  | true => exact .inl ⟨rfl, by simp [perform, requestShutdown, hrequested, finish]⟩
  | false =>
    exact .inr ⟨rfl, by simp [perform, requestShutdown, hrequested, finish, notifyModeChange]⟩

/-- Everything `reset` does, heartbeats and error records apart. -/
theorem reset_eq (h : SystemHealth) (now : ℤ) : ∃ h' : SystemHealth,
    finish (h.perform (.reset now)) =
      (h', if h.currentMode ≠ .normal then h.notifyModeChange h.currentMode .normal else none) ∧
    h'.currentMode = .normal ∧ h'.shutdownRequested = false ∧ h'.health = (fun _ => true) ∧
    h'.modeCallback = h.modeCallback ∧ h'.healthCallback = h.healthCallback :=
  ⟨_, rfl, rfl, rfl, rfl, rfl, rfl⟩

section Ordinary

variable {h : SystemHealth} {p : SystemHealth × Stop}

theorem finish_shutdownRequested (hsection : Section h p) :
    (finish p).1.shutdownRequested = h.shutdownRequested := by
  obtain ⟨h', stop⟩ := p
  cases stop with
  | stops call => exact hsection.same.shutdownRequested
  | updates => exact (updateSystemMode_frame h').1.trans hsection.same.shutdownRequested

theorem finish_shutdownInOrder (hsection : Section h p) (horder : ShutdownInOrder h) :
    ShutdownInOrder (finish p).1 := by
  obtain ⟨h', stop⟩ := p
  have horder' : ShutdownInOrder h' := by
    rw [ShutdownInOrder, hsection.same.shutdownRequested, hsection.same.currentMode]
    exact horder
  cases stop with
  | stops call => exact horder'
  | updates =>
    change ShutdownInOrder h'.updateSystemMode.1
    obtain ⟨-, hupdate⟩ | ⟨hrunning, -, hupdate⟩ := h'.updateSystemMode_cases
    · rwa [hupdate]
    · rw [hupdate, ShutdownInOrder]
      exact iff_of_false (by simp [hrunning]) (modeFor_ne_safeShutdown _)

/-- A section leaves the mode in order, or owes the update, if that was so before. -/
theorem finish_modeInOrder (hsection : Section h p) (hshutdown : ShutdownInOrder h)
    (horder : ModeInOrder h ∨ p.2.Owes) :
    ModeInOrder (finish p).1 ∨ Owes Rest.Owes (finish p).2 := by
  obtain ⟨h', stop⟩ := p
  have hmode := hsection.same.currentMode
  have hrequested := hsection.same.shutdownRequested
  dsimp only at hmode hrequested
  obtain ⟨hhealth, hstop⟩ | ⟨hstop, -⟩ | ⟨id, healthy, rest, hstop, howes, -, -⟩ := hsection.stop
  all_goals
    dsimp only at hstop
    subst hstop
  · refine .inl ?_
    have horder' := horder.resolve_right (fun howes => howes)
    change h'.currentMode = if h'.shutdownRequested then _ else modeFor h'.health
    dsimp only at hhealth
    rw [hmode, hrequested, hhealth]
    exact horder'
  · refine .inl ?_
    change ModeInOrder h'.updateSystemMode.1
    obtain ⟨hkeep, hupdate⟩ | ⟨hrunning, -, hupdate⟩ := h'.updateSystemMode_cases
    · rw [hupdate, ModeInOrder]
      cases hnow : h'.shutdownRequested with
      | true => exact hmode.trans (hshutdown.mp (hrequested.symm.trans hnow))
      | false =>
        rw [hnow] at hkeep
        exact hkeep.resolve_left Bool.false_ne_true
    · rw [hupdate, ModeInOrder]
      dsimp only
      rw [if_neg (by simp [hrunning])]
      rfl
  · exact .inr ⟨_, rest, rfl, howes⟩

end Ordinary

theorem start_shutdownInOrder (h : SystemHealth) (op : Operation) (horder : ShutdownInOrder h) :
    ShutdownInOrder (sections.start op h).1 ∧
      (sections.start op h).1.shutdownRequested = requested h.shutdownRequested (.called op) := by
  change ShutdownInOrder (finish (h.perform op)).1 ∧ (finish (h.perform op)).1.shutdownRequested = _
  obtain ⟨hordinary, hsection⟩ | ⟨callback, rfl⟩ | ⟨callback, rfl⟩ | rfl | ⟨now, rfl⟩ :=
    h.perform_cases op
  · rw [requested_ordinary hordinary]
    exact ⟨finish_shutdownInOrder hsection horder, finish_shutdownRequested hsection⟩
  · exact ⟨horder, rfl⟩
  · exact ⟨horder, rfl⟩
  · obtain ⟨hrequested, hfinish⟩ | ⟨-, hfinish⟩ := h.requestShutdown_cases
    · rw [hfinish]
      exact ⟨horder, hrequested⟩
    · rw [hfinish]
      exact ⟨iff_of_true rfl rfl, rfl⟩
  · obtain ⟨h', hfinish, hmode, hshutdown, -, -, -⟩ := h.reset_eq now
    rw [hfinish]
    refine ⟨iff_of_false ?_ ?_, hshutdown⟩
    · simp [hshutdown]
    · simp [hmode]

theorem start_modeInOrder (h : SystemHealth) (op : Operation) (hshutdown : ShutdownInOrder h)
    (horder : ModeInOrder h) :
    ModeInOrder (sections.start op h).1 ∨ Owes Rest.Owes (sections.start op h).2 := by
  change ModeInOrder (finish (h.perform op)).1 ∨ Owes Rest.Owes (finish (h.perform op)).2
  obtain ⟨-, hsection⟩ | ⟨callback, rfl⟩ | ⟨callback, rfl⟩ | rfl | ⟨now, rfl⟩ :=
    h.perform_cases op
  · exact finish_modeInOrder hsection hshutdown (.inl horder)
  · exact .inl horder
  · exact .inl horder
  · obtain ⟨-, hfinish⟩ | ⟨-, hfinish⟩ := h.requestShutdown_cases
    · rw [hfinish]
      exact .inl horder
    · rw [hfinish]
      exact .inl rfl
  · obtain ⟨h', hfinish, hmode, hrequested, hhealth, -, -⟩ := h.reset_eq now
    rw [hfinish, ModeInOrder, hmode, hrequested, hhealth, modeFor_healthy]
    exact .inl rfl

section Runs

variable {C : Type} [DecidableEq C]

def started (now : ℤ) (modeCallback healthCallback : Bool) :
    System C SystemHealth Operation Notification Rest :=
  { object := .new now modeCallback healthCallback }

theorem run_modeInOrder (now : ℤ) (modeCallback healthCallback : Bool)
    (steps : List (Step C Operation)) :
    ModeInOrder (run (step sections) (started now modeCallback healthCallback) steps).object ∨
      (run (step sections) (started now modeCallback healthCallback) steps).Owed Rest.Owes := by
  refine run_owed sections ModeInOrder ShutdownInOrder Rest.Owes
    (fun h op horder => (start_shutdownInOrder h op horder).1)
    (fun h rest horder => finish_shutdownInOrder (section_goOn h rest) horder)
    start_modeInOrder ?_ ?_ ?_ steps
  · intro h rest hshutdown horder
    refine finish_modeInOrder (section_goOn h rest) hshutdown ?_
    exact horder.symm.imp_right (goOn_owes h)
  · exact iff_of_false Bool.false_ne_true SystemMode.noConfusion
  · exact modeFor_healthy.symm

theorem run_shutdownRequested (now : ℤ) (modeCallback healthCallback : Bool)
    (steps : List (Step C Operation)) :
    let s := run (step sections) (started now modeCallback healthCallback) steps
    s.object.shutdownRequested = shutdownSinceReset s.log := by
  intro s
  have hrun : ShutdownInOrder s.object ∧ s.object.shutdownRequested = shutdownSinceReset s.log := by
    refine run_object sections (fun _ => True)
      (fun log h => ShutdownInOrder h ∧ h.shutdownRequested = shutdownSinceReset log)
      ?_ ?_ ?_ ⟨?_, rfl⟩ steps (fun _ _ _ => trivial)
    · rintro log h op - ⟨horder, hlog⟩
      rw [shutdownSinceReset_snoc, ← hlog]
      exact start_shutdownInOrder h op horder
    · rintro log h n ⟨horder, hlog⟩
      rw [shutdownSinceReset_snoc, ← hlog]
      exact ⟨horder, rfl⟩
    · rintro log h rest ⟨horder, hlog⟩
      exact ⟨finish_shutdownInOrder (section_goOn h rest) horder,
        (finish_shutdownRequested (section_goOn h rest)).trans hlog⟩
    · exact iff_of_false Bool.false_ne_true SystemMode.noConfusion
  exact hrun.2

/-- Nobody inside an operation: the mode is safe shutdown if that was requested, and otherwise
    what the update computes from health. -/
theorem mode_matches_health (now : ℤ) (modeCallback healthCallback : Bool)
    (steps : List (Step C Operation))
    (hquiet : (run (step sections) (started now modeCallback healthCallback)
      steps).Quiescent) :
    let s := run (step sections) (started now modeCallback healthCallback) steps
    s.object.currentMode =
      if shutdownSinceReset s.log then .safeShutdown else modeFor s.object.health := by
  intro s
  have horder : ModeInOrder s.object :=
    (run_modeInOrder now modeCallback healthCallback steps).resolve_right hquiet.not_owed
  have hrequested : s.object.shutdownRequested = shutdownSinceReset s.log :=
    run_shutdownRequested now modeCallback healthCallback steps
  rw [ModeInOrder, hrequested] at horder
  exact horder

end Runs

/-- Two callers: the second reports while the first is in its callback. -/
def nested : List (Step Bool Operation) :=
  [.call false (.reportError (some .can) "bus off" true), .deliver false,
    .call true (.reportError (some .camera) "no signal" true), .deliver true, .resume true,
    .deliver true, .resume true, .resume false, .deliver false, .resume false]

theorem mode_matches_health_nested :
    (run (step sections) (started 0 true true) nested).object.currentMode = .degradedMultiple := by
  have hquiet : (run (step sections) (started 0 true true) nested).Quiescent := by
    intro c
    cases c <;> rfl
  exact (mode_matches_health 0 true true nested hquiet).trans (by decide)

end SpeeduinoDash.SystemHealth
