import SpeeduinoDash.HealthModes

set_option autoImplicit false

/-!
# Degradation while subsystems fail

The modes are numbered by severity. The cascade of `updateSystemMode` asks for CAN and camera
first, so a failure of one of them on top of another subsystem's gives a less severe mode.
-/
namespace SpeeduinoDash.SystemHealth
open Lib.Monitor Lib.Runs

/-- No subsystem has come back from `h` to `h'`. -/
def Worse (h h' : SystemHealth) : Prop := ∀ id, h'.health id = true → h.health id = true

section Cascade

variable {v w : SubsystemId → Bool}

def others (health : SubsystemId → Bool) : ℕ :=
  [SubsystemId.openAuto, .gpio, .zmq, .config].countP (fun id => !health id)

theorem unhealthyCount_eq (health : SubsystemId → Bool) :
    unhealthyCount health = others health + (!health .can).toNat + (!health .camera).toNat := by
  rw [unhealthyCount, others, SubsystemId.all, List.countP_cons, List.countP_cons]
  cases health .can <;> cases health .camera <;> rfl

theorem others_mono (hworse : ∀ id, w id = true → v id = true) : others v ≤ others w := by
  apply List.countP_mono_left
  intro id _ hv
  cases hw : w id with
  | false => rfl
  | true =>
    rw [hworse id hw] at hv
    exact hv

theorem severity_modeFor (health : SubsystemId → Bool) : (modeFor health).severity =
    if unhealthyCount health = 0 then 0
    else if 3 ≤ unhealthyCount health then 5
    else if !health .can && !health .camera then 4
    else if !health .can then 1
    else if !health .camera then 2
    else 3 := by
  unfold modeFor
  dsimp only
  split_ifs <;> rfl

theorem degradedHMI_iff (mode : SystemMode) : mode = .degradedHMI ↔ mode.severity = 3 := by
  cases mode <;> simp [SystemMode.severity]

theorem modeFor_ne_degradedHMI (hne : v .can ≠ v .camera) : modeFor v ≠ .degradedHMI := by
  unfold modeFor
  dsimp only
  split_ifs with _ _ _ hcan hcamera
  · exact SystemMode.noConfusion
  · exact SystemMode.noConfusion
  · exact SystemMode.noConfusion
  · exact SystemMode.noConfusion
  · exact SystemMode.noConfusion
  · simp only [Bool.not_eq_true', Bool.not_eq_false] at hcan hcamera
    exact absurd (hcan.trans hcamera.symm) hne

/-- The one gap of the cascade: the HMI mode hides that CAN or camera alone weigh less. -/
theorem severity_le_iff (hworse : ∀ id, w id = true → v id = true) :
    (modeFor v).severity ≤ (modeFor w).severity ↔
      ¬ (modeFor v = .degradedHMI ∧ unhealthyCount w ≤ 2 ∧ w .can ≠ w .camera) := by
  have hothers := others_mono hworse
  have hcan := hworse .can
  have hcamera := hworse .camera
  rw [degradedHMI_iff, severity_modeFor, severity_modeFor, unhealthyCount_eq, unhealthyCount_eq]
  generalize others v = m at *
  generalize others w = n at *
  cases hvc : v .can <;> cases hvm : v .camera <;> cases hwc : w .can <;> cases hwm : w .camera
  all_goals simp [hvc, hvm, hwc, hwm] at hcan hcamera ⊢
  all_goals grind

end Cascade

/-- The state in which a call of `updateSystemMode` makes the mode less severe. -/
structure Masks (h : SystemHealth) : Prop where
  running : h.shutdownRequested = false
  mode : h.currentMode = .degradedHMI
  few : unhealthyCount h.health ≤ 2
  weighed : h.health .can ≠ h.health .camera

/-- The mode was computed while no less was healthy than is now. -/
structure Failing (h : SystemHealth) : Prop where
  shutdown : ShutdownInOrder h
  mode : h.shutdownRequested = true ∨
    ∃ before, h.currentMode = modeFor before ∧ ∀ id, h.health id = true → before id = true

/-- Only failures, and heartbeats and the like of subsystems that are healthy anyway. -/
def Operation.Fails (h : SystemHealth) : Operation → Prop
  | .reportHeartbeat id _ => ∀ i ∈ id, h.health i = true
  | .reportRecovery id _ => ∀ i ∈ id, h.health i = true
  | .setSubsystemHealth id healthy _ => healthy = true → ∀ i ∈ id, h.health i = true
  | .reset _ => False
  | _ => True

section Sections

variable {h : SystemHealth}

theorem Worse.trans {h' h'' : SystemHealth} (first : Worse h h') (then' : Worse h' h'') :
    Worse h h'' := fun id hid => first id (then' id hid)

theorem worse_of_health {h' : SystemHealth} (hhealth : h'.health = h.health) : Worse h h' :=
  fun id hid => by rwa [hhealth] at hid

theorem worse_setStatus {id : SubsystemId} {status : SubsystemStatus}
    (hstatus : status.healthy = true → h.health id = true) : Worse h (h.setStatus id status) := by
  intro id' hid'
  rw [setStatus_health] at hid'
  by_cases hid : id' = id
  · subst hid
    rw [Function.update_self] at hid'
    exact hstatus hid'
  · rwa [Function.update_of_ne hid] at hid'

theorem worse_notify {h' : SystemHealth} {id : SubsystemId} {healthy : Bool} {rest : Rest}
    {next : SystemHealth × Stop} (hworse : Worse h h') (hnext : Worse h next.1) :
    Worse h (h'.notifyHealthChange id healthy rest next).1 := by
  rw [notifyHealthChange]
  split_ifs
  · exact hworse
  · exact hnext

theorem worse_recover {id : SubsystemId} (now : ℤ) (hhealthy : h.health id = true) :
    Worse h (h.recover id now).1 := by
  have hworse : Worse h (h.setStatus id { h.subsystems id with lastHeartbeat := now, healthy := true }) :=
    worse_setStatus (fun _ => hhealthy)
  rw [recover]
  dsimp only
  split_ifs
  · exact worse_notify hworse hworse
  · exact hworse

theorem worse_reportError (id : SubsystemId) (errorMessage : String) (isFatal : Bool) :
    Worse h (h.reportError id errorMessage isFatal).1 := by
  have hnoted : Worse h (h.setStatus id
      { h.subsystems id with
        errorCount := (h.subsystems id).errorCount + 1, lastError := errorMessage }) :=
    worse_setStatus (fun hhealthy => hhealthy)
  rw [reportError]
  dsimp only
  split_ifs
  · refine worse_notify (hnoted.trans ?_) (hnoted.trans ?_)
    all_goals exact worse_setStatus (fun hfalse => absurd hfalse Bool.false_ne_true)
  · exact hnoted.trans (worse_setStatus (fun hfalse => absurd hfalse Bool.false_ne_true))
  · exact hnoted

theorem worse_setSubsystemHealth {id : SubsystemId} {healthy : Bool} (now : ℤ)
    (hfails : healthy = true → h.health id = true) :
    Worse h (h.setSubsystemHealth id healthy now).1 := by
  have hworse : Worse h (h.setStatus id
      { h.subsystems id with
        healthy := healthy
        lastHeartbeat := if healthy then now else (h.subsystems id).lastHeartbeat }) :=
    worse_setStatus hfails
  rw [setSubsystemHealth]
  by_cases hchange : h.health id ≠ healthy
  · rw [if_pos hchange]
    exact worse_notify hworse hworse
  · rw [if_neg hchange]
    exact hworse

theorem worse_timeoutLoop (now : ℤ) (anyChanged : Bool) (later : List SubsystemId) :
    Worse h (timeoutLoop now anyChanged later h).1 := by
  induction later generalizing h anyChanged with
  | nil => exact worse_of_health rfl
  | cons id later ih =>
    rw [timeoutLoop]
    split_ifs
    · have hworse : Worse h (h.setStatus id { h.subsystems id with healthy := false }) :=
        worse_setStatus (fun hfalse => absurd hfalse Bool.false_ne_true)
      exact worse_notify hworse (hworse.trans (ih true))
    · exact ih anyChanged

theorem worse_guarded {id : Option SubsystemId} {operation : SubsystemId → SystemHealth × Stop}
    (hworse : ∀ i ∈ id, Worse h (operation i).1) : Worse h (h.guarded id operation).1 := by
  cases id with
  | none => exact worse_of_health rfl
  | some i => exact hworse i rfl

theorem perform_worse {op : Operation} (hfails : op.Fails h) : Worse h (h.perform op).1 := by
  cases op with
  | reportHeartbeat id now => exact worse_guarded (fun i hi => worse_recover now (hfails i hi))
  | reportError id errorMessage isFatal =>
    exact worse_guarded (fun i _ => worse_reportError i errorMessage isFatal)
  | reportRecovery id now => exact worse_guarded (fun i hi => worse_recover now (hfails i hi))
  | setSubsystemHealth id healthy now =>
    exact worse_guarded (fun i hi => worse_setSubsystemHealth now (fun htrue => hfails htrue i hi))
  | setSubsystemTimeout id timeoutMs =>
    exact worse_guarded (fun i _ => worse_setStatus (fun hhealthy => hhealthy))
  | checkTimeouts now => exact worse_timeoutLoop now false SubsystemId.all
  | setModeChangeCallback callback => exact worse_of_health rfl
  | setHealthChangeCallback callback => exact worse_of_health rfl
  | requestShutdown =>
    change Worse h h.requestShutdown.1
    rw [requestShutdown]
    split_ifs
    all_goals exact worse_of_health rfl
  | reset now => exact hfails.elim

theorem goOn_worse (rest : Rest) : Worse h (h.goOn rest).1 := by
  cases rest with
  | done => exact worse_of_health rfl
  | update => exact worse_of_health rfl
  | timeouts now later => exact worse_timeoutLoop now true later

theorem failing_update (hshutdown : ShutdownInOrder h.updateSystemMode.1)
    (hkept : h.shutdownRequested = true ∨
      ∃ before, h.currentMode = modeFor before ∧ ∀ id, h.health id = true → before id = true) :
    Failing h.updateSystemMode.1 ∧
      (h.currentMode.severity ≤ h.updateSystemMode.1.currentMode.severity ↔ ¬ Masks h) := by
  obtain ⟨hkeep, hupdate⟩ | ⟨hrunning, -, hupdate⟩ := h.updateSystemMode_cases
  · rw [hupdate] at hshutdown ⊢
    refine ⟨⟨hshutdown, hkept⟩, iff_of_true (le_refl _) ?_⟩
    intro hmasks
    have hmode : modeFor h.health = .degradedHMI := by
      rcases hkeep with hrequested | hmode
      · exact absurd (hmasks.running.symm.trans hrequested) Bool.false_ne_true
      · exact hmode.symm.trans hmasks.mode
    exact modeFor_ne_degradedHMI hmasks.weighed hmode
  · obtain ⟨before, hmode, hbefore⟩ :=
      hkept.resolve_left (fun hrequested => Bool.false_ne_true (hrunning.symm.trans hrequested))
    rw [hupdate] at hshutdown ⊢
    refine ⟨⟨hshutdown, .inr ⟨h.health, rfl, fun id hid => hid⟩⟩, ?_⟩
    dsimp only
    rw [hmode, severity_le_iff hbefore, ← hmode]
    constructor
    · intro hgap hmasks
      exact hgap ⟨hmasks.mode, hmasks.few, hmasks.weighed⟩
    · rintro hclear ⟨hHMI, hfew, hweighed⟩
      exact hclear ⟨hrunning, hHMI, hfew, hweighed⟩

/-- A section of a failing monitor loses severity only where it updates a mode that masks. -/
theorem failing_finish (hfailing : Failing h) {p : SystemHealth × Stop} (hsection : Section h p)
    (hworse : Worse h p.1) : Failing (finish p).1 ∧
      (h.currentMode.severity ≤ (finish p).1.currentMode.severity ↔
        (p.2 = .updates → ¬ Masks p.1)) := by
  obtain ⟨h', stop⟩ := p
  have hsame := hsection.same
  have hshutdown := finish_shutdownInOrder hsection hfailing.shutdown
  dsimp only at hsame hworse
  have hkept : h'.shutdownRequested = true ∨
      ∃ before, h'.currentMode = modeFor before ∧ ∀ id, h'.health id = true → before id = true := by
    rw [hsame.shutdownRequested, hsame.currentMode]
    refine hfailing.mode.imp_right ?_
    rintro ⟨before, hmode, hbefore⟩
    exact ⟨before, hmode, fun id hid => hbefore id (hworse id hid)⟩
  rw [← hsame.currentMode]
  cases stop with
  | stops call => exact ⟨⟨hshutdown, hkept⟩, iff_of_true (le_refl _) (fun hstop => by cases hstop)⟩
  | updates =>
    obtain ⟨hupdated, hseverity⟩ := failing_update hshutdown hkept
    exact ⟨hupdated, hseverity.trans ⟨fun hclear _ => hclear, fun hclear => hclear rfl⟩⟩

end Sections

section Runs

variable {C : Type} [DecidableEq C]

def sectionOf (s : System C SystemHealth Operation Notification Rest) :
    Step C Operation → Option (SystemHealth × Stop)
  | .call c op => if busy (s.frames c) then none else some (s.object.perform op)
  | .deliver _ => none
  | .resume c =>
    match s.frames c with
    | ⟨none, rest⟩ :: _ => some (s.object.goOn rest)
    | _ => none

variable {s : System C SystemHealth Operation Notification Rest} {e : Step C Operation}

theorem step_object : (step sections s e).object =
    match sectionOf s e with
    | none => s.object
    | some p => (finish p).1 := by
  cases e with
  | call c op =>
    cases hbusy : busy (s.frames c) <;> simp [step, sectionOf, hbusy, sections]
  | deliver c =>
    cases hframes : s.frames c with
    | nil => simp [step, sectionOf, hframes]
    | cons frame frames => obtain ⟨_ | n, rest⟩ := frame <;> simp [step, sectionOf, hframes]
  | resume c =>
    cases hframes : s.frames c with
    | nil => simp [step, sectionOf, hframes]
    | cons frame frames =>
      obtain ⟨_ | n, rest⟩ := frame <;> simp [step, sectionOf, hframes, sections]

theorem failing_start {h : SystemHealth} (hfailing : Failing h) {op : Operation}
    (hfails : op.Fails h) : Failing (finish (h.perform op)).1 ∧
      (h.currentMode.severity ≤ (finish (h.perform op)).1.currentMode.severity ↔
        ((h.perform op).2 = .updates → ¬ Masks (h.perform op).1)) := by
  obtain ⟨-, hsection⟩ | ⟨callback, rfl⟩ | ⟨callback, rfl⟩ | rfl | ⟨now, rfl⟩ :=
    h.perform_cases op
  · exact failing_finish hfailing hsection (perform_worse hfails)
  · exact ⟨⟨hfailing.shutdown, hfailing.mode⟩, iff_of_true (le_refl _) (fun hstop => by cases hstop)⟩
  · exact ⟨⟨hfailing.shutdown, hfailing.mode⟩, iff_of_true (le_refl _) (fun hstop => by cases hstop)⟩
  · have hstops : (h.perform .requestShutdown).2 ≠ .updates := by
      change h.requestShutdown.2 ≠ _
      rw [requestShutdown]
      split_ifs
      all_goals exact Stop.noConfusion
    obtain ⟨-, hfinish⟩ | ⟨-, hfinish⟩ := h.requestShutdown_cases
    · rw [hfinish]
      exact ⟨hfailing, iff_of_true (le_refl _) (fun hstop => absurd hstop hstops)⟩
    · rw [hfinish]
      refine ⟨⟨iff_of_true rfl rfl, .inl rfl⟩, iff_of_true ?_ (fun hstop => absurd hstop hstops)⟩
      change h.currentMode.severity ≤ 6
      cases h.currentMode <;> simp [SystemMode.severity]
  · exact hfails.elim

theorem failing_step (hfailing : Failing s.object)
    (hfails : ∀ c op, e = .call c op → op.Fails s.object) :
    Failing (step sections s e).object ∧
      (s.object.currentMode.severity ≤ (step sections s e).object.currentMode.severity ↔
        ∀ h, sectionOf s e = some (h, .updates) → ¬ Masks h) := by
  rw [step_object]
  cases hsection : sectionOf s e with
  | none => exact ⟨hfailing, iff_of_true (le_refl _) (fun h hnone => by cases hnone)⟩
  | some p =>
    have hfinish : Failing (finish p).1 ∧
        (s.object.currentMode.severity ≤ (finish p).1.currentMode.severity ↔
          (p.2 = .updates → ¬ Masks p.1)) := by
      cases e with
      | call c op =>
        rw [sectionOf] at hsection
        split_ifs at hsection
        cases hsection
        exact failing_start hfailing (hfails c op rfl)
      | deliver c => cases hsection
      | resume c =>
        rw [sectionOf] at hsection
        split at hsection
        · cases hsection
          exact failing_finish hfailing (section_goOn s.object _) (goOn_worse _)
        · cases hsection
    refine ⟨hfinish.1, hfinish.2.trans ?_⟩
    constructor
    · rintro hclear h hp
      cases hp
      exact hclear rfl
    · intro hclear hstop
      exact hclear p.1 (by rw [← hstop])

/-- The mode never gets less severe while subsystems fail, exactly in the runs that never update
    the mode in a state that masks: the mode is that of a failed HMI subsystem, and CAN or camera
    has failed on top. -/
theorem severity_monotone_iff (now : ℤ) (modeCallback healthCallback : Bool)
    (steps : List (Step C Operation)) :
    let after (steps : List (Step C Operation)) :=
      run (step sections) (started now modeCallback healthCallback) steps
    (∀ before c op, before ++ [.call c op] <+: steps → op.Fails (after before).object) →
    ((∀ before e, before ++ [e] <+: steps → (after before).object.currentMode.severity ≤
        (after (before ++ [e])).object.currentMode.severity) ↔
      ∀ before e h, before ++ [e] <+: steps →
        sectionOf (after before) e = some (h, .updates) → ¬ Masks h) := by
  intro after hfails
  have hfailing : ∀ before, before <+: steps → Failing (after before).object := by
    intro before hbefore
    refine run_history (step sections) (fun _ s => Failing s.object) ?_ before ?_
    · exact ⟨iff_of_false Bool.false_ne_true SystemMode.noConfusion,
        .inr ⟨fun _ => true, modeFor_healthy.symm, fun _ _ => rfl⟩⟩
    · intro pre e hpre hpast
      refine (failing_step hpast ?_).1
      rintro c op rfl
      exact hfails pre c op (hpre.trans hbefore)
  have hstep : ∀ before e, before ++ [e] <+: steps →
      ((after before).object.currentMode.severity ≤
        (after (before ++ [e])).object.currentMode.severity ↔
      ∀ h, sectionOf (after before) e = some (h, .updates) → ¬ Masks h) := by
    intro before e hprefix
    change _ ≤ (run (step sections) _ (before ++ [e])).object.currentMode.severity ↔ _
    rw [run_snoc]
    refine (failing_step (hfailing before ((List.prefix_append _ _).trans hprefix)) ?_).2
    rintro c op rfl
    exact hfails before c op hprefix
  constructor
  · intro hmono before e h hprefix
    exact (hstep before e hprefix).mp (hmono before e hprefix) h
  · intro hclear before e hprefix
    exact (hstep before e hprefix).mpr (fun h => hclear before e h hprefix)

end Runs

def canThenCamera : List (Step Unit Operation) :=
  [.call () (.reportError (some .can) "bus off" true),
    .call () (.setSubsystemHealth (some .camera) false 1)]

theorem severity_monotone_canThenCamera :
    (run (step sections) (started 0 false false) (canThenCamera.take 1)).object.currentMode.severity
      ≤ (run (step sections) (started 0 false false) canThenCamera).object.currentMode.severity := by
  have hfails : ∀ before c op, before ++ [.call c op] <+: canThenCamera →
      op.Fails (run (step sections) (started 0 false false) before).object := by
    intro before c op hpre
    have hmem := hpre.subset (List.mem_append_right before List.mem_cons_self)
    simp only [canThenCamera, List.mem_cons, Step.call.injEq, List.not_mem_nil, or_false] at hmem
    rcases hmem with ⟨-, rfl⟩ | ⟨-, rfl⟩
    · exact trivial
    · exact fun hfalse => absurd hfalse Bool.false_ne_true
  refine (severity_monotone_iff 0 false false canThenCamera hfails).mpr ?_ [_] _ (List.prefix_refl _)
  intro before e h hprefix hsection hmasks
  match before with
  | [] =>
    cases (List.cons_prefix_cons.mp hprefix).1
    cases hsection
    exact absurd hmasks.mode (by decide)
  | [_] =>
    cases hprefix.eq_of_length rfl
    cases hsection
    exact absurd hmasks.mode (by decide)
  | _ :: _ :: before =>
    have hlength := hprefix.length_le
    simp [canThenCamera] at hlength

/-- OpenAuto fails, then CAN: the mode goes from the HMI mode back to the CAN mode. -/
theorem severity_drops :
    ¬ ∀ steps : List (Step Unit Operation),
      let after (steps : List (Step Unit Operation)) :=
        run (step sections) (started 0 false false) steps
      (∀ before c op, before ++ [.call c op] <+: steps → op.Fails (after before).object) →
      ∀ before e, before ++ [e] <+: steps → (after before).object.currentMode.severity ≤
        (after (before ++ [e])).object.currentMode.severity := by
  intro hclaim
  have hdrop := hclaim [.call () (.reportError (some .openAuto) "lost" true),
    .call () (.reportError (some .can) "bus off" true)] ?_ [_] _ (List.prefix_refl _)
  · exact absurd hdrop (by decide)
  · intro before c op hpre
    have hmem := hpre.subset (List.mem_append_right before List.mem_cons_self)
    simp only [List.mem_cons, Step.call.injEq, List.not_mem_nil, or_false] at hmem
    rcases hmem with ⟨-, rfl⟩ | ⟨-, rfl⟩
    all_goals exact trivial

end SpeeduinoDash.SystemHealth
