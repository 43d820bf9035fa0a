import SpeeduinoDash.SystemHealth

set_option autoImplicit false

/-!
# What a locked section of the health monitor does

Requests for shutdown, resets and new callbacks apart, a section leaves mode and callbacks alone
and changes health only together with a notification or a call of `updateSystemMode`.
-/
namespace SpeeduinoDash.SystemHealth

def Rest.Owes : Rest → Prop
  | .done => False
  | .update => True
  | .timeouts _ _ => True

def Stop.Owes : Stop → Prop
  | .stops none => False
  | .stops (some call) => call.2.Owes
  | .updates => True

@[simp] theorem setStatus_health (h : SystemHealth) (id : SubsystemId) (status : SubsystemStatus) :
    (h.setStatus id status).health = Function.update h.health id status.healthy := by
  funext id'
  by_cases hid : id' = id
  · subst hid
    simp [health, setStatus]
  · simp [health, setStatus, Function.update_of_ne hid]

theorem setStatus_health_eq {h : SystemHealth} {id : SubsystemId} {status : SubsystemStatus}
    (heq : status.healthy = h.health id) : (h.setStatus id status).health = h.health := by
  rw [setStatus_health, heq, Function.update_eq_self]

/-- `h` and `h'` differ in the status of subsystems at most. -/
structure SameMode (h h' : SystemHealth) : Prop where
  currentMode : h'.currentMode = h.currentMode
  shutdownRequested : h'.shutdownRequested = h.shutdownRequested
  modeCallback : h'.modeCallback = h.modeCallback
  healthCallback : h'.healthCallback = h.healthCallback

theorem SameMode.refl (h : SystemHealth) : SameMode h h := ⟨rfl, rfl, rfl, rfl⟩

theorem SameMode.trans {h h' h'' : SystemHealth} (first : SameMode h h') (then' : SameMode h' h'') :
    SameMode h h'' :=
  ⟨then'.currentMode.trans first.currentMode,
    then'.shutdownRequested.trans first.shutdownRequested,
    then'.modeCallback.trans first.modeCallback, then'.healthCallback.trans first.healthCallback⟩

theorem sameMode_setStatus (h : SystemHealth) (id : SubsystemId) (status : SubsystemStatus) :
    SameMode h (h.setStatus id status) := ⟨rfl, rfl, rfl, rfl⟩

def Announces (h h' : SystemHealth) (stop : Stop) : Prop :=
  ∃ id healthy rest, stop = .stops (some (.healthChange id healthy, rest)) ∧ rest.Owes ∧
    h.healthCallback = true ∧ h'.health = Function.update h.health id healthy

/-- A section that is no request for shutdown, no reset and no change of a callback. -/
structure Section (h : SystemHealth) (p : SystemHealth × Stop) : Prop where
  same : SameMode h p.1
  stop : (p.1.health = h.health ∧ p.2 = .stops none) ∨
    (p.2 = .updates ∧ (h.healthCallback = true → p.1.health = h.health)) ∨ Announces h p.1 p.2

theorem section_quiet {h h' : SystemHealth} (hsame : SameMode h h') (hhealth : h'.health = h.health) :
    Section h (h', .stops none) := ⟨hsame, .inl ⟨hhealth, rfl⟩⟩

theorem section_notify {h h' : SystemHealth} {id : SubsystemId} {healthy : Bool} {rest : Rest}
    {next : SystemHealth × Stop} (hsame : SameMode h h')
    (hhealth : h'.health = Function.update h.health id healthy) (hrest : rest.Owes)
    (hnext : h.healthCallback = false → Section h next) :
    Section h (h'.notifyHealthChange id healthy rest next) := by
  rw [notifyHealthChange, hsame.healthCallback]
  cases hcallback : h.healthCallback with
  | false => exact hnext hcallback
  | true => exact ⟨hsame, .inr (.inr ⟨id, healthy, rest, rfl, hrest, hcallback, hhealth⟩)⟩

theorem section_mark {h h' : SystemHealth} {id : SubsystemId} {healthy : Bool}
    (hsame : SameMode h h') (hhealth : h'.health = Function.update h.health id healthy) :
    Section h (h'.notifyHealthChange id healthy .update (h', .updates)) := by
  have howes : Rest.update.Owes := trivial
  apply section_notify hsame hhealth howes
  intro hsilent
  refine ⟨hsame, .inr (.inl ⟨rfl, ?_⟩)⟩
  rw [hsilent]
  exact fun hcallback => absurd hcallback Bool.false_ne_true

theorem section_recover (h : SystemHealth) (id : SubsystemId) (now : ℤ) :
    Section h (h.recover id now) := by
  rw [recover]
  cases hhealthy : h.health id with
  | true =>
    refine section_quiet (sameMode_setStatus h id _) (setStatus_health_eq ?_)
    exact hhealthy.symm
  | false => exact section_mark (sameMode_setStatus h id _) (setStatus_health h id _)

theorem section_reportError (h : SystemHealth) (id : SubsystemId) (errorMessage : String)
    (isFatal : Bool) : Section h (h.reportError id errorMessage isFatal) := by
  have hnote : ∀ status : SubsystemStatus, status.healthy = (h.subsystems id).healthy →
      SameMode h (h.setStatus id status) ∧ (h.setStatus id status).health = h.health :=
    fun status heq => ⟨sameMode_setStatus h id status, setStatus_health_eq heq⟩
  obtain ⟨hsame, hhealth⟩ := hnote
    { h.subsystems id with
      errorCount := (h.subsystems id).errorCount + 1, lastError := errorMessage } rfl
  rw [reportError]
  cases isFatal with
  | false => exact section_quiet hsame hhealth
  | true =>
    cases hwas : h.health id with
    | false =>
      refine section_quiet (hsame.trans (sameMode_setStatus _ id _)) ?_
      rw [setStatus_health, hhealth, ← hwas, Function.update_eq_self]
    | true =>
      refine section_mark (hsame.trans (sameMode_setStatus _ id _)) ?_
      rw [setStatus_health, hhealth]

theorem section_setSubsystemHealth (h : SystemHealth) (id : SubsystemId) (healthy : Bool)
    (now : ℤ) : Section h (h.setSubsystemHealth id healthy now) := by
  rw [setSubsystemHealth]
  by_cases hchange : h.health id = healthy
  · rw [if_neg (not_not.mpr hchange)]
    exact section_quiet (sameMode_setStatus h id _) (setStatus_health_eq hchange.symm)
  · rw [if_pos hchange]
    exact section_mark (sameMode_setStatus h id _) (setStatus_health h id _)

theorem timeoutLoop_owes (now : ℤ) (later : List SubsystemId) (h : SystemHealth) :
    (timeoutLoop now true later h).2.Owes := by
  induction later generalizing h with
  | nil => exact trivial
  | cons id later ih =>
    rw [timeoutLoop]
    split_ifs
    · dsimp only
      rw [notifyHealthChange]
      split_ifs
      · exact trivial
      · exact ih _
    · exact ih _

theorem section_timeoutLoop (now : ℤ) (anyChanged : Bool) (later : List SubsystemId)
    (h : SystemHealth) : Section h (timeoutLoop now anyChanged later h) := by
  induction later generalizing h anyChanged with
  | nil =>
    cases anyChanged with
    | false => exact section_quiet (SameMode.refl h) rfl
    | true => exact ⟨SameMode.refl h, .inr (.inl ⟨rfl, fun _ => rfl⟩)⟩
  | cons id later ih =>
    rw [timeoutLoop]
    split_ifs
    · have howes : (Rest.timeouts now later).Owes := trivial
      refine section_notify (sameMode_setStatus h id _) (setStatus_health h id _) howes ?_
      intro hsilent
      -- The loop has something to report, so it ends in `updateSystemMode`.
      have hnext := ih true (h.setStatus id { h.subsystems id with healthy := false })
      refine ⟨(sameMode_setStatus h id _).trans hnext.same, .inr (.inl ⟨?_, by simp [hsilent]⟩)⟩
      obtain ⟨-, hstop⟩ | ⟨hstop, -⟩ | ⟨_, _, _, -, -, hcallback, -⟩ := hnext.stop
      · have howes := timeoutLoop_owes now later
          (h.setStatus id { h.subsystems id with healthy := false })
        rw [hstop] at howes
        exact howes.elim
      · exact hstop
      · exact absurd (hsilent.symm.trans hcallback) Bool.false_ne_true
    · exact ih anyChanged h

theorem section_guarded {h : SystemHealth} {id : Option SubsystemId}
    {operation : SubsystemId → SystemHealth × Stop} (hsection : ∀ id, Section h (operation id)) :
    Section h (h.guarded id operation) := by
  cases id with
  | none => exact section_quiet (SameMode.refl h) rfl
  | some id => exact hsection id

def Operation.ordinary : Operation → Bool
  | .setModeChangeCallback _ => false
  | .setHealthChangeCallback _ => false
  | .requestShutdown => false
  | .reset _ => false
  | _ => true

theorem perform_cases (h : SystemHealth) (op : Operation) :
    (op.ordinary = true ∧ Section h (h.perform op)) ∨
      (∃ callback, op = .setModeChangeCallback callback) ∨
      (∃ callback, op = .setHealthChangeCallback callback) ∨ op = .requestShutdown ∨
      ∃ now, op = .reset now := by
  cases op with
  | reportHeartbeat id now =>
    exact .inl ⟨rfl, section_guarded (fun id => section_recover h id now)⟩
  | reportError id errorMessage isFatal =>
    exact .inl ⟨rfl, section_guarded (fun id => section_reportError h id errorMessage isFatal)⟩
  | reportRecovery id now =>
    exact .inl ⟨rfl, section_guarded (fun id => section_recover h id now)⟩
  | setSubsystemHealth id healthy now =>
    exact .inl ⟨rfl, section_guarded (fun id => section_setSubsystemHealth h id healthy now)⟩
  | setSubsystemTimeout id timeoutMs =>
    exact .inl ⟨rfl, section_guarded (fun id =>
      section_quiet (sameMode_setStatus h id _) (setStatus_health_eq rfl))⟩
  | checkTimeouts now => exact .inl ⟨rfl, section_timeoutLoop now false SubsystemId.all h⟩
  | setModeChangeCallback callback => exact .inr (.inl ⟨callback, rfl⟩)
  | setHealthChangeCallback callback => exact .inr (.inr (.inl ⟨callback, rfl⟩))
  | requestShutdown => exact .inr (.inr (.inr (.inl rfl)))
  | reset now => exact .inr (.inr (.inr (.inr ⟨now, rfl⟩)))

theorem section_goOn (h : SystemHealth) (rest : Rest) : Section h (h.goOn rest) := by
  cases rest with
  | done => exact section_quiet (SameMode.refl h) rfl
  | update => exact ⟨SameMode.refl h, .inr (.inl ⟨rfl, fun _ => rfl⟩)⟩
  | timeouts now later => exact section_timeoutLoop now true later h

theorem goOn_owes (h : SystemHealth) {rest : Rest} (howes : rest.Owes) : (h.goOn rest).2.Owes := by
  cases rest with
  | done => exact howes.elim
  | update => exact trivial
  | timeouts now later => exact timeoutLoop_owes now later h

/-- Everything `updateSystemMode` can do. -/
theorem updateSystemMode_cases (h : SystemHealth) :
    ((h.shutdownRequested = true ∨ h.currentMode = modeFor h.health) ∧
      h.updateSystemMode = (h, none)) ∨
    (h.shutdownRequested = false ∧ h.currentMode ≠ modeFor h.health ∧
      h.updateSystemMode = ({ h with currentMode := modeFor h.health },
        h.notifyModeChange h.currentMode (modeFor h.health))) := by
  cases hshutdown : h.shutdownRequested with
  | true => exact .inl ⟨.inl rfl, by simp [updateSystemMode, hshutdown]⟩
  | false =>
    by_cases hmode : h.currentMode = modeFor h.health
    · refine .inl ⟨.inr hmode, ?_⟩
      have hsame : { h with currentMode := modeFor h.health } = h := by rw [← hmode]
      rw [updateSystemMode, if_neg (by simp [hshutdown])]
      dsimp only
      rw [hsame, if_neg (not_not.mpr hmode)]
    · refine .inr ⟨rfl, hmode, ?_⟩
      simp only [updateSystemMode, hshutdown]
      simp [hmode, notifyModeChange]

theorem updateSystemMode_frame (h : SystemHealth) :
    h.updateSystemMode.1.shutdownRequested = h.shutdownRequested ∧
      h.updateSystemMode.1.modeCallback = h.modeCallback ∧
      h.updateSystemMode.1.healthCallback = h.healthCallback ∧
      h.updateSystemMode.1.health = h.health := by
  obtain ⟨-, hupdate⟩ | ⟨-, -, hupdate⟩ := h.updateSystemMode_cases
  all_goals
    rw [hupdate]
    exact ⟨rfl, rfl, rfl, rfl⟩

end SpeeduinoDash.SystemHealth
