import SpeeduinoDash.HealthModes

set_option autoImplicit false

/-!
# The mode change callback

The mode is exchanged and the callback taken under the same hold of the mutex, so a single caller
sees the changes in the order in which they happen, however deep its callbacks nest.
-/
namespace SpeeduinoDash.SystemHealth
open Lib.Monitor Lib.Runs

def Notification.modePair : Notification → Option (SystemMode × SystemMode)
  | .modeChange oldMode newMode => some (oldMode, newMode)
  | .healthChange _ _ => none

def modeChanges (log : List HealthEvent) : List (SystemMode × SystemMode) :=
  (notices log).filterMap Notification.modePair

def Operation.keepsModeCallback : Operation → Bool
  | .setModeChangeCallback callback => callback
  | _ => true

structure ModeTrail (log : List HealthEvent) (h : SystemHealth) : Prop where
  trail : Trail .normal (modeChanges log) h.currentMode
  shutdown : ShutdownInOrder h
  callback : h.modeCallback = true

theorem modeChanges_append (xs ys : List HealthEvent) :
    modeChanges (xs ++ ys) = modeChanges xs ++ modeChanges ys := by
  rw [modeChanges, notices_append, List.filterMap_append]
  rfl

theorem modeChanges_called (log : List HealthEvent) (op : Operation) :
    modeChanges (log ++ [.called op]) = modeChanges log := by
  rw [modeChanges_append]
  exact List.append_nil _

theorem modeChanges_quiet (log : List HealthEvent) {stop : Option (Notification × Rest)}
    (h : stop.bind (fun p => p.1.modePair) = none) :
    modeChanges (log ++ note stop) = modeChanges log := by
  rw [modeChanges_append]
  obtain _ | ⟨_ | _, rest⟩ := stop
  · exact List.append_nil _
  · cases h
  · exact List.append_nil _

theorem ModeTrail.change {log : List HealthEvent} {h h' : SystemHealth} {newMode : SystemMode}
    (htrail : ModeTrail log h) (hmode : h'.currentMode = newMode)
    (hcallback : h'.modeCallback = h.modeCallback) (hshutdown : ShutdownInOrder h')
    (hne : h.currentMode ≠ newMode) :
    ModeTrail (log ++ note (h.notifyModeChange h.currentMode newMode)) h' := by
  refine ⟨?_, hshutdown, hcallback.trans htrail.callback⟩
  rw [notifyModeChange, if_pos htrail.callback, modeChanges_append, hmode]
  exact htrail.trail.snoc hne

theorem ModeTrail.same {log log' : List HealthEvent} {h h' : SystemHealth}
    (htrail : ModeTrail log h) (hlog : modeChanges log' = modeChanges log) (hsame : SameMode h h') :
    ModeTrail log' h' := by
  refine ⟨?_, ?_, hsame.modeCallback.trans htrail.callback⟩
  · rw [hlog, hsame.currentMode]
    exact htrail.trail
  · rw [ShutdownInOrder, hsame.shutdownRequested, hsame.currentMode]
    exact htrail.shutdown

theorem ModeTrail.finish {log : List HealthEvent} {h : SystemHealth} {p : SystemHealth × Stop}
    (htrail : ModeTrail log h) (hsection : Section h p) :
    ModeTrail (log ++ note (SystemHealth.finish p).2) (SystemHealth.finish p).1 := by
  obtain ⟨h', stop⟩ := p
  have hsame := hsection.same
  have hshutdown := finish_shutdownInOrder hsection htrail.shutdown
  obtain ⟨-, hstop⟩ | ⟨hstop, -⟩ | ⟨id, healthy, rest, hstop, -, -, -⟩ := hsection.stop
  all_goals
    dsimp only at hstop hsame
    subst hstop
  · exact htrail.same (modeChanges_quiet log rfl) hsame
  · have htrail' := htrail.same rfl hsame
    change ModeTrail (log ++ note h'.updateSystemMode.2) h'.updateSystemMode.1
    change ShutdownInOrder h'.updateSystemMode.1 at hshutdown
    obtain ⟨-, hupdate⟩ | ⟨-, hne, hupdate⟩ := h'.updateSystemMode_cases
    · rw [hupdate]
      exact htrail'.same (modeChanges_quiet log rfl) (SameMode.refl h')
    · rw [hupdate] at hshutdown ⊢
      exact htrail'.change rfl rfl hshutdown hne
  · exact htrail.same (modeChanges_quiet log rfl) hsame

theorem ModeTrail.start {log : List HealthEvent} {h : SystemHealth} {op : Operation}
    (htrail : ModeTrail log h) (hop : op.keepsModeCallback = true) :
    ModeTrail (log ++ [.called op] ++ note (sections.start op h).2) (sections.start op h).1 := by
  have hcalled : ModeTrail (log ++ [.called op]) h :=
    htrail.same (modeChanges_called log op) (SameMode.refl h)
  have hshutdown := (start_shutdownInOrder h op htrail.shutdown).1
  change ModeTrail (_ ++ note (SystemHealth.finish (h.perform op)).2)
    (SystemHealth.finish (h.perform op)).1
  change ShutdownInOrder (SystemHealth.finish (h.perform op)).1 at hshutdown
  obtain ⟨-, hsection⟩ | ⟨callback, rfl⟩ | ⟨callback, rfl⟩ | rfl | ⟨now, rfl⟩ :=
    h.perform_cases op
  · exact hcalled.finish hsection
  · refine ⟨?_, hcalled.shutdown, hop⟩
    rw [modeChanges_quiet _ rfl]
    exact hcalled.trail
  · refine ⟨?_, hcalled.shutdown, hcalled.callback⟩
    rw [modeChanges_quiet _ rfl]
    exact hcalled.trail
  · obtain ⟨-, hfinish⟩ | ⟨hrunning, hfinish⟩ := h.requestShutdown_cases
    · rw [hfinish]
      exact hcalled.same (modeChanges_quiet _ rfl) (SameMode.refl h)
    · rw [hfinish] at hshutdown ⊢
      refine hcalled.change rfl rfl hshutdown ?_
      intro hmode
      rw [htrail.shutdown.mpr hmode] at hrunning
      cases hrunning
  · obtain ⟨h', hfinish, hmode, -, -, hcallback, -⟩ := h.reset_eq now
    rw [hfinish] at hshutdown ⊢
    dsimp only at hshutdown ⊢
    split_ifs with hne
    · exact hcalled.change hmode hcallback hshutdown hne
    · have hnormal : h'.currentMode = h.currentMode := hmode.trans (not_not.mp hne).symm
      refine ⟨?_, hshutdown, hcallback.trans htrail.callback⟩
      rw [modeChanges_quiet _ rfl, hnormal]
      exact hcalled.trail

/-- One caller, callbacks nested as it likes: while one is installed the callback sees the mode
    change step by step. -/
theorem mode_changes_chain (now : ℤ) (healthCallback : Bool) (steps : List (Step Unit Operation))
    (hkeeps : Calls (fun op => op.keepsModeCallback = true) steps) :
    let s := run (step sections) (started now true healthCallback) steps
    (∀ c ∈ (modeChanges s.log).head?, c.1 = .normal) ∧
    (∀ c ∈ modeChanges s.log, c.1 ≠ c.2) ∧
    (modeChanges s.log).IsChain (fun c c' => c.2 = c'.1) ∧
    (s.Quiescent →
      ((modeChanges s.log).getLast?.map Prod.snd).getD .normal = s.object.currentMode) := by
  intro s
  let s₀ : System Unit SystemHealth Operation Notification Rest := started now true healthCallback
  have hstart : ModeTrail s₀.announced s₀.object :=
    ⟨Trail.nil _, iff_of_false Bool.false_ne_true SystemMode.noConfusion, rfl⟩
  have hentered : Entered (s₀.frames ()) := fun frame hmem => absurd hmem List.not_mem_nil
  have hrun : ModeTrail s.announced s.object :=
    run_announced sections (fun op => op.keepsModeCallback = true) ModeTrail
      (fun log h op hop htrail => htrail.start hop)
      (fun log h rest htrail => htrail.finish (section_goOn h rest)) hstart hentered steps hkeeps
  have hannounced := hrun.trail
  rw [System.announced, modeChanges_append] at hannounced
  have hseen := hannounced.of_append
  refine ⟨hseen.start, hseen.proper, hseen.linked, ?_⟩
  intro hquiet
  rw [← hquiet.announced_eq]
  exact hrun.trail.ends

def shutdownInCallback : List (Step Unit Operation) :=
  [.call () (.reportError (some .can) "bus off" true), .deliver (), .call () .requestShutdown,
    .deliver (), .resume (), .resume ()]

theorem mode_changes_chain_shutdown :
    let s := run (step sections) (started 0 true false) shutdownInCallback
    ((modeChanges s.log).getLast?.map Prod.snd).getD .normal = s.object.currentMode ∧
      modeChanges s.log = [(.normal, .degradedCAN), (.degradedCAN, .safeShutdown)] := by
  intro s
  refine ⟨?_, by decide⟩
  refine (mode_changes_chain 0 false shutdownInCallback ?_).2.2.2 ?_
  · intro c op hmem
    simp only [shutdownInCallback, List.mem_cons, Step.call.injEq, reduceCtorEq, List.not_mem_nil,
      or_false, false_or, true_and] at hmem
    rcases hmem with rfl | rfl <;> rfl
  · intro c
    rfl

end SpeeduinoDash.SystemHealth
