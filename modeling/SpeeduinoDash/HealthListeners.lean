import SpeeduinoDash.HealthModes
import SpeeduinoDash.Lib.Listener

set_option autoImplicit false

/-!
# The health change callback

A listener starts from all subsystems healthy and applies what the callback tells it. `reset`
makes every subsystem healthy and tells nobody.
-/
namespace SpeeduinoDash.SystemHealth
open Lib.Monitor Lib.Runs

def Notification.aboutHealth : Notification → Option (SubsystemId × Bool)
  | .modeChange _ _ => none
  | .healthChange id healthy => some (id, healthy)

def view (log : List HealthEvent) : SubsystemId → Bool :=
  heard Notification.aboutHealth (fun _ => true) log

def Operation.keepsHealthCallback : Operation → Bool
  | .setHealthChangeCallback callback => callback
  | _ => true

section Sections

variable {h : SystemHealth}

theorem aboutHealth_modeNotice (h' : SystemHealth) (oldMode newMode : SystemMode) :
    (h'.notifyModeChange oldMode newMode).bind (fun stop => stop.1.aboutHealth) = none := by
  rw [notifyModeChange]
  split_ifs <;> rfl

theorem notifyModeChange_rest {oldMode newMode : SystemMode} {n : Notification} {rest : Rest}
    (hstop : h.notifyModeChange oldMode newMode = some (n, rest)) : rest = .done := by
  rw [notifyModeChange] at hstop
  split_ifs at hstop
  cases hstop
  rfl

theorem view_modeNotice (log : List HealthEvent) (oldMode newMode : SystemMode) :
    view (log ++ note (h.notifyModeChange oldMode newMode)) = view log := by
  rw [notifyModeChange]
  split_ifs
  · exact heard_notified _ _ log _
  · exact congrArg view (List.append_nil log)

theorem aboutHealth_updateSystemMode (h' : SystemHealth) :
    h'.updateSystemMode.2.bind (fun stop => stop.1.aboutHealth) = none := by
  obtain ⟨-, hupdate⟩ | ⟨-, -, hupdate⟩ := h'.updateSystemMode_cases
  · rw [hupdate]
    rfl
  · rw [hupdate]
    exact aboutHealth_modeNotice h' _ _

theorem finish_healthCallback {p : SystemHealth × Stop} (hsection : Section h p) :
    (finish p).1.healthCallback = h.healthCallback := by
  obtain ⟨h', stop⟩ := p
  cases stop with
  | stops call => exact hsection.same.healthCallback
  | updates => exact (updateSystemMode_frame h').2.2.1.trans hsection.same.healthCallback

/-- With the callback installed every ordinary section tells of the change that it makes. -/
theorem honest_finish {p : SystemHealth × Stop} (hsection : Section h p)
    (hcallback : h.healthCallback = true) :
    Honest health Notification.aboutHealth h (finish p) := by
  obtain ⟨h', stop⟩ := p
  obtain ⟨hhealth, hstop⟩ | ⟨hstop, hhealth⟩ | ⟨id, healthy, rest, hstop, -, -, hhealth⟩ :=
    hsection.stop
  all_goals
    dsimp only at hstop hhealth
    subst hstop
  · exact .inl ⟨rfl, hhealth⟩
  · refine .inl ⟨aboutHealth_updateSystemMode h', ?_⟩
    exact (updateSystemMode_frame h').2.2.2.trans (hhealth hcallback)
  · exact .inr ⟨_, rest, id, healthy, rfl, rfl, hhealth⟩

/-- A reset keeps quiet, which is honest where there is nothing to tell. -/
theorem honest_start (op : Operation) (hcallback : h.healthCallback = true)
    (hreset : ∀ now, op = .reset now → h.health = fun _ => true) :
    Honest health Notification.aboutHealth h (sections.start op h) := by
  change Honest _ _ h (finish (h.perform op))
  obtain ⟨-, hsection⟩ | ⟨callback, rfl⟩ | ⟨callback, rfl⟩ | rfl | ⟨now, rfl⟩ :=
    h.perform_cases op
  · exact honest_finish hsection hcallback
  · exact .inl ⟨rfl, rfl⟩
  · exact .inl ⟨rfl, rfl⟩
  · obtain ⟨-, hfinish⟩ | ⟨-, hfinish⟩ := h.requestShutdown_cases
    · rw [hfinish]
      exact .inl ⟨rfl, rfl⟩
    · rw [hfinish]
      exact .inl ⟨aboutHealth_modeNotice h _ _, rfl⟩
  · obtain ⟨h', hfinish, -, -, hhealth, -, -⟩ := h.reset_eq now
    rw [hfinish]
    refine .inl ⟨?_, hhealth.trans (hreset now rfl).symm⟩
    dsimp only
    split_ifs
    · exact aboutHealth_modeNotice h _ _
    · rfl

theorem start_healthCallback (op : Operation) (hop : op.keepsHealthCallback = true)
    (hcallback : h.healthCallback = true) : (sections.start op h).1.healthCallback = true := by
  change (finish (h.perform op)).1.healthCallback = true
  obtain ⟨-, hsection⟩ | ⟨callback, rfl⟩ | ⟨callback, rfl⟩ | rfl | ⟨now, rfl⟩ :=
    h.perform_cases op
  · exact (finish_healthCallback hsection).trans hcallback
  · exact hcallback
  · exact hop
  · obtain ⟨-, hfinish⟩ | ⟨-, hfinish⟩ := h.requestShutdown_cases
    · rw [hfinish]
      exact hcallback
    · rw [hfinish]
      exact hcallback
  · obtain ⟨h', hfinish, -, -, -, -, hsame⟩ := h.reset_eq now
    rw [hfinish]
    exact hsame.trans hcallback

end Sections

variable {C : Type} [DecidableEq C]

/-- A reset comes while all is healthy, and the health of a subsystem changes only while no
    notification about it waits to be delivered. -/
structure Tells (s : System C SystemHealth Operation Notification Rest) (e : Step C Operation) :
    Prop where
  reset : ∀ c now, e = .call c (.reset now) → ∀ id, s.object.isSubsystemHealthy id = true
  rest : ∀ id healthy, s.Out (.healthChange id healthy) →
    (step sections s e).object.isSubsystemHealthy id = s.object.isSubsystemHealthy id

/-- Nested callbacks of a single caller cannot overtake each other. -/
theorem tells_of_entered {s : System Unit SystemHealth Operation Notification Rest}
    (hs : Entered (s.frames ())) {e : Step Unit Operation}
    (hreset : ∀ c now, e = .call c (.reset now) → ∀ id, s.object.isSubsystemHealthy id = true) :
    Tells s e := by
  refine ⟨hreset, ?_⟩
  intro id healthy hout
  rw [s.rests sections hs hout e]

theorem heard_step {s : System C SystemHealth Operation Notification Rest}
    (h : Heard health Notification.aboutHealth (fun _ => true) s)
    (hcallback : s.object.healthCallback = true) {e : Step C Operation}
    (hkeeps : ∀ c op, e = .call c op → op.keepsHealthCallback = true) (htells : Tells s e) :
    Heard health Notification.aboutHealth (fun _ => true) (step sections s e) ∧
      (step sections s e).object.healthCallback = true := by
  constructor
  · refine h.step sections e ?_ (fun rest => honest_finish (section_goOn _ rest) hcallback) ?_
    · intro c op he
      refine honest_start op hcallback (fun now hreset => funext ?_)
      exact htells.reset c now (hreset ▸ he)
    · intro n id healthy hout habout
      cases n with
      | modeChange oldMode newMode => cases habout
      | healthChange id' healthy' =>
        cases habout
        exact htells.rest id healthy hout
  · obtain hs | ⟨c, op, he, -, hs⟩ | ⟨c, n, rest, frames, -, hs⟩ | ⟨c, rest, frames, -, -, hs⟩ :=
      step_cases sections s e
    · rwa [hs]
    · rw [hs]
      exact start_healthCallback op (hkeeps c op he) hcallback
    · rwa [hs]
    · rw [hs]
      exact (finish_healthCallback (section_goOn s.object rest)).trans hcallback

theorem run_heard (now : ℤ) (modeCallback : Bool) (steps : List (Step C Operation))
    (hkeeps : Calls (fun op => op.keepsHealthCallback = true) steps)
    (htells : ∀ before e, before ++ [e] <+: steps →
      Tells (run (step sections) (started now modeCallback true) before) e) :
    Heard health Notification.aboutHealth (fun _ => true)
      (run (step sections) (started now modeCallback true : System C _ _ _ _) steps) := by
  have hrun : Heard health Notification.aboutHealth (fun _ => true)
      (run (step sections) (started now modeCallback true : System C _ _ _ _) steps) ∧
      (run (step sections) (started now modeCallback true : System C _ _ _ _)
        steps).object.healthCallback = true := by
    refine run_history (step sections) (fun _ s =>
      Heard health Notification.aboutHealth (fun _ => true) s ∧ s.object.healthCallback = true)
      ⟨⟨?_, fun _ _ => rfl⟩, rfl⟩ steps ?_
    · rintro n id healthy ⟨c, hmem⟩
      exact absurd hmem List.not_mem_nil
    · rintro before e hpre ⟨hheard, hcallback⟩
      refine heard_step hheard hcallback (fun c op he => ?_) (htells before e hpre)
      refine hkeeps c op (hpre.subset ?_)
      exact List.mem_append_right before (he ▸ List.mem_cons_self)
  exact hrun.1

def resetSteps (c : C) (now : ℤ) : List (Step C Operation) :=
  [.call c (.reset now), .deliver c, .resume c]

theorem view_resetSteps {s : System C SystemHealth Operation Notification Rest}
    (hquiet : s.Quiescent) (c : C) (now : ℤ) :
    let s' := run (step sections) s (resetSteps c now)
    view s'.log = view s.log ∧ s'.object.health = fun _ => true := by
  obtain ⟨h', hfinish, -, -, hhealth, -, -⟩ := s.object.reset_eq now
  change sections.start (.reset now) s.object = _ at hfinish
  have hlast : ∀ n rest, (sections.start (.reset now) s.object).2 = some (n, rest) →
      sections.resume rest (sections.start (.reset now) s.object).1 =
        ((sections.start (.reset now) s.object).1, none) := by
    intro n rest hstop
    rw [hfinish] at hstop ⊢
    dsimp only at hstop
    split_ifs at hstop
    obtain rfl := notifyModeChange_rest hstop
    rfl
  have hrun := run_undisturbed sections (hquiet c) (.reset now) hlast
  intro s'
  change s' = _ at hrun
  rw [hrun, hfinish]
  refine ⟨?_, hhealth⟩
  dsimp only
  split_ifs with hmode
  · rw [view_modeNotice, view, heard_called]
    rfl
  · rw [view, note, Option.toList_none, List.map_nil, List.append_nil, heard_called]
    rfl

/-- The listener's view is right whenever nobody is inside an operation, in every run in which
    each reset finds all subsystems healthy and notifications about one subsystem do not overtake
    each other. A reset that finds one unhealthy makes a right view wrong. -/
theorem view_matches_health (now : ℤ) (modeCallback : Bool) (steps : List (Step C Operation))
    (hkeeps : Calls (fun op => op.keepsHealthCallback = true) steps)
    (htells : ∀ before e, before ++ [e] <+: steps →
      Tells (run (step sections) (started now modeCallback true) before) e) :
    let s := run (step sections) (started now modeCallback true) steps
    s.Quiescent →
      (∀ id, view s.log id = s.object.isSubsystemHealthy id) ∧
      ∀ c later, let s' := run (step sections) s (resetSteps c later)
        (∀ id, view s'.log id = s'.object.isSubsystemHealthy id) ↔
          ∀ id, s.object.isSubsystemHealthy id = true := by
  intro s hquiet
  have hview : view s.log = s.object.health :=
    (run_heard now modeCallback steps hkeeps htells).of_quiescent hquiet
  refine ⟨congrFun hview, ?_⟩
  intro c later s'
  obtain ⟨hlog, hhealth⟩ := view_resetSteps hquiet c later
  change (∀ id, view s'.log id = s'.object.health id) ↔ ∀ id, s.object.health id = true
  rw [hlog, hhealth, hview]

def recovered : List (Step Unit Operation) :=
  [.call () (.reset 1), .call () (.setSubsystemHealth (some .camera) false 2), .deliver (),
    .resume (), .call () (.reportHeartbeat (some .camera) 3), .deliver (), .resume ()]

theorem view_matches_health_recovered :
    let s := run (step sections) (started 0 false true) recovered
    (∀ id, view s.log id = s.object.isSubsystemHealthy id) ∧
      notices s.log = [.healthChange .camera false, .healthChange .camera true] := by
  intro s
  refine ⟨(view_matches_health 0 false recovered ?_ ?_ (fun _ => rfl)).1, by decide⟩
  · intro c op hmem
    simp only [recovered, List.mem_cons, Step.call.injEq, reduceCtorEq, List.not_mem_nil,
      or_false, false_or, true_and] at hmem
    rcases hmem with rfl | rfl | rfl <;> rfl
  · intro before e hprefix
    apply tells_of_entered
    · exact run_entered sections (fun frame hmem => absurd hmem List.not_mem_nil) before
    · rintro c later rfl
      cases before with
      | nil => exact fun _ => rfl
      | cons first before =>
        have hlater := (List.cons_prefix_cons.mp hprefix).2.subset
          (List.mem_append_right before List.mem_cons_self)
        simp at hlater

/-- A fatal CAN error, and then a reset. -/
theorem reset_unnoticed :
    ¬ ∀ steps : List (Step Unit Operation),
      Calls (fun op => op.keepsHealthCallback = true) steps →
      let s := run (step sections) (started 0 false true) steps
      s.Quiescent → ∀ id, view s.log id = s.object.isSubsystemHealthy id := by
  intro hclaim
  have hview := hclaim [.call () (.reportError (some .can) "bus off" true), .deliver (),
    .resume (), .call () (.reset 1)] ?_ (fun _ => rfl) .can
  · exact absurd hview (by decide)
  · intro c op hmem
    simp only [List.mem_cons, Step.call.injEq, reduceCtorEq, List.not_mem_nil, or_false, false_or,
      true_and] at hmem
    rcases hmem with rfl | rfl <;> rfl

end SpeeduinoDash.SystemHealth
