import SpeeduinoDash.ConfigWatcher

set_option autoImplicit false

/-!
# How often the callback is invoked

The debounce keeps a time for each full path, and nothing else of one path bears on another.
-/
namespace SpeeduinoDash.ConfigWatcher

structure Call where
  watchPath : String
  event : InotifyEvent

def Call.path (c : Call) : String := fullPath c.watchPath c.event.filename

/-- The calls, each with what the callback is told. -/
def trace (w : ConfigWatcher) : List Call → List (Call × Option ConfigChangeEvent)
  | [] => []
  | c :: calls =>
    (c, (w.processEvent c.watchPath c.event).2) ::
      trace (w.processEvent c.watchPath c.event).1 calls

def callbacks (w : ConfigWatcher) (calls : List Call) : List ConfigChangeEvent :=
  (trace w calls).filterMap Prod.snd

section Spacing

theorem debounceInterval_processEvent (w : ConfigWatcher) (watchPath : String) (e : InotifyEvent) :
    (w.processEvent watchPath e).1.debounceInterval = w.debounceInterval := by
  obtain ⟨-, hstep⟩ | ⟨-, changeCount, hstep⟩ := processEvent_cases watchPath w e <;> rw [hstep]

theorem told_event {w : ConfigWatcher} {c : Call} {told : ConfigChangeEvent}
    (h : (w.processEvent c.watchPath c.event).2 = some told) :
    told.path = c.path ∧ told.timestamp = c.event.time ∧
      w.debounced c.event.time c.path = false := by
  unfold processEvent at h
  dsimp only at h
  split_ifs at h with hdebounced hchange hcallback
  obtain rfl := Option.some.inj h
  exact ⟨rfl, rfl, Bool.eq_false_iff.mpr hdebounced⟩

theorem lastEventTime_processEvent (w : ConfigWatcher) (c : Call) :
    (w.processEvent c.watchPath c.event).1.lastEventTime =
      if w.debounced c.event.time c.path then w.lastEventTime
      else Function.update w.lastEventTime c.path (some c.event.time) := by
  obtain ⟨hskipped, hstep⟩ | ⟨hpassed, changeCount, hstep⟩ :=
    processEvent_cases c.watchPath w c.event
  · rw [hstep, Call.path, if_pos hskipped]
  · rw [hstep, Call.path, if_neg (by simp [hpassed])]

theorem le_of_not_debounced {w : ConfigWatcher} {now last : ℤ} {path : String}
    (h : w.debounced now path = false) (hlast : w.lastEventTime path = some last) :
    w.debounceTicks ≤ now - last := by
  rw [debounced, hlast] at h
  have hnot := of_decide_eq_false h
  omega

def Timed (calls : List Call) : Prop :=
  calls.Pairwise (fun c c' => c.event.time ≤ c'.event.time)

theorem mem_callbacks {w : ConfigWatcher} {calls : List Call} {told : ConfigChangeEvent}
    (h : told ∈ callbacks w calls) : ∃ c ∈ calls, told.timestamp = c.event.time := by
  induction calls generalizing w with
  | nil => cases h
  | cons c calls ih =>
    rw [callbacks, trace, List.filterMap_cons] at h
    cases htold : (w.processEvent c.watchPath c.event).2 with
    | none =>
      rw [htold] at h
      obtain ⟨c', hc', htime⟩ := ih h
      exact ⟨c', List.mem_cons_of_mem c hc', htime⟩
    | some first =>
      rw [htold] at h
      rcases List.mem_cons.mp h with rfl | h
      · exact ⟨c, List.mem_cons_self, (told_event htold).2.1⟩
      · obtain ⟨c', hc', htime⟩ := ih h
        exact ⟨c', List.mem_cons_of_mem c hc', htime⟩

/-- The time of a path moves only with an event of it that is let through. -/
theorem lastEventTime_kept {w : ConfigWatcher} {c : Call} {path : String}
    (h : ¬ (w.debounced c.event.time c.path = false ∧ path = c.path)) :
    (w.processEvent c.watchPath c.event).1.lastEventTime path = w.lastEventTime path := by
  rw [lastEventTime_processEvent]
  split_ifs with hdebounced
  · rfl
  · have hpath : path ≠ c.path := fun heq => h ⟨Bool.eq_false_iff.mpr hdebounced, heq⟩
    rw [Function.update_of_ne hpath]

theorem callback_after_last {w : ConfigWatcher} {calls : List Call} (htimed : Timed calls)
    {told : ConfigChangeEvent} (h : told ∈ callbacks w calls) {last : ℤ}
    (hlast : w.lastEventTime told.path = some last) :
    w.debounceTicks ≤ told.timestamp - last := by
  induction calls generalizing w last with
  | nil => cases h
  | cons c calls ih =>
    obtain ⟨hfirst, hrest⟩ := List.pairwise_cons.mp htimed
    have hinterval := debounceInterval_processEvent w c.watchPath c.event
    rw [callbacks, trace, List.filterMap_cons] at h
    have hlater : told ∈ callbacks (w.processEvent c.watchPath c.event).1 calls →
        w.debounceTicks ≤ told.timestamp - last := by
      intro hmem
      by_cases hmine : w.debounced c.event.time c.path = false ∧ told.path = c.path
      · -- the event has moved the time of the path, and was itself late enough
        obtain ⟨hpassed, hpath⟩ := hmine
        obtain ⟨c', hc', htime⟩ := mem_callbacks hmem
        have hpassed' := le_of_not_debounced hpassed (hpath ▸ hlast)
        have horder := hfirst c' hc'
        rw [htime]
        omega
      · have hkept := ih hrest hmem ((lastEventTime_kept hmine).trans hlast)
        rw [debounceTicks, hinterval] at hkept
        exact hkept
    cases htold : (w.processEvent c.watchPath c.event).2 with
    | none =>
      rw [htold] at h
      exact hlater h
    | some first =>
      rw [htold] at h
      rcases List.mem_cons.mp h with rfl | h
      · obtain ⟨hpath, htime, hpassed⟩ := told_event htold
        rw [htime]
        exact le_of_not_debounced hpassed (hpath ▸ hlast)
      · exact hlater h

theorem callbacks_spaced (w : ConfigWatcher) {calls : List Call} (htimed : Timed calls) :
    (callbacks w calls).Pairwise (fun told told' =>
      told.path = told'.path → w.debounceTicks ≤ told'.timestamp - told.timestamp) := by
  induction calls generalizing w with
  | nil => exact List.Pairwise.nil
  | cons c calls ih =>
    obtain ⟨-, hrest⟩ := List.pairwise_cons.mp htimed
    have hinterval := debounceInterval_processEvent w c.watchPath c.event
    have htail := ih (w.processEvent c.watchPath c.event).1 hrest
    rw [debounceTicks, hinterval] at htail
    rw [callbacks, trace, List.filterMap_cons]
    cases htold : (w.processEvent c.watchPath c.event).2 with
    | none => exact htail
    | some told =>
      refine List.pairwise_cons.mpr ⟨?_, htail⟩
      intro told' hmem hpath
      obtain ⟨hown, htime, hpassed⟩ := told_event htold
      have hlast : (w.processEvent c.watchPath c.event).1.lastEventTime told'.path =
          some told.timestamp := by
        rw [lastEventTime_processEvent, if_neg (by simp [hpassed]), ← hpath, hown,
          Function.update_self, htime]
      have hkept := callback_after_last hrest hmem hlast
      rw [debounceTicks, hinterval] at hkept
      exact hkept

end Spacing

section Independence

structure Agree (path : String) (w w' : ConfigWatcher) : Prop where
  callback : w.callback = w'.callback
  interval : w.debounceInterval = w'.debounceInterval
  last : w.lastEventTime path = w'.lastEventTime path

variable {w w' : ConfigWatcher} {c : Call}

theorem callback_processEvent (w : ConfigWatcher) (watchPath : String) (e : InotifyEvent) :
    (w.processEvent watchPath e).1.callback = w.callback := by
  obtain ⟨-, hstep⟩ | ⟨-, changeCount, hstep⟩ := processEvent_cases watchPath w e <;> rw [hstep]

theorem Agree.debounced_eq (h : Agree c.path w w') (now : ℤ) :
    w.debounced now c.path = w'.debounced now c.path := by
  rw [debounced, debounced, h.last, debounceTicks, debounceTicks, h.interval]

theorem Agree.told_eq (h : Agree c.path w w') :
    (w.processEvent c.watchPath c.event).2 = (w'.processEvent c.watchPath c.event).2 := by
  have hdebounced := h.debounced_eq c.event.time
  unfold Call.path at hdebounced
  unfold processEvent
  dsimp only
  rw [hdebounced, h.callback]
  split_ifs <;> rfl

theorem Agree.step (h : Agree c.path w w') :
    Agree c.path (w.processEvent c.watchPath c.event).1
      (w'.processEvent c.watchPath c.event).1 := by
  refine ⟨?_, ?_, ?_⟩
  · rw [callback_processEvent, callback_processEvent, h.callback]
  · rw [debounceInterval_processEvent, debounceInterval_processEvent, h.interval]
  · rw [lastEventTime_processEvent, lastEventTime_processEvent, h.debounced_eq]
    split_ifs
    · exact h.last
    · rw [Function.update_self, Function.update_self]

theorem Agree.other {path : String} (h : Agree path w w') (hpath : c.path ≠ path) :
    Agree path (w.processEvent c.watchPath c.event).1 w' := by
  refine ⟨?_, ?_, ?_⟩
  · rw [callback_processEvent, h.callback]
  · rw [debounceInterval_processEvent, h.interval]
  · rw [lastEventTime_kept fun hmine => hpath hmine.2.symm, h.last]

def ofPath (path : String) (calls : List Call) : List Call :=
  calls.filter (fun c => c.path = path)

/-- What comes of the events of one path is what comes of them alone. -/
theorem trace_ofPath {path : String} (h : Agree path w w') (calls : List Call) :
    (trace w calls).filter (fun entry => entry.1.path = path) = trace w' (ofPath path calls) := by
  induction calls generalizing w w' with
  | nil => rfl
  | cons c calls ih =>
    rw [trace, ofPath]
    by_cases hpath : c.path = path
    · subst hpath
      rw [List.filter_cons_of_pos (by simp), List.filter_cons_of_pos (by simp), trace, h.told_eq,
        ih h.step]
      rfl
    · rw [List.filter_cons_of_neg (by simpa using hpath),
        List.filter_cons_of_neg (by simpa using hpath), ih (h.other hpath)]
      rfl

end Independence

/-- Callbacks of one path are at least the debounce interval apart, and runs with the same events
    of a path invoke the callback for the same ones of them. -/
theorem callback_rate (w : ConfigWatcher) (calls : List Call) (htimed : Timed calls) :
    (callbacks w calls).Pairwise (fun told told' => told.path = told'.path →
      w.debounceInterval * 1000000 ≤ told'.timestamp - told.timestamp) ∧
    ∀ (path : String) (others : List Call), ofPath path others = ofPath path calls →
      (trace w others).filter (fun entry => entry.1.path = path) =
        (trace w calls).filter (fun entry => entry.1.path = path) := by
  refine ⟨callbacks_spaced w htimed, fun path others hsame => ?_⟩
  have hself : Agree path w w := ⟨rfl, rfl, rfl⟩
  rw [trace_ofPath hself, trace_ofPath hself, hsame]

def savedTwice : List Call :=
  [⟨"system.yaml", 0, inModify, ""⟩, ⟨"system.yaml", 150000000, inCloseWrite, ""⟩,
    ⟨"system.yaml", 1150000000, inCloseWrite, ""⟩]

theorem callback_rate_savedTwice :
    (callbacks (watching 100) savedTwice).Pairwise (fun told told' => told.path = told'.path →
      (watching 100).debounceInterval * 1000000 ≤ told'.timestamp - told.timestamp) ∧
    ∀ (path : String) (others : List Call), ofPath path others = ofPath path savedTwice →
      (trace (watching 100) others).filter (fun entry => entry.1.path = path) =
        (trace (watching 100) savedTwice).filter (fun entry => entry.1.path = path) :=
  callback_rate (watching 100) savedTwice (by simp [Timed, savedTwice])

end SpeeduinoDash.ConfigWatcher
