import SpeeduinoDash.Lib.LeadingEdge

set_option autoImplicit false

/-!
# The configuration file watcher

Times are ticks of the steady clock, one nanosecond each; the debounce interval is in
milliseconds. Of the callback only whether one is installed.
-/
namespace SpeeduinoDash
open Lib.Runs

def inModify : UInt32 := 0x2
def inCloseWrite : UInt32 := 0x8
def inMovedFrom : UInt32 := 0x40
def inMovedTo : UInt32 := 0x80
def inCreate : UInt32 := 0x100
def inDelete : UInt32 := 0x200

inductive ConfigChangeType where
  | modified
  | created
  | deleted
  | moved
deriving DecidableEq

structure ConfigChangeEvent where
  path : String
  type : ConfigChangeType
  timestamp : ℤ
deriving DecidableEq

/-- What the kernel says of one file, and when it is processed. -/
structure InotifyEvent where
  time : ℤ
  mask : UInt32
  filename : String

structure ConfigWatcher where
  callback : Bool := false
  debounceInterval : ℤ := 100
  lastEventTime : String → Option ℤ := fun _ => none
  changeCount : UInt64 := 0

namespace ConfigWatcher

def fullPath (watchPath filename : String) : String :=
  if filename = "" then watchPath
  else if watchPath.toList.getLast? = some '/' then watchPath ++ filename
  else watchPath ++ "/" ++ filename

def changeType (mask : UInt32) : ConfigChangeType :=
  if mask &&& inCreate != 0 then .created
  else if mask &&& inDelete != 0 then .deleted
  else if mask &&& (inMovedTo ||| inMovedFrom) != 0 then .moved
  else .modified

def isChange (mask : UInt32) : Bool :=
  mask &&& (inCloseWrite ||| inCreate ||| inDelete ||| inMovedTo) != 0

def debounceTicks (w : ConfigWatcher) : ℤ := w.debounceInterval * 1000000

/-- The debounce comes first and keeps a time for every event, whatever its mask. -/
def debounced (w : ConfigWatcher) (now : ℤ) (path : String) : Bool :=
  match w.lastEventTime path with
  | none => false
  | some last => decide (now - last < w.debounceTicks)

def processEvent (w : ConfigWatcher) (watchPath : String) (e : InotifyEvent) :
    ConfigWatcher × Option ConfigChangeEvent :=
  let path := fullPath watchPath e.filename
  if w.debounced e.time path then (w, none)
  else
    let w := { w with lastEventTime := Function.update w.lastEventTime path (some e.time) }
    if isChange e.mask then
      ({ w with changeCount := w.changeCount + 1 },
        if w.callback then some ⟨path, changeType e.mask, e.time⟩ else none)
    else (w, none)

section Run
open Lib.LeadingEdge

variable (watchPath : String)

theorem processEvent_cases (w : ConfigWatcher) (e : InotifyEvent) :
    (w.debounced e.time (fullPath watchPath e.filename) = true ∧
      (w.processEvent watchPath e).1 = w) ∨
    (w.debounced e.time (fullPath watchPath e.filename) = false ∧
      ∃ changeCount, (w.processEvent watchPath e).1 =
        { w with
          lastEventTime :=
            Function.update w.lastEventTime (fullPath watchPath e.filename) (some e.time)
          changeCount := changeCount }) := by
  unfold processEvent
  dsimp only
  cases w.debounced e.time (fullPath watchPath e.filename) with
  | true => exact .inl ⟨rfl, rfl⟩
  | false =>
    cases isChange e.mask with
    | true => exact .inr ⟨rfl, _, rfl⟩
    | false => exact .inr ⟨rfl, _, rfl⟩

def pathOf (e : InotifyEvent) : String := fullPath watchPath e.filename

def step (w : ConfigWatcher) (e : InotifyEvent) : ConfigWatcher := (w.processEvent watchPath e).1

def Invokes (w : ConfigWatcher) (e : InotifyEvent) : Prop :=
  (w.processEvent watchPath e).2 = some ⟨pathOf watchPath e, changeType e.mask, e.time⟩

/-- A new watcher with a callback, and a debounce interval of `d` milliseconds. -/
def watching (d : ℤ) : ConfigWatcher := { callback := true, debounceInterval := d }

def lastStamped (d : ℤ) (events : List InotifyEvent) : String → Option InotifyEvent :=
  lastAdmitted (pathOf watchPath) InotifyEvent.time (d * 1000000) events

structure Tracks (d : ℤ) (events : List InotifyEvent) (w : ConfigWatcher) : Prop where
  callback : w.callback = true
  interval : w.debounceInterval = d
  stamps : ∀ path, w.lastEventTime path = (lastStamped watchPath d events path).map
    InotifyEvent.time

variable {watchPath} {d : ℤ} {events : List InotifyEvent} {w : ConfigWatcher}

theorem Tracks.debounced_eq (h : Tracks watchPath d events w) (e : InotifyEvent) :
    w.debounced e.time (fullPath watchPath e.filename) =
      !admitted (pathOf watchPath) InotifyEvent.time (d * 1000000) events e := by
  have hstamp := h.stamps (pathOf watchPath e)
  rw [debounced, debounceTicks, h.interval]
  change (match w.lastEventTime (pathOf watchPath e) with | none => _ | some last => _) = _
  rw [hstamp, admitted, lastStamped]
  cases lastAdmitted (pathOf watchPath) InotifyEvent.time (d * 1000000) events
      (pathOf watchPath e) with
  | none => rfl
  | some a =>
    simp only [Option.map_some, admits]
    rw [← decide_not]
    exact decide_eq_decide.mpr (by omega)

theorem Tracks.step (h : Tracks watchPath d events w) (e : InotifyEvent) :
    Tracks watchPath d (events ++ [e]) (step watchPath w e) := by
  have hdebounced := h.debounced_eq e
  obtain ⟨hskipped, hstep⟩ | ⟨hpassed, changeCount, hstep⟩ := processEvent_cases watchPath w e
  · have hkept : admitted (pathOf watchPath) InotifyEvent.time (d * 1000000) events e = false := by
      simpa [hskipped] using hdebounced
    rw [ConfigWatcher.step, hstep]
    refine ⟨h.callback, h.interval, fun path => ?_⟩
    rw [lastStamped, lastAdmitted_snoc_other (.inl hkept)]
    exact h.stamps path
  · have hadmitted : admitted (pathOf watchPath) InotifyEvent.time (d * 1000000) events e = true := by
      simpa [hpassed] using hdebounced
    rw [ConfigWatcher.step, hstep]
    refine ⟨h.callback, h.interval, fun path => ?_⟩
    by_cases hpath : path = pathOf watchPath e
    · rw [hpath, lastStamped, lastAdmitted_snoc_self hadmitted]
      exact Function.update_self ..
    · rw [lastStamped, lastAdmitted_snoc_other (.inr (Ne.symm hpath))]
      exact (Function.update_of_ne hpath ..).trans (h.stamps path)

theorem run_tracks (watchPath : String) (d : ℤ) (events : List InotifyEvent) :
    Tracks watchPath d events (run (ConfigWatcher.step watchPath) (watching d) events) := by
  apply run_history (ConfigWatcher.step watchPath) (fun events w => Tracks watchPath d events w)
  · exact ⟨rfl, rfl, fun _ => rfl⟩
  · intro pre e _ h
    exact h.step e

theorem Tracks.invokes_iff (h : Tracks watchPath d events w) (e : InotifyEvent) :
    Invokes watchPath w e ↔
      admitted (pathOf watchPath) InotifyEvent.time (d * 1000000) events e = true ∧
        isChange e.mask = true := by
  have hdebounced := h.debounced_eq e
  unfold Invokes processEvent
  dsimp only
  rw [hdebounced]
  cases admitted (pathOf watchPath) InotifyEvent.time (d * 1000000) events e <;>
    cases isChange e.mask <;> simp [h.callback, pathOf]

/-- No change is lost exactly where no change comes within the interval after an event of its
    path that was let through and is no change itself. -/
theorem no_change_lost_iff (watchPath : String) (d : ℤ) (events : List InotifyEvent)
    (hordered : Ordered InotifyEvent.time events) :
    (∀ pre e, pre ++ [e] <+: events → isChange e.mask = true →
      Invokes watchPath (run (ConfigWatcher.step watchPath) (watching d) pre) e ∨
      ∃ pre' e', pre' ++ [e'] <+: pre ∧ pathOf watchPath e' = pathOf watchPath e ∧
        Invokes watchPath (run (ConfigWatcher.step watchPath) (watching d) pre') e' ∧
        e.time - e'.time < d * 1000000) ↔
      ∀ pre e, pre ++ [e] <+: events → isChange e.mask = true →
        ∀ a, lastStamped watchPath d pre (pathOf watchPath e) = some a →
          e.time - a.time < d * 1000000 → isChange a.mask = true := by
  apply forall₂_congr
  intro pre e
  apply forall₂_congr
  intro hpre hchange
  have hordered' : Ordered InotifyEvent.time (pre ++ [e]) := hordered.sublist hpre.sublist
  have hcovered := covered_iff (pathOf watchPath) (d * 1000000)
    (fun a => isChange a.mask = true) hordered'
  rw [lastStamped, ← hcovered, (run_tracks watchPath d pre).invokes_iff]
  apply or_congr
  · exact and_iff_left hchange
  · apply exists₂_congr
    intro pre' e'
    rw [(run_tracks watchPath d pre').invokes_iff, and_assoc]

def savedFile : List InotifyEvent := [⟨0, inModify, ""⟩, ⟨1000000, inCloseWrite, ""⟩]

theorem no_change_lost_saved :
    (∀ pre e, pre ++ [e] <+: savedFile → isChange e.mask = true →
      Invokes "system.yaml" (run (step "system.yaml") (watching 100) pre) e ∨
      ∃ pre' e', pre' ++ [e'] <+: pre ∧ pathOf "system.yaml" e' = pathOf "system.yaml" e ∧
        Invokes "system.yaml" (run (step "system.yaml") (watching 100) pre') e' ∧
        e.time - e'.time < 100 * 1000000) ↔
      ∀ pre e, pre ++ [e] <+: savedFile → isChange e.mask = true →
        ∀ a, lastStamped "system.yaml" 100 pre (pathOf "system.yaml" e) = some a →
          e.time - a.time < 100 * 1000000 → isChange a.mask = true :=
  no_change_lost_iff "system.yaml" 100 savedFile (by simp [Ordered, savedFile])

theorem close_after_modify_lost : ¬ ∀ (watchPath : String) (d : ℤ) (events : List InotifyEvent),
    Ordered InotifyEvent.time events →
    ∀ pre e, pre ++ [e] <+: events → isChange e.mask = true →
      Invokes watchPath (run (step watchPath) (watching d) pre) e ∨
      ∃ pre' e', pre' ++ [e'] <+: pre ∧ pathOf watchPath e' = pathOf watchPath e ∧
        Invokes watchPath (run (step watchPath) (watching d) pre') e' ∧
        e.time - e'.time < d * 1000000 := by
  intro hall
  rcases hall "system.yaml" 100 savedFile (by simp [Ordered, savedFile]) (savedFile.take 1)
    ⟨1000000, inCloseWrite, ""⟩ (List.prefix_refl _) (by decide) with hinvokes | hearlier
  · unfold Invokes at hinvokes
    exact absurd hinvokes (by decide)
  · obtain ⟨pre', e', hpre, -, hinvokes, -⟩ := hearlier
    cases pre' with
    | nil =>
      obtain ⟨rfl, -⟩ := List.cons_prefix_cons.mp hpre
      unfold Invokes at hinvokes
      exact absurd hinvokes (by decide)
    | cons e'' pre' =>
      have hlength := hpre.length_le
      simp [savedFile] at hlength

end Run

end ConfigWatcher

end SpeeduinoDash
