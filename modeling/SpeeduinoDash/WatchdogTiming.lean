import Mathlib.Data.List.Chain
import SpeeduinoDash.Watchdog

set_option autoImplicit false

/-!
# The deadline of the watchdog

The steps of `notifyLoop` while `running_` is true, each with its duration: a step takes what it
sleeps, and at most `slack` more for the health check, the scheduler and the rest.
-/
namespace SpeeduinoDash.WatchdogNotifier
open Lib.Runs

/-- Whether the health check passes, and how long the step takes. -/
structure Tick where
  healthy : Bool
  duration : ℕ

def nap (s : WatchdogNotifier) : ℕ :=
  match s.thread with
  | some (.sleeping remaining) => if s.running then min remaining sleepChunk else 0
  | _ => 0

def Timely (slack : ℕ) (s : WatchdogNotifier) : List Tick → Prop
  | [] => True
  | t :: ticks => s.nap ≤ t.duration ∧ t.duration ≤ s.nap + slack ∧
      Timely slack (s.notifyLoop t.healthy) ticks

section Rounds

variable {slack : ℕ}

end Rounds

end SpeeduinoDash.WatchdogNotifier
