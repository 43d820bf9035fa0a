import Mathlib.Algebra.Field.Rat
import Mathlib.Algebra.Order.Ring.Rat
import SpeeduinoDash.CanWriter

set_option autoImplicit false

/-!
# The rate limit of a command id

The writer keeps a limit twice. Where an id is listed more than once, the whitelist has the limit
of the last entry and the token bucket that of the first.
-/
namespace SpeeduinoDash.CanWriter
open Lib.Keyed Lib.Runs

def firstEntry (commands : List CanCommandDef) (canId : UInt32) : Option CanCommandDef :=
  commands.find? (fun cmd => cmd.canId == canId)

def lastEntry (commands : List CanCommandDef) (canId : UInt32) : Option CanCommandDef :=
  lastWhere (fun cmd => cmd.canId == canId) commands

variable {R : Type} [NatCast R]

def settings (b : TokenBucket R) : UInt32 × R := (b.rateHz, b.maxTokens)

def enforcing (rateHz : UInt32) : UInt32 × R := (rateHz, (rateHz.toNat : R))

theorem enforcing_inj {rateHz rateHz' : UInt32} :
    (enforcing rateHz : UInt32 × R) = enforcing rateHz' ↔ rateHz = rateHz' :=
  ⟨congrArg Prod.fst, congrArg enforcing⟩

variable [Add R] [Sub R] [Mul R] [Min R] [One R] [LE R] [DecidableLE R]

theorem settings_tryConsume (b : TokenBucket R) (now : R) :
    settings (b.tryConsume now).2 = settings b := by
  unfold TokenBucket.tryConsume
  dsimp only
  split_ifs <;> rfl

/-- Each id has the limiter of its first entry, whatever was sent since. -/
def LimitedBy (commands : List CanCommandDef) (w : CanWriter R) : Prop :=
  ∀ canId, (w.rateLimiters canId).map settings =
    (firstEntry commands canId).map (fun cmd => enforcing cmd.rateLimitHz)

theorem checkRate_limitedBy {commands : List CanCommandDef} {w : CanWriter R}
    (h : LimitedBy commands w) (canId : UInt32) (now : R) :
    LimitedBy commands (w.checkRate canId now).2 := by
  intro other
  rw [← h other]
  by_cases hother : other = canId
  · subst hother
    cases hlimiter : w.rateLimiters other with
    | none => simp [checkRate, hlimiter]
    | some b => simp [checkRate, hlimiter, settings_tryConsume]
  · rw [checkRate_other w canId other now hother]

theorem send_limitedBy {commands : List CanCommandDef} {w : CanWriter R}
    (h : LimitedBy commands w) (c : SendCall R) : LimitedBy commands (w.send c).writer := by
  have hrate := checkRate_limitedBy h c.canId c.now
  obtain ⟨-, hs⟩ | ⟨-, hs⟩ | ⟨-, hs⟩ | ⟨bytes, -, -, -, -, hs⟩ := send_cases w c
  · rwa [hs]
  · rwa [hs]
  · rwa [hs]
  · intro canId
    rw [hs, transmit_rateLimiters]
    exact hrate canId

theorem run_limitedBy (ops : List (Op R)) :
    LimitedBy (lastLoaded ops) (run step ({} : CanWriter R) ops) := by
  refine run_history step (fun ops w => LimitedBy (lastLoaded ops) w) ?_ ops ?_
  · intro canId
    rfl
  · intro pre op _ ih
    rw [lastLoaded_snoc]
    cases op with
    | loadAllowedCommands commands now =>
      intro canId
      rw [step, loadAllowedCommands_rateLimiters, Option.map_map]
      rfl
    | send call => exact send_limitedBy ih call

/-- The bucket of a listed id, `getRateLimit` and the configuration agree exactly for the ids
    whose first and last entries have one limit. -/
theorem one_rate_limit_iff (ops : List (Op R)) (canId : UInt32)
    (hlisted : ∃ cmd ∈ lastLoaded ops, cmd.canId = canId) :
    let w := run step ({} : CanWriter R) ops
    ((w.rateLimiters canId).map settings = some (enforcing (w.getRateLimit canId)) ∧
        w.getRateLimit canId = ConfigLoader.getCommandRateLimit (lastLoaded ops) canId) ↔
      (firstEntry (lastLoaded ops) canId).map CanCommandDef.rateLimitHz =
        (lastEntry (lastLoaded ops) canId).map CanCommandDef.rateLimitHz := by
  intro w
  obtain ⟨cmd, hmem, hid⟩ := hlisted
  have hlimiter := run_limitedBy ops canId
  have hlimit : w.getRateLimit canId =
      ((lastEntry (lastLoaded ops) canId).map CanCommandDef.rateLimitHz).getD 0 := by
    rw [getRateLimit, run_whitelist]
    rfl
  cases hfirst : firstEntry (lastLoaded ops) canId with
  | none =>
    rw [firstEntry, List.find?_eq_none] at hfirst
    exact absurd (beq_iff_eq.mpr hid) (hfirst cmd hmem)
  | some first =>
    cases hlast : lastEntry (lastLoaded ops) canId with
    | none =>
      have hnone := (lastWhere_eq_none _).mp hlast cmd hmem
      exact absurd hid (beq_eq_false_iff_ne.mp hnone)
    | some last =>
      have hconfigured : ConfigLoader.getCommandRateLimit (lastLoaded ops) canId =
          first.rateLimitHz := by
        rw [firstEntry] at hfirst
        rw [ConfigLoader.getCommandRateLimit, hfirst]
      rw [hfirst] at hlimiter
      rw [hlast] at hlimit
      change (w.rateLimiters canId).map settings = _ at hlimiter
      rw [hlimiter, hlimit, hconfigured, Option.map_some, Option.map_some, Option.map_some,
        Option.getD_some, Option.some.injEq, Option.some.injEq, enforcing_inj]
      constructor
      · exact And.left
      · exact fun hsame => ⟨hsame, hsame.symm⟩

theorem one_rate_limit_twice :
    let ops : List (Op ℚ) := [.loadAllowedCommands [⟨0x7E0, 5, ""⟩, ⟨0x7E0, 5, "again"⟩] 0]
    let w := run step {} ops
    (w.rateLimiters 0x7E0).map settings = some (enforcing (w.getRateLimit 0x7E0)) ∧
      w.getRateLimit 0x7E0 = 5 := by
  intro ops w
  have h := (one_rate_limit_iff ops 0x7E0 ⟨⟨0x7E0, 5, ""⟩, by decide, rfl⟩).mpr (by decide)
  exact ⟨h.1, h.2⟩

/-- An id listed with 5 Hz and then with 20 Hz. -/
theorem two_limits_for_one_id :
    ¬ ∀ (ops : List (Op ℚ)) (canId : UInt32), (∃ cmd ∈ lastLoaded ops, cmd.canId = canId) →
      let w := run step ({} : CanWriter ℚ) ops
      (w.rateLimiters canId).map settings = some (enforcing (w.getRateLimit canId)) ∧
        w.getRateLimit canId = ConfigLoader.getCommandRateLimit (lastLoaded ops) canId := by
  intro hclaim
  have h := hclaim [.loadAllowedCommands [⟨0x7E0, 5, ""⟩, ⟨0x7E0, 20, ""⟩] 0] 0x7E0
    ⟨⟨0x7E0, 5, ""⟩, by decide, rfl⟩
  exact absurd h.2 (by decide)

end SpeeduinoDash.CanWriter
