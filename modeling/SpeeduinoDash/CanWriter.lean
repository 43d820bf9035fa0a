import Mathlib.Algebra.Group.Nat.Defs
import Mathlib.Tactic.SplitIfs
import SpeeduinoDash.CanInterface
import SpeeduinoDash.Lib.Keyed
import SpeeduinoDash.Lib.Runs

set_option autoImplicit false

/-!
# The whitelisting, rate-limited CAN writer

`R` is the number type of tokens and of clock readings in seconds. What the writer lets through
does not depend on its arithmetic, so this module asks for no law of `R`.
-/
namespace SpeeduinoDash
open Lib.Keyed Lib.Runs

variable {R : Type}

structure TokenBucket (R : Type) where
  rateHz : UInt32
  tokens : R
  maxTokens : R
  lastRefill : R

inductive SendResult where
  | ok
  | blocked
  | rateLimited
  | canError
  | invalid
deriving DecidableEq

def SendResult.code : SendResult → UInt8
  | .ok => 0
  | .blocked => 1
  | .rateLimited => 2
  | .canError => 3
  | .invalid => 4

structure CanWriter (R : Type) where
  whitelist : UInt32 → Option UInt32 := fun _ => none
  rateLimiters : UInt32 → Option (TokenBucket R) := fun _ => none
  sentCount : UInt32 := 0
  blockedCount : UInt32 := 0
  rateLimitedCount : UInt32 := 0

/-- `data` is the memory behind the caller's pointer, `none` for a null pointer, and `interface`
    what `CanInterface::send` answers. -/
structure SendCall (R : Type) where
  canId : UInt32
  data : Option (ℕ → UInt8)
  dlc : UInt8
  now : R
  interface : CanFrame → Bool

structure SendReport (R : Type) where
  result : SendResult
  handed : Option CanFrame
  writer : CanWriter R

namespace CanWriter

def isAllowed (w : CanWriter R) (canId : UInt32) : Bool := (w.whitelist canId).isSome

def getRateLimit (w : CanWriter R) (canId : UInt32) : UInt32 := (w.whitelist canId).getD 0

def buildFrame (canId : UInt32) (bytes : ℕ → UInt8) (dlc : UInt8) : CanFrame :=
  { id := canId, dlc := dlc, data := copyBytes dlc bytes }

def transmit (w : CanWriter R) (frame : CanFrame) (interface : CanFrame → Bool) : SendReport R :=
  if interface frame then ⟨.ok, some frame, { w with sentCount := w.sentCount + 1 }⟩
  else ⟨.canError, some frame, w⟩

inductive Op (R : Type) where
  | loadAllowedCommands (commands : List CanCommandDef) (now : R)
  | send (call : SendCall R)

def Op.loaded : Op R → Option (List CanCommandDef)
  | .loadAllowedCommands commands _ => some commands
  | .send _ => none

def lastLoaded (ops : List (Op R)) : List CanCommandDef :=
  (ops.filterMap Op.loaded).getLast?.getD []

theorem lastLoaded_snoc (ops : List (Op R)) (op : Op R) :
    lastLoaded (ops ++ [op]) = op.loaded.getD (lastLoaded ops) := by
  cases op <;> simp [lastLoaded, Op.loaded]

@[simp] theorem transmit_whitelist (w : CanWriter R) (frame : CanFrame)
    (interface : CanFrame → Bool) :
    (w.transmit frame interface).writer.whitelist = w.whitelist := by
  unfold transmit
  split <;> rfl

@[simp] theorem transmit_rateLimiters (w : CanWriter R) (frame : CanFrame)
    (interface : CanFrame → Bool) :
    (w.transmit frame interface).writer.rateLimiters = w.rateLimiters := by
  unfold transmit
  split <;> rfl

theorem transmit_handed (w : CanWriter R) (frame : CanFrame) (interface : CanFrame → Bool) :
    (w.transmit frame interface).handed = some frame ∧
      (w.transmit frame interface).result = if interface frame then .ok else .canError := by
  unfold transmit
  split <;> exact ⟨rfl, rfl⟩

end CanWriter

variable [NatCast R]

def TokenBucket.new (rateHz : UInt32) (now : R) : TokenBucket R where
  rateHz := rateHz
  tokens := (rateHz.toNat : R)
  maxTokens := (rateHz.toNat : R)
  lastRefill := now

namespace CanWriter

def loadAllowedCommands (w : CanWriter R) (commands : List CanCommandDef) (now : R) :
    CanWriter R :=
  { w with
    whitelist := commands.foldl (fun m cmd => assign m cmd.canId cmd.rateLimitHz) (fun _ => none)
    rateLimiters := commands.foldl
      (fun m cmd => emplace m cmd.canId (TokenBucket.new cmd.rateLimitHz now)) (fun _ => none) }

theorem loadAllowedCommands_whitelist (w : CanWriter R) (commands : List CanCommandDef) (now : R)
    (canId : UInt32) : (w.loadAllowedCommands commands now).whitelist canId =
      (lastWhere (fun cmd => cmd.canId == canId) commands).map CanCommandDef.rateLimitHz := by
  have h := foldl_assign CanCommandDef.canId CanCommandDef.rateLimitHz commands
    (fun _ => none) canId
  rwa [Option.or_none] at h

theorem loadAllowedCommands_rateLimiters (w : CanWriter R) (commands : List CanCommandDef)
    (now : R) (canId : UInt32) : (w.loadAllowedCommands commands now).rateLimiters canId =
      (commands.find? (fun cmd => cmd.canId == canId)).map
        (fun cmd => TokenBucket.new cmd.rateLimitHz now) :=
  foldl_emplace CanCommandDef.canId (fun cmd => TokenBucket.new cmd.rateLimitHz now) commands
    (fun _ => none) canId

end CanWriter

variable [Add R] [Sub R] [Mul R] [Min R] [One R] [LE R] [DecidableLE R]

def TokenBucket.tryConsume (b : TokenBucket R) (now : R) : Bool × TokenBucket R :=
  let elapsed := now - b.lastRefill
  let tokens := min b.maxTokens (b.tokens + elapsed * (b.rateHz.toNat : R))
  if 1 ≤ tokens then (true, { b with tokens := tokens - 1, lastRefill := now })
  else (false, { b with tokens := tokens, lastRefill := now })

def TokenBucket.reset (b : TokenBucket R) (now : R) : TokenBucket R :=
  { b with tokens := b.maxTokens, lastRefill := now }

namespace CanWriter

/-- Take a token from the limiter of the id; an id without a limiter is not limited. -/
def checkRate (w : CanWriter R) (canId : UInt32) (now : R) : Bool × CanWriter R :=
  match w.rateLimiters canId with
  | none => (true, w)
  | some limiter =>
    ((limiter.tryConsume now).1,
      { w with rateLimiters := assign w.rateLimiters canId (limiter.tryConsume now).2 })

def send (w : CanWriter R) (c : SendCall R) : SendReport R :=
  match c.data with
  | none => ⟨.invalid, none, w⟩
  | some bytes =>
    if c.dlc > 8 then ⟨.invalid, none, w⟩
    else if ¬ w.isAllowed c.canId then
      ⟨.blocked, none, { w with blockedCount := w.blockedCount + 1 }⟩
    else
      let w' := (w.checkRate c.canId c.now).2
      if (w.checkRate c.canId c.now).1 then
        w'.transmit (buildFrame c.canId bytes c.dlc) c.interface
      else ⟨.rateLimited, none, { w' with rateLimitedCount := w'.rateLimitedCount + 1 }⟩

def step (w : CanWriter R) : Op R → CanWriter R
  | .loadAllowedCommands commands now => w.loadAllowedCommands commands now
  | .send call => (w.send call).writer

def handed (w : CanWriter R) : Op R → Option CanFrame
  | .loadAllowedCommands _ _ => none
  | .send call => (w.send call).handed

@[simp] theorem checkRate_whitelist (w : CanWriter R) (canId : UInt32) (now : R) :
    (w.checkRate canId now).2.whitelist = w.whitelist := by
  unfold checkRate
  split <;> rfl

theorem checkRate_other (w : CanWriter R) (canId other : UInt32) (now : R) (h : other ≠ canId) :
    (w.checkRate canId now).2.rateLimiters other = w.rateLimiters other := by
  unfold checkRate
  split
  · rfl
  · exact assign_of_ne _ _ h

theorem send_cases (w : CanWriter R) (c : SendCall R) :
    ((c.data = none ∨ c.dlc > 8) ∧ w.send c = ⟨.invalid, none, w⟩) ∨
    (w.isAllowed c.canId = false ∧
      w.send c = ⟨.blocked, none, { w with blockedCount := w.blockedCount + 1 }⟩) ∨
    ((w.checkRate c.canId c.now).1 = false ∧
      w.send c = ⟨.rateLimited, none, { (w.checkRate c.canId c.now).2 with
        rateLimitedCount := (w.checkRate c.canId c.now).2.rateLimitedCount + 1 }⟩) ∨
    (∃ bytes, c.data = some bytes ∧ c.dlc ≤ 8 ∧ w.isAllowed c.canId = true ∧
      (w.checkRate c.canId c.now).1 = true ∧
      w.send c = (w.checkRate c.canId c.now).2.transmit
        (buildFrame c.canId bytes c.dlc) c.interface) := by
  cases hdata : c.data with
  | none => exact .inl ⟨.inl rfl, by simp [send, hdata]⟩
  | some bytes =>
    by_cases hdlc : c.dlc > 8
    · exact .inl ⟨.inr hdlc, by simp [send, hdata, hdlc]⟩
    · cases hallowed : w.isAllowed c.canId with
      | false => exact .inr (.inl ⟨rfl, by simp [send, hdata, hdlc, hallowed]⟩)
      | true =>
        cases hrate : (w.checkRate c.canId c.now).1 with
        | false => exact .inr (.inr (.inl ⟨rfl, by simp [send, hdata, hdlc, hallowed, hrate]⟩))
        | true =>
          exact .inr (.inr (.inr ⟨bytes, rfl, UInt8.not_lt.mp hdlc, rfl, rfl,
            by simp [send, hdata, hdlc, hallowed, hrate]⟩))

@[simp] theorem send_whitelist (w : CanWriter R) (c : SendCall R) :
    (w.send c).writer.whitelist = w.whitelist := by
  obtain ⟨-, h⟩ | ⟨-, h⟩ | ⟨-, h⟩ | ⟨_, -, -, -, -, h⟩ := send_cases w c <;> simp [h]

theorem send_other_limiter (w : CanWriter R) (c : SendCall R) (other : UInt32)
    (h : other ≠ c.canId) : (w.send c).writer.rateLimiters other = w.rateLimiters other := by
  have hrate := checkRate_other w c.canId other c.now h
  obtain ⟨-, hs⟩ | ⟨-, hs⟩ | ⟨-, hs⟩ | ⟨_, -, -, -, -, hs⟩ := send_cases w c <;> simp [hs, hrate]

theorem send_result (w : CanWriter R) (c : SendCall R) :
    ((w.send c).handed.isSome → (w.send c).result = .ok ∨ (w.send c).result = .canError) ∧
    ((w.send c).handed = none → (w.send c).result = .invalid ∨ (w.send c).result = .blocked ∨
      (w.send c).result = .rateLimited) := by
  obtain ⟨-, h⟩ | ⟨-, h⟩ | ⟨-, h⟩ | ⟨bytes, -, -, -, -, h⟩ := send_cases w c
  · simp [h]
  · simp [h]
  · simp [h]
  · obtain ⟨hframe, hresult⟩ := transmit_handed (w.checkRate c.canId c.now).2
      (buildFrame c.canId bytes c.dlc) c.interface
    rw [h, hframe, hresult]
    refine ⟨fun _ => ?_, fun hnone => by simp at hnone⟩
    split
    · exact .inl rfl
    · exact .inr rfl

theorem send_handed (w : CanWriter R) (c : SendCall R) (frame : CanFrame)
    (h : (w.send c).handed = some frame) : ∃ bytes, c.data = some bytes ∧ c.dlc ≤ 8 ∧
      w.isAllowed c.canId = true ∧ frame = buildFrame c.canId bytes c.dlc := by
  obtain ⟨-, hs⟩ | ⟨-, hs⟩ | ⟨-, hs⟩ | ⟨bytes, hdata, hdlc, hallowed, -, hs⟩ := send_cases w c
  · simp [hs] at h
  · simp [hs] at h
  · simp [hs] at h
  · rw [hs, (transmit_handed _ _ _).1, Option.some.injEq] at h
    exact ⟨bytes, hdata, hdlc, hallowed, h.symm⟩

theorem run_whitelist (ops : List (Op R)) (canId : UInt32) :
    (run step ({} : CanWriter R) ops).whitelist canId =
      (lastWhere (fun cmd => cmd.canId == canId) (lastLoaded ops)).map CanCommandDef.rateLimitHz := by
  refine run_history step (fun ops w => w.whitelist canId =
    (lastWhere (fun cmd => cmd.canId == canId) (lastLoaded ops)).map CanCommandDef.rateLimitHz)
    rfl ops ?_
  intro pre op _ ih
  rw [lastLoaded_snoc]
  cases op with
  | loadAllowedCommands commands now => exact loadAllowedCommands_whitelist _ commands now canId
  | send call =>
    rw [step, send_whitelist]
    exact ih

theorem run_isAllowed (ops : List (Op R)) (canId : UInt32) :
    (run step ({} : CanWriter R) ops).isAllowed canId = true ↔
      ∃ cmd ∈ lastLoaded ops, cmd.canId = canId := by
  rw [isAllowed, run_whitelist, Option.isSome_map, lastWhere_isSome]
  simp

/-- Write safety at every point of every run: `ops` is what happened so far and `op` the next
    operation. -/
theorem only_allowed_frames_handed (ops : List (Op R)) (op : Op R) :
    let w := run step ({} : CanWriter R) ops
    (∀ frame, handed w op = some frame → ∃ c bytes, op = .send c ∧ c.data = some bytes ∧
      c.dlc ≤ 8 ∧ (∃ cmd ∈ lastLoaded ops, cmd.canId = c.canId) ∧ frame.id = c.canId ∧
      frame.dlc = c.dlc ∧ ∀ i (hi : i < 8), i < c.dlc.toNat → frame.data[i] = bytes i) ∧
    (∀ c, op = .send c →
      ((w.send c).handed.isSome → (w.send c).result = .ok ∨ (w.send c).result = .canError) ∧
      ((w.send c).handed = none → (w.send c).result = .invalid ∨
        (w.send c).result = .blocked ∨ (w.send c).result = .rateLimited) ∧
      ∀ other, other ≠ c.canId →
        (w.send c).writer.rateLimiters other = w.rateLimiters other) := by
  intro w
  constructor
  · intro frame hframe
    cases op with
    | loadAllowedCommands commands now => simp [handed] at hframe
    | send c =>
      obtain ⟨bytes, hdata, hdlc, hallowed, rfl⟩ := send_handed w c frame hframe
      refine ⟨c, bytes, rfl, hdata, hdlc, (run_isAllowed ops c.canId).mp hallowed, rfl, rfl, ?_⟩
      intro i hi hlt
      change (copyBytes c.dlc bytes)[i] = bytes i
      rw [copyBytes_get c.dlc bytes i hi, if_pos hlt]
  · rintro c -
    obtain ⟨hsome, hnone⟩ := send_result w c
    exact ⟨hsome, hnone, fun other hne => send_other_limiter w c other hne⟩

end CanWriter

end SpeeduinoDash
