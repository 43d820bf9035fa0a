import SpeeduinoDash.DataProvider
import SpeeduinoDash.Lib.Follower
import SpeeduinoDash.ReverseDebounce

set_option autoImplicit false

/-!
# The reverse flag of the HMI and the detector

The detector announces changes over a PUB socket. The HMI's worker thread receives what was sent
after its subscription and queues it for the GUI thread. Both queues together are the one queue
of a follower.
-/
namespace SpeeduinoDash
open Lib.MsgPack Lib.Runs

namespace ReverseDetector

def changes (d : ReverseDetector) : List Event → List ReverseChange
  | [] => []
  | e :: events => (d.react e).2.toList ++ changes (d.step e) events

theorem react_change (d : ReverseDetector) (e : Event) :
    (d.react e).1.isReverseEngaged =
      ((d.react e).2.map ReverseChange.engaged).getD d.isReverseEngaged := by
  obtain ⟨x, source, -, h⟩ | ⟨-, h⟩ := react_cases d e
  · rw [h]
    obtain ⟨-, h⟩ | ⟨-, -, h⟩ | ⟨-, -, h⟩ := d.debounce_cases x.2 source e.now
    all_goals
      rw [h]
      rfl
  · rw [h]
    rfl

end ReverseDetector

def ReverseChange.toEvent (change : ReverseChange) (now : ℕ) : ReverseEvent where
  timestampMs := getMonotonicMs (now / 1000000)
  engaged := change.engaged
  source := change.source.code

/-- `wire` holds the messages sent to this subscriber, `slots` the queued signals of its worker
    thread. -/
structure ReverseLink where
  detector : ReverseDetector
  subscribed : Bool := false
  wire : List (List UInt8) := []
  slots : List ReverseEvent := []
  provider : DataProvider := {}

namespace ReverseLink

inductive Op where
  | detect (e : ReverseDetector.Event)
  | subscribe
  | workerReceive
  | deliver

def Op.detected : Op → Option ReverseDetector.Event
  | .detect e => some e
  | _ => none

variable (codec : Codec ReverseEvent)

def step (s : ReverseLink) : Op → ReverseLink
  | .detect e =>
    let sent := (s.detector.react e).2.toList.map (fun change => codec.pack (change.toEvent e.now))
    { s with
      detector := s.detector.step e
      wire := if s.subscribed then s.wire ++ sent else s.wire }
  | .subscribe => { s with subscribed := true }
  | .workerReceive =>
    match s.wire with
    | [] => s
    | message :: wire =>
      { s with wire := wire, slots := s.slots ++ (codec.convert message).toList }
  | .deliver =>
    match s.slots with
    | [] => s
    | event :: slots =>
      { s with slots := slots, provider := (s.provider.onReverseEventReceived event).1 }

def announce (d : ReverseDetector) (e : ReverseDetector.Event) : ReverseDetector × Option Bool :=
  (d.step e, (d.react e).2.map ReverseChange.engaged)

/-- The two queues in the order in which the provider will see them. -/
def asFollower (s : ReverseLink) : Lib.Follower.System ReverseDetector Bool where
  source := s.detector
  subscribed := s.subscribed
  queue := s.slots.map ReverseEvent.engaged ++
    (s.wire.filterMap codec.convert).map ReverseEvent.engaged
  copy := s.provider.reverseEngaged

/-- Receiving on the worker thread only moves a message between the queues. -/
def followerOp (s : ReverseLink) : Op → List (Lib.Follower.Op ReverseDetector.Event)
  | .detect e => [.change e]
  | .subscribe => [.subscribe]
  | .workerReceive => []
  | .deliver => if s.slots = [] then [] else [.deliver]

theorem convert_sent (changes : List ReverseChange) (now : ℕ) :
    ((changes.map (fun change => codec.pack (change.toEvent now))).filterMap codec.convert).map
      ReverseEvent.engaged = changes.map ReverseChange.engaged := by
  induction changes with
  | nil => rfl
  | cons change changes ih =>
    rw [List.map_cons, List.filterMap_cons_some (codec.convert_pack _), List.map_cons, ih]
    rfl

theorem step_refines (s : ReverseLink) (op : Op) :
    asFollower codec (step codec s op) =
      run (Lib.Follower.step announce) (asFollower codec s) (followerOp s op) := by
  cases op with
  | detect e =>
    have hsent : ((s.detector.react e).2.map ReverseChange.engaged).toList =
        (s.detector.react e).2.toList.map ReverseChange.engaged := by
      cases (s.detector.react e).2 <;> rfl
    simp only [followerOp, run_cons, run_nil, step, asFollower, Lib.Follower.step, announce, hsent]
    cases s.subscribed with
    | false => rfl
    | true =>
      simp only [if_true, List.filterMap_append, List.map_append, convert_sent, List.append_assoc]
  | subscribe => rfl
  | workerReceive =>
    cases hwire : s.wire with
    | nil => simp only [step, followerOp, hwire, run_nil]
    | cons message wire =>
      simp only [step, followerOp, asFollower, hwire, run_nil, List.map_append, List.append_assoc]
      cases hc : codec.convert message with
      | none => rw [List.filterMap_cons_none hc]; rfl
      | some event => rw [List.filterMap_cons_some hc]; rfl
  | deliver =>
    cases hslots : s.slots with
    | nil => simp only [step, followerOp, hslots, if_true, run_nil]
    | cons event slots =>
      simp [step, followerOp, asFollower, hslots, Lib.Follower.step]

def followerOps (s : ReverseLink) : List Op → List (Lib.Follower.Op ReverseDetector.Event)
  | [] => []
  | op :: ops => followerOp s op ++ followerOps (step codec s op) ops

theorem run_refines (s : ReverseLink) (ops : List Op) :
    asFollower codec (run (step codec) s ops) =
      run (Lib.Follower.step announce) (asFollower codec s) (followerOps codec s ops) := by
  induction ops generalizing s with
  | nil => rfl
  | cons op ops ih => rw [run_cons, ih, followerOps, run_append, step_refines]

theorem followerOps_append (s : ReverseLink) (xs ys : List Op) :
    followerOps codec s (xs ++ ys) =
      followerOps codec s xs ++ followerOps codec (run (step codec) s xs) ys := by
  induction xs generalizing s with
  | nil => rfl
  | cons op xs ih =>
    rw [List.cons_append, followerOps, ih, followerOps, List.append_assoc, run_cons]

theorem subscribe_not_mem (s : ReverseLink) (ops : List Op) (h : Op.subscribe ∉ ops) :
    Lib.Follower.Op.subscribe ∉ followerOps codec s ops := by
  induction ops generalizing s with
  | nil => exact List.not_mem_nil
  | cons op ops ih =>
    have hops := ih (step codec s op) (fun hmem => h (List.mem_cons_of_mem op hmem))
    rw [followerOps, List.mem_append]
    rintro (hop | hrest)
    · cases op with
      | detect e => simp [followerOp] at hop
      | subscribe => exact h List.mem_cons_self
      | workerReceive => simp [followerOp] at hop
      | deliver =>
        simp only [followerOp] at hop
        split_ifs at hop
        · simp at hop
        · simp at hop
    · exact hops hrest

theorem announced_followerOps (s : ReverseLink) (ops : List Op) :
    Lib.Follower.announced announce s.detector (followerOps codec s ops) =
      (s.detector.changes (ops.filterMap Op.detected)).map ReverseChange.engaged := by
  induction ops generalizing s with
  | nil => rfl
  | cons op ops ih =>
    have hrest := ih (step codec s op)
    cases op with
    | detect e =>
      change Lib.Follower.announced announce (s.detector.step e) _ =
        ((s.detector.step e).changes _).map _ at hrest
      change ((s.detector.react e).2.map ReverseChange.engaged).toList ++
          Lib.Follower.announced announce (s.detector.step e) _ =
        ((s.detector.react e).2.toList ++ _).map ReverseChange.engaged
      rw [List.map_append, ← hrest]
      cases (s.detector.react e).2 <;> rfl
    | subscribe => exact hrest
    | workerReceive =>
      have hdetector : (step codec s .workerReceive).detector = s.detector := by
        rw [step]
        split <;> rfl
      rw [hdetector] at hrest
      exact hrest
    | deliver =>
      have hdetector : (step codec s .deliver).detector = s.detector := by
        rw [step]
        split <;> rfl
      rw [hdetector] at hrest
      rw [followerOps, followerOp]
      split_ifs <;> exact hrest

/-- Whatever the detector did before the HMI subscribed: with nothing in flight the HMI is right
    exactly if reverse was not engaged at the subscription or a change has been published since. -/
theorem agreement_iff (config : ReverseConfig) (initGpio : Bool) (start : ℕ)
    (before after : List Op) (hbefore : Op.subscribe ∉ before)
    (hwire : (run (step codec) { detector := .started config initGpio start }
      (before ++ .subscribe :: after)).wire = [])
    (hslots : (run (step codec) { detector := .started config initGpio start }
      (before ++ .subscribe :: after)).slots = []) :
    let s₀ : ReverseLink := { detector := .started config initGpio start }
    let subscribing := (run (step codec) s₀ before).detector
    let s := run (step codec) s₀ (before ++ .subscribe :: after)
    s.provider.reverseEngaged = s.detector.isReverseEngaged ↔
      subscribing.isReverseEngaged = false ∨
        subscribing.changes (after.filterMap Op.detected) ≠ [] := by
  intro s₀ subscribing s
  have hsplit : followerOps codec s₀ (before ++ .subscribe :: after) =
      followerOps codec s₀ before ++ .subscribe ::
        followerOps codec (step codec (run (step codec) s₀ before) .subscribe) after := by
    rw [followerOps_append, followerOps]
    rfl
  have hquiet : (asFollower codec s).queue = [] := by
    change s.slots.map _ ++ (s.wire.filterMap _).map _ = []
    rw [hwire, hslots]
    rfl
  have hagrees := Lib.Follower.agrees_iff announce ReverseDetector.react_change
    (asFollower codec s₀) rfl rfl (followerOps codec s₀ before)
    (followerOps codec (step codec (run (step codec) s₀ before) .subscribe) after)
    (subscribe_not_mem codec s₀ before hbefore)
  rw [← hsplit, ← run_refines, ← run_refines] at hagrees
  have hannounced := announced_followerOps codec
    (step codec (run (step codec) s₀ before) .subscribe) after
  change Lib.Follower.announced announce subscribing _ =
    (subscribing.changes _).map _ at hannounced
  have hiff := hagrees hquiet
  change s.provider.reverseEngaged = s.detector.isReverseEngaged ↔
    false = subscribing.isReverseEngaged ∨
      Lib.Follower.announced announce subscribing _ ≠ [] at hiff
  rw [hiff, hannounced, eq_comm, Ne, List.map_eq_nil_iff]

def engaging : List Op :=
  [.detect (.canFrame 0x370 (fun _ => 0x80) 8 0), .detect (.canFrame 0x370 (fun _ => 0x80) 8 60000000)]

def disengaging : List Op :=
  [.detect (.canFrame 0x370 (fun _ => 0) 8 100000000),
    .detect (.canFrame 0x370 (fun _ => 0) 8 200000000), .workerReceive, .deliver]

theorem agreement_iff_disengaging :
    let s := run (step ReverseEvent.codec) { detector := .started {} false 0 }
      (engaging ++ .subscribe :: disengaging)
    s.provider.reverseEngaged = s.detector.isReverseEngaged := by
  have h := agreement_iff ReverseEvent.codec {} false 0 engaging disengaging (by simp [engaging])
    (by decide) (by decide)
  exact h.mpr (.inr (by decide))

theorem late_subscriber_disagrees :
    ¬ ∀ (config : ReverseConfig) (initGpio : Bool) (start : ℕ) (before after : List Op),
      let s := run (step ReverseEvent.codec) { detector := .started config initGpio start }
        (before ++ .subscribe :: after)
      s.wire = [] → s.slots = [] → s.provider.reverseEngaged = s.detector.isReverseEngaged := by
  intro hclaim
  have hagree := hclaim {} false 0 engaging [] (by decide) (by decide)
  exact absurd hagree (by decide)

end ReverseLink

end SpeeduinoDash
