import SpeeduinoDash.Dashboard
import SpeeduinoDash.ReverseResponse
import SpeeduinoDash.ReverseStream

set_option autoImplicit false

/-!
# From the reverse line to the window

Both services, the HMI and its user. The reverse service sends an event with each change and never
again, so a lost event leaves the window wrong until a later one gets through.
-/
namespace SpeeduinoDash
open Lib.Alternation Lib.LossyQueue Lib.MsgPack Lib.Runs

namespace ReverseDetector

/-- A call of the detector with the callback of the service: the events that it sends. -/
def publish (d : ReverseDetector) (e : Event) : ReverseDetector × List ReverseEvent :=
  (d.step e, (d.react e).2.toList.map (fun change => change.toEvent e.now))

theorem tells_publish (d : ReverseDetector) (e : Event) :
    Tells publish isReverseEngaged (fun event => some event.engaged) d e := by
  change ((d.react e).2.toList.map _).filterMap _ =
    if (d.step e).engaged = d.engaged then [] else [(d.step e).engaged]
  rcases d.react_told e with ⟨hnone, hsame, -⟩ | ⟨hsome, hchanged⟩
  · rw [hnone, if_pos hsame]
    rfl
  · rw [hsome, if_neg hchanged]
    rfl

/-- A reading that the detector reports already makes it send nothing. -/
theorem publish_steady {d : ReverseDetector} {e : Event} {v : Bool}
    (hflag : d.isReverseEngaged = v) (hsteady : ∀ x ∈ d.sample e, x.2 = v) :
    (d.publish e).2 = [] ∧ (d.step e).isReverseEngaged = v := by
  unfold publish step
  obtain ⟨x, source, hx, h⟩ | ⟨-, h⟩ := react_cases d e
  · obtain ⟨-, hd⟩ | ⟨hreading, hdue, -⟩ | ⟨-, -, hd⟩ := d.debounce_cases x.2 source e.now
    · rw [h, hd]
      exact ⟨rfl, hflag⟩
    · have hsame : d.pendingState = d.engaged :=
        hreading.symm.trans ((hsteady x hx).trans hflag.symm)
      exact absurd hsame hdue.2
    · rw [h, hd]
      exact ⟨rfl, hflag⟩
  · rw [h]
    exact ⟨rfl, hflag⟩

theorem emitted_steady {d : ReverseDetector} {v : Bool} (hflag : d.isReverseEngaged = v)
    (events : List Event) (hsteady : ∀ e ∈ events, ∀ x ∈ d.sample e, x.2 = v) :
    emitted publish d events = [] ∧ (run step d events).isReverseEngaged = v := by
  induction events generalizing d with
  | nil => exact ⟨rfl, hflag⟩
  | cons e events ih =>
    obtain ⟨hnone, hflag'⟩ := publish_steady hflag (hsteady e List.mem_cons_self)
    obtain ⟨hconfig, hgpio⟩ := d.step_config e
    obtain ⟨hrest, hlast⟩ := ih hflag' (fun e' he' => by
      rw [sample_congr hconfig hgpio]
      exact hsteady e' (List.mem_cons_of_mem e he'))
    refine ⟨?_, hlast⟩
    rw [emitted, hnone]
    exact hrest

end ReverseDetector

namespace Dashboard

variable {R : Type} (engineCodec : Codec EngineData) (reverseCodec : Codec ReverseEvent)

def reverseEvent : Hmi.Message → Option ReverseEvent
  | .engineData _ => none
  | .reverseEvent event => some event

@[simp] theorem reverseEvent_engineData (data : EngineData) :
    reverseEvent (.engineData data) = none := rfl

@[simp] theorem reverseEvent_reverseEvent (event : ReverseEvent) :
    reverseEvent (.reverseEvent event) = some event := rfl

/-- The reverse events on their way to the provider: the slots come before the messages that the
    worker has yet to read. -/
def reverseInTransit (d : Dashboard R) : List ReverseEvent :=
  d.slots.filterMap reverseEvent ++ d.reverseWire.filterMap reverseCodec.convert

theorem receiveEngine_slots (d : Dashboard R) :
    ∃ more, (d.receiveEngine engineCodec).slots = d.slots ++ more ∧
      more.filterMap reverseEvent = [] ∧
      (d.receiveEngine engineCodec).reverseWire = d.reverseWire := by
  unfold receiveEngine
  cases d.engineWire with
  | nil => exact ⟨[], (List.append_nil _).symm, rfl, rfl⟩
  | cons message wire =>
    refine ⟨_, rfl, ?_, rfl⟩
    cases engineCodec.convert message <;> rfl

theorem receiveReverse_slots (d : Dashboard R) :
    (d.receiveReverse reverseCodec).reverseInTransit reverseCodec =
        d.reverseInTransit reverseCodec ∧
      (d.receiveReverse reverseCodec).reverseWire = d.reverseWire.tail ∧
      (d.reverseWire = [] → (d.receiveReverse reverseCodec).slots = d.slots) := by
  unfold receiveReverse
  cases hwire : d.reverseWire with
  | nil => exact ⟨rfl, hwire, fun _ => rfl⟩
  | cons message wire =>
    refine ⟨?_, rfl, fun hnil => by cases hnil⟩
    unfold reverseInTransit
    rw [hwire, List.filterMap_append, List.append_assoc]
    cases hconvert : reverseCodec.convert message with
    | none => rw [List.filterMap_cons_none hconvert]; rfl
    | some event => rw [List.filterMap_cons_some hconvert]; rfl

/-- A round of the worker moves reverse events from the wire to the slots. -/
theorem process_reverse (d : Dashboard R) (engineReady reverseReady : Bool) :
    let d' := d.process engineCodec reverseCodec engineReady reverseReady
    d'.reverseInTransit reverseCodec = d.reverseInTransit reverseCodec ∧
      d'.reverseWire = (if reverseReady then d.reverseWire.tail else d.reverseWire) ∧
      (d.reverseWire = [] → ∃ more, d'.slots = d.slots ++ more ∧
        more.filterMap reverseEvent = []) := by
  let mid := if engineReady then d.receiveEngine engineCodec else d
  obtain ⟨more, hslots, hmore, hwire⟩ : ∃ more, mid.slots = d.slots ++ more ∧
      more.filterMap reverseEvent = [] ∧ mid.reverseWire = d.reverseWire := by
    cases engineReady with
    | false => exact ⟨[], (List.append_nil _).symm, rfl, rfl⟩
    | true => exact d.receiveEngine_slots engineCodec
  have hmid : mid.reverseInTransit reverseCodec = d.reverseInTransit reverseCodec := by
    unfold reverseInTransit
    rw [hslots, hwire, List.filterMap_append, hmore, List.append_nil]
  cases reverseReady with
  | false => exact ⟨hmid, hwire, fun _ => ⟨more, hslots, hmore⟩⟩
  | true =>
    obtain ⟨htransit, htail, hsame⟩ := mid.receiveReverse_slots reverseCodec
    refine ⟨htransit.trans hmid, ?_, fun hnil => ⟨more, ?_, hmore⟩⟩
    · rw [← hwire]
      exact htail
    · exact (hsame (hwire.trans hnil)).trans hslots

end Dashboard

/-- What stands for code outside of the repository: the kernel's frame filter, the conversion of
    requests and the codecs. -/
structure Externals where
  delivers : UInt32 → UInt32 → KernelFrame → Bool
  unpack : List UInt8 → Option CanCommand
  engineCodec : Codec EngineData
  reverseCodec : Codec ReverseEvent

/-- `announced` and `delivered` are logs of the events that the reverse service has sent and of
    those that the provider has had. -/
structure Vehicle (R : Type) where
  reverse : ReverseService
  dashboard : Dashboard R
  announced : List ReverseEvent := []
  delivered : List ReverseEvent := []

namespace Vehicle

inductive Input where
  | navigate (screen : Screen)
  | testCamera
  | hideCamera
  | escape
  | tapOverlay
  | tapCloseButton

def Input.act (app : AppState) : Input → AppState
  | .navigate screen => app.navigate screen
  | .testCamera => app.showReverseCamera
  | .hideCamera => app.hideReverseCamera
  | .escape => app.escape
  | .tapOverlay => app.tapOverlay
  | .tapCloseButton => app.tapCloseButton

theorem Input.act_reverseEngaged (input : Input) (app : AppState) :
    (input.act app).reverseEngaged = app.reverseEngaged := by
  cases input with
  | navigate screen => rw [act, AppState.navigate_eq]; rfl
  | testCamera => rfl
  | hideCamera => rfl
  | escape => rw [act, AppState.escape]; split_ifs <;> rfl
  | tapOverlay => rw [act, AppState.tapOverlay]; split_ifs <;> rfl
  | tapCloseButton => rw [act, AppState.tapCloseButton]; split_ifs <;> rfl

variable {R : Type}

/-- A step of one of the parties. The socket of the reverse service carries some of what is sent,
    nothing before the HMI has subscribed, and a lost connection takes along all but the first
    messages. -/
inductive Op (R : Type) where
  | reverse (op : ReverseService.Op) (carried : ReverseEvent → Bool)
  | reverseLost (kept : ℕ)
  | service (op : CanService.Op R) (carried : Bool)
  | disconnect
  | poll (engineReady reverseReady : Bool)
  | runSlot
  | user (input : Input)

def Op.Keeps : Op R → Prop
  | .reverse _ carried => ∀ event, carried event = true
  | .reverseLost _ => False
  | _ => True

def Op.reverseOp : Op R → Option ReverseService.Op
  | .reverse op _ => some op
  | _ => none

def reverseOps (ops : List (Op R)) : List ReverseService.Op := ops.filterMap Op.reverseOp

theorem reverseOps_append (xs ys : List (Op R)) :
    reverseOps (xs ++ ys) = reverseOps xs ++ reverseOps ys := List.filterMap_append

theorem reverseOps_reverse (op : ReverseService.Op) (carried : ReverseEvent → Bool)
    (ops : List (Op R)) : reverseOps (.reverse op carried :: ops) = op :: reverseOps ops :=
  List.filterMap_cons_some rfl

def announces (x : Externals) (s : Vehicle R) : Op R → List ReverseEvent
  | .reverse op _ =>
    emitted ReverseDetector.publish s.reverse.detector (s.reverse.react x.delivers op).2
  | _ => []

def told (events : List ReverseEvent) : Bool :=
  (events.map ReverseEvent.engaged).getLast?.getD false

theorem told_append (events : List ReverseEvent) {more : List ReverseEvent} (hmore : more ≠ []) :
    told (events ++ more) = told more := by
  have hmap : more.map ReverseEvent.engaged ≠ [] := fun h => hmore (List.map_eq_nil_iff.mp h)
  rw [told, told, List.map_append, List.getLast?_append_of_ne_nil _ hmap]

theorem told_snoc (events : List ReverseEvent) (event : ReverseEvent) :
    told (events ++ [event]) = event.engaged := told_append events (List.cons_ne_nil event [])

structure Shown (s : Vehicle R) : Prop where
  provider : s.dashboard.hmi.provider.reverseEngaged = told s.delivered
  app : s.dashboard.hmi.app.reverseEngaged = told s.delivered

theorem Shown.of_same {s s' : Vehicle R} (h : s.Shown)
    (hprovider : s'.dashboard.hmi.provider.reverseEngaged = s.dashboard.hmi.provider.reverseEngaged)
    (happ : s'.dashboard.hmi.app.reverseEngaged = s.dashboard.hmi.app.reverseEngaged)
    (hdelivered : s'.delivered = s.delivered) : s'.Shown := by
  constructor
  · rw [hprovider, hdelivered]
    exact h.provider
  · rw [happ, hdelivered]
    exact h.app

variable (x : Externals)

def linkOps (s : Vehicle R) : Op R → List (Lib.LossyQueue.Op ReverseEvent)
  | .reverse op carried =>
    (s.announces x (.reverse op carried)).map (fun event => .send event (carried event))
  | .reverseLost kept =>
    [.cut ((s.dashboard.slots.filterMap Dashboard.reverseEvent).length +
      ((s.dashboard.reverseWire.take kept).filterMap x.reverseCodec.convert).length)]
  | .runSlot => ((s.dashboard.slots.head?.bind Dashboard.reverseEvent).map (fun _ => .take)).toList
  | _ => []

def link (s : Vehicle R) : Link ReverseEvent where
  sent := s.announced
  queue := s.dashboard.reverseInTransit x.reverseCodec
  taken := s.delivered

theorem link_same {s s' : Vehicle R} (hannounced : s'.announced = s.announced)
    (htransit : s'.dashboard.reverseInTransit x.reverseCodec =
      s.dashboard.reverseInTransit x.reverseCodec)
    (hdelivered : s'.delivered = s.delivered) : s'.link x = s.link x := by
  unfold link
  rw [hannounced, htransit, hdelivered]

theorem linkOps_keep (s : Vehicle R) {op : Op R} (h : op.Keeps) :
    ∀ linkOp ∈ s.linkOps x op, linkOp.keeps = true := by
  intro linkOp hmem
  cases op with
  | reverse op carried =>
    obtain ⟨event, -, rfl⟩ := List.mem_map.mp hmem
    exact h event
  | reverseLost kept => exact h.elim
  | runSlot =>
    obtain ⟨event, -, rfl⟩ := Option.map_eq_some_iff.mp (Option.mem_toList.mp hmem)
    rfl
  | service op carried => exact absurd hmem List.not_mem_nil
  | disconnect => exact absurd hmem List.not_mem_nil
  | poll engineReady reverseReady => exact absurd hmem List.not_mem_nil
  | user input => exact absurd hmem List.not_mem_nil

/-- The window will be right if nothing happens but what is in transit. -/
def Follows (s : Vehicle R) : Prop :=
  told (s.link x).received = s.reverse.detector.isReverseEngaged

/-- The detector has told its state, and the window what has been delivered. -/
structure Heard (s : Vehicle R) : Prop where
  detector : s.reverse.detector.isReverseEngaged = told s.announced
  alternates : Alternates true (s.announced.map ReverseEvent.engaged)
  received : (s.link x).received.Sublist s.announced
  shown : s.Shown

theorem Heard.delivered_sublist {s : Vehicle R} (h : s.Heard x) :
    s.delivered.Sublist s.announced := (List.sublist_append_left _ _).trans h.received

theorem Heard.right_iff {s : Vehicle R} (h : s.Heard x)
    (hquiet : s.dashboard.reverseInTransit x.reverseCodec = []) :
    s.dashboard.hmi.app.reverseEngaged = s.reverse.detector.isReverseEngaged ↔ s.Follows x := by
  have hreceived : (s.link x).received = s.delivered := by
    change s.delivered ++ s.dashboard.reverseInTransit x.reverseCodec = _
    rw [hquiet, List.append_nil]
  rw [Follows, hreceived, h.shown.app]

section Step

variable [OfScientific R] [Add R] [Mul R] [NatCast R] [IntCast R] [Neg R] [LT R] [DecidableLT R]
variable [Truncate R] [Sub R] [Min R] [One R] [LE R] [DecidableLE R]

def dashboardStep (s : Vehicle R) (op : Dashboard.Op R) : Dashboard R :=
  s.dashboard.step x.unpack x.engineCodec x.reverseCodec op

def stepDashboard (s : Vehicle R) : Op R → Dashboard R
  | .reverse op carried =>
    let messages := ((s.announces x (.reverse op carried)).filter carried).map x.reverseCodec.pack
    { s.dashboard with reverseWire := s.dashboard.reverseWire ++ messages }
  | .reverseLost kept => { s.dashboard with reverseWire := s.dashboard.reverseWire.take kept }
  | .service op carried => s.dashboardStep x (.service op carried)
  | .disconnect => s.dashboardStep x .disconnect
  | .poll engineReady reverseReady => s.dashboardStep x (.poll engineReady reverseReady)
  | .runSlot => s.dashboardStep x .runSlot
  | .user input => s.dashboardStep x (.user input.act)

def gets (s : Vehicle R) : Op R → List ReverseEvent
  | .runSlot => (s.dashboard.slots.head?.bind Dashboard.reverseEvent).toList
  | _ => []

def step (s : Vehicle R) (op : Op R) : Vehicle R where
  reverse := ((op.reverseOp).map (next (ReverseService.react x.delivers) s.reverse)).getD s.reverse
  dashboard := s.stepDashboard x op
  announced := s.announced ++ s.announces x op
  delivered := s.delivered ++ s.gets op

theorem link_step (s : Vehicle R) (op : Op R) :
    (s.step x op).link x = run Link.step (s.link x) (s.linkOps x op) := by
  cases op with
  | reverse op carried =>
    have hwire : ∀ events : List ReverseEvent,
        (events.map x.reverseCodec.pack).filterMap x.reverseCodec.convert = events := by
      intro events
      rw [List.filterMap_map]
      exact (List.filterMap_congr (fun event _ => x.reverseCodec.convert_pack event)).trans
        List.filterMap_some
    rw [linkOps, Link.run_sends]
    simp [link, step, stepDashboard, Dashboard.reverseInTransit, hwire, gets]
  | reverseLost kept =>
    have hprefix := (List.take_prefix kept s.dashboard.reverseWire).filterMap x.reverseCodec.convert
    have htake := List.prefix_iff_eq_take.mp hprefix
    simp [link, step, stepDashboard, Dashboard.reverseInTransit, announces, gets, linkOps,
      Link.step, List.take_append, ← htake]
  | service op carried => exact link_same x (List.append_nil _) rfl (List.append_nil _)
  | disconnect => exact link_same x (List.append_nil _) rfl (List.append_nil _)
  | poll engineReady reverseReady =>
    exact link_same x (List.append_nil _) (s.dashboard.process_reverse x.engineCodec x.reverseCodec
      engineReady reverseReady).1 (List.append_nil _)
  | runSlot =>
    rcases s with ⟨reverse, ⟨service, engineWire, reverseWire, slots, hmi, displayed⟩, announced,
      delivered⟩
    cases slots with
    | nil => exact link_same x (List.append_nil _) rfl (List.append_nil _)
    | cons message slots =>
      cases message with
      | engineData data =>
        have hslots := List.filterMap_cons_none (l := slots) (Dashboard.reverseEvent_engineData data)
        exact link_same x (List.append_nil _) (congrArg (· ++ _) hslots.symm) (List.append_nil _)
      | reverseEvent event =>
        simp [link, step, stepDashboard, dashboardStep, Dashboard.step, Dashboard.runSlot,
          Dashboard.reverseInTransit, announces, gets, linkOps, Link.step]
  | user input => exact link_same x (List.append_nil _) rfl (List.append_nil _)

/-! What was sent and what was delivered -/

theorem reverse_run (s : Vehicle R) (ops : List (Op R)) :
    (run (step x) s ops).reverse = s.reverse.after x.delivers (reverseOps ops) :=
  run_view (step x) Vehicle.reverse Op.reverseOp (next (ReverseService.react x.delivers))
    (fun _ _ => rfl) s ops

theorem announced_run (s : Vehicle R) (ops : List (Op R)) :
    (run (step x) s ops).announced = s.announced ++ emitted ReverseDetector.publish
      s.reverse.detector (s.reverse.calls x.delivers (reverseOps ops)) := by
  induction ops generalizing s with
  | nil => exact (List.append_nil _).symm
  | cons op ops ih =>
    rw [run_cons, ih]
    change (s.announced ++ s.announces x op) ++ _ = _
    rw [List.append_assoc]
    congr 1
    cases op with
    | reverse op carried =>
      have hdetector : (next (ReverseService.react x.delivers) s.reverse op).detector =
          run ReverseDetector.step s.reverse.detector (s.reverse.react x.delivers op).2 := by
        cases op <;> rfl
      unfold ReverseService.calls
      rw [reverseOps_reverse, emitted, emitted_append]
      change announces x s (.reverse op carried) ++ emitted ReverseDetector.publish
        (next (ReverseService.react x.delivers) s.reverse op).detector _ = _
      rw [hdetector]
      rfl
    | reverseLost kept => rfl
    | service op carried => rfl
    | disconnect => rfl
    | poll engineReady reverseReady => rfl
    | runSlot => rfl
    | user input => rfl

theorem reverseEventReceived_eq (hmi : Hmi) (event : ReverseEvent) :
    hmi.deliver (.reverseEvent event) = hmi.reverseEventReceived event := hmi.deliver_eq _

theorem shown_step (s : Vehicle R) (op : Op R) (h : s.Shown) : (s.step x op).Shown := by
  cases op with
  | reverse op carried => exact h.of_same rfl rfl (List.append_nil _)
  | reverseLost kept => exact h.of_same rfl rfl (List.append_nil _)
  | service op carried => exact h.of_same rfl rfl (List.append_nil _)
  | disconnect => exact h.of_same rfl rfl (List.append_nil _)
  | poll engineReady reverseReady =>
    have hhmi := (s.dashboard.process_fields x.engineCodec x.reverseCodec engineReady
      reverseReady).2.1
    exact h.of_same (congrArg (fun hmi : Hmi => hmi.provider.reverseEngaged) hhmi)
      (congrArg (fun hmi : Hmi => hmi.app.reverseEngaged) hhmi) (List.append_nil _)
  | runSlot =>
    rcases s with ⟨reverse, ⟨service, engineWire, reverseWire, slots, hmi, displayed⟩, announced,
      delivered⟩
    cases slots with
    | nil => exact h.of_same rfl rfl (List.append_nil _)
    | cons message slots =>
      cases message with
      | engineData data => exact h.of_same rfl rfl (List.append_nil _)
      | reverseEvent event =>
        have hsynced : hmi.app.reverseEngaged = hmi.provider.reverseEngaged :=
          h.app.trans h.provider.symm
        obtain ⟨happ, hprovider⟩ := hmi.reverseEventReceived_engaged event hsynced
        rw [← told_snoc delivered event, ← reverseEventReceived_eq] at happ hprovider
        exact ⟨hprovider, happ⟩
  | user input => exact h.of_same rfl (input.act_reverseEngaged _) (List.append_nil _)

section Run

variable {config : ReverseConfig} {socketCalls : SocketCalls} {initGpio : Bool} {start : ℕ}
variable {reverse : ReverseService} (service : CanService R)

def after (reverse : ReverseService) (ops : List (Op R)) : Vehicle R :=
  run (step x) { reverse := reverse, dashboard := { service := service } } ops

theorem reverse_after (reverse : ReverseService) (ops : List (Op R)) :
    (after x service reverse ops).reverse = reverse.after x.delivers (reverseOps ops) :=
  reverse_run x _ ops

theorem after_append (reverse : ReverseService) (xs ys : List (Op R)) :
    after x service reverse (xs ++ ys) = run (step x) (after x service reverse xs) ys :=
  run_append _ _ _ _

theorem heard (hs : ReverseService.startUp config socketCalls initGpio start = some reverse)
    (ops : List (Op R)) : (after x service reverse ops).Heard x := by
  have hfresh : reverse.detector.isReverseEngaged = false := by
    rw [(ReverseService.startUp_started hs).1]
    rfl
  have htells : EveryStep (next ReverseDetector.publish)
      (Tells ReverseDetector.publish ReverseDetector.isReverseEngaged
        (fun event => some event.engaged)) reverse.detector
      (reverse.calls x.delivers (reverseOps ops)) :=
    fun pre e _ => ReverseDetector.tells_publish _ e
  have halternates := alternates_emitted htells
  have hvalue := value_run htells
  have hannounced : (after x service reverse ops).announced = _ := announced_run x _ ops
  rw [List.nil_append] at hannounced
  rw [List.filterMap_eq_map', ← hannounced, hfresh] at halternates hvalue
  refine ⟨?_, halternates, ?_, ?_⟩
  · rw [reverse_after, ReverseService.detector_after]
    exact hvalue
  · exact received_sublist_of_refines (link_step x) _ ops (List.Sublist.refl _)
  · exact run_invariant (step x) Shown (shown_step x) ⟨rfl, rfl⟩ ops

/-- While nothing is lost, the window gets right with the next event and stays right. -/
theorem follows_run {s : Vehicle R} {ops : List (Op R)} (hkeeps : ∀ op ∈ ops, op.Keeps)
    (hs : s.Heard x) (hlater : (run (step x) s ops).Heard x) :
    (run (step x) s ops).Follows x ↔
      s.Follows x ∨ s.announced ≠ (run (step x) s ops).announced := by
  obtain ⟨new, hsent, hreceived⟩ := received_append_of_refines (link_step x) s
    (fun s op hop => linkOps_keep x s (hkeeps op hop))
  change (run (step x) s ops).announced = s.announced ++ new at hsent
  unfold Follows
  rw [hreceived, hlater.detector, hs.detector, hsent]
  by_cases hnew : new = []
  · rw [hnew, List.append_nil, List.append_nil, or_iff_left (not_not.mpr rfl)]
  · rw [told_append _ hnew, told_append _ hnew]
    refine iff_of_true rfl (.inr ?_)
    rwa [Ne, List.self_eq_append_right]

/-- What the window is told is part of the alternating changes of the detector. Whatever was lost
    before: while nothing more is lost, and with nothing in transit, the window is right exactly
    if it was going to be or an event has been sent since. -/
theorem window_right_iff
    (hs : ReverseService.startUp config socketCalls initGpio start = some reverse)
    (before kept : List (Op R)) (hkeeps : ∀ op ∈ kept, op.Keeps) :
    let mid := after x service reverse before
    let s := after x service reverse (before ++ kept)
    s.delivered.Sublist s.announced ∧ Alternates true (s.announced.map ReverseEvent.engaged) ∧
      s.Shown ∧ (s.dashboard.reverseInTransit x.reverseCodec = [] →
        (s.dashboard.hmi.app.reverseEngaged = s.reverse.detector.isReverseEngaged ↔
          mid.Follows x ∨ mid.announced ≠ s.announced)) := by
  intro mid s
  have hheard : s.Heard x := heard x service hs (before ++ kept)
  have hsplit : s = run (step x) mid kept := after_append x service reverse _ kept
  have hfollows := follows_run x hkeeps (heard x service hs before) (hsplit ▸ hheard)
  refine ⟨hheard.delivered_sublist, hheard.alternates, hheard.shown, fun hquiet => ?_⟩
  rw [hheard.right_iff x hquiet, hsplit]
  exact hfollows

/-- The bus is silent, the messages are coded as documented. -/
def silentBus : Externals where
  delivers _ _ _ := false
  unpack := CanCommand.codec.convert
  engineCodec := EngineData.codec
  reverseCodec := ReverseEvent.codec

def gpioOnly : ReverseConfig :=
  { detectionMode := "gpio", gpioActiveLow := false, debounceMs := 50 }

def gpioService : ReverseService :=
  ⟨ReverseDetector.started gpioOnly true 0, true, gpioOnly.canId, [], 0⟩

def pass (line : Bool) (ms : ℕ) (carried : Bool) : Op ℚ :=
  .reverse (.iterate line (ms * 1000000) (ms * 1000000) (ms * 1000000)) (fun _ => carried)

/-- Engaging is lost, disengaging gets through. -/
theorem window_right_iff_disengaging :
    let s := after silentBus (.started {} [] (.inOrder []) 3 0 0) gpioService
      ([pass true 50 true, pass true 100 false] ++
        [pass false 150 true, pass false 200 true, .poll false true, .runSlot])
    s.dashboard.hmi.app.reverseEngaged = s.reverse.detector.isReverseEngaged := by
  have h := window_right_iff silentBus (.started {} [] (.inOrder []) 3 0 0)
    (rfl : ReverseService.startUp gpioOnly SocketCalls.ok true 0 = some gpioService)
    [pass true 50 true, pass true 100 false]
    [pass false 150 true, pass false 200 true, .poll false true, .runSlot]
    (by simp [pass, Op.Keeps])
  exact (h.2.2.2 (by decide +kernel)).mpr (.inr (by decide +kernel))

/-- An event that is lost while the window is going to be right. -/
theorem not_follows_lost {s : Vehicle R} {op : ReverseService.Op}
    {carried : ReverseEvent → Bool} {event : ReverseEvent}
    (hevent : s.announces x (.reverse op carried) = [event]) (hlost : carried event = false)
    (hs : s.Heard x) (hlater : (s.step x (.reverse op carried)).Heard x) (hfollows : s.Follows x) :
    ¬ (s.step x (.reverse op carried)).Follows x := by
  have hannounced : (s.step x (.reverse op carried)).announced = s.announced ++ [event] :=
    congrArg (s.announced ++ ·) hevent
  have hreceived : ((s.step x (.reverse op carried)).link x).received = (s.link x).received := by
    rw [link_step, linkOps, Link.run_sends, hevent]
    simp [Link.received, hlost]
  have hflips : event.engaged = !told s.announced := by
    have halternates := hlater.alternates
    rw [hannounced, List.map_append] at halternates
    exact halternates.snoc
  unfold Follows at hfollows ⊢
  rw [hreceived, hfollows, hs.detector, hlater.detector, hannounced, told_snoc, hflips]
  exact (Bool.not_ne_self _).symm

/-- An event that is lost while the window is going to be right leaves it wrong until another
    one is sent: nothing sends it again. -/
theorem lost_event_stays
    (hs : ReverseService.startUp config socketCalls initGpio start = some reverse)
    (before kept : List (Op R)) (op : ReverseService.Op) (carried : ReverseEvent → Bool)
    (event : ReverseEvent)
    (hevent : (after x service reverse before).announces x (.reverse op carried) = [event])
    (hlost : carried event = false) (hfollows : (after x service reverse before).Follows x)
    (hkeeps : ∀ op ∈ kept, op.Keeps) :
    let mid := after x service reverse (before ++ [.reverse op carried])
    let s := after x service reverse (before ++ [.reverse op carried] ++ kept)
    s.announced = mid.announced → s.dashboard.reverseInTransit x.reverseCodec = [] →
      s.dashboard.hmi.app.reverseEngaged ≠ s.reverse.detector.isReverseEngaged := by
  intro mid s hsame hquiet
  have hmid : mid = (after x service reverse before).step x (.reverse op carried) :=
    run_snoc _ _ _ _
  have hsplit : s = run (step x) mid kept := after_append x service reverse _ kept
  have hheard : mid.Heard x := heard x service hs _
  have hlater : s.Heard x := heard x service hs _
  have hnot : ¬ mid.Follows x := by
    rw [hmid] at hheard ⊢
    exact not_follows_lost x hevent hlost (heard x service hs before) hheard hfollows
  rw [Ne, hlater.right_iff x hquiet, hsplit, follows_run x hkeeps hheard (hsplit ▸ hlater),
    ← hsplit]
  rintro (hfollows' | hnew)
  · exact hnot hfollows'
  · exact hnew hsame.symm

theorem lost_event_stays_engaging :
    let s := after silentBus (.started {} [] (.inOrder []) 3 0 0) gpioService
      ([pass true 50 true] ++ [pass true 100 false] ++ [pass true 150 true, .poll false true])
    s.dashboard.hmi.app.reverseEngaged ≠ s.reverse.detector.isReverseEngaged :=
  lost_event_stays silentBus (.started {} [] (.inOrder []) 3 0 0)
    (rfl : ReverseService.startUp gpioOnly SocketCalls.ok true 0 = some gpioService)
    [pass true 50 true] [pass true 150 true, .poll false true]
    (.iterate true 100000000 100000000 100000000) (fun _ => false) ⟨100, true, 1⟩
    (by decide +kernel) rfl (by unfold Follows; decide +kernel) (by simp [pass, Op.Keeps])
    (by decide +kernel) (by decide +kernel)

end Run

end Step

end Vehicle

end SpeeduinoDash
