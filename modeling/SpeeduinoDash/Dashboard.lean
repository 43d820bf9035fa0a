import SpeeduinoDash.Display
import SpeeduinoDash.Lib.LossyQueue
import SpeeduinoDash.Publications
import SpeeduinoDash.SignalDatabase
import SpeeduinoDash.StateMirror

set_option autoImplicit false

/-!
# From the CAN bus to the window

The CAN service publishes on a socket that drops what a full pipe does not take, and a lost
connection takes along what it carries. The worker thread of the HMI reads at most one message of
each socket in a round and queues a slot for each that converts; the GUI thread runs them.
-/
namespace SpeeduinoDash
open Lib.MsgPack Lib.Runs

/-- `displayed` is a log of the engine data that the provider has had. -/
structure Dashboard (R : Type) where
  service : CanService R
  engineWire : List (List UInt8) := []
  reverseWire : List (List UInt8) := []
  slots : List Hmi.Message := []
  hmi : Hmi := {}
  displayed : List EngineData := []

namespace Dashboard

variable {R : Type}

/-- A step of one of the parties. The reverse service is only what it sends. -/
inductive Op (R : Type) where
  | service (op : CanService.Op R) (carried : Bool)
  | reverseSent (message : List UInt8)
  | disconnect
  | poll (engineReady reverseReady : Bool)
  | runSlot
  | user (change : AppState → AppState)

def Op.serviceOp : Op R → Option (CanService.Op R)
  | .service op _ => some op
  | _ => none

def engineData : Hmi.Message → Option EngineData
  | .engineData data => some data
  | .reverseEvent _ => none

section Receive

variable (engineCodec : Codec EngineData) (reverseCodec : Codec ReverseEvent)

def receiveEngine (s : Dashboard R) : Dashboard R :=
  match s.engineWire with
  | [] => s
  | message :: wire =>
    { s with
      engineWire := wire
      slots := s.slots ++ ((engineCodec.convert message).map Hmi.Message.engineData).toList }

def receiveReverse (s : Dashboard R) : Dashboard R :=
  match s.reverseWire with
  | [] => s
  | message :: wire =>
    { s with
      reverseWire := wire
      slots := s.slots ++ ((reverseCodec.convert message).map Hmi.Message.reverseEvent).toList }

def process (s : Dashboard R) (engineReady reverseReady : Bool) : Dashboard R :=
  let s := if engineReady then s.receiveEngine engineCodec else s
  if reverseReady then s.receiveReverse reverseCodec else s

def runSlot (s : Dashboard R) : Dashboard R :=
  match s.slots with
  | [] => s
  | message :: slots =>
    { s with
      slots := slots
      hmi := s.hmi.deliver message
      displayed := s.displayed ++ (engineData message).toList }

end Receive

section Step

variable [OfScientific R] [Add R] [Mul R] [NatCast R] [IntCast R] [Neg R] [LT R] [DecidableLT R]
variable [Truncate R] [Sub R] [Min R] [One R] [LE R] [DecidableLE R]
variable (unpack : List UInt8 → Option CanCommand)
variable (engineCodec : Codec EngineData) (reverseCodec : Codec ReverseEvent)

def newlyPublished (s : Dashboard R) (op : CanService.Op R) : List EngineData :=
  (s.service.step unpack op).published.drop s.service.published.length

def step (s : Dashboard R) : Op R → Dashboard R
  | .service op carried =>
    let messages := (s.newlyPublished unpack op).map engineCodec.pack
    { s with
      service := s.service.step unpack op
      engineWire := if carried then s.engineWire ++ messages else s.engineWire }
  | .reverseSent message => { s with reverseWire := s.reverseWire ++ [message] }
  | .disconnect => { s with engineWire := [] }
  | .poll engineReady reverseReady => s.process engineCodec reverseCodec engineReady reverseReady
  | .runSlot => s.runSlot
  | .user change => { s with hmi := { s.hmi with app := change s.hmi.app } }

end Step

theorem deliver_data (hmi : Hmi) (message : Hmi.Message) :
    (hmi.deliver message).provider.data = (engineData message).getD hmi.provider.data := by
  rw [Hmi.deliver_eq]
  cases message with
  | engineData data => rfl
  | reverseEvent event => exact (hmi.reverseEventReceived_frame event).2

section Link
open Lib.LossyQueue

variable (engineCodec : Codec EngineData) (reverseCodec : Codec ReverseEvent)

/-- The slots come before the messages that the worker has yet to read. -/
def asLink (s : Dashboard R) : Link EngineData where
  sent := s.service.published
  queue := s.slots.filterMap engineData ++ s.engineWire.filterMap engineCodec.convert
  taken := s.displayed

theorem asLink_receiveEngine (s : Dashboard R) :
    (s.receiveEngine engineCodec).asLink engineCodec = s.asLink engineCodec := by
  unfold receiveEngine
  cases hwire : s.engineWire with
  | nil => rfl
  | cons message wire =>
    have hdata : ((engineCodec.convert message).map Hmi.Message.engineData).toList.filterMap
        engineData = (engineCodec.convert message).toList := by
      cases engineCodec.convert message <;> rfl
    have hhead : (message :: wire).filterMap engineCodec.convert =
        (engineCodec.convert message).toList ++ wire.filterMap engineCodec.convert := by
      cases hconvert : engineCodec.convert message with
      | none => rw [List.filterMap_cons_none hconvert]; rfl
      | some data => rw [List.filterMap_cons_some hconvert]; rfl
    simp only [asLink]
    rw [hwire, hhead, List.filterMap_append, hdata, List.append_assoc]

theorem asLink_receiveReverse (s : Dashboard R) :
    (s.receiveReverse reverseCodec).asLink engineCodec = s.asLink engineCodec := by
  unfold receiveReverse
  cases s.reverseWire with
  | nil => rfl
  | cons message wire =>
    have hnone : ((reverseCodec.convert message).map Hmi.Message.reverseEvent).toList.filterMap
        engineData = [] := by
      cases reverseCodec.convert message <;> rfl
    simp only [asLink]
    rw [List.filterMap_append, hnone, List.append_nil]

theorem receiveEngine_fields (s : Dashboard R) :
    (s.receiveEngine engineCodec).service = s.service ∧
      (s.receiveEngine engineCodec).hmi = s.hmi ∧
      (s.receiveEngine engineCodec).displayed = s.displayed := by
  unfold receiveEngine
  cases s.engineWire <;> exact ⟨rfl, rfl, rfl⟩

theorem receiveReverse_fields (s : Dashboard R) :
    (s.receiveReverse reverseCodec).service = s.service ∧
      (s.receiveReverse reverseCodec).hmi = s.hmi ∧
      (s.receiveReverse reverseCodec).displayed = s.displayed ∧
      (s.receiveReverse reverseCodec).engineWire = s.engineWire := by
  unfold receiveReverse
  cases s.reverseWire <;> exact ⟨rfl, rfl, rfl, rfl⟩

theorem process_fields (s : Dashboard R) (engineReady reverseReady : Bool) :
    let s' := s.process engineCodec reverseCodec engineReady reverseReady
    s'.service = s.service ∧ s'.hmi = s.hmi ∧ s'.displayed = s.displayed ∧
      s'.engineWire = if engineReady then s.engineWire.tail else s.engineWire := by
  obtain ⟨hservice, hhmi, hdisplayed⟩ := receiveEngine_fields engineCodec s
  have hwire : (s.receiveEngine engineCodec).engineWire = s.engineWire.tail := by
    unfold receiveEngine
    cases hs : s.engineWire with
    | nil => exact hs
    | cons message wire => rfl
  obtain ⟨hservice', hhmi', hdisplayed', hwire'⟩ := receiveReverse_fields reverseCodec
    (if engineReady then s.receiveEngine engineCodec else s)
  unfold process
  cases engineReady <;> cases reverseReady
  · exact ⟨rfl, rfl, rfl, rfl⟩
  · exact ⟨hservice', hhmi', hdisplayed', hwire'⟩
  · exact ⟨hservice, hhmi, hdisplayed, hwire⟩
  · exact ⟨hservice'.trans hservice, hhmi'.trans hhmi, hdisplayed'.trans hdisplayed,
      hwire'.trans hwire⟩

theorem asLink_process (s : Dashboard R) (engineReady reverseReady : Bool) :
    (s.process engineCodec reverseCodec engineReady reverseReady).asLink engineCodec =
      s.asLink engineCodec := by
  unfold process
  cases engineReady with
  | true =>
    cases reverseReady with
    | true => exact (asLink_receiveReverse _ _ _).trans (asLink_receiveEngine _ s)
    | false => exact asLink_receiveEngine engineCodec s
  | false =>
    cases reverseReady with
    | true => exact asLink_receiveReverse engineCodec reverseCodec s
    | false => rfl

variable [OfScientific R] [Add R] [Mul R] [NatCast R] [IntCast R] [Neg R] [LT R] [DecidableLT R]
variable [Truncate R] [Sub R] [Min R] [One R] [LE R] [DecidableLE R]
variable (unpack : List UInt8 → Option CanCommand)

/-- A step of the service publishes nothing, or the summary of what its parser then has. -/
theorem published_step (s : CanService R) (op : CanService.Op R) :
    (s.step unpack op).published = s.published ∨
      ∃ clockMs, (s.step unpack op).published = s.published ++
        [(s.step unpack op).parser.publishedData s.canTimeoutMs clockMs] := by
  cases op with
  | arrive message => exact .inl rfl
  | turn t =>
    have hside := CanService.engineSide_step unpack s (.turn t)
    rw [CanService.Op.canReading, Option.map_some, Option.getD_some] at hside
    have hpublished := congrArg CanService.EngineSide.published hside
    have hparser := congrArg CanService.EngineSide.parser hside
    obtain ⟨-, hs⟩ | ⟨-, hs⟩ := CanService.EngineSide.step_cases (CanService.engineSide s)
        ⟨t.outcome, t.receivedNs, t.parsedNs, t.nowNs, t.checkedNs⟩
    · rw [hs] at hpublished hparser
      refine .inr ⟨t.checkedNs / 1000000, ?_⟩
      change (s.step unpack (.turn t)).parser = _ at hparser
      rw [hparser]
      exact hpublished
    · rw [hs] at hpublished
      exact .inl (hpublished.trans (CanService.EngineSide.receive_fields _ _).2.2.2.2.2.1)

theorem published_append (s : Dashboard R) (op : CanService.Op R) :
    (s.service.step unpack op).published =
      s.service.published ++ s.newlyPublished unpack op := by
  unfold newlyPublished
  obtain hsame | ⟨clockMs, hnew⟩ := published_step unpack s.service op
  · rw [hsame, List.drop_length, List.append_nil]
  · rw [hnew, List.drop_left]

def linkOps (s : Dashboard R) : Op R → List (Lib.LossyQueue.Op EngineData)
  | .service op carried => (s.newlyPublished unpack op).map (fun data => .send data carried)
  | .reverseSent _ => []
  | .disconnect => [.cut (s.slots.filterMap engineData).length]
  | .poll _ _ => []
  | .runSlot => ((s.slots.head?.bind engineData).map (fun _ => .take)).toList
  | .user _ => []

theorem step_refines (s : Dashboard R) (op : Op R) :
    (s.step unpack engineCodec reverseCodec op).asLink engineCodec =
      run Link.step (s.asLink engineCodec) (s.linkOps unpack op) := by
  cases op with
  | service op carried =>
    have hwire : ∀ items : List EngineData,
        (items.map engineCodec.pack).filterMap engineCodec.convert = items := by
      intro items
      rw [List.filterMap_map]
      exact (List.filterMap_congr (fun data _ => engineCodec.convert_pack data)).trans
        List.filterMap_some
    rw [linkOps, Link.run_sends]
    cases carried with
    | true => simp [step, asLink, published_append, hwire]
    | false => simp [step, asLink, published_append]
  | reverseSent message => rfl
  | disconnect => simp [step, asLink, linkOps, Link.step]
  | poll engineReady reverseReady => exact asLink_process engineCodec reverseCodec s _ _
  | runSlot =>
    rcases s with ⟨service, engineWire, reverseWire, slots, hmi, displayed⟩
    cases slots with
    | nil => rfl
    | cons message slots =>
      cases message with
      | engineData data => rfl
      | reverseEvent event =>
        have hslots : (Hmi.Message.reverseEvent event :: slots).filterMap engineData =
            slots.filterMap engineData := List.filterMap_cons_none rfl
        simp [step, runSlot, asLink, linkOps, engineData, hslots]
  | user change => rfl

def received (s : Dashboard R) : List EngineData := (s.asLink engineCodec).received

def inTransit (s : Dashboard R) : List EngineData := (s.asLink engineCodec).queue

def Op.keeps : Op R → Bool
  | .service _ carried => carried
  | .disconnect => false
  | _ => true

theorem linkOps_keep (s : Dashboard R) {op : Op R} (h : op.keeps = true) :
    ∀ linkOp ∈ s.linkOps unpack op, linkOp.keeps = true := by
  intro linkOp hmem
  cases op with
  | service op carried =>
    obtain ⟨data, -, rfl⟩ := List.mem_map.mp hmem
    exact h
  | disconnect => exact absurd h Bool.false_ne_true
  | runSlot =>
    obtain ⟨data, -, rfl⟩ := Option.map_eq_some_iff.mp (Option.mem_toList.mp hmem)
    rfl
  | reverseSent message => exact absurd hmem List.not_mem_nil
  | poll engineReady reverseReady => exact absurd hmem List.not_mem_nil
  | user change => exact absurd hmem List.not_mem_nil

theorem received_sublist (s : Dashboard R) (ops : List (Op R))
    (h : (s.received engineCodec).Sublist s.service.published) :
    ((run (step unpack engineCodec reverseCodec) s ops).received engineCodec).Sublist
      (run (step unpack engineCodec reverseCodec) s ops).service.published :=
  Lib.LossyQueue.received_sublist_of_refines (step_refines engineCodec reverseCodec unpack) s ops h

/-- While nothing is lost, what is published is received. -/
theorem received_append (s : Dashboard R) {ops : List (Op R)}
    (hkeeps : ∀ op ∈ ops, op.keeps = true) :
    ∃ new, (run (step unpack engineCodec reverseCodec) s ops).service.published =
        s.service.published ++ new ∧
      (run (step unpack engineCodec reverseCodec) s ops).received engineCodec =
        s.received engineCodec ++ new :=
  Lib.LossyQueue.received_append_of_refines (step_refines engineCodec reverseCodec unpack) s
    (fun s op hop => linkOps_keep unpack s (hkeeps op hop))

theorem displayed_last (s : Dashboard R) (ops : List (Op R))
    (h : s.hmi.provider.data = s.displayed.getLast?.getD {}) :
    (run (step unpack engineCodec reverseCodec) s ops).hmi.provider.data =
      (run (step unpack engineCodec reverseCodec) s ops).displayed.getLast?.getD {} := by
  refine run_invariant _ (fun s : Dashboard R =>
    s.hmi.provider.data = s.displayed.getLast?.getD {}) ?_ h ops
  intro s op hs
  cases op with
  | service op carried => exact hs
  | reverseSent message => exact hs
  | disconnect => exact hs
  | poll engineReady reverseReady =>
    obtain ⟨-, hhmi, hdisplayed, -⟩ :=
      process_fields engineCodec reverseCodec s engineReady reverseReady
    rw [step, hhmi, hdisplayed]
    exact hs
  | runSlot =>
    rw [step, runSlot]
    cases s.slots with
    | nil => exact hs
    | cons message slots =>
      dsimp only
      rw [deliver_data]
      cases engineData message with
      | none => rwa [Option.getD_none, Option.toList_none, List.append_nil]
      | some data =>
        rw [Option.getD_some, Option.toList_some, List.getLast?_concat, Option.getD_some]
  | user change => exact hs

theorem run_polls (s : Dashboard R) (n : ℕ) :
    let s' := run (step unpack engineCodec reverseCodec) s (List.replicate n (.poll true true))
    s'.engineWire = s.engineWire.drop n ∧ s'.service = s.service := by
  induction n generalizing s with
  | zero => exact ⟨rfl, rfl⟩
  | succ n ih =>
    obtain ⟨hservice, -, -, hwire⟩ := process_fields engineCodec reverseCodec s true true
    obtain ⟨hwire', hservice'⟩ := ih (s.process engineCodec reverseCodec true true)
    refine ⟨?_, hservice'.trans hservice⟩
    rw [List.replicate_succ, run_cons]
    refine hwire'.trans ?_
    rw [hwire, if_pos rfl, List.drop_tail]

theorem run_slots (s : Dashboard R) (n : ℕ) :
    let s' := run (step unpack engineCodec reverseCodec) s (List.replicate n .runSlot)
    s'.slots = s.slots.drop n ∧ s'.engineWire = s.engineWire ∧ s'.service = s.service := by
  induction n generalizing s with
  | zero => exact ⟨rfl, rfl, rfl⟩
  | succ n ih =>
    have hfirst : s.runSlot.slots = s.slots.tail ∧ s.runSlot.engineWire = s.engineWire ∧
        s.runSlot.service = s.service := by
      unfold runSlot
      cases hslots : s.slots with
      | nil => exact ⟨hslots, rfl, rfl⟩
      | cons message slots => exact ⟨rfl, rfl, rfl⟩
    obtain ⟨hslots, hwire, hservice⟩ := ih s.runSlot
    refine ⟨?_, hwire.trans hfirst.2.1, hservice.trans hfirst.2.2⟩
    rw [List.replicate_succ, run_cons]
    refine hslots.trans ?_
    rw [hfirst.1, List.drop_tail]

def settle (s : Dashboard R) : List (Op R) :=
  let polls := List.replicate s.engineWire.length (.poll true true)
  polls ++ List.replicate (run (step unpack engineCodec reverseCodec) s polls).slots.length .runSlot

theorem settle_keeps (s : Dashboard R) :
    ∀ op ∈ s.settle engineCodec reverseCodec unpack, op.keeps = true := by
  intro op hop
  rcases List.mem_append.mp hop with hop | hop
  · rw [List.eq_of_mem_replicate hop]
    rfl
  · rw [List.eq_of_mem_replicate hop]
    rfl

theorem settle_quiet (s : Dashboard R) :
    let s' := run (step unpack engineCodec reverseCodec) s
      (s.settle engineCodec reverseCodec unpack)
    s'.inTransit engineCodec = [] ∧ s'.service = s.service := by
  rw [settle, run_append]
  obtain ⟨hwire, hservice⟩ := run_polls engineCodec reverseCodec unpack s s.engineWire.length
  rw [List.drop_length] at hwire
  generalize run (step unpack engineCodec reverseCodec) s
    (List.replicate s.engineWire.length (.poll true true)) = mid at hwire hservice ⊢
  obtain ⟨hslots', hwire', hservice'⟩ :=
    run_slots engineCodec reverseCodec unpack mid mid.slots.length
  refine ⟨?_, hservice'.trans hservice⟩
  rw [inTransit, asLink]
  dsimp only
  rw [hslots', hwire', hwire, List.drop_length]
  rfl

section Window

variable (service : CanService R)

def after (ops : List (Op R)) : Dashboard R :=
  run (step unpack engineCodec reverseCodec) { service := service } ops

theorem shows_last (lossy kept : List (Op R)) (hkeeps : ∀ op ∈ kept, op.keeps = true)
    (hpublishes :
      (after engineCodec reverseCodec unpack service lossy).service.published.length <
        (after engineCodec reverseCodec unpack service (lossy ++ kept)).service.published.length)
    (hquiet : (after engineCodec reverseCodec unpack service (lossy ++ kept)).inTransit
      engineCodec = []) :
    some (after engineCodec reverseCodec unpack service (lossy ++ kept)).hmi.provider.data =
      (after engineCodec reverseCodec unpack service (lossy ++ kept)).service.published.getLast? := by
  have hdata := displayed_last engineCodec reverseCodec unpack { service := service }
    (lossy ++ kept) rfl
  have hrun := run_append (step unpack engineCodec reverseCodec) { service := service } lossy kept
  obtain ⟨new, hpublished, hreceived⟩ := received_append engineCodec reverseCodec unpack
    (after engineCodec reverseCodec unpack service lossy) hkeeps
  unfold after at *
  rw [← hrun] at hpublished hreceived
  generalize run (step unpack engineCodec reverseCodec) { service := service } (lossy ++ kept) = s
    at *
  have hnew : new ≠ [] := by
    rintro rfl
    rw [hpublished, List.append_nil] at hpublishes
    exact Nat.lt_irrefl _ hpublishes
  have hdisplayed : s.displayed = s.received engineCodec := by
    change s.displayed = s.displayed ++ s.inTransit engineCodec
    rw [hquiet, List.append_nil]
  rw [hdata, hdisplayed, hreceived, hpublished, List.getLast?_append_of_ne_nil _ hnew,
    List.getLast?_append_of_ne_nil _ hnew, List.getLast?_eq_some_getLast hnew, Option.getD_some]

/-- Whatever was lost before: once the service has published and everything since has been carried,
    the window shows the last publication as soon as nothing is in transit, and the worker and the
    GUI thread alone can always get there. -/
theorem display_recovers (lossy kept : List (Op R)) (hkeeps : ∀ op ∈ kept, op.keeps = true)
    (hpublishes :
      (after engineCodec reverseCodec unpack service lossy).service.published.length <
        (after engineCodec reverseCodec unpack service (lossy ++ kept)).service.published.length) :
    let s := after engineCodec reverseCodec unpack service (lossy ++ kept)
    let settled := run (step unpack engineCodec reverseCodec) s
      (s.settle engineCodec reverseCodec unpack)
    (s.inTransit engineCodec = [] →
      some s.hmi.provider.data = s.service.published.getLast?) ∧
    settled.inTransit engineCodec = [] ∧
    some settled.hmi.provider.data = s.service.published.getLast? := by
  intro s settled
  obtain ⟨hquiet, hservice⟩ := settle_quiet engineCodec reverseCodec unpack s
  have hsettled : settled = after engineCodec reverseCodec unpack service
      (lossy ++ (kept ++ s.settle engineCodec reverseCodec unpack)) := by
    rw [← List.append_assoc]
    exact (run_append _ _ _ _).symm
  refine ⟨shows_last engineCodec reverseCodec unpack service lossy kept hkeeps hpublishes,
    hquiet, ?_⟩
  have hlast := shows_last engineCodec reverseCodec unpack service lossy
    (kept ++ s.settle engineCodec reverseCodec unpack) ?_ ?_ ?_
  · rw [← hsettled] at hlast
    rw [hlast]
    exact congrArg (fun service : CanService R => service.published.getLast?) hservice
  · intro op hop
    rcases List.mem_append.mp hop with hop | hop
    · exact hkeeps op hop
    · exact settle_keeps engineCodec reverseCodec unpack s op hop
  · rw [← hsettled]
    exact hpublishes.trans_eq (congrArg (fun service => service.published.length) hservice.symm)
  · rw [← hsettled]
    exact hquiet

end Window

section Moments

variable (system : SystemConfig) (allowed : List CanCommandDef) (table : SignalTable R)
variable (fd startNs : ℕ) (startTime : R)

/-- The data are what the parser has after all frames up to the moment, with the health bit set
    at some time. -/
def Summarises (moment : List (CanService.Op R)) (data : EngineData) : Prop :=
  ∃ clockMs, data = (run CanParser.step ({} : CanParser R) (.loadSignals table ::
    moment.filterMap CanService.Op.frame)).publishedData system.canTimeoutMs clockMs

theorem published_moments (ops : List (CanService.Op R)) :
    ∃ moments, Moments ops moments ∧ List.Forall₂ (Summarises system table) moments
      (run (CanService.step unpack) (CanService.started system allowed table fd startNs startTime)
        ops).published := by
  induction ops using List.reverseRecOn with
  | nil => exact ⟨[], ⟨fun _ hmem => absurd hmem List.not_mem_nil, .nil⟩, .nil⟩
  | append_singleton ops op ih =>
    obtain ⟨moments, hmoments, hsummaries⟩ := ih
    have hparser := CanService.parser_started unpack system allowed table fd startNs startTime
      (ops ++ [op])
    have htimeout : (run (CanService.step unpack)
        (CanService.started system allowed table fd startNs startTime) ops).canTimeoutMs =
          system.canTimeoutMs := by
      change (CanService.engineSide (run (CanService.step unpack) _ ops)).canTimeoutMs = _
      rw [CanService.run_engineSide]
      exact (CanService.EngineSide.run_config _ _).2
    rw [run_snoc] at hparser ⊢
    obtain hsame | ⟨clockMs, hnew⟩ := published_step unpack (run (CanService.step unpack)
      (CanService.started system allowed table fd startNs startTime) ops) op
    · rw [hsame]
      exact ⟨moments, (hmoments.snoc op).1, hsummaries⟩
    · rw [hnew]
      refine ⟨moments ++ [ops ++ [op]], (hmoments.snoc op).2, ?_⟩
      refine List.rel_append hsummaries (.cons ⟨clockMs, ?_⟩ .nil)
      rw [hparser, htimeout]

theorem run_service (s : Dashboard R) (ops : List (Op R)) :
    (run (step unpack engineCodec reverseCodec) s ops).service =
      run (CanService.step unpack) s.service (ops.filterMap Op.serviceOp) := by
  refine run_view _ Dashboard.service Op.serviceOp (CanService.step unpack) ?_ s ops
  intro s op
  cases op with
  | service op carried => rfl
  | reverseSent message => rfl
  | disconnect => rfl
  | poll engineReady reverseReady =>
    exact (process_fields engineCodec reverseCodec s engineReady reverseReady).1
  | runSlot =>
    change s.runSlot.service = s.service
    unfold runSlot
    cases s.slots <;> rfl
  | user change => rfl

theorem displayed_moments (ops : List (Op R)) :
    ∃ moments, Moments (ops.filterMap Op.serviceOp) moments ∧
      List.Forall₂ (Summarises system table) moments (after engineCodec reverseCodec unpack
        (CanService.started system allowed table fd startNs startTime) ops).displayed := by
  obtain ⟨moments, hmoments, hsummaries⟩ :=
    published_moments unpack system allowed table fd startNs startTime (ops.filterMap Op.serviceOp)
  have hreceived := received_sublist engineCodec reverseCodec unpack
    { service := CanService.started system allowed table fd startNs startTime } ops
    (List.Sublist.refl _)
  rw [run_service] at hreceived
  have hdisplayed := (List.sublist_append_left _ _).trans hreceived
  obtain ⟨part, hpart, hr⟩ := forall₂_sublist hsummaries hdisplayed
  exact ⟨part, hmoments.sublist hpart, hr⟩

/-- The window never goes back in time: what it shows, one after the other, are summaries of what
    the service had received at later and later moments of its run, and the last of them is what
    the provider holds. -/
theorem display_follows_bus (ops : List (Op R)) :
    let s := after engineCodec reverseCodec unpack
      (CanService.started system allowed table fd startNs startTime) ops
    ∃ moments, Moments (ops.filterMap Op.serviceOp) moments ∧
      List.Forall₂ (Summarises system table) moments s.displayed ∧
      s.hmi.provider.data = s.displayed.getLast?.getD {} := by
  intro s
  obtain ⟨moments, hmoments, hsummaries⟩ := displayed_moments engineCodec reverseCodec unpack
    system allowed table fd startNs startTime ops
  exact ⟨moments, hmoments, hsummaries, displayed_last engineCodec reverseCodec unpack _ ops rfl⟩

end Moments

/-- The first publication is lost, the second is on its way. -/
theorem display_recovers_second :
    let service : CanService ℚ := .started {} [] (.inOrder []) 3 0 0
    let turn (ns : ℕ) := CanService.Op.turn (CanService.quietTurn .noData ns)
    let s := after EngineData.codec ReverseEvent.codec CanCommand.codec.convert service
      ([.service (turn 25000000) false] ++ [.service (turn 50000000) true])
    let settled := run (step CanCommand.codec.convert EngineData.codec ReverseEvent.codec) s
      (s.settle EngineData.codec ReverseEvent.codec CanCommand.codec.convert)
    some settled.hmi.provider.data = s.service.published.getLast? :=
  (display_recovers EngineData.codec ReverseEvent.codec CanCommand.codec.convert
    (.started {} [] (.inOrder []) 3 0 0)
    [.service (.turn (CanService.quietTurn .noData 25000000)) false]
    [.service (.turn (CanService.quietTurn .noData 50000000)) true]
    (by decide) (by decide +kernel)).2.2

end Link

section Gauges
open Lib.LossyQueue

theorem published_empty (table : SignalTable ℚ) (canTimeoutMs : UInt32) (clockMs : ℕ) :
    ∃ flags, (({} : CanParser ℚ).loadSignals table).publishedData canTimeoutMs clockMs =
      { flags := flags } := by
  unfold CanParser.publishedData
  dsimp only
  split_ifs
  · exact ⟨_, rfl⟩
  · exact ⟨_, rfl⟩

theorem shown_empty {provider : DataProvider} {flags : UInt16}
    (hdata : provider.data = { flags := flags }) (gauge : Gauge) : provider.shown gauge = 0 := by
  rcases provider with ⟨data, reverseEngaged⟩
  obtain rfl : data = { flags := flags } := hdata
  cases gauge with
  | mapKpa | ignitionAdvance | vehicleSpeed => exact zero_div _
  | lambda => exact zero_div _
  | _ => rfl

variable (engineCodec : Codec EngineData) (reverseCodec : Codec ReverseEvent)
variable (unpack : List UInt8 → Option CanCommand)
variable (system : SystemConfig) (allowed : List CanCommandDef) (table : SignalTable ℚ)
variable (fd startNs : ℕ) (startTime : ℚ)

/-- There is one moment of the run such that every number in the window is within one unit of its
    field of the clamped value that the frames up to that moment decode to. Before the first
    publication and the first frame all are zero. -/
theorem gauges_follow_bus (ops : List (Op ℚ)) :
    let provider := (after engineCodec reverseCodec unpack
      (CanService.started system allowed table fd startNs startTime) ops).hmi.provider
    ∃ moment, moment <+: ops.filterMap Op.serviceOp ∧
      let frames := moment.filterMap CanService.Op.frame
      let parser := run CanParser.step ({} : CanParser ℚ) (.loadSignals table :: frames)
      (frames = [] → ∀ gauge, provider.shown gauge = 0) ∧
      (frames ≠ [] → ∀ gauge, |provider.shown gauge - Lib.Rounding.saturate gauge.low gauge.high
        (getValue parser.getSignalValue gauge.signal)| < gauge.resolution) := by
  intro provider
  obtain ⟨moments, hmoments, hsummaries⟩ := displayed_moments engineCodec reverseCodec unpack
    system allowed table fd startNs startTime ops
  have hdata : provider.data = ((after engineCodec reverseCodec unpack (CanService.started system
      allowed table fd startNs startTime) ops).displayed.getLast?).getD {} :=
    displayed_last engineCodec reverseCodec unpack _ ops rfl
  by_cases hshown : (after engineCodec reverseCodec unpack
      (CanService.started system allowed table fd startNs startTime) ops).displayed = []
  · rw [hshown] at hdata
    exact ⟨[], List.nil_prefix, fun _ gauge => @shown_empty provider 0 hdata gauge,
      fun hne => absurd rfl hne⟩
  rw [List.getLast?_eq_some_getLast hshown, Option.getD_some] at hdata
  have hpart := List.singleton_sublist.mpr (List.getLast_mem hshown)
  obtain ⟨part, hmoment, hr⟩ := forall₂_sublist hsummaries hpart
  obtain ⟨moment, rest, ⟨clockMs, hsummary⟩, -, rfl⟩ := List.forall₂_cons_right_iff.mp hr
  rw [← hdata] at hsummary
  refine ⟨moment, hmoments.inRun moment (hmoment.subset List.mem_cons_self), ?_, ?_⟩
  · intro hnone gauge
    obtain ⟨flags, hflags⟩ := published_empty table system.canTimeoutMs clockMs
    rw [hnone] at hsummary
    exact shown_empty (hsummary.trans hflags) gauge
  · intro hsome gauge
    have haccepted : CanParser.accepted (.loadSignals table ::
        moment.filterMap CanService.Op.frame) ≠ [] := by
      rw [← List.length_pos_iff, CanService.accepted_frames]
      exact List.length_pos_iff.mpr hsome
    obtain ⟨timestampMs, flags, hreceived⟩ := DataProvider.receive_publishedData engineCodec
      provider _ haccepted system.canTimeoutMs clockMs
    rw [← hsummary, DataProvider.receiveEngineData_pack] at hreceived
    have hnear := DataProvider.shown_near engineCodec provider (run CanParser.step {}
      (.loadSignals table :: moment.filterMap CanService.Op.frame)).getSignalValue timestampMs flags
      gauge
    rw [← hreceived] at hnear
    exact hnear

end Gauges

end Dashboard

end SpeeduinoDash
