import SpeeduinoDash.BusCommands

set_option autoImplicit false

/-!
# What the CAN service publishes

The published data come from the frames alone and the commands are served without them: the two
sides of the loop share nothing but the CAN socket.
-/
namespace SpeeduinoDash.CanService
open CanInterface CanParser CommandServer Lib.Runs

structure CanReading where
  outcome : ReadOutcome
  receivedNs : ℕ
  parsedNs : ℕ
  nowNs : ℕ
  checkedNs : ℕ

inductive ClientReading (R : Type) where
  | arrive (message : List UInt8)
  | turn (commandTime : R) (pollSending : Bool) (write : KernelFrame → Bool)

structure EngineSide (R : Type) where
  connected : Bool
  parser : CanParser R
  publishInterval : ℕ
  canTimeoutMs : UInt32
  lastPublish : ℤ
  wasConnected : Bool
  published : List EngineData
  warnings : ℕ

structure ClientSide (R : Type) where
  socket : ℤ
  server : CommandServer R
  written : List KernelFrame

variable {R : Type}

def Op.canReading : Op R → Option CanReading
  | .arrive _ => none
  | .turn t => some ⟨t.outcome, t.receivedNs, t.parsedNs, t.nowNs, t.checkedNs⟩

def Op.clientReading : Op R → ClientReading R
  | .arrive message => .arrive message
  | .turn t => .turn t.commandTime t.pollSending t.write

def engineSide (s : CanService R) : EngineSide R where
  connected := s.iface.isConnected
  parser := s.parser
  publishInterval := s.publishInterval
  canTimeoutMs := s.canTimeoutMs
  lastPublish := s.lastPublish
  wasConnected := s.wasConnected
  published := s.published
  warnings := s.warnings

def clientSide (s : CanService R) : ClientSide R := ⟨s.iface.socket, s.server, s.written⟩

namespace EngineSide

def due (e : EngineSide R) (r : CanReading) : Bool :=
  (e.publishInterval * 1000 : ℕ) ≤ (r.nowNs : ℤ) - e.lastPublish

def publish (e : EngineSide R) (r : CanReading) : EngineSide R :=
  if e.due r then
    let isFresh := e.parser.isDataFresh e.canTimeoutMs (r.checkedNs / 1000000)
    { e with
      lastPublish := r.nowNs
      published := e.published ++ [e.parser.publishedData e.canTimeoutMs (r.checkedNs / 1000000)]
      warnings := if !isFresh && e.wasConnected then e.warnings + 1 else e.warnings
      wasConnected := isFresh }
  else e

variable [OfScientific R] [Add R] [Mul R] [NatCast R] [IntCast R] [Neg R] [LT R] [DecidableLT R]
variable [Truncate R]

def frameOp (r : CanReading) : Option (CanParser.Op R) :=
  match r.outcome with
  | .frame cf =>
    some (.parseFrame (fromKernelFrame cf (r.receivedNs / 1000000)) (r.parsedNs / 1000000))
  | _ => none

def receive (e : EngineSide R) (r : CanReading) : EngineSide R :=
  if e.connected then
    { e with parser := ((frameOp r).map (CanParser.step e.parser)).getD e.parser }
  else e

def step (e : EngineSide R) (r : CanReading) : EngineSide R := (e.receive r).publish r

def publications (e : EngineSide R) : List CanReading → List (ℤ × EngineData)
  | [] => []
  | r :: rs =>
    if e.due r then
      ((r.nowNs : ℤ), (e.receive r).parser.publishedData e.canTimeoutMs (r.checkedNs / 1000000)) ::
        publications (e.step r) rs
    else publications (e.step r) rs

theorem receive_fields (e : EngineSide R) (r : CanReading) :
    (e.receive r).connected = e.connected ∧ (e.receive r).publishInterval = e.publishInterval ∧
    (e.receive r).canTimeoutMs = e.canTimeoutMs ∧ (e.receive r).lastPublish = e.lastPublish ∧
    (e.receive r).wasConnected = e.wasConnected ∧ (e.receive r).published = e.published ∧
    (e.receive r).warnings = e.warnings := by
  unfold receive
  split_ifs <;> exact ⟨rfl, rfl, rfl, rfl, rfl, rfl, rfl⟩

theorem step_cases (e : EngineSide R) (r : CanReading) :
    (e.due r = true ∧ e.step r = { e.receive r with
      lastPublish := r.nowNs
      published := e.published ++
        [(e.receive r).parser.publishedData e.canTimeoutMs (r.checkedNs / 1000000)]
      warnings := if !(e.receive r).parser.isDataFresh e.canTimeoutMs (r.checkedNs / 1000000) &&
        e.wasConnected then e.warnings + 1 else e.warnings
      wasConnected := (e.receive r).parser.isDataFresh e.canTimeoutMs (r.checkedNs / 1000000) }) ∨
    (e.due r = false ∧ e.step r = e.receive r) := by
  obtain ⟨-, hinterval, htimeout, hlast, hwas, hpublished, hwarnings⟩ := receive_fields e r
  have hdue : (e.receive r).due r = e.due r := by rw [due, due, hinterval, hlast]
  unfold step publish
  rw [hdue, htimeout, hwas, hpublished, hwarnings]
  cases e.due r with
  | true => exact .inl ⟨rfl, by simp [htimeout]⟩
  | false => exact .inr ⟨rfl, rfl⟩

theorem run_published (e : EngineSide R) (rs : List CanReading) :
    (run step e rs).published = e.published ++ (e.publications rs).map Prod.snd := by
  induction rs generalizing e with
  | nil => exact (List.append_nil _).symm
  | cons r rs ih =>
    rw [run_cons, ih, publications]
    obtain ⟨hdue, hs⟩ | ⟨hdue, hs⟩ := step_cases e r
    · rw [if_pos hdue, hs, List.map_cons, List.append_assoc]
      rfl
    · rw [if_neg (by simp [hdue]), hs, (receive_fields e r).2.2.2.2.2.1]

theorem publications_times (e : EngineSide R) (rs : List CanReading) :
    (e.publications rs).map Prod.fst = Lib.Cadence.firings ((e.publishInterval * 1000 : ℕ) : ℤ)
      e.lastPublish (rs.map (fun r => (r.nowNs : ℤ))) := by
  induction rs generalizing e with
  | nil => rfl
  | cons r rs ih =>
    obtain ⟨-, hinterval, -, hlast, -, -, -⟩ := receive_fields e r
    rw [publications, List.map_cons, Lib.Cadence.firings]
    obtain ⟨hdue, hs⟩ | ⟨hdue, hs⟩ := step_cases e r
    · rw [if_pos hdue, if_pos (of_decide_eq_true hdue), List.map_cons, ih, hs]
      rw [hinterval]
    · rw [if_neg (by simp [hdue]), if_neg (of_decide_eq_false hdue), ih, hs, hinterval, hlast]

theorem parser_step (e : EngineSide R) (r : CanReading) :
    (e.step r).parser = (e.receive r).parser := by
  obtain ⟨-, hs⟩ | ⟨-, hs⟩ := step_cases e r <;> rw [hs]

theorem run_config (e : EngineSide R) (rs : List CanReading) :
    (run step e rs).publishInterval = e.publishInterval ∧
      (run step e rs).canTimeoutMs = e.canTimeoutMs := by
  refine run_invariant step (fun e' => e'.publishInterval = e.publishInterval ∧
    e'.canTimeoutMs = e.canTimeoutMs) ?_ ⟨rfl, rfl⟩ rs
  rintro e' r ⟨hinterval, htimeout⟩
  obtain ⟨-, hinterval', htimeout', -⟩ := receive_fields e' r
  rw [← hinterval, ← htimeout]
  obtain ⟨-, hs⟩ | ⟨-, hs⟩ := step_cases e' r <;> rw [hs]
  · exact ⟨hinterval', htimeout'⟩
  · exact ⟨hinterval', htimeout'⟩

theorem parser_run (e : EngineSide R) (hconnected : e.connected = true) (rs : List CanReading) :
    (run step e rs).parser = run CanParser.step e.parser (rs.filterMap frameOp) := by
  induction rs generalizing e with
  | nil => rfl
  | cons r rs ih =>
    have hreceived : (e.receive r).parser =
        ((frameOp r).map (CanParser.step e.parser)).getD e.parser := by
      rw [receive, if_pos hconnected]
    have hconnected' := (receive_fields e r).1.trans hconnected
    have hnext : (e.step r).connected = true := by
      obtain ⟨-, hs⟩ | ⟨-, hs⟩ := step_cases e r <;> rw [hs]
      · exact hconnected'
      · exact hconnected'
    rw [run_cons, ih (e.step r) hnext, parser_step, hreceived]
    cases hframe : (frameOp r : Option (CanParser.Op R)) with
    | none => rw [List.filterMap_cons_none hframe, Option.map_none, Option.getD_none]
    | some op => rw [List.filterMap_cons_some hframe, Option.map_some, Option.getD_some, run_cons]

def losses (was : Bool) : List Bool → ℕ
  | [] => 0
  | isFresh :: rest => (if !isFresh && was then 1 else 0) + losses isFresh rest

theorem losses_snoc (was : Bool) (xs : List Bool) (isFresh : Bool) :
    losses was (xs ++ [isFresh]) =
      losses was xs + if !isFresh && (xs.getLast?.getD was) then 1 else 0 := by
  induction xs generalizing was with
  | nil => exact (Nat.add_zero _).trans (Nat.zero_add _).symm
  | cons x xs ih =>
    rw [List.cons_append, losses, ih, losses, List.getLast?_cons, Option.getD_some, Nat.add_assoc]

/-- One warning for every time the data were lost. -/
structure Warned (e : EngineSide R) : Prop where
  warnings : e.warnings = losses true (e.published.map EngineData.isCanOk)
  wasConnected : e.wasConnected = (e.published.map EngineData.isCanOk).getLast?.getD true

theorem Warned.warned_step {e : EngineSide R} (h : e.Warned) (r : CanReading) :
    (e.step r).Warned := by
  obtain ⟨-, -, -, -, hwas, hpublished, hwarnings⟩ := receive_fields e r
  obtain ⟨-, hs⟩ | ⟨-, hs⟩ := step_cases e r
  · rw [hs]
    refine ⟨?_, ?_⟩
    · rw [List.map_append, List.map_singleton, publishedData_isCanOk, losses_snoc,
        ← h.wasConnected, ← h.warnings]
      dsimp only
      split_ifs <;> rfl
    · rw [List.map_append, List.map_singleton, publishedData_isCanOk, List.getLast?_concat]
      rfl
  · rw [hs]
    exact ⟨by rw [hwarnings, hpublished, h.warnings], by rw [hwas, hpublished, h.wasConnected]⟩

end EngineSide

theorem engineSide_publishData (s : CanService R) (t : LoopTurn R) :
    engineSide (s.publishData t) = (engineSide s).publish
      ⟨t.outcome, t.receivedNs, t.parsedNs, t.nowNs, t.checkedNs⟩ := by
  unfold publishData EngineSide.publish EngineSide.due
  simp only [decide_eq_true_eq]
  by_cases hdue : ((s.publishInterval * 1000 : ℕ) : ℤ) ≤ (t.nowNs : ℤ) - s.lastPublish
  · rw [if_pos hdue]
    exact (if_pos hdue).symm
  · rw [if_neg hdue]
    exact (if_neg hdue).symm

def Op.frame (op : Op R) : Option (CanParser.Op R) := op.canReading.bind EngineSide.frameOp

def Op.frameMs (op : Op R) : Option ℕ := (op.frame).bind CanParser.Op.clockMs

theorem Op.frame_cases {op : Op R} {parserOp : CanParser.Op R} (h : op.frame = some parserOp) :
    ∃ frame clockMs, parserOp = .parseFrame frame clockMs ∧ ¬ frame.dlc > canMaxDlc := by
  obtain ⟨r, -, hr⟩ := Option.bind_eq_some_iff.mp h
  unfold EngineSide.frameOp at hr
  split at hr
  · exact ⟨_, _, (Option.some.inj hr).symm,
      UInt8.not_lt.mpr (UInt8.le_trans (fromKernelFrame_dlc _ _) (by decide))⟩
  · cases hr

theorem acceptedTimes_frames (table : SignalTable R) (ops : List (Op R)) :
    acceptedTimes (.loadSignals table :: ops.filterMap Op.frame) = ops.filterMap Op.frameMs := by
  have hfrom : ∀ times : List ℕ, run acceptTime times (ops.filterMap Op.frame) =
      times ++ ops.filterMap Op.frameMs := by
    induction ops with
    | nil => exact fun times => (List.append_nil times).symm
    | cons op ops ih =>
      intro times
      cases hframe : op.frame with
      | none =>
        have hms : op.frameMs = none := by rw [Op.frameMs, hframe, Option.bind_none]
        rw [List.filterMap_cons_none hframe, List.filterMap_cons_none hms, ih]
      | some parserOp =>
        obtain ⟨frame, clockMs, rfl, hdlc⟩ := Op.frame_cases hframe
        have hms : op.frameMs = some clockMs := by rw [Op.frameMs, hframe]; rfl
        rw [List.filterMap_cons_some hframe, List.filterMap_cons_some hms, run_cons, ih, acceptTime,
          if_neg hdlc, List.append_assoc, List.singleton_append]
  exact hfrom []

theorem accepted_frames (table : SignalTable R) (ops : List (Op R)) :
    (accepted (.loadSignals table :: ops.filterMap Op.frame)).length =
      (ops.filterMap Op.frame).length := by
  have hfrom : ∀ frames : List CanFrame, (run accept frames (ops.filterMap Op.frame)).length =
      frames.length + (ops.filterMap Op.frame).length := by
    induction ops with
    | nil => exact fun frames => rfl
    | cons op ops ih =>
      intro frames
      cases hframe : op.frame with
      | none => rw [List.filterMap_cons_none hframe, ih]
      | some parserOp =>
        obtain ⟨frame, clockMs, rfl, hdlc⟩ := Op.frame_cases hframe
        rw [List.filterMap_cons_some hframe, run_cons, ih, accept, if_neg hdlc,
          List.length_append, List.length_singleton, List.length_cons]
        omega
  exact (hfrom []).trans (Nat.zero_add _)

theorem frames_clockMs (ops : List (Op R)) :
    (ops.filterMap Op.frame).filterMap CanParser.Op.clockMs = ops.filterMap Op.frameMs := by
  rw [List.filterMap_filterMap]
  rfl

section Engine

variable [OfScientific R] [Add R] [Mul R] [NatCast R] [IntCast R] [Neg R] [LT R] [DecidableLT R]
variable [Truncate R]

theorem engineSide_receiveFrame (s : CanService R) (t : LoopTurn R) :
    engineSide (s.receiveFrame t) = (engineSide s).receive
      ⟨t.outcome, t.receivedNs, t.parsedNs, t.nowNs, t.checkedNs⟩ := by
  by_cases hopen : s.iface.socket < 0
  · have hconnected : (engineSide s).connected = false := by
      simpa [engineSide, isConnected] using hopen
    have hreceive : s.iface.receive t.outcome (t.receivedNs / 1000000) = (none, s.iface) := by
      unfold CanInterface.receive
      rw [if_pos hopen]
    rw [EngineSide.receive, hconnected, receiveFrame, hreceive]
    rfl
  · have hconnected : (engineSide s).connected = true := by
      simpa [engineSide, isConnected] using hopen
    rw [EngineSide.receive, hconnected]
    have hpos : 0 ≤ s.iface.socket := not_lt.mp hopen
    rcases t with ⟨outcome, receivedNs, parsedNs, commandTime, pollSending, write, nowNs, checkedNs⟩
    cases outcome
    all_goals
      simp [receiveFrame, CanInterface.receive, hopen, hpos, engineSide, EngineSide.frameOp,
        isConnected, CanParser.step]

def publications (s : CanService R) (ops : List (Op R)) : List (ℤ × EngineData) :=
  (engineSide s).publications (ops.filterMap Op.canReading)

def Op.nowNs : Op R → Option ℤ
  | .arrive _ => none
  | .turn t => some t.nowNs

theorem started_publications_times (system : SystemConfig) (allowed : List CanCommandDef)
    (table : SignalTable R) (fd startNs : ℕ) (startTime : R) (ops : List (Op R)) :
    ((started system allowed table fd startNs startTime).publications ops).map Prod.fst =
      Lib.Cadence.firings ((intervalOf system.zmqPublishRateHz * 1000 : ℕ) : ℤ) startNs
        (ops.filterMap Op.nowNs) := by
  have htimes : (ops.filterMap Op.canReading).map (fun r => (r.nowNs : ℤ)) =
      ops.filterMap Op.nowNs := by
    rw [List.map_filterMap]
    refine List.filterMap_congr (fun op _ => ?_)
    cases op <;> rfl
  rw [publications, EngineSide.publications_times, htimes]
  rfl

end Engine

section Client

variable [NatCast R] [Add R] [Sub R] [Mul R] [Min R] [One R] [LE R] [DecidableLE R]
variable (unpack : List UInt8 → Option CanCommand)

def sendOnSocket (socket : ℤ) (write : KernelFrame → Bool) (frame : CanFrame) :
    CanInterface.SendReport := ({ socket := socket } : CanInterface).send frame write

def ClientSide.step (c : ClientSide R) : ClientReading R → ClientSide R
  | .arrive message =>
    { c with server := { c.server with socket := c.server.socket.arrive message } }
  | .turn commandTime pollSending write =>
    let turn : Turn R := ⟨commandTime, fun frame => (sendOnSocket c.socket write frame).sent,
      pollSending⟩
    let handed := (receiveCommand unpack c.server.socket pollSending).1.bind
      (fun cmd => (c.server.writer.send (sendCall cmd turn)).handed)
    { c with
      server := c.server.handleCommands unpack turn
      written := c.written ++
        (handed.bind (fun frame => (sendOnSocket c.socket write frame).written)).toList }

theorem socket_serveCommand (s : CanService R) (t : LoopTurn R) :
    (s.serveCommand unpack t).iface.socket = s.iface.socket := by
  unfold serveCommand
  cases s.handedFrame unpack t with
  | none => rfl
  | some frame => exact (send_outcome s.iface frame t.write).1

theorem engineSide_serveCommand (s : CanService R) (t : LoopTurn R) :
    engineSide (s.serveCommand unpack t) = engineSide s := by
  have hconnected : (s.serveCommand unpack t).iface.isConnected = s.iface.isConnected := by
    rw [isConnected, isConnected, socket_serveCommand]
  unfold engineSide
  rw [hconnected]
  rfl

/-- What a send does to the bus depends on the socket alone. -/
theorem send_eq_sendOnSocket (iface : CanInterface) (frame : CanFrame)
    (write : KernelFrame → Bool) :
    (iface.send frame write).sent = (sendOnSocket iface.socket write frame).sent ∧
      (iface.send frame write).written = (sendOnSocket iface.socket write frame).written := by
  unfold sendOnSocket CanInterface.send
  split_ifs <;> exact ⟨rfl, rfl⟩

theorem clientSide_serveCommand (s : CanService R) (t : LoopTurn R) :
    clientSide (s.serveCommand unpack t) = (clientSide s).step unpack
      (.turn t.commandTime t.pollSending t.write) := by
  have hsent : (fun frame => (s.iface.send frame t.write).sent) =
      fun frame => (sendOnSocket s.iface.socket t.write frame).sent :=
    funext (fun frame => (send_eq_sendOnSocket s.iface frame t.write).1)
  have hwritten : (fun frame => (s.iface.send frame t.write).written) =
      fun frame => (sendOnSocket s.iface.socket t.write frame).written :=
    funext (fun frame => (send_eq_sendOnSocket s.iface frame t.write).2)
  unfold clientSide
  rw [socket_serveCommand]
  simp only [serveCommand, serverTurn, handedFrame, hsent, ClientSide.step, Option.bind_map,
    Function.comp_def, hwritten]

end Client

variable [OfScientific R] [Add R] [Mul R] [NatCast R] [IntCast R] [Neg R] [LT R] [DecidableLT R]
variable [Truncate R] [Sub R] [Min R] [One R] [LE R] [DecidableLE R]
variable (unpack : List UInt8 → Option CanCommand)

theorem engineSide_step (s : CanService R) (op : Op R) :
    engineSide (s.step unpack op) =
      ((op.canReading).map (engineSide s).step).getD (engineSide s) := by
  cases op with
  | arrive message => rfl
  | turn t =>
    change engineSide (((s.receiveFrame t).serveCommand unpack t).publishData t) = _
    rw [engineSide_publishData, engineSide_serveCommand, engineSide_receiveFrame]
    rfl

theorem clientSide_step (s : CanService R) (op : Op R) :
    clientSide (s.step unpack op) = (clientSide s).step unpack op.clientReading := by
  cases op with
  | arrive message => rfl
  | turn t =>
    obtain ⟨hserver, hwritten, hsocket, -⟩ := receiveFrame_server s t
    obtain ⟨hserver', hwritten', hiface'⟩ :=
      publishData_server ((s.receiveFrame t).serveCommand unpack t) t
    have hpublish : clientSide (s.takeTurn unpack t) =
        clientSide ((s.receiveFrame t).serveCommand unpack t) := by
      unfold clientSide takeTurn
      rw [hserver', hwritten', hiface']
    have hreceive : clientSide (s.receiveFrame t) = clientSide s := by
      unfold clientSide
      rw [hserver, hwritten, hsocket]
    rw [step, hpublish, clientSide_serveCommand, hreceive]
    rfl

theorem run_engineSide (s : CanService R) (ops : List (Op R)) :
    engineSide (run (step unpack) s ops) =
      run EngineSide.step (engineSide s) (ops.filterMap Op.canReading) :=
  run_view (step unpack) engineSide Op.canReading EngineSide.step (engineSide_step unpack) s ops

theorem run_clientSide (s : CanService R) (ops : List (Op R)) :
    clientSide (run (step unpack) s ops) =
      run (ClientSide.step unpack) (clientSide s) (ops.map Op.clientReading) := by
  rw [← List.filterMap_eq_map]
  exact run_view (step unpack) clientSide (some ∘ Op.clientReading) (ClientSide.step unpack)
    (clientSide_step unpack) s ops

theorem run_published (s : CanService R) (ops : List (Op R)) :
    (run (step unpack) s ops).published = s.published ++ (s.publications ops).map Prod.snd := by
  change (engineSide (run (step unpack) s ops)).published = _
  rw [run_engineSide, EngineSide.run_published]
  rfl

/-- Publications are at least an interval apart, which is between a millisecond and a second
    whatever rate is configured, and so no window holds more of them than fit. If no turn of the
    loop takes longer than `delay` they are less than an interval and a delay apart. -/
theorem publications_cadence (system : SystemConfig) (allowed : List CanCommandDef)
    (table : SignalTable R) (fd startNs : ℕ) (startTime : R) (ops : List (Op R)) (delay : ℤ)
    (hturns : ((startNs : ℤ) :: ops.filterMap Op.nowNs).IsChain (fun s t => t - s ≤ delay)) :
    let s := started system allowed table fd startNs startTime
    let times := (s.publications ops).map Prod.fst
    let interval : ℤ := (intervalOf system.zmqPublishRateHz * 1000 : ℕ)
    (run (step unpack) s ops).published = (s.publications ops).map Prod.snd ∧
    1000000 ≤ interval ∧ interval ≤ 1000000000 ∧
    ((startNs : ℤ) :: times).IsChain (fun a b => interval ≤ b - a) ∧
    ((startNs : ℤ) :: times).IsChain (fun a b => b - a < interval + delay) ∧
    ∀ a width, 0 ≤ width →
      ((times.filter (fun t => a ≤ t ∧ t ≤ a + width)).length - 1 : ℕ) * interval ≤ width := by
  intro s times interval
  obtain ⟨hmin, hmax⟩ := intervalOf_bounds system.zmqPublishRateHz
  have hlow : 1000000 ≤ interval := by
    change (1000000 : ℤ) ≤ ((intervalOf system.zmqPublishRateHz * 1000 : ℕ) : ℤ)
    omega
  have hhigh : interval ≤ 1000000000 := by
    change ((intervalOf system.zmqPublishRateHz * 1000 : ℕ) : ℤ) ≤ 1000000000
    omega
  have hpos : 0 < interval := by omega
  have htimes : times = Lib.Cadence.firings interval startNs (ops.filterMap Op.nowNs) :=
    started_publications_times system allowed table fd startNs startTime ops
  refine ⟨?_, hlow, hhigh, ?_, ?_, ?_⟩
  · rw [run_published]
    exact List.nil_append _
  · rw [htimes]
    exact Lib.Cadence.firings_isChain interval startNs (ops.filterMap Op.nowNs)
  · rw [htimes]
    exact Lib.Cadence.firings_prompt hpos (by rwa [sub_self]) hturns
  · intro a width hwidth
    rw [htimes, ← nsmul_eq_mul]
    exact Lib.Cadence.firings_window hpos startNs (ops.filterMap Op.nowNs) hwidth

theorem parser_started (system : SystemConfig) (allowed : List CanCommandDef)
    (table : SignalTable R) (fd startNs : ℕ) (startTime : R) (ops : List (Op R)) :
    (run (step unpack) (started system allowed table fd startNs startTime) ops).parser =
      run CanParser.step ({} : CanParser R) (.loadSignals table :: ops.filterMap Op.frame) := by
  let s := started system allowed table fd startNs startTime
  have hconnected : (engineSide s).connected = true := decide_eq_true (Int.natCast_nonneg fd)
  change (engineSide (run (step unpack) s ops)).parser = _
  rw [run_engineSide, EngineSide.parser_run (engineSide s) hconnected, List.filterMap_filterMap]
  rfl

/-- A turn in which the interval has passed publishes the summary of all frames received so far,
    and its health bit tells whether one of them is recent, until the 32-bit clock wraps. The log
    has one warning for every time that the bit went off. -/
theorem published_health (system : SystemConfig) (allowed : List CanCommandDef)
    (table : SignalTable R) (fd startNs : ℕ) (startTime : R) (ops : List (Op R)) (t : LoopTurn R)
    (hclock : Clocked id 0 ((ops ++ [Op.turn t]).filterMap Op.frameMs ++ [t.checkedNs / 1000000]))
    (hboot : system.canTimeoutMs.toNat ≤ t.checkedNs / 1000000)
    (hwrap : t.checkedNs / 1000000 < 4294967296) :
    let after (ops : List (Op R)) :=
      run (step unpack) (started system allowed table fd startNs startTime) ops
    let parser := run CanParser.step ({} : CanParser R)
      (.loadSignals table :: (ops ++ [Op.turn t]).filterMap Op.frame)
    ((intervalOf system.zmqPublishRateHz * 1000 : ℕ) ≤ (t.nowNs : ℤ) - (after ops).lastPublish →
      ∃ data, (after (ops ++ [Op.turn t])).published = (after ops).published ++ [data] ∧
        data = parser.publishedData system.canTimeoutMs (t.checkedNs / 1000000) ∧
        (data.isCanOk = true ↔ ∃ time ∈ (ops ++ [Op.turn t]).filterMap Op.frameMs,
          t.checkedNs / 1000000 < time + system.canTimeoutMs.toNat)) ∧
    (after ops).warnings =
      EngineSide.losses true ((after ops).published.map EngineData.isCanOk) := by
  intro after parser
  let s := started system allowed table fd startNs startTime
  let e := engineSide (after ops)
  let r : CanReading := ⟨t.outcome, t.receivedNs, t.parsedNs, t.nowNs, t.checkedNs⟩
  have hnext : engineSide (after (ops ++ [Op.turn t])) = e.step r := by
    change engineSide (run (step unpack) s (ops ++ [Op.turn t])) = _
    rw [run_snoc, engineSide_step]
    rfl
  constructor
  · intro hdue
    obtain ⟨hinterval, htimeout⟩ : e.publishInterval = intervalOf system.zmqPublishRateHz ∧
        e.canTimeoutMs = system.canTimeoutMs := by
      change (engineSide (run (step unpack) s ops)).publishInterval = _ ∧
        (engineSide (run (step unpack) s ops)).canTimeoutMs = _
      rw [run_engineSide]
      exact EngineSide.run_config (engineSide s) _
    have hdue' : e.due r = true := by
      rw [EngineSide.due, hinterval]
      exact decide_eq_true hdue
    have hparser : (e.receive r).parser = parser := by
      have hrun := parser_started unpack system allowed table fd startNs startTime
        (ops ++ [Op.turn t])
      change (engineSide (after (ops ++ [Op.turn t]))).parser = parser at hrun
      rw [hnext] at hrun
      rwa [EngineSide.parser_step] at hrun
    refine ⟨parser.publishedData system.canTimeoutMs (t.checkedNs / 1000000), ?_, rfl, ?_⟩
    · obtain ⟨-, hs⟩ | ⟨hnot, -⟩ := EngineSide.step_cases e r
      · change (engineSide (after (ops ++ [Op.turn t]))).published = _
        rw [hnext, hs, htimeout, hparser]
        rfl
      · rw [hdue'] at hnot
        cases hnot
    · have hexact := run_isDataFresh_iff
        (.loadSignals table :: (ops ++ [Op.turn t]).filterMap Op.frame) system.canTimeoutMs
        (t.checkedNs / 1000000) (by rwa [List.filterMap_cons_none rfl, frames_clockMs])
      rw [publishedData_isCanOk, ← acceptedTimes_frames table]
      refine hexact.mpr ⟨fun past _ => .inl ?_, fun _ => ?_⟩
      · omega
      · rwa [Nat.mod_eq_of_lt hwrap]
  · have hwarned : e.Warned := by
      change (engineSide (run (step unpack) s ops)).Warned
      rw [run_engineSide]
      exact run_invariant EngineSide.step EngineSide.Warned (fun e r h => h.warned_step r)
        ⟨rfl, rfl⟩ _
    exact hwarned.warnings

/-- Neither side of the loop can tell what happens on the other: the clients do not change what is
    published, and the frames on the bus do not change what the clients get or what is written. -/
theorem sides_isolated (s : CanService R) (ops ops' : List (Op R)) :
    let after (ops : List (Op R)) := run (step unpack) s ops
    (ops.filterMap Op.canReading = ops'.filterMap Op.canReading →
      (after ops).published = (after ops').published ∧
      (after ops).lastPublish = (after ops').lastPublish ∧
      (after ops).warnings = (after ops').warnings) ∧
    (ops.map Op.clientReading = ops'.map Op.clientReading →
      (after ops).written = (after ops').written ∧
      (after ops).server.socket.log = (after ops').server.socket.log ∧
      (after ops).server.writer = (after ops').server.writer) := by
  intro after
  constructor
  · intro hsame
    have hview : engineSide (after ops) = engineSide (after ops') := by
      rw [run_engineSide, run_engineSide, hsame]
    exact ⟨congrArg EngineSide.published hview, congrArg EngineSide.lastPublish hview,
      congrArg EngineSide.warnings hview⟩
  · intro hsame
    have hview : clientSide (after ops) = clientSide (after ops') := by
      rw [run_clientSide, run_clientSide, hsame]
    have hserver := congrArg ClientSide.server hview
    exact ⟨congrArg ClientSide.written hview,
      congrArg (fun server => server.socket.log) hserver, congrArg CommandServer.writer hserver⟩

def quietTurn (outcome : ReadOutcome) (ns : ℕ) : LoopTurn ℚ where
  outcome := outcome
  receivedNs := ns
  parsedNs := ns
  commandTime := 0
  pollSending := false
  write := fun _ => true
  nowNs := ns
  checkedNs := ns

theorem publications_cadence_two :
    let turns := [25000000, 50000000].map (fun ns => Op.turn (quietTurn .noData ns))
    let s : CanService ℚ := started {} [] (SignalTable.inOrder []) 3 0 0
    List.IsChain (fun a b : ℤ => ((intervalOf 50 * 1000 : ℕ) : ℤ) ≤ b - a)
      (0 :: (s.publications turns).map Prod.fst) :=
  (publications_cadence CanCommand.codec.convert {} [] (SignalTable.inOrder []) 3 0 0
    ([25000000, 50000000].map (fun ns => Op.turn (quietTurn .noData ns))) 25000000
    (by decide)).2.2.2.1

/-- A frame parsed at 900 ms is recent at 1000 ms. -/
theorem published_health_recent :
    let s : CanService ℚ := started {} [] (SignalTable.inOrder []) 3 0 0
    let earlier := Op.turn (quietTurn (.frame ⟨0x360, 8, Vector.replicate 8 1⟩) 900000000)
    let last := Op.turn (quietTurn .noData 1000000000)
    ∃ data, (run (step CanCommand.codec.convert) s ([earlier] ++ [last])).published =
      (run (step CanCommand.codec.convert) s [earlier]).published ++ [data] ∧
        data.isCanOk = true := by
  intro s earlier last
  have hclock : Clocked id 0 (([earlier] ++ [last]).filterMap Op.frameMs ++
      [1000000000 / 1000000]) := ⟨fun _ _ => Nat.zero_le _, by decide⟩
  have h := published_health CanCommand.codec.convert {} [] (SignalTable.inOrder []) 3 0 0
    [earlier] (quietTurn .noData 1000000000) hclock (by decide) (by decide)
  obtain ⟨data, hpublished, -, hfresh⟩ := h.1 (by decide +kernel)
  exact ⟨data, hpublished, hfresh.mpr ⟨900, by decide, by decide⟩⟩

end SpeeduinoDash.CanService
