import SpeeduinoDash.CanService

set_option autoImplicit false

/-!
# What the CAN service writes to the bus

Every frame on the bus answers one command, and every command that is answered with success is one
frame on the bus.
-/
namespace SpeeduinoDash.CanService
open CanInterface CanWriter CommandServer Lib.Runs Lib.RequestReply

/-- Everything a send can do to the bus and to the interface. -/
theorem send_outcome (iface : CanInterface) (frame : CanFrame) (write : KernelFrame → Bool) :
    (iface.send frame write).iface.socket = iface.socket ∧
    ((iface.send frame write).sent = true ∧
        (iface.send frame write).written = some (toKernelFrame frame) ∧
        (iface.send frame write).iface.txCount = iface.txCount + 1 ∨
      (iface.send frame write).sent = false ∧ (iface.send frame write).written = none ∧
        (iface.send frame write).iface.txCount = iface.txCount) := by
  unfold CanInterface.send
  split_ifs
  · exact ⟨rfl, .inr ⟨rfl, rfl, rfl⟩⟩
  · exact ⟨rfl, .inr ⟨rfl, rfl, rfl⟩⟩
  · exact ⟨rfl, .inr ⟨rfl, rfl, rfl⟩⟩
  · exact ⟨rfl, .inr ⟨rfl, rfl, rfl⟩⟩
  · exact ⟨rfl, .inl ⟨rfl, rfl, rfl⟩⟩
  · exact ⟨rfl, .inr ⟨rfl, rfl, rfl⟩⟩

theorem receiveCommand_fst (unpack : List UInt8 → Option CanCommand) (socket : CommandSocket)
    (pollSending : Bool) : (receiveCommand unpack socket pollSending).1 =
      if socket.replying then none else socket.inbox.head?.bind unpack := by
  unfold receiveCommand CommandServer.poll Socket.recv
  cases hbusy : socket.replying with
  | true => cases pollSending <;> rfl
  | false => cases hinbox : socket.inbox <;> rfl

section Command

variable {R : Type} [NatCast R] [Add R] [Sub R] [Mul R] [Min R] [One R] [LE R] [DecidableLE R]

/-- Everything a turn of the command server can do. -/
theorem handleCommands_cases (unpack : List UInt8 → Option CanCommand) (s : CommandServer R)
    (turn : Turn R) :
    ((s.socket.replying = true ∨ s.socket.inbox = []) ∧ s.handleCommands unpack turn = s) ∨
    (∃ message inbox cmd, s.socket.replying = false ∧ s.socket.inbox = message :: inbox ∧
      unpack message = some cmd ∧ s.handleCommands unpack turn =
        ⟨(s.writer.send (sendCall cmd turn)).writer,
          ⟨inbox, false, s.socket.log ++ [.received message] ++
            [.replied (responseTo (s.writer.send (sendCall cmd turn)).result)]⟩⟩) ∨
    (∃ message inbox, s.socket.replying = false ∧ s.socket.inbox = message :: inbox ∧
      unpack message = none ∧ s.handleCommands unpack turn =
        ⟨s.writer, ⟨inbox, true, s.socket.log ++ [.received message]⟩⟩) := by
  have hserve : (s.handleCommands unpack turn).toServer =
      Lib.RequestReply.serve unpack handle s.toServer turn := step_toServer unpack s (.serve turn)
  have hof : ∀ {writer : CanWriter R} {socket : CommandSocket},
      Lib.RequestReply.serve unpack handle s.toServer turn = ⟨writer, socket⟩ →
      s.handleCommands unpack turn = ⟨writer, socket⟩ := by
    intro writer socket h
    have hfields := hserve.trans h
    cases hs : s.handleCommands unpack turn
    rw [hs] at hfields
    cases hfields
    rfl
  obtain ⟨hidle, hs⟩ | ⟨message, inbox, cmd, hidle, hinbox, hcmd, hs⟩ |
      ⟨message, inbox, hidle, hinbox, hnone, hs⟩ :=
    serve_cases unpack handle s.toServer turn
  · exact .inl ⟨hidle, hof hs⟩
  · exact .inr (.inl ⟨message, inbox, cmd, hidle, hinbox, hcmd, hof hs⟩)
  · exact .inr (.inr ⟨message, inbox, hidle, hinbox, hnone, hof hs⟩)

theorem checkRate_sentCount (w : CanWriter R) (canId : UInt32) (now : R) :
    (w.checkRate canId now).2.sentCount = w.sentCount := by
  unfold CanWriter.checkRate
  split <;> rfl

structure Answer where
  message : List UInt8
  cmd : CanCommand
  result : SendResult

def Answer.exchange (a : Answer) : List UInt8 × CanCommandResponse :=
  (a.message, responseTo a.result)

structure Granted (allowed : List CanCommandDef) (cmd : CanCommand) (cf : KernelFrame) : Prop where
  listed : ∃ entry ∈ allowed, entry.canId = cmd.canId
  short : cmd.canId ≤ canStdIdMax
  dlc : cmd.dlc ≤ 8
  carries : Carries cf cmd.canId (fun i => cmd.data[i]?.getD 0) cmd.dlc

/-- The writer says OK to a command exactly when it puts a frame on the bus. -/
theorem send_cmd_cases (allowed : List CanCommandDef) (w : CanWriter R) (iface : CanInterface)
    (write : KernelFrame → Bool) (cmd : CanCommand) (turn : Turn R)
    (hinterface : turn.interface = fun frame => (iface.send frame write).sent)
    (hallowed : ∀ canId, w.isAllowed canId = true → ∃ entry ∈ allowed, entry.canId = canId) :
    let report := w.send (sendCall cmd turn)
    let sent := report.handed.map (fun frame => iface.send frame write)
    (report.result = .ok ∧ report.writer.sentCount = w.sentCount + 1 ∧
      ((sent.map SendReport.iface).getD iface).txCount = iface.txCount + 1 ∧
      ∃ cf, sent.bind SendReport.written = some cf ∧ Granted allowed cmd cf) ∨
    (report.result ≠ .ok ∧ report.writer.sentCount = w.sentCount ∧
      ((sent.map SendReport.iface).getD iface).txCount = iface.txCount ∧
      sent.bind SendReport.written = none) := by
  intro report sent
  obtain ⟨-, h⟩ | ⟨-, h⟩ | ⟨-, h⟩ | ⟨bytes, hdata, hdlc, hlisted, -, h⟩ :=
    send_cases w (sendCall cmd turn)
  · exact .inr (by simp [report, sent, h])
  · exact .inr (by simp [report, sent, h])
  · exact .inr (by simp [report, sent, h, checkRate_sentCount])
  · let w' := (w.checkRate cmd.canId turn.now).2
    let frame := buildFrame cmd.canId bytes cmd.dlc
    change w.send (sendCall cmd turn) = w'.transmit frame turn.interface at h
    have hcount : w'.sentCount = w.sentCount := checkRate_sentCount w cmd.canId turn.now
    have hhanded : report.handed = some frame := by
      change (w.send (sendCall cmd turn)).handed = some frame
      rw [h]
      exact (transmit_handed w' frame turn.interface).1
    have hsent : sent = some (iface.send frame write) := by
      change report.handed.map _ = _
      rw [hhanded, Option.map_some]
    rw [hsent, Option.map_some, Option.getD_some, Option.bind_some]
    obtain ⟨-, ⟨hok, hwritten, htx⟩ | ⟨hfail, hwritten, htx⟩⟩ := send_outcome iface frame write
    · have hshort : ¬ canStdIdMax < cmd.canId := by
        intro hlong
        rw [send_buildFrame_long iface write cmd.canId bytes cmd.dlc hlong] at hok
        cases hok
      have hreport : report = ⟨.ok, some frame, { w' with sentCount := w'.sentCount + 1 }⟩ := by
        change w.send (sendCall cmd turn) = _
        rw [h, transmit, hinterface, if_pos hok]
      refine .inl ⟨by rw [hreport], ?_, htx, _, hwritten, ?_⟩
      · rw [hreport, hcount]
      · cases hdata
        exact ⟨hallowed cmd.canId hlisted, UInt32.not_lt.mp hshort, hdlc,
          carries_buildFrame cmd.canId _ cmd.dlc hshort⟩
    · have hreport : report = ⟨.canError, some frame, w'⟩ := by
        change w.send (sendCall cmd turn) = _
        rw [h, transmit, hinterface, if_neg (by simp [hfail])]
      rw [hreport]
      exact .inr ⟨SendResult.noConfusion, hcount, htx, hwritten⟩

end Command

/-- `answered` lists the commands that were answered, and what the writer made of each. -/
structure Accounted {R : Type} (unpack : List UInt8 → Option CanCommand)
    (allowed : List CanCommandDef) (answered : List Answer) (s : CanService R) : Prop where
  listed : ∀ canId, s.server.writer.isAllowed canId = true → ∃ entry ∈ allowed,
    entry.canId = canId
  decoded : ∀ a ∈ answered, unpack a.message = some a.cmd
  log : s.server.socket.replying = false ∧
      s.server.socket.log = Socket.exchanges (answered.map Answer.exchange) ∨
    s.server.socket.replying = true ∧ ∃ request, unpack request = none ∧ s.server.socket.log =
      Socket.exchanges (answered.map Answer.exchange) ++ [.received request]
  written : List.Forall₂ (fun a cf => Granted allowed a.cmd cf)
    (answered.filter (fun a => a.result = .ok)) s.written
  txCount : s.iface.txCount = UInt32.ofNat s.written.length
  sentCount : s.server.writer.sentCount = UInt32.ofNat s.written.length

theorem Accounted.of_eq {R : Type} {unpack : List UInt8 → Option CanCommand}
    {allowed : List CanCommandDef} {answered : List Answer} {s s' : CanService R}
    (h : Accounted unpack allowed answered s)
    (hwriter : s'.server.writer = s.server.writer)
    (hreplying : s'.server.socket.replying = s.server.socket.replying)
    (hlog : s'.server.socket.log = s.server.socket.log) (hwritten : s'.written = s.written)
    (htx : s'.iface.txCount = s.iface.txCount) : Accounted unpack allowed answered s' where
  listed := hwriter ▸ h.listed
  decoded := h.decoded
  log := by
    rw [hreplying, hlog]
    exact h.log
  written := hwritten ▸ h.written
  txCount := by rw [htx, hwritten, h.txCount]
  sentCount := by rw [hwriter, hwritten, h.sentCount]

theorem Accounted.log_idle {R : Type} {unpack : List UInt8 → Option CanCommand}
    {allowed : List CanCommandDef} {answered : List Answer} {s : CanService R}
    (h : Accounted unpack allowed answered s) (hidle : s.server.socket.replying = false) :
    s.server.socket.log = Socket.exchanges (answered.map Answer.exchange) := by
  rcases h.log with ⟨-, hlog⟩ | ⟨hbusy, -⟩
  · exact hlog
  · rw [hidle] at hbusy
    cases hbusy

theorem Accounted.answer {R : Type} {unpack : List UInt8 → Option CanCommand}
    {allowed : List CanCommandDef} {answered : List Answer} {s s' : CanService R}
    (h : Accounted unpack allowed answered s) (a : Answer)
    (hdecoded : unpack a.message = some a.cmd)
    (hwhitelist : s'.server.writer.whitelist = s.server.writer.whitelist)
    (hidle : s.server.socket.replying = false) (hidle' : s'.server.socket.replying = false)
    (hlog : s'.server.socket.log = s.server.socket.log ++ [.received a.message] ++
      [.replied (responseTo a.result)])
    (hbus : (a.result = .ok ∧ s'.server.writer.sentCount = s.server.writer.sentCount + 1 ∧
        s'.iface.txCount = s.iface.txCount + 1 ∧
        ∃ cf, s'.written = s.written ++ [cf] ∧ Granted allowed a.cmd cf) ∨
      (a.result ≠ .ok ∧ s'.server.writer.sentCount = s.server.writer.sentCount ∧
        s'.iface.txCount = s.iface.txCount ∧ s'.written = s.written)) :
    Accounted unpack allowed (answered ++ [a]) s' := by
  have hlisted : ∀ canId, s'.server.writer.isAllowed canId = true → ∃ entry ∈ allowed,
      entry.canId = canId := by
    intro canId hcan
    rw [isAllowed, hwhitelist] at hcan
    exact h.listed canId hcan
  have hall : ∀ b ∈ answered ++ [a], unpack b.message = some b.cmd := by
    intro b hb
    rcases List.mem_append.mp hb with hb | hb
    · exact h.decoded b hb
    · rw [List.mem_singleton.mp hb]
      exact hdecoded
  have hexchanges : s'.server.socket.log =
      Socket.exchanges ((answered ++ [a]).map Answer.exchange) := by
    rw [hlog, List.map_append, List.map_singleton, Answer.exchange, Socket.exchanges_snoc,
      ← h.log_idle hidle]
  obtain ⟨hok, hcount, htx, cf, hcf, hgranted⟩ | ⟨hrefused, hcount, htx, hnone⟩ := hbus
  · have hlength : UInt32.ofNat s'.written.length = UInt32.ofNat s.written.length + 1 := by
      rw [hcf, List.length_append]
      exact UInt32.ofNat_add _ _
    refine ⟨hlisted, hall, .inl ⟨hidle', hexchanges⟩, ?_, ?_, ?_⟩
    · have hone : [a].filter (fun b => b.result = .ok) = [a] := by simpa using hok
      rw [hcf, List.filter_append, hone]
      exact List.rel_append h.written (.cons hgranted .nil)
    · rw [htx, h.txCount, hlength]
    · rw [hcount, h.sentCount, hlength]
  · refine ⟨hlisted, hall, .inl ⟨hidle', hexchanges⟩, ?_, ?_, ?_⟩
    · have hempty : [a].filter (fun b => b.result = .ok) = [] := by simpa using hrefused
      rw [hnone, List.filter_append, hempty, List.append_nil]
      exact h.written
    · rw [htx, h.txCount, hnone]
    · rw [hcount, h.sentCount, hnone]

section Serve

variable {R : Type} [NatCast R] [Add R] [Sub R] [Mul R] [Min R] [One R] [LE R] [DecidableLE R]
variable {unpack : List UInt8 → Option CanCommand} {allowed : List CanCommandDef}
variable {answered : List Answer} {s : CanService R}

theorem handedFrame_none {t : LoopTurn R}
    (h : s.server.socket.replying = true ∨ s.server.socket.inbox = []) :
    s.handedFrame unpack t = none := by
  rw [handedFrame, receiveCommand_fst]
  rcases h with hbusy | hempty
  · rw [if_pos hbusy, Option.bind_none]
  · rw [hempty]
    split_ifs <;> rfl

theorem handedFrame_some {t : LoopTurn R} {message : List UInt8} {inbox : List (List UInt8)}
    {cmd : CanCommand} (hidle : s.server.socket.replying = false)
    (hinbox : s.server.socket.inbox = message :: inbox) (hcmd : unpack message = some cmd) :
    s.handedFrame unpack t = (s.server.writer.send (sendCall cmd (s.serverTurn t))).handed := by
  rw [handedFrame, receiveCommand_fst, hidle, hinbox]
  simp [hcmd]

theorem handedFrame_undecoded {t : LoopTurn R} {message : List UInt8} {inbox : List (List UInt8)}
    (hidle : s.server.socket.replying = false)
    (hinbox : s.server.socket.inbox = message :: inbox) (hnone : unpack message = none) :
    s.handedFrame unpack t = none := by
  rw [handedFrame, receiveCommand_fst, hidle, hinbox]
  simp [hnone]

theorem accounted_serveCommand (h : Accounted unpack allowed answered s) (t : LoopTurn R) :
    ∃ answers, Accounted unpack allowed (answered ++ answers) (s.serveCommand unpack t) := by
  obtain ⟨hidle, hs⟩ | ⟨message, inbox, cmd, hidle, hinbox, hcmd, hs⟩ |
      ⟨message, inbox, hidle, hinbox, hnone, hs⟩ :=
    handleCommands_cases unpack s.server (s.serverTurn t)
  · have hhanded : s.handedFrame unpack t = none := handedFrame_none hidle
    refine ⟨[], ?_⟩
    rw [List.append_nil]
    refine h.of_eq ?_ ?_ ?_ ?_ ?_ <;> simp [serveCommand, hs, hhanded]
  · let report := s.server.writer.send (sendCall cmd (s.serverTurn t))
    have hhanded : s.handedFrame unpack t = report.handed := handedFrame_some hidle hinbox hcmd
    refine ⟨[⟨message, cmd, report.result⟩], h.answer _ hcmd ?_ hidle ?_ ?_ ?_⟩
    · simp [serveCommand, hs]
    · simp [serveCommand, hs]
    · simp [serveCommand, hs, report]
    · obtain ⟨hok, hcount, htx, cf, hcf, hgranted⟩ | ⟨hrefused, hcount, htx, hnone⟩ :=
        send_cmd_cases allowed s.server.writer s.iface t.write cmd (s.serverTurn t) rfl h.listed
      · refine .inl ⟨hok, ?_, ?_, cf, ?_, hgranted⟩
        · simpa [serveCommand, hs] using hcount
        · simpa [serveCommand, hhanded] using htx
        · simpa [serveCommand, hhanded] using hcf
      · refine .inr ⟨hrefused, ?_, ?_, ?_⟩
        · simpa [serveCommand, hs] using hcount
        · simpa [serveCommand, hhanded] using htx
        · simpa [serveCommand, hhanded] using hnone
  · have hhanded : s.handedFrame unpack t = none := handedFrame_undecoded hidle hinbox hnone
    refine ⟨[], ?_⟩
    rw [List.append_nil]
    refine ⟨?_, h.decoded, .inr ⟨?_, message, hnone, ?_⟩, ?_, ?_, ?_⟩
    · simpa [serveCommand, hs] using h.listed
    · simp [serveCommand, hs]
    · simp [serveCommand, hs, h.log_idle hidle]
    · simpa [serveCommand, hhanded] using h.written
    · simpa [serveCommand, hhanded] using h.txCount
    · simpa [serveCommand, hs, hhanded] using h.sentCount

end Serve

theorem started_isAllowed {R : Type} [OfScientific R] [NatCast R] (system : SystemConfig)
    (allowed : List CanCommandDef) (table : SignalTable R) (fd startNs : ℕ) (startTime : R)
    (canId : UInt32) :
    (started system allowed table fd startNs startTime).server.writer.isAllowed canId = true ↔
      ∃ entry ∈ allowed, entry.canId = canId := by
  change (({} : CanWriter R).loadAllowedCommands allowed startTime).isAllowed canId = true ↔ _
  rw [isAllowed, loadAllowedCommands_whitelist, Option.isSome_map, Lib.Keyed.lastWhere_isSome]
  simp

variable {R : Type} [OfScientific R] [Add R] [Mul R] [NatCast R] [IntCast R] [Neg R] [LT R]
variable [DecidableLT R] [Truncate R] [Sub R] [Min R] [One R] [LE R] [DecidableLE R]
variable {unpack : List UInt8 → Option CanCommand} {allowed : List CanCommandDef}
variable {answered : List Answer} {s : CanService R}

theorem accounted_step (h : Accounted unpack allowed answered s) (op : Op R) :
    ∃ answers, Accounted unpack allowed (answered ++ answers) (s.step unpack op) := by
  cases op with
  | arrive message =>
    refine ⟨[], ?_⟩
    rw [List.append_nil]
    exact h.of_eq rfl rfl rfl rfl rfl
  | turn t =>
    obtain ⟨hserver, hwritten, -, htx⟩ := receiveFrame_server s t
    have hreceived : Accounted unpack allowed answered (s.receiveFrame t) :=
      h.of_eq (by rw [hserver]) (by rw [hserver]) (by rw [hserver]) hwritten htx
    obtain ⟨answers, hserved⟩ := accounted_serveCommand hreceived t
    obtain ⟨hserver', hwritten', hiface'⟩ :=
      publishData_server ((s.receiveFrame t).serveCommand unpack t) t
    exact ⟨answers, hserved.of_eq (by rw [step, takeTurn, hserver'])
      (by rw [step, takeTurn, hserver']) (by rw [step, takeTurn, hserver'])
      (by rw [step, takeTurn, hwritten']) (by rw [step, takeTurn, hiface'])⟩

/-- In every run of the service, whatever arrives on its sockets. -/
theorem bus_accounted (unpack : List UInt8 → Option CanCommand) (system : SystemConfig)
    (allowed : List CanCommandDef) (table : SignalTable R) (fd startNs : ℕ) (startTime : R)
    (ops : List (Op R)) : ∃ answered, Accounted unpack allowed answered
      (run (step unpack) (started system allowed table fd startNs startTime) ops) := by
  refine run_invariant (step unpack) (fun s => ∃ answered, Accounted unpack allowed answered s)
    ?_ ?_ ops
  · rintro s op ⟨answered, h⟩
    obtain ⟨answers, hnext⟩ := accounted_step h op
    exact ⟨answered ++ answers, hnext⟩
  · refine ⟨[], ?_, ?_, .inl ⟨rfl, rfl⟩, .nil, rfl, rfl⟩
    · intro canId hcan
      exact (started_isAllowed system allowed table fd startNs startTime canId).mp hcan
    · intro a ha
      cases ha

end SpeeduinoDash.CanService
