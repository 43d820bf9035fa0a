import SpeeduinoDash.ObdHandler

set_option autoImplicit false

/-!
# Which replies a PID request takes

Every request that is sent opens a wait. The value it yields is read from the frame the wait
takes.
-/
namespace SpeeduinoDash.ObdHandler
open Lib.Await

/-- A wait for the reply to `pid`, with the polls that follow. -/
structure Wait where
  pid : UInt8
  timeoutMs : UInt32
  polls : List Poll

def Wait.taken (w : Wait) : Option (Option CanFrame × List Poll) :=
  await (late w.timeoutMs) Poll.frame (answers mode01LiveData) w.polls

def valueBytes (pid : UInt8) : ℕ :=
  if pid = pidRpm ∨ pid = pidControlVoltage ∨ pid = pidMaf ∨ pid = pidRuntime ∨
      pid = pidDistanceMil then 2
  else 1

/-- Only the formulas of two bytes read the second byte and the length. -/
theorem decodePID_congr {pid : UInt8} (h : valueBytes pid = 1) (a b b' len len' : UInt8) :
    decodePID pid a b len = decodePID pid a b' len' := by
  unfold valueBytes at h
  split_ifs at h with hword
  · cases h
  · simp only [not_or] at hword
    obtain ⟨hrpm, hvoltage, hmaf, hruntime, hdistance⟩ := hword
    simp [decodePID, hrpm, hvoltage, hmaf, hruntime, hdistance]

/-- A single frame of the ECU, with the mode, the PID asked for and a length that covers the value
    bytes. -/
def isReply (pid : UInt8) (f : CanFrame) : Bool :=
  f.id == responseEcu && pciType f == 0x0 && f.byteAt 1 == 0x41 && f.byteAt 2 == pid &&
    decide (2 + valueBytes pid ≤ (f.byteAt 0).toNat)

def Wait.firstReply (w : Wait) : Option (Option CanFrame × List Poll) :=
  await (late w.timeoutMs) Poll.frame (isReply w.pid) w.polls

def Wait.value (w : Wait) : Option ObdLiveData :=
  w.taken.bind (fun taken => taken.1.map (parseLiveData w.pid))

theorem answers_of_isReply {pid : UInt8} {f : CanFrame} (h : isReply pid f = true) :
    answers mode01LiveData f = true := by
  simp only [isReply, Bool.and_eq_true, beq_iff_eq] at h
  obtain ⟨⟨⟨⟨hid, hpci⟩, hmode⟩, -⟩, -⟩ := h
  simp [answers, hid, hpci, hmode, mode01LiveData]

/-- The waits of a list of requests. A request that is not sent opens none, and one that is still
    waiting is the last. -/
def waits (h : ObdHandler) (timeoutMs : UInt32) (bus : Bus) : List UInt8 → List Wait
  | [] => []
  | pid :: pids =>
    (if bus.takes then [⟨pid, h.effectiveTimeout timeoutMs, bus.polls⟩] else []) ++
      match h.requestPID pid timeoutMs bus with
      | none => []
      | some first => first.handler.waits timeoutMs first.bus pids

theorem requestPID_result {h : ObdHandler} {pid : UInt8} {timeoutMs : UInt32} {bus : Bus}
    {answer : Answer (Option ObdLiveData)} (hanswer : h.requestPID pid timeoutMs bus = some answer) :
    answer.result =
      if bus.takes then (Wait.mk pid (h.effectiveTimeout timeoutMs) bus.polls).value else none := by
  unfold requestPID at hanswer
  obtain ⟨hsent, h', hsend⟩ | ⟨hsent, hawait, hsend⟩ | ⟨hsent, frame, polls, h', hawait, hsend⟩ :=
    h.sendAndReceive_cases (h.buildRequest mode01LiveData pid 0) timeoutMs bus
  · rw [hsend] at hanswer
    cases hanswer
    simp [hsent]
  · rw [hsend] at hanswer
    cases hanswer
  · rw [buildRequest_mode] at hawait
    rw [hsend] at hanswer
    cases hanswer
    simp [hsent, Wait.value, Wait.taken, hawait]

theorem requestPIDs_cons {h : ObdHandler} {timeoutMs : UInt32} {bus : Bus} {pid : UInt8}
    {pids : List UInt8} {answer : Answer (List ObdLiveData)}
    (hanswer : h.requestPIDs timeoutMs bus (pid :: pids) = some answer) :
    ∃ first rest, h.requestPID pid timeoutMs bus = some first ∧
      first.handler.requestPIDs timeoutMs first.bus pids = some rest ∧
      answer.result = first.result.toList ++ rest.result := by
  rw [requestPIDs] at hanswer
  cases hfirst : h.requestPID pid timeoutMs bus with
  | none =>
    rw [hfirst] at hanswer
    cases hanswer
  | some first =>
    rw [hfirst] at hanswer
    dsimp only at hanswer
    cases hrest : first.handler.requestPIDs timeoutMs first.bus pids with
    | none =>
      rw [hrest] at hanswer
      cases hanswer
    | some rest =>
      rw [hrest] at hanswer
      cases hanswer
      exact ⟨first, rest, rfl, hrest, rfl⟩

theorem requestPIDs_result (pids : List UInt8) {h : ObdHandler} {timeoutMs : UInt32} {bus : Bus}
    {answer : Answer (List ObdLiveData)} (hanswer : h.requestPIDs timeoutMs bus pids = some answer) :
    answer.result = (h.waits timeoutMs bus pids).filterMap Wait.value := by
  induction pids generalizing h bus answer with
  | nil =>
    cases hanswer
    rfl
  | cons pid pids ih =>
    obtain ⟨first, rest, hfirst, hrest, hresult⟩ := requestPIDs_cons hanswer
    have htail := ih hrest
    have hhead := requestPID_result hfirst
    rw [hresult, waits, hfirst, List.filterMap_append, htail, hhead]
    cases hsent : bus.takes with
    | false => rfl
    | true =>
      cases hvalue : (Wait.mk pid (h.effectiveTimeout timeoutMs) bus.polls).value <;>
        simp [hvalue]

/-- A wait takes the first reply to its PID exactly where no other frame that passes the check
    comes ahead of it. -/
theorem taken_eq_firstReply_iff (w : Wait) :
    w.taken = w.firstReply ↔
      NoStray (late w.timeoutMs) Poll.frame (answers mode01LiveData) (isReply w.pid) w.polls :=
  await_eq_iff (fun _ h => answers_of_isReply h) w.polls

/-- Every entry comes from the first reply to its PID, and everything else is skipped, exactly
    where in no wait another frame that passes the check comes ahead of that reply. -/
theorem replies_attributed_iff (h : ObdHandler) (timeoutMs : UInt32) (bus : Bus)
    (pids : List UInt8) :
    (∀ answer, h.requestPIDs timeoutMs bus pids = some answer →
      answer.result = (h.waits timeoutMs bus pids).filterMap Wait.value) ∧
    ((∀ w ∈ h.waits timeoutMs bus pids, w.taken = w.firstReply) ↔
      ∀ w ∈ h.waits timeoutMs bus pids,
        NoStray (late w.timeoutMs) Poll.frame (answers mode01LiveData) (isReply w.pid) w.polls) := by
  constructor
  · intro answer hanswer
    exact requestPIDs_result pids hanswer
  · apply forall₂_congr
    intro w _
    exact taken_eq_firstReply_iff w

def speedReply : CanFrame := { id := 0x7E8, dlc := 8, data := #v[0x03, 0x41, 0x0D, 100, 0, 0, 0, 0] }
def coolantReply : CanFrame := { id := 0x7E8, dlc := 8, data := #v[0x03, 0x41, 0x05, 90, 0, 0, 0, 0] }

def lateSpeedReply : Bus := ⟨[true], [⟨0, some speedReply⟩, ⟨1, some coolantReply⟩], []⟩

theorem speed_taken_for_coolant : ¬ ∀ (h : ObdHandler) (timeoutMs : UInt32) (bus : Bus)
    (pids : List UInt8), ∀ w ∈ h.waits timeoutMs bus pids, w.taken = w.firstReply := by
  intro hall
  have htaken := hall {} 100 lateSpeedReply [pidCoolantTemp]
    ⟨pidCoolantTemp, 100, lateSpeedReply.polls⟩ List.mem_cons_self
  exact absurd htaken (by decide)

end SpeeduinoDash.ObdHandler
