import SpeeduinoDash.Lib.IsoTp
import SpeeduinoDash.SupportedPids

set_option autoImplicit false

/-!
# What is asked of the ECU

One builder serves all requests. It takes as many bytes as there are before the zeros.
-/
namespace SpeeduinoDash.ObdHandler
open Lib.Await Lib.IsoTp

def mode22Custom : UInt8 := 0x22
def customAuxPrefix : UInt8 := 0x77
def customStatusPrefix : UInt8 := 0x78

/-- The value is in bytes 4 and 5, whatever comes before it. -/
def parseCustom (response : CanFrame) : Option ℚ :=
  if response.byteAt 1 ≠ 0x62 then none
  else
    let raw := ((response.byteAt 4).toUInt16 <<< 8) ||| (response.byteAt 5).toUInt16
    some raw.toNat

def requestCustom (h : ObdHandler) (pid1 pid2 : UInt8) (bus : Bus) : Option (Answer (Option ℚ)) :=
  match h.sendAndReceive (h.buildRequest mode22Custom pid1 pid2) 0 bus with
  | none => none
  | some ⟨response, h, bus⟩ => some ⟨response.bind parseCustom, h, bus⟩

def readAuxChannel (h : ObdHandler) (channel : UInt8) (bus : Bus) : Option (Answer (Option ℚ)) :=
  h.requestCustom channel customAuxPrefix bus

def readStatusField (h : ObdHandler) (fieldIndex : UInt8) (bus : Bus) :
    Option (Answer (Option ℚ)) :=
  h.requestCustom fieldIndex customStatusPrefix bus

inductive Query where
  | livePid (pid : UInt8)
  | pidRange (rangePID : UInt8)
  | auxChannel (channel : UInt8)
  | statusField (fieldIndex : UInt8)

/-- The service and the identifier, which has two bytes in service 22. -/
def Query.asked : Query → List UInt8
  | .livePid pid => [mode01LiveData, pid]
  | .pidRange rangePID => [mode01LiveData, rangePID]
  | .auxChannel channel => [mode22Custom, customAuxPrefix, channel]
  | .statusField fieldIndex => [mode22Custom, customStatusPrefix, fieldIndex]

def frameOf (h : ObdHandler) : Query → CanFrame
  | .livePid pid => h.buildRequest mode01LiveData pid 0
  | .pidRange rangePID => h.buildRequest mode01LiveData rangePID 0
  | .auxChannel channel => h.buildRequest mode22Custom channel customAuxPrefix
  | .statusField fieldIndex => h.buildRequest mode22Custom fieldIndex customStatusPrefix

/-- What a query leaves of the bus. For a range it is the request of a round. -/
def perform (h : ObdHandler) (timeoutMs : UInt32) (bus : Bus) : Query → Option Bus
  | .livePid pid => (h.requestPID pid timeoutMs bus).map Answer.bus
  | .pidRange rangePID => (Discovery.request ⟨rangePID, [], h, bus⟩).map Answer.bus
  | .auxChannel channel => (h.readAuxChannel channel bus).map Answer.bus
  | .statusField fieldIndex => (h.readStatusField fieldIndex bus).map Answer.bus

theorem sendAndReceive_sent {h : ObdHandler} {request : CanFrame} {timeoutMs : UInt32}
    {bus : Bus} {answer : Answer (Option CanFrame)}
    (hanswer : h.sendAndReceive request timeoutMs bus = some answer) :
    answer.bus.sent = bus.sent ++ if bus.takes then [request] else [] := by
  obtain ⟨htakes, h', hsend⟩ | ⟨-, -, hsend⟩ | ⟨htakes, frame, polls, h', -, hsend⟩ :=
    h.sendAndReceive_cases request timeoutMs bus
  · rw [hsend] at hanswer
    cases hanswer
    simp [Bus.send, htakes]
  · rw [hsend] at hanswer
    cases hanswer
  · rw [hsend] at hanswer
    cases hanswer
    simp [Bus.send, htakes]

/-- Of the bus a query leaves what its one request leaves. -/
theorem perform_eq (h : ObdHandler) (timeoutMs : UInt32) (bus : Bus) (query : Query) :
    ∃ timeoutMs', h.perform timeoutMs bus query =
      (h.sendAndReceive (h.frameOf query) timeoutMs' bus).map Answer.bus := by
  have hcustom : ∀ pid1 pid2, (h.requestCustom pid1 pid2 bus).map Answer.bus =
      (h.sendAndReceive (h.buildRequest mode22Custom pid1 pid2) 0 bus).map Answer.bus := by
    intro pid1 pid2
    unfold requestCustom
    cases h.sendAndReceive (h.buildRequest mode22Custom pid1 pid2) 0 bus <;> rfl
  cases query with
  | livePid pid =>
    refine ⟨timeoutMs, ?_⟩
    change (h.requestPID pid timeoutMs bus).map Answer.bus = _
    unfold requestPID frameOf
    cases h.sendAndReceive (h.buildRequest mode01LiveData pid 0) timeoutMs bus <;> rfl
  | pidRange rangePID => exact ⟨0, rfl⟩
  | auxChannel channel => exact ⟨0, hcustom channel customAuxPrefix⟩
  | statusField fieldIndex => exact ⟨0, hcustom fieldIndex customStatusPrefix⟩

theorem perform_sent {h : ObdHandler} {timeoutMs : UInt32} {bus bus' : Bus} {query : Query}
    (hperform : h.perform timeoutMs bus query = some bus') :
    bus'.sent = bus.sent ++ if bus.takes then [h.frameOf query] else [] := by
  obtain ⟨timeoutMs', heq⟩ := h.perform_eq timeoutMs bus query
  rw [heq] at hperform
  obtain ⟨answer, hsend, rfl⟩ := Option.map_eq_some_iff.mp hperform
  exact sendAndReceive_sent hsend

def requestBytes (mode pid1 pid2 : UInt8) : List UInt8 :=
  if pid2 ≠ 0 then [mode, pid1, pid2] else if pid1 ≠ 0 then [mode, pid1] else [mode]

theorem singleFrame_buildRequest (h : ObdHandler) (mode pid1 pid2 : UInt8) :
    singleFrame (h.buildRequest mode pid1 pid2).data = some (requestBytes mode pid1 pid2) := by
  unfold buildRequest requestBytes
  dsimp only
  split_ifs
  · exact singleFrame_of_carries (by simp) (by simp) ⟨[0, 0, 0, 0], rfl⟩
  · exact singleFrame_of_carries (by simp) (by simp) ⟨[0, 0, 0, 0, 0], rfl⟩
  · exact singleFrame_of_carries (by simp) (by simp) ⟨[0, 0, 0, 0, 0, 0], rfl⟩

theorem requestBytes_getD (mode pid1 pid2 : UInt8) :
    (requestBytes mode pid1 pid2).getD 0 0 = mode ∧
      (requestBytes mode pid1 pid2).getD 1 0 = pid1 ∧
      (requestBytes mode pid1 pid2).getD 2 0 = pid2 := by
  unfold requestBytes
  split_ifs with hpid2 hpid1
  · exact ⟨rfl, rfl, rfl⟩
  · exact ⟨rfl, rfl, (not_not.mp hpid2).symm⟩
  · exact ⟨rfl, (not_not.mp hpid1).symm, (not_not.mp hpid2).symm⟩

/-- The bytes that are left out are zero, so they are known. -/
theorem buildRequest_injective {h : ObdHandler} {mode pid1 pid2 mode' pid1' pid2' : UInt8}
    (heq : h.buildRequest mode pid1 pid2 = h.buildRequest mode' pid1' pid2') :
    mode = mode' ∧ pid1 = pid1' ∧ pid2 = pid2' := by
  have hbytes := congrArg (fun f => singleFrame (CanFrame.data f)) heq
  rw [singleFrame_buildRequest, singleFrame_buildRequest] at hbytes
  have hsame := Option.some.inj hbytes
  obtain ⟨hmode, hpid1, hpid2⟩ := requestBytes_getD mode pid1 pid2
  obtain ⟨hmode', hpid1', hpid2'⟩ := requestBytes_getD mode' pid1' pid2'
  rw [hsame] at hmode hpid1 hpid2
  exact ⟨hmode.symm.trans hmode', hpid1.symm.trans hpid1', hpid2.symm.trans hpid2'⟩

/-- The queries whose bytes are in the order of the arguments and end before the zeros. -/
def Query.Encodable : Query → Prop
  | .livePid pid => pid ≠ 0
  | .pidRange rangePID => rangePID ≠ 0
  | .auxChannel channel => channel = customAuxPrefix
  | .statusField fieldIndex => fieldIndex = customStatusPrefix

theorem singleFrame_frameOf_iff (h : ObdHandler) (query : Query) :
    singleFrame (h.frameOf query).data = some query.asked ↔ query.Encodable := by
  cases query with
  | livePid pid =>
    rw [frameOf, singleFrame_buildRequest, Option.some.injEq]
    by_cases hzero : pid = 0 <;> simp [requestBytes, Query.asked, Query.Encodable, hzero]
  | pidRange rangePID =>
    rw [frameOf, singleFrame_buildRequest, Option.some.injEq]
    by_cases hzero : rangePID = 0 <;> simp [requestBytes, Query.asked, Query.Encodable, hzero]
  | auxChannel channel =>
    rw [frameOf, singleFrame_buildRequest, Option.some.injEq]
    simp [requestBytes, Query.asked, Query.Encodable, customAuxPrefix, eq_comm]
  | statusField fieldIndex =>
    rw [frameOf, singleFrame_buildRequest, Option.some.injEq]
    simp [requestBytes, Query.asked, Query.Encodable, customStatusPrefix, eq_comm]

theorem frameOf_injective {h : ObdHandler} {query query' : Query}
    (heq : h.frameOf query = h.frameOf query') : query.asked = query'.asked := by
  cases query <;> cases query' <;>
    obtain ⟨hmode, hpid1, hpid2⟩ := buildRequest_injective heq <;>
    first
      | exact absurd hmode (by decide)
      | exact absurd hpid2 (by decide)
      | rw [Query.asked, Query.asked, hpid1]

/-- Every query sends its one frame, and different ones send different frames. The frame asks for
    what is meant exactly if there is no zero at its end and the two bytes of the identifier are
    the same: they are sent in the wrong order. -/
theorem requests_faithful_iff (h : ObdHandler) :
    (∀ timeoutMs bus bus' query, h.perform timeoutMs bus query = some bus' →
      bus'.sent = bus.sent ++ if bus.takes then [h.frameOf query] else []) ∧
    (∀ query, singleFrame (h.frameOf query).data = some query.asked ↔ query.Encodable) ∧
    (∀ query query', query.asked ≠ query'.asked → h.frameOf query ≠ h.frameOf query') :=
  ⟨fun _ _ _ _ hperform => perform_sent hperform, singleFrame_frameOf_iff h,
    fun _ _ hasked heq => hasked (frameOf_injective heq)⟩

/-- PID 0 is not sent, and a channel comes ahead of its prefix. -/
theorem pid_zero_dropped : ¬ ∀ (h : ObdHandler) (query : Query),
    singleFrame (h.frameOf query).data = some query.asked := by
  intro hclaim
  exact absurd (hclaim {} (.pidRange pidSupported01To20)) (by decide +kernel)

example : singleFrame (frameOf {} (.auxChannel 0x01)).data = some [0x22, 0x01, 0x77] := by
  decide +kernel

end SpeeduinoDash.ObdHandler
