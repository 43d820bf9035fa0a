import SpeeduinoDash.Lib.BoundedLoop
import SpeeduinoDash.ObdHandler

set_option autoImplicit false

/-!
# Supported PIDs

An ECU is asked range by range. A bitmap of four bytes says which PIDs of the range there are; its
last bit stands for the PID that asks for the next range.
-/
namespace SpeeduinoDash.ObdHandler
open Lib.Await Lib.BoundedLoop

def pidSupported01To20 : UInt8 := 0x00

structure Found where
  supported : List UInt8
  nextRangeSupported : Bool := false
deriving DecidableEq

def rangeBits : List (ℕ × ℕ) :=
  (List.range 4).flatMap (fun byteIdx =>
    (List.range 8).reverse.map (fun bitIdx => (byteIdx, bitIdx)))

/-- The number is cut to a byte, then compared as an `int`. -/
def readBit (rangePID : UInt8) (bitmap : ℕ → UInt8) (found : Found) (bit : ℕ × ℕ) : Found :=
  let pid := UInt8.ofNat (rangePID.toNat + bit.1 * 8 + (7 - bit.2) + 1)
  if bitmap bit.1 &&& (1 <<< UInt8.ofNat bit.2) ≠ 0 then
    if pid.toNat = rangePID.toNat + 0x20 then { found with nextRangeSupported := true }
    else { found with supported := found.supported ++ [pid] }
  else found

def parseBitmap (rangePID : UInt8) (bitmap : ℕ → UInt8) (supported : List UInt8) : Found :=
  rangeBits.foldl (readBit rangePID bitmap) { supported := supported }

structure Discovery where
  rangePID : UInt8
  supported : List UInt8
  handler : ObdHandler
  bus : Bus

def Discovery.request (s : Discovery) : Option (Answer (Option CanFrame)) :=
  s.handler.sendAndReceive (s.handler.buildRequest mode01LiveData s.rangePID 0) 0 s.bus

/-- The body of the outer loop with its guard. It is left without an answer while its request
    waits. -/
def queryRange (s : Discovery) : Round Discovery (Option (Answer (List UInt8))) :=
  if s.rangePID ≤ 0xE0 then
    match s.request with
    | none => .done none
    | some ⟨none, h, bus⟩ => .done (some ⟨s.supported, h, bus⟩)
    | some ⟨some response, h, bus⟩ =>
      if response.byteAt 1 ≠ 0x41 ∨ response.byteAt 2 ≠ s.rangePID then
        .done (some ⟨s.supported, h, bus⟩)
      else
        let found := parseBitmap s.rangePID (fun i => response.byteAt (3 + i)) s.supported
        if found.nextRangeSupported then .next ⟨s.rangePID + 0x20, found.supported, h, bus⟩
        else .done (some ⟨found.supported, h, bus⟩)
  else .done (some ⟨s.supported, s.handler, s.bus⟩)

def discoveryStart (h : ObdHandler) (bus : Bus) : Discovery := ⟨pidSupported01To20, [], h, bus⟩

/-- None when the rounds do not suffice. -/
def getSupportedPIDs (h : ObdHandler) (rounds : ℕ) (bus : Bus) :
    Option (Option (Answer (List UInt8))) :=
  loop queryRange rounds (h.discoveryStart bus)

def discoveryRounds (h : ObdHandler) (rounds : ℕ) (bus : Bus) : List Discovery :=
  starts queryRange rounds (h.discoveryStart bus)

theorem sendAndReceive_requestCount {h : ObdHandler} {request : CanFrame} {timeoutMs : UInt32}
    {bus : Bus} {answer : Answer (Option CanFrame)}
    (hanswer : h.sendAndReceive request timeoutMs bus = some answer) :
    answer.handler.requestCount = h.requestCount + 1 := by
  unfold sendAndReceive at hanswer
  dsimp only at hanswer
  split_ifs at hanswer
  · cases hanswer
    rfl
  · split at hanswer
    · cases hanswer
    · cases hanswer
      rfl
    · cases hanswer
      rfl

/-- What a round can come to: it is left by the guard or while its request waits, without a
    bitmap, with the last bitmap, or it goes on. -/
theorem queryRange_cases (s : Discovery) :
    (¬ s.rangePID ≤ 0xE0 ∧ queryRange s = .done (some ⟨s.supported, s.handler, s.bus⟩)) ∨
    (s.rangePID ≤ 0xE0 ∧ s.request = none ∧ queryRange s = .done none) ∨
    (s.rangePID ≤ 0xE0 ∧ ∃ answer, s.request = some answer ∧
      (∀ response, answer.result = some response →
        response.byteAt 1 ≠ 0x41 ∨ response.byteAt 2 ≠ s.rangePID) ∧
      queryRange s = .done (some ⟨s.supported, answer.handler, answer.bus⟩)) ∨
    (s.rangePID ≤ 0xE0 ∧ ∃ response h bus, s.request = some ⟨some response, h, bus⟩ ∧
      response.byteAt 1 = 0x41 ∧ response.byteAt 2 = s.rangePID ∧
      ∃ found, found = parseBitmap s.rangePID (fun i => response.byteAt (3 + i)) s.supported ∧
        queryRange s = if found.nextRangeSupported
          then .next ⟨s.rangePID + 0x20, found.supported, h, bus⟩
          else .done (some ⟨found.supported, h, bus⟩)) := by
  unfold queryRange
  by_cases hguard : s.rangePID ≤ 0xE0
  · rw [if_pos hguard]
    cases hrequest : s.request with
    | none => exact .inr (.inl ⟨hguard, rfl, rfl⟩)
    | some answer =>
      obtain ⟨_ | response, h, bus⟩ := answer
      · refine .inr (.inr (.inl ⟨hguard, _, rfl, ?_, rfl⟩))
        intro response hresponse
        cases hresponse
      · dsimp only
        by_cases hinvalid : response.byteAt 1 ≠ 0x41 ∨ response.byteAt 2 ≠ s.rangePID
        · rw [if_pos hinvalid]
          refine .inr (.inr (.inl ⟨hguard, _, rfl, ?_, rfl⟩))
          intro response' hresponse
          cases hresponse
          exact hinvalid
        · rw [if_neg hinvalid]
          rw [not_or, not_not, not_not] at hinvalid
          exact .inr (.inr (.inr ⟨hguard, response, h, bus, rfl, hinvalid.1, hinvalid.2, _,
            rfl, rfl⟩))
  · rw [if_neg hguard]
    exact .inl ⟨hguard, rfl⟩

/-- The mark of the next range is seen only where its number fits into a byte. -/
theorem foldl_readBit_next {rangePID : UInt8} {bitmap : ℕ → UInt8} (bits : List (ℕ × ℕ))
    {found : Found} (h : (bits.foldl (readBit rangePID bitmap) found).nextRangeSupported = true) :
    found.nextRangeSupported = true ∨ rangePID.toNat + 0x20 < 256 := by
  induction bits generalizing found with
  | nil => exact .inl h
  | cons bit bits ih =>
    rcases ih h with hnext | hfits
    · unfold readBit at hnext
      dsimp only at hnext
      split_ifs at hnext with hset hsame
      · right
        rw [← hsame]
        exact UInt8.toNat_lt _
      · exact .inl hnext
      · exact .inl hnext
    · exact .inr hfits

def rangesAhead (s : Discovery) : ℕ := (255 - s.rangePID.toNat) / 0x20

theorem queryRange_next {s s' : Discovery} (h : queryRange s = .next s') :
    s'.rangePID.toNat = s.rangePID.toNat + 0x20 ∧
      s'.handler.requestCount = s.handler.requestCount + 1 := by
  obtain ⟨-, hdone⟩ | ⟨-, -, hdone⟩ | ⟨-, _, -, -, hdone⟩ |
    ⟨-, response, handler, bus, hrequest, -, -, found, hfound, hround⟩ := queryRange_cases s
  · rw [hdone] at h
    cases h
  · rw [hdone] at h
    cases h
  · rw [hdone] at h
    cases h
  · rw [hround] at h
    split_ifs at h with hnext
    cases h
    have hfits : s.rangePID.toNat + 0x20 < 256 := by
      rw [hfound] at hnext
      rcases foldl_readBit_next rangeBits hnext with hnone | hfits
      · cases hnone
      · exact hfits
    constructor
    · rw [UInt8.toNat_add]
      exact Nat.mod_eq_of_lt hfits
    · exact sendAndReceive_requestCount hrequest

theorem queryRange_done {s : Discovery} {result : Option (Answer (List UInt8))}
    (hguard : s.rangePID ≤ 0xE0) {reply : Answer (Option CanFrame)}
    (hrequest : s.request = some reply) (h : queryRange s = .done result) :
    ∃ answer, result = some answer ∧ answer.handler = reply.handler := by
  obtain ⟨hnot, -⟩ | ⟨-, hnone, -⟩ | ⟨-, answer, hanswer, -, hdone⟩ |
    ⟨-, response, handler, bus, hanswer, -, -, found, -, hround⟩ := queryRange_cases s
  · exact absurd hguard hnot
  · rw [hrequest] at hnone
    cases hnone
  · rw [hrequest] at hanswer
    cases hanswer
    rw [hdone] at h
    cases h
    exact ⟨_, rfl, rfl⟩
  · rw [hrequest] at hanswer
    cases hanswer
    rw [hround] at h
    split_ifs at h
    cases h
    exact ⟨_, rfl, rfl⟩

theorem rangesAhead_falls {s s' : Discovery} (h : queryRange s = .next s') :
    rangesAhead s' < rangesAhead s := by
  have hrange := (queryRange_next h).1
  have hlt := UInt8.toNat_lt s'.rangePID
  unfold rangesAhead
  omega

section Rounds

variable (h : ObdHandler) (rounds : ℕ) (bus : Bus)

theorem rangesAhead_start : rangesAhead (h.discoveryStart bus) = 7 := by
  change (255 - pidSupported01To20.toNat) / 0x20 = 7
  decide

theorem discoveryRounds_length : (h.discoveryRounds rounds bus).length ≤ 8 := by
  have hlength := length_starts_le (fun _ _ hnext => rangesAhead_falls hnext) rounds
    (h.discoveryStart bus)
  rw [rangesAhead_start] at hlength
  exact hlength

theorem discovery_result : ∃ result, h.getSupportedPIDs 8 bus = some result := by
  refine loop_of_measure (fun _ _ hnext => rangesAhead_falls hnext) 8 _ ?_
  rw [rangesAhead_start]
  decide

/-- In every round the range is a multiple of the step. -/
theorem discoveryRounds_range {s : Discovery} (hs : s ∈ h.discoveryRounds rounds bus) :
    s.rangePID.toNat % 0x20 = 0 := by
  refine invariant_starts (I := fun s => s.rangePID.toNat % 0x20 = 0) (P := fun _ => True)
    (fun s s' hrange _ hnext => ?_) rounds rfl (fun _ _ => trivial) s hs
  have hstep := (queryRange_next hnext).1
  omega

theorem discoveryRounds_guard {s : Discovery} (hs : s ∈ h.discoveryRounds rounds bus) :
    s.rangePID ≤ 0xE0 ∧ s.rangePID + 0x20 ≤ 0xE0 := by
  have hrange := h.discoveryRounds_range rounds bus hs
  have hlt := UInt8.toNat_lt s.rangePID
  have hlast : (0xE0 : UInt8).toNat = 0xE0 := rfl
  have hwidth : (0x20 : UInt8).toNat = 0x20 := rfl
  rw [UInt8.le_iff_toNat_le, UInt8.le_iff_toNat_le, UInt8.toNat_add]
  omega

end Rounds

theorem iterate_add_one (n : ℕ) (c : UInt32) : (· + 1)^[n] c = c + UInt32.ofNat n := by
  induction n generalizing c with
  | zero => exact (UInt32.add_zero c).symm
  | succ n ih =>
    rw [Function.iterate_succ_apply, ih, UInt32.ofNat_add, UInt32.add_assoc]
    exact congrArg (c + ·) (UInt32.add_comm 1 _)

/-- There are at most eight rounds, of one request each. It is not the guard that ends the loop. -/
theorem discovery_ends (h : ObdHandler) (bus : Bus) :
    (∀ rounds, (h.discoveryRounds rounds bus).length ≤ 8 ∧
      ∀ s ∈ h.discoveryRounds rounds bus, s.rangePID ≤ 0xE0 ∧ s.rangePID + 0x20 ≤ 0xE0) ∧
    ((∀ s ∈ h.discoveryRounds 8 bus, ∃ answer, s.request = some answer) →
      ∃ answer, (∀ rounds, 8 ≤ rounds → h.getSupportedPIDs rounds bus = some (some answer)) ∧
        answer.handler.requestCount =
          h.requestCount + UInt32.ofNat (h.discoveryRounds 8 bus).length) := by
  refine ⟨fun rounds => ⟨h.discoveryRounds_length rounds bus,
    fun s hs => h.discoveryRounds_guard rounds bus hs⟩, fun hreturns => ?_⟩
  obtain ⟨result, hresult⟩ := discovery_result h bus
  obtain ⟨t, ht, hdone, hcount⟩ := counter_result
    (fun s => s.handler.requestCount) (· + 1) (fun _ _ hnext => (queryRange_next hnext).2) hresult
  have hguard := (h.discoveryRounds_guard 8 bus ht).1
  obtain ⟨reply, hrequest⟩ := hreturns t ht
  have hmade := sendAndReceive_requestCount hrequest
  obtain ⟨answer, rfl, hleft⟩ := queryRange_done hguard hrequest hdone
  refine ⟨answer, fun rounds hrounds => loop_mono hrounds hresult, ?_⟩
  rw [hleft, hmade, hcount, iterate_add_one]
  rfl

/-- One round, after which the ECU is silent until it is late. -/
theorem discovery_ends_silent : ∃ answer,
    (∀ rounds, 8 ≤ rounds →
      getSupportedPIDs {} rounds ⟨[true], [⟨200000000, none⟩], []⟩ = some (some answer)) ∧
    answer.handler.requestCount = 1 := by
  have hrounds : discoveryRounds {} 8 ⟨[true], [⟨200000000, none⟩], []⟩ =
    [discoveryStart {} ⟨[true], [⟨200000000, none⟩], []⟩] := rfl
  obtain ⟨answer, hanswer, hcount⟩ :=
    (discovery_ends {} ⟨[true], [⟨200000000, none⟩], []⟩).2 (by
      rw [hrounds]
      intro s hs
      rw [List.mem_singleton.mp hs]
      exact ⟨_, rfl⟩)
  refine ⟨answer, hanswer, ?_⟩
  rw [hcount, hrounds]
  rfl

end SpeeduinoDash.ObdHandler
