import Mathlib.Tactic.IntervalCases
import SpeeduinoDash.SupportedPids

set_option autoImplicit false

/-!
# What the bitmaps say

The PIDs that an ECU supports by its bitmaps, and what the discovery finds of them.
-/
namespace SpeeduinoDash.ObdHandler
open Lib.Await Lib.BoundedLoop

abbrev Ecu := UInt8 → Option (Vector UInt8 4)

def rangeOf (k : ℕ) : UInt8 := UInt8.ofNat (0x20 * k)

/-- The bits are numbered from the highest one of the first byte. -/
def marks (bitmap : Vector UInt8 4) (n : ℕ) : Bool :=
  (bitmap[n / 8]?.getD 0).toNat.testBit (7 - n % 8)

def marked (ecu : Ecu) (k n : ℕ) : Bool := (ecu (rangeOf k)).any (fun bitmap => marks bitmap n)

/-- All ranges before are answered, each with the mark of the next one. -/
def Reached (ecu : Ecu) (k : ℕ) : Prop := ∀ j < k, marked ecu j 31 = true

instance (ecu : Ecu) (k : ℕ) : Decidable (Reached ecu k) :=
  inferInstanceAs (Decidable (∀ j < k, marked ecu j 31 = true))

def Supported (ecu : Ecu) (pid : UInt8) : Prop :=
  pid.toNat % 0x20 ≠ 0 ∧ Reached ecu (pid.toNat / 0x20) ∧
    marked ecu (pid.toNat / 0x20) (pid.toNat % 0x20 - 1) = true

structure Exact (ecu : Ecu) (pids : List UInt8) : Prop where
  increasing : pids.Pairwise (· < ·)
  mem_iff : ∀ pid, pid ∈ pids ↔ Supported ecu pid

/-- Exact as far as the first `k` ranges are concerned. -/
structure UpTo (ecu : Ecu) (k : ℕ) (pids : List UInt8) : Prop where
  increasing : pids.Pairwise (· < ·)
  mem_iff : ∀ pid, pid ∈ pids ↔ Supported ecu pid ∧ pid.toNat < 0x20 * k

theorem upTo_zero (ecu : Ecu) : UpTo ecu 0 [] := by
  refine ⟨List.Pairwise.nil, fun pid => ?_⟩
  simp

theorem UpTo.exact {ecu : Ecu} {k : ℕ} {pids : List UInt8} (h : UpTo ecu k pids)
    (hlast : ∀ pid, Supported ecu pid → pid.toNat < 0x20 * k) : Exact ecu pids := by
  refine ⟨h.increasing, fun pid => ?_⟩
  rw [h.mem_iff]
  exact and_iff_left_of_imp (hlast pid)

theorem marked_eq {ecu : Ecu} {k : ℕ} {bitmap : Vector UInt8 4}
    (hbitmap : ecu (rangeOf k) = some bitmap) (n : ℕ) : marked ecu k n = marks bitmap n := by
  rw [marked, hbitmap]
  rfl

theorem marked_of_none {ecu : Ecu} {k : ℕ} (hnone : ecu (rangeOf k) = none) (n : ℕ) :
    marked ecu k n = false := by
  rw [marked, hnone]
  rfl

/-- Behind a range without the mark there is nothing. -/
theorem supported_lt {ecu : Ecu} {k : ℕ} (hmark : marked ecu k 31 = false) {pid : UInt8}
    (h : Supported ecu pid) : pid.toNat < 0x20 * (k + 1) := by
  by_contra hbehind
  have hbefore := h.2.1 k (by omega)
  rw [hmark] at hbefore
  cases hbefore

theorem supported_lt_of_none {ecu : Ecu} {k : ℕ} (hnone : ecu (rangeOf k) = none) {pid : UInt8}
    (h : Supported ecu pid) : pid.toNat < 0x20 * k := by
  have hbehind := supported_lt (marked_of_none hnone 31) h
  by_contra hrange
  have hset := h.2.2
  rw [show pid.toNat / 0x20 = k by omega, marked_of_none hnone] at hset
  cases hset

theorem toNat_rangeOf {k : ℕ} (hk : k < 8) : (rangeOf k).toNat = 0x20 * k := by
  rw [rangeOf, UInt8.toNat_ofNat']
  omega

def pidAt (rangePID : UInt8) (n : ℕ) : UInt8 := UInt8.ofNat (rangePID.toNat + n + 1)

theorem toNat_pidAt {k n : ℕ} (hk : k < 8) (hn : n < 31) :
    (pidAt (rangeOf k) n).toNat = 0x20 * k + n + 1 := by
  rw [pidAt, UInt8.toNat_ofNat', toNat_rangeOf hk]
  omega

def pidsOf (k : ℕ) (bitmap : Vector UInt8 4) : List UInt8 :=
  ((List.range 31).filter (marks bitmap)).map (pidAt (rangeOf k))

theorem mem_pidsOf {ecu : Ecu} {k : ℕ} (hk : k < 8) {bitmap : Vector UInt8 4}
    (hbitmap : ecu (rangeOf k) = some bitmap) (hreached : Reached ecu k) (pid : UInt8) :
    pid ∈ pidsOf k bitmap ↔
      Supported ecu pid ∧ 0x20 * k ≤ pid.toNat ∧ pid.toNat < 0x20 * (k + 1) := by
  simp only [pidsOf, List.mem_map, List.mem_filter, List.mem_range]
  constructor
  · rintro ⟨n, ⟨hn, hset⟩, rfl⟩
    have hpid := toNat_pidAt hk hn
    have hrange : (pidAt (rangeOf k) n).toNat / 0x20 = k := by omega
    have hbit : (pidAt (rangeOf k) n).toNat % 0x20 - 1 = n := by omega
    refine ⟨⟨by omega, ?_, ?_⟩, by omega, by omega⟩
    · rw [hrange]
      exact hreached
    · rw [hrange, hbit, marked_eq hbitmap]
      exact hset
  · rintro ⟨⟨hproper, -, hset⟩, hlow, hhigh⟩
    have hrange : pid.toNat / 0x20 = k := by omega
    rw [hrange, marked_eq hbitmap] at hset
    have hn : pid.toNat % 0x20 - 1 < 31 := by omega
    refine ⟨pid.toNat % 0x20 - 1, ⟨hn, hset⟩, UInt8.toNat_inj.mp ?_⟩
    rw [toNat_pidAt hk hn]
    omega

theorem pidsOf_increasing {k : ℕ} (hk : k < 8) (bitmap : Vector UInt8 4) :
    (pidsOf k bitmap).Pairwise (· < ·) := by
  rw [pidsOf, List.pairwise_map]
  have hoffsets := (List.pairwise_lt_range (n := 31)).filter (marks bitmap)
  refine hoffsets.imp_of_mem (fun hm hn hlt => ?_)
  rw [UInt8.lt_iff_toNat_lt, toNat_pidAt hk (List.mem_range.mp (List.mem_of_mem_filter hm)),
    toNat_pidAt hk (List.mem_range.mp (List.mem_of_mem_filter hn))]
  omega

theorem UpTo.succ {ecu : Ecu} {k : ℕ} {pids : List UInt8} (h : UpTo ecu k pids) (hk : k < 8)
    {bitmap : Vector UInt8 4} (hbitmap : ecu (rangeOf k) = some bitmap)
    (hreached : Reached ecu k) : UpTo ecu (k + 1) (pids ++ pidsOf k bitmap) := by
  have hnew := mem_pidsOf hk hbitmap hreached
  constructor
  · refine List.pairwise_append.mpr ⟨h.increasing, pidsOf_increasing hk bitmap, ?_⟩
    intro old hold new hmem
    have hbelow := ((h.mem_iff old).mp hold).2
    have habove := ((hnew new).mp hmem).2.1
    rw [UInt8.lt_iff_toNat_lt]
    omega
  · intro pid
    rw [List.mem_append, h.mem_iff, hnew, ← and_or_left]
    refine and_congr_right (fun _ => ?_)
    omega

section Parsing

variable {bytes : ℕ → UInt8} {bitmap : Vector UInt8 4}

theorem rangeBits_eq :
    rangeBits = (List.range 31).map (fun n => (n / 8, 7 - n % 8)) ++ [(3, 0)] := by decide

theorem and_bit_ne_zero : ∀ n < 256, ∀ i < 8,
    (UInt8.ofNat n &&& (1 <<< UInt8.ofNat i) ≠ 0 ↔ (UInt8.ofNat n).toNat.testBit i = true) := by
  decide +kernel

theorem readBit_offset (hbytes : ∀ i < 4, bytes i = bitmap[i]?.getD 0) (rangePID : UInt8)
    (found : Found) {n : ℕ} (hn : n < 32) :
    readBit rangePID bytes found (n / 8, 7 - n % 8) =
      if marks bitmap n then
        if (pidAt rangePID n).toNat = rangePID.toNat + 0x20
          then { found with nextRangeSupported := true }
          else { found with supported := found.supported ++ [pidAt rangePID n] }
      else found := by
  have hbit := and_bit_ne_zero (bytes (n / 8)).toNat (UInt8.toNat_lt _) (7 - n % 8) (by omega)
  have hoffset : rangePID.toNat + n / 8 * 8 + (7 - (7 - n % 8)) + 1 = rangePID.toNat + n + 1 := by
    omega
  rw [UInt8.ofNat_toNat, hbytes (n / 8) (by omega)] at hbit
  rw [readBit, pidAt, hbytes (n / 8) (by omega), hoffset]
  exact if_congr hbit rfl rfl

/-- The bits before the last one are never taken for the mark. -/
theorem foldl_readBit (hbytes : ∀ i < 4, bytes i = bitmap[i]?.getD 0) (rangePID : UInt8)
    (offsets : List ℕ) (hoffsets : ∀ n ∈ offsets, n < 31) (found : Found) :
    (offsets.map (fun n => (n / 8, 7 - n % 8))).foldl (readBit rangePID bytes) found =
      { found with
        supported := found.supported ++ (offsets.filter (marks bitmap)).map (pidAt rangePID) } := by
  induction offsets generalizing found with
  | nil => simp
  | cons n offsets ih =>
    have hn := hoffsets n List.mem_cons_self
    have hother : (pidAt rangePID n).toNat ≠ rangePID.toNat + 0x20 := by
      rw [pidAt, UInt8.toNat_ofNat']
      omega
    rw [List.map_cons, List.foldl_cons, readBit_offset hbytes rangePID found (by omega),
      if_neg hother, ih (fun m hm => hoffsets m (List.mem_cons_of_mem n hm)), List.filter_cons]
    cases hmarks : marks bitmap n with
    | false => rfl
    | true => simp

theorem parseBitmap_eq (hbytes : ∀ i < 4, bytes i = bitmap[i]?.getD 0) (k : ℕ)
    (supported : List UInt8) : parseBitmap (rangeOf k) bytes supported =
      if marks bitmap 31 then
        if (pidAt (rangeOf k) 31).toNat = (rangeOf k).toNat + 0x20
          then { supported := supported ++ pidsOf k bitmap, nextRangeSupported := true }
          else { supported := supported ++ pidsOf k bitmap ++ [pidAt (rangeOf k) 31] }
      else { supported := supported ++ pidsOf k bitmap } := by
  rw [parseBitmap, rangeBits_eq, List.foldl_append,
    foldl_readBit hbytes (rangeOf k) _ (fun n hn => List.mem_range.mp hn)]
  exact readBit_offset hbytes (rangeOf k) _ (show 31 < 32 by decide)

/-- Behind the last range the number of the mark is cut to 0, and it counts as a PID. -/
theorem pidAt_mark {k : ℕ} (hk : k < 8) :
    (k < 7 ∧ (pidAt (rangeOf k) 31).toNat = (rangeOf k).toNat + 0x20) ∨
    (k = 7 ∧ (pidAt (rangeOf k) 31).toNat ≠ (rangeOf k).toNat + 0x20 ∧
      pidAt (rangeOf k) 31 = 0) := by
  revert k
  decide

end Parsing

/-- What comes of the wait of a round: nothing if it is late or nothing was sent. -/
def Discovery.brings (s : Discovery) : Option (Option CanFrame) :=
  if s.bus.takes then
    (await (late s.handler.timeoutMs) Poll.frame (answers mode01LiveData) s.bus.polls).map Prod.fst
  else some none

def fits (ecu : Ecu) (rangePID : UInt8) : Option CanFrame → Bool
  | none => ecu rangePID == none
  | some response => response.byteAt 1 == 0x41 && response.byteAt 2 == rangePID &&
    ecu rangePID ==
      some #v[response.byteAt 3, response.byteAt 4, response.byteAt 5, response.byteAt 6]

/-- The wait of the round ends, with the bitmap of the ECU or, where there is none, without a
    frame. -/
def Replies (ecu : Ecu) (s : Discovery) : Prop := s.brings.any (fits ecu s.rangePID) = true

instance (ecu : Ecu) (s : Discovery) : Decidable (Replies ecu s) :=
  inferInstanceAs (Decidable (_ = true))

theorem request_of_brings {s : Discovery} {reply : Option CanFrame} (h : s.brings = some reply) :
    ∃ handler bus, s.request = some ⟨reply, handler, bus⟩ := by
  have hbrings : s.brings = if s.bus.takes then
      (await (late (s.handler.effectiveTimeout 0)) Poll.frame (answers mode01LiveData)
        s.bus.polls).map Prod.fst
    else some none := rfl
  rw [hbrings] at h
  obtain ⟨hsent, h', hsend⟩ | ⟨hsent, hawait, -⟩ | ⟨hsent, frame, polls, h', hawait, hsend⟩ :=
    s.handler.sendAndReceive_cases (s.handler.buildRequest mode01LiveData s.rangePID 0) 0 s.bus
  · rw [hsent] at h
    cases h
    exact ⟨_, _, hsend⟩
  · rw [buildRequest_mode] at hawait
    rw [hsent, if_pos rfl, hawait] at h
    cases h
  · rw [buildRequest_mode] at hawait
    rw [hsent, if_pos rfl, hawait] at h
    cases h
    exact ⟨_, _, hsend⟩

theorem queryRange_replies {ecu : Ecu} {s : Discovery} {k : ℕ} (hk : k < 8)
    (hrange : s.rangePID = rangeOf k) (h : Replies ecu s) :
    (ecu (rangeOf k) = none ∧ ∃ handler bus,
      queryRange s = .done (some ⟨s.supported, handler, bus⟩)) ∨
    (∃ bitmap, ecu (rangeOf k) = some bitmap ∧ ∃ bytes : ℕ → UInt8,
      (∀ i < 4, bytes i = bitmap[i]?.getD 0) ∧ ∃ handler bus found,
        found = parseBitmap (rangeOf k) bytes s.supported ∧
        queryRange s = if found.nextRangeSupported
          then .next ⟨rangeOf k + 0x20, found.supported, handler, bus⟩
          else .done (some ⟨found.supported, handler, bus⟩)) := by
  have hguard : s.rangePID ≤ 0xE0 := by
    rw [hrange, UInt8.le_iff_toNat_le, toNat_rangeOf hk, show (0xE0 : UInt8).toNat = 0xE0 from rfl]
    omega
  obtain ⟨reply, hbrings, hfits⟩ := (Option.any_eq_true _ _).mp h
  obtain ⟨handler, bus, hrequest⟩ := request_of_brings hbrings
  rw [hrange] at hfits
  cases reply with
  | none =>
    refine .inl ⟨beq_iff_eq.mp hfits, handler, bus, ?_⟩
    rw [queryRange, if_pos hguard, hrequest]
  | some response =>
    simp only [fits, Bool.and_eq_true, beq_iff_eq] at hfits
    obtain ⟨⟨hmode, hpid⟩, hbitmap⟩ := hfits
    refine .inr ⟨_, hbitmap, fun i => response.byteAt (3 + i), ?_, handler, bus, _, rfl, ?_⟩
    · intro i hi
      interval_cases i <;> rfl
    · have hvalid : ¬ (response.byteAt 1 ≠ 0x41 ∨ response.byteAt 2 ≠ rangeOf k) := by
        rw [hmode, hpid]
        simp
      rw [queryRange, if_pos hguard, hrequest, hrange]
      exact if_neg hvalid

structure AtRange (ecu : Ecu) (k : ℕ) (s : Discovery) : Prop where
  range : s.rangePID = rangeOf k
  bound : k < 8
  reached : Reached ecu k
  upTo : UpTo ecu k s.supported

theorem Reached.succ {ecu : Ecu} {k : ℕ} (h : Reached ecu k) (hmark : marked ecu k 31 = true) :
    Reached ecu (k + 1) := by
  intro j hj
  rcases Nat.lt_succ_iff_lt_or_eq.mp hj with hbefore | rfl
  · exact h j hbefore
  · exact hmark

theorem rangeOf_succ (k : ℕ) : rangeOf k + 0x20 = rangeOf (k + 1) := by
  rw [rangeOf, rangeOf, Nat.mul_succ, UInt8.ofNat_add]
  rfl

def Finds (ecu : Ecu) (result : Option (Answer (List UInt8))) : Prop :=
  ∃ answer, result = some answer ∧ (Exact ecu answer.result ↔ ¬ Reached ecu 8)

theorem finds_of_exact {ecu : Ecu} {k : ℕ} (hk : k < 8) (hmark : marked ecu k 31 = false)
    {answer : Answer (List UInt8)} (h : Exact ecu answer.result) : Finds ecu (some answer) := by
  refine ⟨answer, rfl, iff_of_true h (fun hall => ?_)⟩
  rw [hall k hk] at hmark
  cases hmark

/-- A round with the answer of the ECU goes on to the next range, or ends with what is to be
    found. -/
theorem queryRange_step {ecu : Ecu} {s : Discovery} {k : ℕ} (hs : AtRange ecu k s)
    (hreplies : Replies ecu s) :
    (∃ s', queryRange s = .next s' ∧ AtRange ecu (k + 1) s') ∨
    (∃ result, queryRange s = .done result ∧ Finds ecu result) := by
  obtain ⟨hnone, handler, bus, hround⟩ |
    ⟨bitmap, hbitmap, bytes, hbytes, handler, bus, found, hfound, hround⟩ :=
    queryRange_replies hs.bound hs.range hreplies
  · exact .inr ⟨_, hround, finds_of_exact hs.bound (marked_of_none hnone 31)
      (hs.upTo.exact (fun pid => supported_lt_of_none hnone))⟩
  · have hupTo := hs.upTo.succ hs.bound hbitmap hs.reached
    have hmark := marked_eq hbitmap 31
    rw [parseBitmap_eq hbytes] at hfound
    cases hset : marks bitmap 31 with
    | false =>
      rw [hset, if_neg Bool.false_ne_true] at hfound
      rw [hfound] at hround
      rw [hset] at hmark
      exact .inr ⟨_, hround, finds_of_exact hs.bound hmark
        (hupTo.exact (fun pid => supported_lt hmark))⟩
    | true =>
      rw [hset, if_pos rfl] at hfound
      rw [hset] at hmark
      obtain ⟨hbefore, hsame⟩ | ⟨rfl, hwraps, hzero⟩ := pidAt_mark hs.bound
      · rw [if_pos hsame] at hfound
        rw [hfound] at hround
        exact .inl ⟨_, hround, rangeOf_succ k, by omega, hs.reached.succ hmark, hupTo⟩
      · rw [if_neg hwraps, hzero] at hfound
        rw [hfound] at hround
        refine .inr ⟨_, hround, _, rfl, iff_of_false (fun hexact => ?_)
          (not_not.mpr (hs.reached.succ hmark))⟩
        have hin := (hexact.mem_iff 0).mp (List.mem_append_right _ (List.mem_singleton_self 0))
        exact hin.1 rfl

/-- The discovery is exact for every ECU except the one whose ranges are all answered with their
    last bit set: for that one PID 0 is added. -/
theorem supported_pids_exact_iff (ecu : Ecu) (h : ObdHandler) (bus : Bus)
    (hreplies : ∀ s ∈ h.discoveryRounds 8 bus, Replies ecu s) :
    ∃ answer, (∀ rounds, 8 ≤ rounds → h.getSupportedPIDs rounds bus = some (some answer)) ∧
      (Exact ecu answer.result ↔ ¬ Reached ecu 8) := by
  obtain ⟨result, hresult⟩ := discovery_result h bus
  have hstart : AtRange ecu 0 (h.discoveryStart bus) :=
    ⟨rfl, by decide, fun j hj => absurd hj (Nat.not_lt_zero j), upTo_zero ecu⟩
  have hfinds : Finds ecu result := by
    refine loop_result (I := fun s => ∃ k, AtRange ecu k s) (P := Replies ecu) ?_ ?_ ⟨0, hstart⟩
      hreplies hresult
    · rintro s s' ⟨k, hs⟩ hs' hnext
      obtain ⟨t, ht, hat⟩ | ⟨_, hdone, -⟩ := queryRange_step hs hs'
      · rw [hnext] at ht
        cases ht
        exact ⟨k + 1, hat⟩
      · rw [hnext] at hdone
        cases hdone
    · rintro s result ⟨k, hs⟩ hs' hdone
      obtain ⟨t, ht, -⟩ | ⟨_, hend, hfinds⟩ := queryRange_step hs hs'
      · rw [hdone] at ht
        cases ht
      · rw [hdone] at hend
        cases hend
        exact hfinds
  obtain ⟨answer, rfl, hexact⟩ := hfinds
  exact ⟨answer, fun rounds hrounds => loop_mono hrounds hresult, hexact⟩

def bitmapReply (rangePID : UInt8) (bitmap : Vector UInt8 4) : CanFrame where
  id := responseEcu
  dlc := 8
  data := #v[0x06, 0x41, rangePID, bitmap[0], bitmap[1], bitmap[2], bitmap[3], 0]

def promptBus (ecu : Ecu) (ranges : List UInt8) : Bus where
  sends := ranges.map (fun _ => true)
  polls := ranges.map (fun range => ⟨0, (ecu range).map (bitmapReply range)⟩)

/-- PID 01 and the next range, there PID 21. -/
def twoRanges : Ecu
  | 0x00 => some #v[0x80, 0, 0, 0x01]
  | 0x20 => some #v[0x80, 0, 0, 0]
  | _ => none

theorem supported_pids_exact_iff_two : ∃ answer,
    (∀ rounds, 8 ≤ rounds →
      getSupportedPIDs {} rounds (promptBus twoRanges [0x00, 0x20]) = some (some answer)) ∧
    Exact twoRanges answer.result := by
  obtain ⟨answer, hanswer, hiff⟩ :=
    supported_pids_exact_iff twoRanges {} (promptBus twoRanges [0x00, 0x20]) (by decide +kernel)
  exact ⟨answer, hanswer, hiff.mpr (by decide +kernel)⟩

def allRanges : Ecu := fun _ => some #v[0, 0, 0, 0x01]

theorem pid_zero_supported : ¬ ∀ (ecu : Ecu) (h : ObdHandler) (bus : Bus),
    (∀ s ∈ h.discoveryRounds 8 bus, Replies ecu s) →
      ∃ answer, h.getSupportedPIDs 8 bus = some (some answer) ∧ Exact ecu answer.result := by
  intro hclaim
  obtain ⟨answer, hanswer, hexact⟩ := hclaim allRanges {}
    (promptBus allRanges [0x00, 0x20, 0x40, 0x60, 0x80, 0xA0, 0xC0, 0xE0]) (by decide +kernel)
  have hfound : (getSupportedPIDs {} 8
      (promptBus allRanges [0x00, 0x20, 0x40, 0x60, 0x80, 0xA0, 0xC0, 0xE0])).map
        (fun found => found.map Answer.result) = some (some [0]) := by decide +kernel
  rw [hanswer] at hfound
  have hzero : answer.result = [0] := Option.some.inj (Option.some.inj hfound)
  rw [hzero] at hexact
  exact ((hexact.mem_iff 0).mp (List.mem_singleton_self 0)).1 rfl

end SpeeduinoDash.ObdHandler
