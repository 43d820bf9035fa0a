import SpeeduinoDash.Lib.ArrayReads
import SpeeduinoDash.ObdHandler

set_option autoImplicit false

/-!
# Reading trouble codes

The readers of confirmed and of pending codes look at one response frame. What they do with its
eight bytes is a computation on an array.
-/
namespace SpeeduinoDash
open Lib.ArrayReads Lib.Await

structure Dtc where
  code : String
  description : String
  isPending : Bool := false
deriving DecidableEq

namespace Dtc

def dtcDatabase : List (String × String) :=
  [("P0105", "MAP sensor malfunction"),
   ("P0107", "MAP sensor low input"),
   ("P0108", "MAP sensor high input"),
   ("P0110", "IAT sensor circuit malfunction"),
   ("P0112", "IAT sensor low input"),
   ("P0113", "IAT sensor high input"),
   ("P0115", "CLT sensor circuit malfunction"),
   ("P0117", "CLT sensor low input"),
   ("P0118", "CLT sensor high input"),
   ("P0120", "TPS circuit malfunction"),
   ("P0121", "TPS range/performance problem"),
   ("P0122", "TPS low input"),
   ("P0123", "TPS high input"),
   ("P0130", "O2 sensor circuit malfunction (Bank 1 Sensor 1)"),
   ("P0131", "O2 sensor low voltage (Bank 1 Sensor 1)"),
   ("P0132", "O2 sensor high voltage (Bank 1 Sensor 1)"),
   ("P0133", "O2 sensor slow response (Bank 1 Sensor 1)"),
   ("P0171", "System too lean (Bank 1)"),
   ("P0172", "System too rich (Bank 1)"),
   ("P0174", "System too lean (Bank 2)"),
   ("P0175", "System too rich (Bank 2)"),
   ("P0217", "Engine overtemp condition"),
   ("P0219", "Engine overspeed condition"),
   ("P0230", "Fuel pump primary circuit malfunction"),
   ("P0231", "Fuel pump secondary circuit low"),
   ("P0232", "Fuel pump secondary circuit high"),
   ("P0335", "Crankshaft position sensor A circuit"),
   ("P0336", "Crankshaft position sensor A range/performance"),
   ("P0337", "Crankshaft position sensor A low input"),
   ("P0338", "Crankshaft position sensor A high input"),
   ("P0340", "Camshaft position sensor A circuit (Bank 1)"),
   ("P0341", "Camshaft position sensor A range/performance"),
   ("P0342", "Camshaft position sensor A low input"),
   ("P0343", "Camshaft position sensor A high input"),
   ("P0351", "Ignition coil A primary/secondary circuit"),
   ("P0352", "Ignition coil B primary/secondary circuit"),
   ("P0353", "Ignition coil C primary/secondary circuit"),
   ("P0354", "Ignition coil D primary/secondary circuit"),
   ("P0520", "Engine oil pressure sensor/switch circuit"),
   ("P0521", "Engine oil pressure sensor range/performance"),
   ("P0522", "Engine oil pressure sensor low voltage"),
   ("P0523", "Engine oil pressure sensor high voltage"),
   ("P0524", "Engine oil pressure too low"),
   ("P0560", "System voltage malfunction"),
   ("P0562", "System voltage low"),
   ("P0563", "System voltage high"),
   ("P0505", "Idle air control system malfunction"),
   ("P0506", "Idle air control system RPM lower than expected"),
   ("P0507", "Idle air control system RPM higher than expected"),
   ("P0325", "Knock sensor 1 circuit (Bank 1)"),
   ("P0326", "Knock sensor 1 range/performance"),
   ("P0327", "Knock sensor 1 low input"),
   ("P0328", "Knock sensor 1 high input"),
   ("P1000", "OBD system readiness not complete")]

def getDescription (code : String) : String := (dtcDatabase.lookup code).getD "Unknown DTC"

def category (high : UInt8) : Char :=
  match (high >>> 6) &&& 0x03 with
  | 0 => 'P'
  | 1 => 'C'
  | 2 => 'B'
  | 3 => 'U'
  | _ => 'P'

/-- One digit in upper case, as the stream prints the numbers below 16. -/
def hexDigit (n : UInt8) : Char :=
  if n < 10 then Char.ofNat (48 + n.toNat) else Char.ofNat (55 + n.toNat)

def codeChars (high low : UInt8) : List Char :=
  [category high, hexDigit ((high >>> 4) &&& 0x03), hexDigit (high &&& 0x0F),
    hexDigit ((low >>> 4) &&& 0x0F), hexDigit (low &&& 0x0F)]

def fromBytes (high low : UInt8) : Dtc where
  code := String.ofList (codeChars high low)
  description := getDescription (String.ofList (codeChars high low))

def pendingFromBytes (high low : UInt8) : Dtc := { fromBytes high low with isPending := true }

def digitValue (c : Char) : UInt8 :=
  UInt8.ofNat (if c.toNat < 58 then c.toNat - 48 else c.toNat - 55)

def categoryValue (c : Char) : UInt8 :=
  if c = 'P' then 0 else if c = 'C' then 1 else if c = 'B' then 2 else 3

def bytesOf : List Char → UInt8 × UInt8
  | [system, d3, d2, d1, d0] =>
    (categoryValue system * 64 + digitValue d3 * 16 + digitValue d2,
      digitValue d1 * 16 + digitValue d0)
  | _ => (0, 0)

theorem bytesOf_high : ∀ n < 256, (bytesOf (codeChars (UInt8.ofNat n) 0)).1 = UInt8.ofNat n := by
  decide +kernel

theorem bytesOf_low : ∀ n < 256, (bytesOf (codeChars 0 (UInt8.ofNat n))).2 = UInt8.ofNat n := by
  decide +kernel

theorem bytesOf_codeChars (high low : UInt8) : bytesOf (codeChars high low) = (high, low) := by
  have hhigh := bytesOf_high high.toNat (UInt8.toNat_lt high)
  have hlow := bytesOf_low low.toNat (UInt8.toNat_lt low)
  rw [UInt8.ofNat_toNat] at hhigh hlow
  exact Prod.ext hhigh hlow

/-- A code tells its two bytes, so a list of codes tells what was reported. -/
theorem fromBytes_injective {high low high' low' : UInt8}
    (h : (fromBytes high low).code = (fromBytes high' low').code) :
    (high, low) = (high', low') := by
  have hchars := String.ofList_injective h
  rw [← bytesOf_codeChars high low, hchars, bytesOf_codeChars]

end Dtc

structure ObdDtcList where
  confirmed : List Dtc := []
  pending : List Dtc := []
  milOn : Bool := false
  dtcCount : UInt8 := 0
deriving DecidableEq

namespace ObdHandler

def mode03ReadDtcs : UInt8 := 0x03
def mode07PendingDtcs : UInt8 := 0x07

def readCodes (make : UInt8 → UInt8 → Dtc) : List ℕ → Reading UInt8 (List Dtc)
  | [] => pure []
  | i :: is => do
    let high ← Reading.fetch (3 + i * 2)
    let low ← Reading.fetch (4 + i * 2)
    let rest ← readCodes make is
    pure (if high ≠ 0 ∨ low ≠ 0 then make high low :: rest else rest)

/-- What both readers do with a response: the mode is checked, then up to three codes are read.
    Nothing if the mode is another. -/
def parseCodes (mode : UInt8) (make : UInt8 → UInt8 → Dtc) :
    Reading UInt8 (Option (UInt8 × List Dtc)) := do
  let responseMode ← Reading.fetch 1
  if responseMode ≠ mode then pure none
  else
    let count ← Reading.fetch 2
    let codes ← readCodes make (List.range (min count.toNat 3))
    pure (some (count, codes))

def parseDTCs : Reading UInt8 ObdDtcList := do
  match ← parseCodes 0x43 Dtc.fromBytes with
  | none => pure {}
  | some (count, codes) =>
    pure { confirmed := codes, milOn := 0 < count, dtcCount := count }

def parsePendingDTCs : Reading UInt8 (List Dtc) := do
  match ← parseCodes 0x47 Dtc.pendingFromBytes with
  | none => pure []
  | some (_, codes) => pure codes

def readDTCs (h : ObdHandler) (bus : Bus) : Option (Answer ObdDtcList) :=
  match h.sendAndReceive (h.buildRequest mode03ReadDtcs 0 0) 0 bus with
  | none => none
  | some ⟨none, h, bus⟩ => some ⟨{}, h, bus⟩
  | some ⟨some response, h, bus⟩ => some ⟨parseDTCs.eval response.byteAt, h, bus⟩

def readPendingDTCs (h : ObdHandler) (bus : Bus) : Option (Answer (List Dtc)) :=
  match h.sendAndReceive (h.buildRequest mode07PendingDtcs 0 0) 0 bus with
  | none => none
  | some ⟨none, h, bus⟩ => some ⟨[], h, bus⟩
  | some ⟨some response, h, bus⟩ => some ⟨parsePendingDTCs.eval response.byteAt, h, bus⟩

section Indices

variable {mode : UInt8} {make : UInt8 → UInt8 → Dtc} (array : ℕ → UInt8)

theorem eval_readCodes (is : List ℕ) : (readCodes make is).eval array =
    (is.filter (fun i => array (3 + i * 2) ≠ 0 ∨ array (4 + i * 2) ≠ 0)).map
      (fun i => make (array (3 + i * 2)) (array (4 + i * 2))) := by
  induction is with
  | nil => rfl
  | cons i is ih =>
    simp only [readCodes, Reading.eval_bind, Reading.eval_fetch, Reading.eval_pure, ih,
      List.filter_cons, decide_eq_true_eq]
    split_ifs <;> rfl

theorem indices_readCodes (is : List ℕ) :
    (readCodes make is).indices array = is.flatMap (fun i => [3 + i * 2, 4 + i * 2]) := by
  induction is with
  | nil => rfl
  | cons i is ih =>
    simp only [readCodes, Reading.indices_bind, Reading.indices_fetch, Reading.indices_pure, ih,
      List.flatMap_cons, List.append_nil]
    rfl

theorem eval_parseCodes : (parseCodes mode make).eval array =
    if array 1 ≠ mode then none
    else some (array 2, (readCodes make (List.range (min (array 2).toNat 3))).eval array) := by
  unfold parseCodes
  rw [Reading.eval_bind, Reading.eval_fetch]
  by_cases hmode : array 1 = mode
  · simp [hmode]
  · simp [hmode]

theorem indices_parseCodes : (parseCodes mode make).indices array =
    if array 1 ≠ mode then [1]
    else 1 :: 2 :: (List.range (min (array 2).toNat 3)).flatMap
      (fun i => [3 + i * 2, 4 + i * 2]) := by
  unfold parseCodes
  rw [Reading.indices_bind, Reading.indices_fetch, Reading.eval_fetch]
  by_cases hmode : array 1 = mode
  · simp [hmode, indices_readCodes]
  · simp [hmode]

theorem parseCodes_inBounds_iff : (parseCodes mode make).InBounds array 8 ↔
    array 1 ≠ mode ∨ array 2 ≤ 2 := by
  unfold Reading.InBounds
  rw [indices_parseCodes, UInt8.le_iff_toNat_le, show (2 : UInt8).toNat = 2 from rfl]
  by_cases hmode : array 1 = mode
  · simp only [hmode, ne_eq, not_true_eq_false, if_false, false_or, List.mem_cons,
      List.mem_flatMap, List.mem_range]
    constructor
    · intro h
      by_contra hcount
      have hlast := h 8 (.inr (.inr ⟨2, by omega, by simp⟩))
      omega
    · rintro hcount i (rfl | rfl | ⟨j, hj, hi⟩)
      · omega
      · omega
      · simp only [List.not_mem_nil, or_false] at hi
        omega
  · simp [hmode]

end Indices

theorem eval_parseDTCs (array : ℕ → UInt8) : parseDTCs.eval array =
    match (parseCodes 0x43 Dtc.fromBytes).eval array with
    | none => {}
    | some (count, codes) => { confirmed := codes, milOn := 0 < count, dtcCount := count } := by
  unfold parseDTCs
  rw [Reading.eval_bind]
  cases (parseCodes 0x43 Dtc.fromBytes).eval array <;> rfl

theorem eval_parsePendingDTCs (array : ℕ → UInt8) : parsePendingDTCs.eval array =
    match (parseCodes 0x47 Dtc.pendingFromBytes).eval array with
    | none => []
    | some (_, codes) => codes := by
  unfold parsePendingDTCs
  rw [Reading.eval_bind]
  cases (parseCodes 0x47 Dtc.pendingFromBytes).eval array <;> rfl

theorem parseDTCs_inBounds (array : ℕ → UInt8) : parseDTCs.InBounds array 8 ↔
    (parseCodes 0x43 Dtc.fromBytes).InBounds array 8 := by
  apply Reading.inBounds_bind_iff
  rintro (_ | ⟨count, codes⟩) <;> rfl

theorem parsePendingDTCs_inBounds (array : ℕ → UInt8) : parsePendingDTCs.InBounds array 8 ↔
    (parseCodes 0x47 Dtc.pendingFromBytes).InBounds array 8 := by
  apply Reading.inBounds_bind_iff
  rintro (_ | ⟨count, codes⟩) <;> rfl

/-- The readers keep to the eight bytes exactly if the response is of another mode or counts at
    most two codes: the third one ends in the ninth byte. -/
theorem dtc_in_bounds_iff (response : CanFrame) :
    (parseDTCs.InBounds response.byteAt 8 ↔
      response.byteAt 1 ≠ 0x43 ∨ response.byteAt 2 ≤ 2) ∧
    (parsePendingDTCs.InBounds response.byteAt 8 ↔
      response.byteAt 1 ≠ 0x47 ∨ response.byteAt 2 ≤ 2) := by
  rw [parseDTCs_inBounds, parsePendingDTCs_inBounds]
  exact ⟨parseCodes_inBounds_iff response.byteAt, parseCodes_inBounds_iff response.byteAt⟩

def threeCodes : CanFrame :=
  { id := responseEcu, dlc := 8, data := #v[0x07, 0x43, 0x03, 0x01, 0x05, 0x01, 0x07, 0x01] }

theorem third_code_out_of_bounds :
    ¬ ∀ (h : ObdHandler) (bus bus' : Bus) (h' : ObdHandler) (response : CanFrame),
      h.sendAndReceive (h.buildRequest mode03ReadDtcs 0 0) 0 bus = some ⟨some response, h', bus'⟩ →
        parseDTCs.InBounds response.byteAt 8 := by
  intro hclaim
  have htake : await (late 100) Poll.frame (answers mode03ReadDtcs) [⟨0, some threeCodes⟩] =
      some (some threeCodes, []) :=
    await_take (by simp [late]) rfl (by decide)
  have hanswer : sendAndReceive {} (buildRequest {} mode03ReadDtcs 0 0) 0
      ⟨[true], [⟨0, some threeCodes⟩], []⟩ = some ⟨some threeCodes, { requestCount := 1 },
        ⟨[], [], [buildRequest {} mode03ReadDtcs 0 0]⟩⟩ := by
    simp [sendAndReceive, Bus.send, Bus.takes, effectiveTimeout, htake]
  have hbounds := hclaim _ _ _ _ threeCodes hanswer
  rw [parseDTCs_inBounds, parseCodes_inBounds_iff] at hbounds
  exact absurd hbounds (by decide)

end ObdHandler

end SpeeduinoDash
