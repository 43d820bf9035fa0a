import Mathlib.Data.List.GetD
import SpeeduinoDash.ObdHandler

set_option autoImplicit false

/-!
# Reading the VIN

The VIN comes as a first frame with three characters and two consecutive frames with seven each.
-/
namespace SpeeduinoDash.ObdHandler
open Lib.Await

def cfTimeoutMs : UInt32 := 1000

/-- Zero bytes are padding. -/
def appendByte (vin : List UInt8) (byte : UInt8) : List UInt8 :=
  if byte ≠ 0 then vin ++ [byte] else vin

def appendNext (vin : List UInt8) (byte : UInt8) : List UInt8 :=
  if vin.length < 17 then appendByte vin byte else vin

/-- Bytes 1 to 7 of a consecutive frame, until the VIN is full. -/
def appendConsecutive (vin : List UInt8) (f : CanFrame) : List UInt8 :=
  [f.byteAt 1, f.byteAt 2, f.byteAt 3, f.byteAt 4, f.byteAt 5, f.byteAt 6, f.byteAt 7].foldl
    appendNext vin

def sequenceNumber (f : CanFrame) : UInt8 := f.byteAt 0 &&& 0x0F

def isExpected (expectedSeq : UInt8) (f : CanFrame) : Bool :=
  f.id == responseEcu && pciType f == 0x2 && sequenceNumber f == (expectedSeq &&& 0x0F)

/-- The loop for the consecutive frames. None when the polls run out: it is still waiting. -/
def receiveConsecutive (expectedSeq : UInt8) (vin : List UInt8) :
    List Poll → Option (List UInt8 × List Poll)
  | [] => if vin.length < 17 then none else some (vin, [])
  | p :: polls =>
    if ¬ vin.length < 17 then some (vin, p :: polls)
    else if late cfTimeoutMs p then some (vin, polls)
    else
      match p.frame with
      | none => receiveConsecutive expectedSeq vin polls
      | some f =>
        if isExpected expectedSeq f then
          receiveConsecutive (expectedSeq + 1) (appendConsecutive vin f) polls
        else receiveConsecutive expectedSeq vin polls

def flowControl (h : ObdHandler) : CanFrame where
  id := h.requestId
  dlc := 8
  data := #v[0x30, 0, 0, 0, 0, 0, 0, 0]

def nonempty (vin : List UInt8) : Option (List UInt8) := if vin = [] then none else some vin

/-- A single frame gives at most the four bytes after the header. -/
def singleFrameVin (response : CanFrame) : List UInt8 :=
  let dataLen : ℤ := (response.byteAt 0 &&& 0x0F).toNat
  [(4, response.byteAt 4), (5, response.byteAt 5), (6, response.byteAt 6),
    (7, response.byteAt 7)].foldl
    (fun vin entry =>
      if (entry.1 : ℤ) < min (4 + dataLen - 3) 8 then appendByte vin entry.2 else vin) []

def firstFrameVin (response : CanFrame) : List UInt8 :=
  [response.byteAt 5, response.byteAt 6, response.byteAt 7].foldl appendByte []

def getVIN (h : ObdHandler) (bus : Bus) : Option (Answer (Option (List UInt8))) :=
  match h.sendAndReceive (h.buildRequest mode09VehicleInfo pidVin 0) 500 bus with
  | none => none
  | some ⟨none, h, bus⟩ => some ⟨none, h, bus⟩
  | some ⟨some response, h, bus⟩ =>
    if pciType response = 0x0 then
      if response.byteAt 1 ≠ 0x49 ∨ response.byteAt 2 ≠ pidVin then some ⟨none, h, bus⟩
      else some ⟨nonempty (singleFrameVin response), h, bus⟩
    else if pciType response = 0x1 then
      if response.byteAt 2 ≠ 0x49 ∨ response.byteAt 3 ≠ pidVin then some ⟨none, h, bus⟩
      else
        let vin := firstFrameVin response
        let (sent, bus) := bus.send h.flowControl
        if sent = false then some ⟨nonempty vin, h, bus⟩
        else
          match receiveConsecutive 1 vin bus.polls with
          | none => none
          | some (vin, polls) => some ⟨nonempty vin, h, { bus with polls := polls }⟩
    else some ⟨none, h, bus⟩

section Segments

/-- A VIN has 17 characters, none of them zero. -/
structure IsVin (vin : List UInt8) : Prop where
  length : vin.length = 17
  nonzero : ∀ byte ∈ vin, byte ≠ 0

def vinAt (vin : List UInt8) (i : ℕ) : UInt8 := vin.getD i 0

def IsFirstFrame (vin : List UInt8) (f : CanFrame) : Prop :=
  f.id = responseEcu ∧
    f.data = #v[0x10, 0x14, 0x49, 0x02, 0x01, vinAt vin 0, vinAt vin 1, vinAt vin 2]

def IsConsecutive (vin : List UInt8) (pci : UInt8) (start : ℕ) (f : CanFrame) : Prop :=
  f.id = responseEcu ∧
    f.data = #v[pci, vinAt vin start, vinAt vin (start + 1), vinAt vin (start + 2),
      vinAt vin (start + 3), vinAt vin (start + 4), vinAt vin (start + 5), vinAt vin (start + 6)]

def IsFrame1 (vin : List UInt8) (f : CanFrame) : Prop := IsConsecutive vin 0x21 3 f

def IsFrame2 (vin : List UInt8) (f : CanFrame) : Prop := IsConsecutive vin 0x22 10 f

/-- A copy of consecutive frame 1 or 2, or traffic of another id or PCI type. -/
def IsTraffic (vin : List UInt8) (f : CanFrame) : Prop :=
  IsFrame1 vin f ∨ IsFrame2 vin f ∨ f.id ≠ responseEcu ∨ pciType f ≠ 0x2

variable {vin : List UInt8}

theorem IsConsecutive.expected_eq {pci : UInt8} {start : ℕ} {f : CanFrame}
    (h : IsConsecutive vin pci start f) (hpci : (pci >>> 4) &&& 0x0F = 0x2) (expectedSeq : UInt8) :
    isExpected expectedSeq f = ((pci &&& 0x0F) == (expectedSeq &&& 0x0F)) := by
  obtain ⟨hid, hdata⟩ := h
  have hbyte : f.byteAt 0 = pci := by rw [CanFrame.byteAt, hdata]; rfl
  simp [isExpected, pciType, sequenceNumber, hid, hbyte, hpci]

theorem not_expected_of_foreign {f : CanFrame} (h : f.id ≠ responseEcu ∨ pciType f ≠ 0x2)
    (expectedSeq : UInt8) : isExpected expectedSeq f = false := by
  rcases h with h | h
  · simp [isExpected, h]
  · simp [isExpected, h]

theorem appendByte_take (hvin : IsVin vin) {n : ℕ} (hn : n < 17) :
    appendByte (vin.take n) (vinAt vin n) = vin.take (n + 1) := by
  have hlt : n < vin.length := by rw [hvin.length]; exact hn
  have hbyte : vinAt vin n = vin[n] := List.getD_eq_getElem vin 0 hlt
  rw [hbyte, appendByte, if_pos (hvin.nonzero _ (List.getElem_mem hlt)), List.take_append_getElem]

theorem appendNext_take (hvin : IsVin vin) {n : ℕ} (hn : n < 17) :
    appendNext (vin.take n) (vinAt vin n) = vin.take (n + 1) := by
  rw [appendNext, if_pos, appendByte_take hvin hn]
  rw [List.length_take]
  omega

theorem foldl_take {append : List UInt8 → UInt8 → List UInt8}
    (happend : ∀ n, n < 17 → append (vin.take n) (vinAt vin n) = vin.take (n + 1))
    (start k : ℕ) (hk : start + k ≤ 17) :
    ((List.range k).map (fun i => vinAt vin (start + i))).foldl append (vin.take start) =
      vin.take (start + k) := by
  induction k with
  | zero => rfl
  | succ k ih =>
    rw [List.range_succ, List.map_append, List.foldl_append, ih (by omega)]
    exact happend (start + k) (by omega)

theorem appendConsecutive_take (hvin : IsVin vin) {pci : UInt8} {start : ℕ} {f : CanFrame}
    (h : IsConsecutive vin pci start f) (hstart : start + 7 ≤ 17) :
    appendConsecutive (vin.take start) f = vin.take (start + 7) := by
  obtain ⟨-, hdata⟩ := h
  unfold appendConsecutive CanFrame.byteAt
  rw [hdata]
  exact foldl_take (fun n hn => appendNext_take hvin hn) start 7 hstart

theorem firstFrameVin_take (hvin : IsVin vin) {f : CanFrame} (h : IsFirstFrame vin f) :
    firstFrameVin f = vin.take 3 := by
  obtain ⟨-, hdata⟩ := h
  unfold firstFrameVin CanFrame.byteAt
  rw [hdata]
  exact foldl_take (fun n hn => appendByte_take hvin hn) 0 3 (by omega)

end Segments

section Loop

variable {vin : List UInt8} {expectedSeq : UInt8} {collected : List UInt8} {p : Poll}
  {polls : List Poll}

theorem receive_full (h : ¬ collected.length < 17) :
    receiveConsecutive expectedSeq collected polls = some (collected, polls) := by
  cases polls with
  | nil => rw [receiveConsecutive, if_neg h]
  | cons p polls => rw [receiveConsecutive, if_pos h]

theorem receive_late (h : collected.length < 17) (hlate : late cfTimeoutMs p = true) :
    receiveConsecutive expectedSeq collected (p :: polls) = some (collected, polls) := by
  rw [receiveConsecutive, if_neg (not_not.mpr h), if_pos hlate]

theorem receive_skip (h : collected.length < 17) (hlate : late cfTimeoutMs p = false)
    (hframe : ∀ f, p.frame = some f → isExpected expectedSeq f = false) :
    receiveConsecutive expectedSeq collected (p :: polls) =
      receiveConsecutive expectedSeq collected polls := by
  rw [receiveConsecutive, if_neg (not_not.mpr h), if_neg (by simp [hlate])]
  cases hf : p.frame with
  | none => rfl
  | some f => exact if_neg (by simp [hframe f hf])

theorem receive_take {f : CanFrame} (h : collected.length < 17)
    (hlate : late cfTimeoutMs p = false) (hf : p.frame = some f)
    (hexpected : isExpected expectedSeq f = true) :
    receiveConsecutive expectedSeq collected (p :: polls) =
      receiveConsecutive (expectedSeq + 1) (appendConsecutive collected f) polls := by
  rw [receiveConsecutive, if_neg (not_not.mpr h), if_neg (by simp [hlate]), hf]
  exact if_pos hexpected

theorem length_take_lt (hvin : IsVin vin) {n : ℕ} (hn : n < 17) : (vin.take n).length < 17 := by
  rw [List.length_take, hvin.length]
  omega

/-- The polls are in time and bring nothing but traffic. -/
structure InTime (vin : List UInt8) (polls : List Poll) : Prop where
  early : ∀ p ∈ polls, late cfTimeoutMs p = false
  traffic : ∀ p ∈ polls, ∀ f, p.frame = some f → IsTraffic vin f

theorem InTime.of_append {before after : List Poll} (h : InTime vin (before ++ after)) :
    InTime vin after :=
  ⟨fun q hq => h.early q (List.mem_append_right _ hq),
    fun q hq => h.traffic q (List.mem_append_right _ hq)⟩

/-- The loop passes over what it does not wait for. -/
theorem receive_awaits {awaited : CanFrame → Prop} (hroom : collected.length < 17)
    {onTime : List Poll} (hearly : ∀ p ∈ onTime, late cfTimeoutMs p = false)
    (hother : ∀ p ∈ onTime, ∀ f, p.frame = some f → ¬ awaited f →
      isExpected expectedSeq f = false)
    {last : Poll} (hlast : late cfTimeoutMs last = true) (rest : List Poll) :
    ((∀ p ∈ onTime, ¬ p.Brings awaited) ∧
      receiveConsecutive expectedSeq collected (onTime ++ last :: rest) =
        some (collected, rest)) ∨
    ∃ before p after, onTime = before ++ p :: after ∧ (∀ q ∈ before, ¬ q.Brings awaited) ∧
      p.Brings awaited ∧
      receiveConsecutive expectedSeq collected (onTime ++ last :: rest) =
        receiveConsecutive expectedSeq collected (p :: after ++ last :: rest) := by
  induction onTime with
  | nil => exact .inl ⟨nofun, receive_late hroom hlast⟩
  | cons p onTime ih =>
    by_cases hbrings : p.Brings awaited
    · exact .inr ⟨[], p, onTime, rfl, nofun, hbrings, rfl⟩
    have hskip : ∀ f, p.frame = some f → isExpected expectedSeq f = false := by
      intro f hf
      exact hother p List.mem_cons_self f hf fun hawaited => hbrings ⟨f, hf, hawaited⟩
    have hstep : receiveConsecutive expectedSeq collected (p :: onTime ++ last :: rest) =
        receiveConsecutive expectedSeq collected (onTime ++ last :: rest) :=
      receive_skip hroom (hearly p List.mem_cons_self) hskip
    obtain ⟨hnone, hreceive⟩ | ⟨before, p', after, rfl, hnone, hp', hreceive⟩ :=
      ih (fun q hq => hearly q (List.mem_cons_of_mem p hq))
        (fun q hq => hother q (List.mem_cons_of_mem p hq))
    · exact .inl ⟨List.forall_mem_cons.mpr ⟨hbrings, hnone⟩, hstep.trans hreceive⟩
    · exact .inr ⟨p :: before, p', after, rfl, List.forall_mem_cons.mpr ⟨hbrings, hnone⟩, hp',
        hstep.trans hreceive⟩

/-- The loop ends with a prefix of at least `least` characters, and with all if `complete`. -/
def EndsWith (vin : List UInt8) (least : ℕ) (complete : Prop)
    (outcome : Option (List UInt8 × List Poll)) : Prop :=
  ∃ n polls, outcome = some (vin.take n, polls) ∧ least ≤ n ∧ (complete → n = 17)

theorem second_endsWith (hvin : IsVin vin) {onTime : List Poll} (htime : InTime vin onTime)
    {last : Poll} (hlast : late cfTimeoutMs last = true) (rest : List Poll) :
    EndsWith vin 10 (∃ q ∈ onTime, q.Brings (IsFrame2 vin))
      (receiveConsecutive 2 (vin.take 10) (onTime ++ last :: rest)) := by
  have hroom : (vin.take 10).length < 17 := length_take_lt hvin (by omega)
  have hother : ∀ p ∈ onTime, ∀ f, p.frame = some f → ¬ IsFrame2 vin f →
      isExpected 2 f = false := by
    intro p hp f hf hnot
    rcases htime.traffic p hp f hf with hframe | hframe | hforeign
    · exact hframe.expected_eq (by decide) 2
    · exact absurd hframe hnot
    · exact not_expected_of_foreign hforeign 2
  obtain ⟨hnone, hreceive⟩ | ⟨before, p, after, rfl, -, hp, hreceive⟩ :=
    receive_awaits hroom htime.early hother hlast rest
  · refine ⟨10, rest, hreceive, Nat.le_refl _, ?_⟩
    intro hcomplete
    obtain ⟨q, hq, hbrings⟩ := hcomplete
    exact absurd hbrings (hnone q hq)
  · obtain ⟨f, hf, hframe⟩ := hp
    have hearly := htime.of_append.early p List.mem_cons_self
    have hexpected : isExpected 2 f = true := hframe.expected_eq (by decide) 2
    refine ⟨17, after ++ last :: rest, ?_, by omega, fun _ => rfl⟩
    rw [hreceive, List.cons_append, receive_take hroom hearly hf hexpected,
      appendConsecutive_take hvin hframe (by omega)]
    apply receive_full
    rw [List.length_take, hvin.length]
    omega

/-- A copy of frame 1 comes before a copy of frame 2. -/
def InOrder (vin : List UInt8) (polls : List Poll) : Prop :=
  ∃ before p between q after, polls = before ++ p :: between ++ q :: after ∧
    p.Brings (IsFrame1 vin) ∧ q.Brings (IsFrame2 vin)

theorem InOrder.of_cons (h : InOrder vin (p :: polls)) :
    (p.Brings (IsFrame1 vin) ∧ ∃ q ∈ polls, q.Brings (IsFrame2 vin)) ∨ InOrder vin polls := by
  obtain ⟨before, p', between, q, after, hsplit, hfirst, hsecond⟩ := h
  cases before with
  | nil =>
    obtain ⟨rfl, rfl⟩ := List.cons.inj hsplit
    exact .inl ⟨hfirst, q, List.mem_append_right _ List.mem_cons_self, hsecond⟩
  | cons x before =>
    obtain ⟨rfl, htail⟩ := List.cons.inj hsplit
    exact .inr ⟨before, p', between, q, after, htail, hfirst, hsecond⟩

theorem InOrder.second (h : InOrder vin polls) : ∃ q ∈ polls, q.Brings (IsFrame2 vin) := by
  obtain ⟨before, p', between, q, after, rfl, -, hsecond⟩ := h
  exact ⟨q, List.mem_append_right _ List.mem_cons_self, hsecond⟩

theorem InOrder.of_append {before : List Poll} (h : InOrder vin (before ++ polls))
    (hnone : ∀ q ∈ before, ¬ q.Brings (IsFrame1 vin)) : InOrder vin polls := by
  induction before with
  | nil => exact h
  | cons q before ih =>
    rcases h.of_cons with hpair | horder
    · exact absurd hpair.1 (hnone q List.mem_cons_self)
    · exact ih horder fun q' hq' => hnone q' (List.mem_cons_of_mem q hq')

theorem first_endsWith (hvin : IsVin vin) {onTime : List Poll} (htime : InTime vin onTime)
    {last : Poll} (hlast : late cfTimeoutMs last = true) (rest : List Poll) :
    EndsWith vin 3 (InOrder vin onTime)
      (receiveConsecutive 1 (vin.take 3) (onTime ++ last :: rest)) := by
  have hroom : (vin.take 3).length < 17 := length_take_lt hvin (by omega)
  have hother : ∀ p ∈ onTime, ∀ f, p.frame = some f → ¬ IsFrame1 vin f →
      isExpected 1 f = false := by
    intro p hp f hf hnot
    rcases htime.traffic p hp f hf with hframe | hframe | hforeign
    · exact absurd hframe hnot
    · exact hframe.expected_eq (by decide) 1
    · exact not_expected_of_foreign hforeign 1
  obtain ⟨hnone, hreceive⟩ | ⟨before, p, after, rfl, hnone, hp, hreceive⟩ :=
    receive_awaits hroom htime.early hother hlast rest
  · refine ⟨3, rest, hreceive, Nat.le_refl _, ?_⟩
    intro horder
    obtain ⟨before, p, between, q, after, rfl, hfirst, -⟩ := horder
    exact absurd hfirst (hnone p (by simp))
  · obtain ⟨f, hf, hframe⟩ := hp
    have hearly := htime.of_append.early p List.mem_cons_self
    have hexpected : isExpected 1 f = true := hframe.expected_eq (by decide) 1
    have hall : InTime vin ([p] ++ after) := htime.of_append
    obtain ⟨n, polls, hsecond, hn, hcomplete⟩ := second_endsWith hvin hall.of_append hlast rest
    refine ⟨n, polls, ?_, by omega, ?_⟩
    · rw [hreceive, List.cons_append, receive_take hroom hearly hf hexpected,
        appendConsecutive_take hvin hframe (by omega)]
      exact hsecond
    · intro horder
      rcases (horder.of_append hnone).of_cons with hpair | horder
      · exact hcomplete hpair.2
      · exact hcomplete horder.second

theorem nonempty_take (hvin : IsVin vin) {n : ℕ} (hn : 3 ≤ n) :
    nonempty (vin.take n) = some (vin.take n) := by
  have hne : vin.take n ≠ [] := by
    intro hnil
    have hlength := congrArg List.length hnil
    rw [List.length_take, hvin.length, List.length_nil] at hlength
    omega
  exact if_neg hne

theorem getVIN_firstFrame {h h' : ObdHandler} {bus bus' : Bus} {ff : CanFrame}
    (hff : IsFirstFrame vin ff)
    (hanswer : h.sendAndReceive (h.buildRequest mode09VehicleInfo pidVin 0) 500 bus =
      some ⟨some ff, h', bus'⟩) :
    h.getVIN bus =
      if bus'.takes = false then some ⟨nonempty (firstFrameVin ff), h', (bus'.send h'.flowControl).2⟩
      else
        match receiveConsecutive 1 (firstFrameVin ff) bus'.polls with
        | none => none
        | some (vin, polls) => some ⟨nonempty vin, h', { (bus'.send h'.flowControl).2 with polls := polls }⟩ := by
  obtain ⟨-, hdata⟩ := hff
  have hbyte : ff.byteAt 0 = 0x10 := by rw [CanFrame.byteAt, hdata]; rfl
  have hpci : pciType ff = 0x1 := by
    rw [pciType, hbyte]
    decide
  have hmode : ff.byteAt 2 = 0x49 := by rw [CanFrame.byteAt, hdata]; rfl
  have hpid : ff.byteAt 3 = pidVin := by rw [CanFrame.byteAt, hdata]; rfl
  rw [getVIN, hanswer]
  simp only [hpci, hmode, hpid]
  rfl

/-- After the first frame, with copies of the consecutive frames and foreign traffic in any order
    until the timeout strikes, the result is a prefix of the VIN; it is the whole VIN if the
    interface has taken the flow control frame and frame 2 came after frame 1. -/
theorem vin_reassembled (vin : List UInt8) (hvin : IsVin vin) (h h' : ObdHandler) (bus bus' : Bus)
    (ff : CanFrame) (hff : IsFirstFrame vin ff)
    (hanswer : h.sendAndReceive (h.buildRequest mode09VehicleInfo pidVin 0) 500 bus =
      some ⟨some ff, h', bus'⟩)
    (onTime : List Poll) (last : Poll) (rest : List Poll)
    (hpolls : bus'.polls = onTime ++ last :: rest) (htime : InTime vin onTime)
    (hlast : late cfTimeoutMs last = true) :
    ∃ answer received, h.getVIN bus = some answer ∧ answer.result = some received ∧
      received <+: vin ∧ (bus'.takes = true → InOrder vin onTime → received = vin) := by
  rw [getVIN_firstFrame hff hanswer, firstFrameVin_take hvin hff, hpolls]
  cases hsent : bus'.takes with
  | false =>
    rw [if_pos rfl, nonempty_take hvin (Nat.le_refl 3)]
    exact ⟨_, vin.take 3, rfl, rfl, List.take_prefix 3 vin, nofun⟩
  | true =>
    obtain ⟨n, polls, hreceive, hn, hcomplete⟩ := first_endsWith hvin htime hlast rest
    rw [if_neg nofun, hreceive]
    refine ⟨_, vin.take n, rfl, nonempty_take hvin hn, List.take_prefix n vin, ?_⟩
    intro _ horder
    rw [hcomplete horder, ← hvin.length, List.take_length]

def exampleVin : List UInt8 :=
  [0x57, 0x56, 0x57, 0x5A, 0x5A, 0x5A, 0x33, 0x43, 0x5A, 0x57, 0x45, 0x31, 0x32, 0x33, 0x34, 0x35,
    0x36]

def ecuFrame (data : Vector UInt8 8) : CanFrame := { id := responseEcu, dlc := 8, data := data }

def exampleFirst : CanFrame := ecuFrame #v[0x10, 0x14, 0x49, 0x02, 0x01, 0x57, 0x56, 0x57]

def example1 : CanFrame := ecuFrame #v[0x21, 0x5A, 0x5A, 0x5A, 0x33, 0x43, 0x5A, 0x57]

def example2 : CanFrame := ecuFrame #v[0x22, 0x45, 0x31, 0x32, 0x33, 0x34, 0x35, 0x36]

/-- Frame 2 comes too early, and again after frame 1. -/
def examplePolls : List Poll :=
  [⟨0, some example2⟩, ⟨1, none⟩, ⟨2, some example1⟩, ⟨3, some example2⟩]

def exampleBus : Bus where
  sends := [true, true]
  polls := ⟨0, some exampleFirst⟩ :: (examplePolls ++ [⟨1000000001, none⟩])

def exampleBus' : Bus where
  sends := [true]
  polls := examplePolls ++ [⟨1000000001, none⟩]
  sent := [buildRequest {} mode09VehicleInfo pidVin 0]

theorem vin_reassembled_example :
    ∃ answer received, getVIN {} exampleBus = some answer ∧ answer.result = some received ∧
      received <+: exampleVin ∧
      (exampleBus'.takes = true → InOrder exampleVin examplePolls → received = exampleVin) := by
  have htime : InTime exampleVin examplePolls := by
    constructor
    · decide
    · intro p hp f hf
      simp only [examplePolls, List.mem_cons, List.not_mem_nil, or_false] at hp
      rcases hp with rfl | rfl | rfl | rfl
      · cases hf
        exact .inr (.inl ⟨rfl, rfl⟩)
      · cases hf
      · cases hf
        exact .inl ⟨rfl, rfl⟩
      · cases hf
        exact .inr (.inl ⟨rfl, rfl⟩)
  have htake : await (late 500) Poll.frame (answers mode09VehicleInfo)
      (⟨0, some exampleFirst⟩ :: (examplePolls ++ [⟨1000000001, none⟩])) =
      some (some exampleFirst, examplePolls ++ [⟨1000000001, none⟩]) :=
    await_take (by simp [late]) rfl (by decide)
  have hanswer : sendAndReceive {} (buildRequest {} mode09VehicleInfo pidVin 0) 500 exampleBus =
      some ⟨some exampleFirst, { requestCount := 1 }, exampleBus'⟩ := by
    simp [sendAndReceive, Bus.send, Bus.takes, effectiveTimeout, exampleBus, exampleBus', htake]
  exact vin_reassembled exampleVin ⟨rfl, by decide +kernel⟩ {} { requestCount := 1 } exampleBus
    exampleBus' exampleFirst ⟨rfl, rfl⟩ hanswer examplePolls ⟨1000000001, none⟩ [] rfl htime
    (by simp [late, milliseconds, cfTimeoutMs])

end Loop

end SpeeduinoDash.ObdHandler
