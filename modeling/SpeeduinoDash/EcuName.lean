import Mathlib.Tactic.IntervalCases
import SpeeduinoDash.Lib.IsoTp
import SpeeduinoDash.VinReassembly

set_option autoImplicit false

/-!
# Reading the name of the ECU

A zero byte ends the name. The reader looks for it frame by frame, and does not look at the
declared length.
-/
namespace SpeeduinoDash.ObdHandler
open Lib.Await Lib.IsoTp

def pidEcuName : UInt8 := 0x0A
def maxEcuNameLen : ℕ := 20

def untilNull (bytes : List UInt8) : List UInt8 := bytes.takeWhile (fun byte => byte != 0)

def singleFrameName (response : CanFrame) : List UInt8 :=
  untilNull [response.byteAt 4, response.byteAt 5, response.byteAt 6, response.byteAt 7]

def firstFrameName (response : CanFrame) : List UInt8 :=
  untilNull [response.byteAt 5, response.byteAt 6, response.byteAt 7]

def appendName : List UInt8 → List UInt8 → List UInt8
  | name, [] => name
  | name, byte :: bytes =>
    if name.length < maxEcuNameLen then
      if byte ≠ 0 then appendName (name ++ [byte]) bytes
      else name -- null terminator found
    else name

def consecutiveBytes (f : CanFrame) : List UInt8 :=
  [f.byteAt 1, f.byteAt 2, f.byteAt 3, f.byteAt 4, f.byteAt 5, f.byteAt 6, f.byteAt 7]

/-- None when the polls run out: it is still waiting. -/
def receiveName (expectedSeq : UInt8) (name : List UInt8) :
    List Poll → Option (List UInt8 × List Poll)
  | [] => if name.length < maxEcuNameLen then none else some (name, [])
  | p :: polls =>
    if ¬ name.length < maxEcuNameLen then some (name, p :: polls)
    else if late cfTimeoutMs p then some (name, polls)
    else
      match p.frame with
      | none => receiveName expectedSeq name polls
      | some f =>
        if isExpected expectedSeq f then
          if 0 ∈ consecutiveBytes f then some (appendName name (consecutiveBytes f), polls)
          else receiveName (expectedSeq + 1) (appendName name (consecutiveBytes f)) polls
        else receiveName expectedSeq name polls

/-- A response that is neither a single nor a first frame leaves the name empty. -/
def getECUName (h : ObdHandler) (bus : Bus) : Option (Answer (Option (List UInt8))) :=
  match h.sendAndReceive (h.buildRequest mode09VehicleInfo pidEcuName 0) 500 bus with
  | none => none
  | some ⟨none, h, bus⟩ => some ⟨none, h, bus⟩
  | some ⟨some response, h, bus⟩ =>
    if pciType response = 0x0 then
      if response.byteAt 1 ≠ 0x49 ∨ response.byteAt 2 ≠ pidEcuName then some ⟨none, h, bus⟩
      else some ⟨nonempty (singleFrameName response), h, bus⟩
    else if pciType response = 0x1 then
      if response.byteAt 2 ≠ 0x49 ∨ response.byteAt 3 ≠ pidEcuName then some ⟨none, h, bus⟩
      else
        let name := firstFrameName response
        let (sent, bus) := bus.send h.flowControl
        if sent = false then some ⟨nonempty name, h, bus⟩
        else
          match receiveName 1 name bus.polls with
          | none => none
          | some (name, polls) => some ⟨nonempty name, h, { bus with polls := polls }⟩
    else some ⟨nonempty [], h, bus⟩

section Bytes

variable {a b : List UInt8}

theorem untilNull_cons (byte : UInt8) (bytes : List UInt8) :
    untilNull (byte :: bytes) = if byte = 0 then [] else byte :: untilNull bytes := by
  by_cases hbyte : byte = 0
  · simp [untilNull, hbyte]
  · simp [untilNull, hbyte]

theorem untilNull_append_of_mem (h : 0 ∈ a) (b : List UInt8) :
    untilNull (a ++ b) = untilNull a := by
  induction a with
  | nil => cases h
  | cons byte a ih =>
    rw [List.cons_append, untilNull_cons, untilNull_cons]
    by_cases hbyte : byte = 0
    · rw [if_pos hbyte, if_pos hbyte]
    · have hmem : 0 ∈ a := by simpa [Ne.symm hbyte] using h
      rw [if_neg hbyte, if_neg hbyte, ih hmem]

theorem untilNull_append (h : 0 ∉ a) (b : List UInt8) :
    untilNull (a ++ b) = a ++ untilNull b := by
  apply List.takeWhile_append_of_pos
  intro byte hbyte
  have hne : byte ≠ 0 := fun hzero => h (hzero ▸ hbyte)
  simpa using hne

theorem untilNull_self (h : 0 ∉ a) : untilNull a = a := by
  simpa [untilNull] using untilNull_append h []

theorem isPrefix_untilNull (a : List UInt8) : untilNull a <+: a :=
  List.takeWhile_prefix (fun byte => byte != 0)

theorem untilNull_eq_nil_iff (a : List UInt8) : untilNull a = [] ↔ a.headD 0 = 0 := by
  cases a with
  | nil => exact iff_of_true rfl rfl
  | cons byte a =>
    rw [untilNull_cons]
    by_cases hbyte : byte = 0
    · simp [hbyte]
    · simp [hbyte]

theorem take_take_append (n : ℕ) (a b : List UInt8) : (a.take n ++ b).take n = (a ++ b).take n := by
  rw [List.take_append, List.take_append, List.take_take, Nat.min_self, List.length_take]
  congr 2
  omega

/-- Only what fits is appended. -/
theorem appendName_eq (name bytes : List UInt8) (h : name.length ≤ maxEcuNameLen) :
    appendName name bytes = (name ++ untilNull bytes).take maxEcuNameLen := by
  induction bytes generalizing name with
  | nil =>
    rw [appendName, show untilNull [] = [] from rfl, List.append_nil, List.take_of_length_le h]
  | cons byte bytes ih =>
    rw [appendName]
    by_cases hroom : name.length < maxEcuNameLen
    · rw [if_pos hroom]
      by_cases hbyte : byte = 0
      · rw [if_neg (not_not.mpr hbyte), (untilNull_eq_nil_iff (byte :: bytes)).mpr hbyte,
          List.append_nil, List.take_of_length_le h]
      · have hlength : (name ++ [byte]).length ≤ maxEcuNameLen := by
          rw [List.length_append, List.length_singleton]
          omega
        rw [if_pos hbyte, ih (name ++ [byte]) hlength, untilNull_cons, if_neg hbyte,
          List.append_assoc]
        rfl
    · have hfull : name.length = maxEcuNameLen := by omega
      rw [if_neg hroom, List.take_append_of_le_length (Nat.le_of_eq hfull.symm), ← hfull,
        List.take_length]

def nameRead (payload padding : List UInt8) : List UInt8 :=
  if payload.length ≤ 4 then untilNull (payload ++ padding)
  else (untilNull (payload.take 3) ++ untilNull (payload.drop 3 ++ padding)).take maxEcuNameLen

/-- A zero among the first three bytes of several frames is followed by another at the fourth; a
    name without a zero is full or followed by one. -/
def Readable (payload padding : List UInt8) : Prop :=
  if 0 ∈ payload then 4 < payload.length → 0 ∈ payload.take 3 → payload.getD 3 0 = 0
  else payload.length = maxEcuNameLen ∨ padding.headD 0 = 0

theorem append_take_eq_iff (h : a.length ≤ maxEcuNameLen) :
    (a ++ b).take maxEcuNameLen = a ↔ a.length = maxEcuNameLen ∨ b = [] := by
  constructor
  · intro heq
    have hlength := congrArg List.length heq
    rw [List.length_take, List.length_append] at hlength
    by_cases hfull : a.length = maxEcuNameLen
    · exact .inl hfull
    · right
      apply List.eq_nil_of_length_eq_zero
      omega
  · rintro (hfull | rfl)
    · rw [List.take_append_of_le_length (Nat.le_of_eq hfull.symm), ← hfull, List.take_length]
    · rw [List.append_nil, List.take_of_length_le h]

/-- The end is in the first frame: what the others bring is appended all the same. -/
theorem append_rest_eq_iff (hfirst : 0 ∈ a) (hshort : a.length ≤ 3) (hb : b ≠ [])
    (padding : List UInt8) :
    (untilNull a ++ untilNull (b ++ padding)).take maxEcuNameLen = untilNull (a ++ b) ↔
      b.headD 0 = 0 := by
  have hlength : (untilNull a).length ≤ 3 := (isPrefix_untilNull a).length_le.trans hshort
  have hcap : maxEcuNameLen = 20 := rfl
  have hhead : (b ++ padding).headD 0 = b.headD 0 := by
    cases b with
    | nil => exact absurd rfl hb
    | cons byte b => rfl
  rw [untilNull_append_of_mem hfirst, append_take_eq_iff (by omega), untilNull_eq_nil_iff, hhead]
  constructor
  · intro heq
    rcases heq with hfull | hzero
    · omega
    · exact hzero
  · exact Or.inr

theorem headD_drop (payload : List UInt8) (n : ℕ) :
    (payload.drop n).headD 0 = payload.getD n 0 := by
  rw [List.headD_eq_head?_getD, List.head?_drop, List.getD_eq_getElem?_getD]

theorem nameRead_eq_iff (payload padding : List UInt8) (h : payload.length ≤ maxEcuNameLen) :
    nameRead payload padding = untilNull payload ↔ Readable payload padding := by
  have hsplit : payload.take 3 ++ payload.drop 3 = payload := List.take_append_drop 3 payload
  unfold nameRead Readable
  by_cases hnull : 0 ∈ payload
  · rw [if_pos hnull]
    by_cases hfits : payload.length ≤ 4
    · rw [if_pos hfits, untilNull_append_of_mem hnull]
      exact iff_of_true rfl (fun hlong => absurd hfits (Nat.not_le.mpr hlong))
    rw [if_neg hfits]
    by_cases hfirst : 0 ∈ payload.take 3
    · have hrest : payload.drop 3 ≠ [] := by
        intro hnil
        have hzero := List.drop_eq_nil_iff.mp hnil
        omega
      have hiff := append_rest_eq_iff hfirst (List.length_take_le 3 payload) hrest padding
      rw [hsplit, headD_drop] at hiff
      rw [hiff]
      exact ⟨fun hzero _ _ => hzero, fun hzero => hzero (Nat.not_le.mp hfits) hfirst⟩
    · have hrest : 0 ∈ payload.drop 3 := by
        rw [← hsplit] at hnull
        exact (List.mem_append.mp hnull).resolve_left hfirst
      rw [untilNull_append_of_mem hrest, untilNull_self hfirst, ← untilNull_append hfirst, hsplit,
        List.take_of_length_le ((isPrefix_untilNull payload).length_le.trans h)]
      exact iff_of_true rfl (fun _ hmem => absurd hmem hfirst)
  · rw [if_neg hnull, untilNull_self hnull]
    by_cases hfits : payload.length ≤ 4
    · have hroom : payload.length ≠ maxEcuNameLen := by
        intro hfull
        rw [hfull] at hfits
        cases Nat.not_lt.mpr hfits (by decide)
      rw [if_pos hfits, untilNull_append hnull, List.append_right_eq_self, untilNull_eq_nil_iff]
      exact ⟨Or.inr, fun hend => hend.resolve_left hroom⟩
    · have hfirst : 0 ∉ payload.take 3 := fun hmem => hnull (List.mem_of_mem_take hmem)
      have hrest : 0 ∉ payload.drop 3 := fun hmem => hnull (List.mem_of_mem_drop hmem)
      rw [if_neg hfits, untilNull_append hrest, untilNull_self hfirst, ← List.append_assoc, hsplit,
        append_take_eq_iff h, untilNull_eq_nil_iff]

end Bytes

section Loop

variable {expectedSeq : UInt8} {name : List UInt8} {p : Poll} {polls : List Poll}

theorem receiveName_full (h : ¬ name.length < maxEcuNameLen) :
    receiveName expectedSeq name polls = some (name, polls) := by
  cases polls with
  | nil => rw [receiveName, if_neg h]
  | cons p polls => rw [receiveName, if_pos h]

theorem receiveName_late (h : name.length < maxEcuNameLen) (hlate : late cfTimeoutMs p = true) :
    receiveName expectedSeq name (p :: polls) = some (name, polls) := by
  rw [receiveName, if_neg (not_not.mpr h), if_pos hlate]

theorem receiveName_skip (h : name.length < maxEcuNameLen) (hlate : late cfTimeoutMs p = false)
    (hframe : ∀ f, p.frame = some f → isExpected expectedSeq f = false) :
    receiveName expectedSeq name (p :: polls) = receiveName expectedSeq name polls := by
  rw [receiveName, if_neg (not_not.mpr h), if_neg (by simp [hlate])]
  cases hf : p.frame with
  | none => rfl
  | some f => exact if_neg (by simp [hframe f hf])

theorem receiveName_take {f : CanFrame} (h : name.length < maxEcuNameLen)
    (hlate : late cfTimeoutMs p = false) (hf : p.frame = some f)
    (hexpected : isExpected expectedSeq f = true) :
    receiveName expectedSeq name (p :: polls) =
      if 0 ∈ consecutiveBytes f then some (appendName name (consecutiveBytes f), polls)
      else receiveName (expectedSeq + 1) (appendName name (consecutiveBytes f)) polls := by
  rw [receiveName, if_neg (not_not.mpr h), if_neg (by simp [hlate]), hf]
  exact if_pos hexpected

def consecutiveOf (p : Poll) : Option (Vector UInt8 8) :=
  p.frame.bind (fun f => if f.id = responseEcu ∧ pciType f = 0x2 then some f.data else none)

def FollowInTime (frames : List (Vector UInt8 8)) (polls : List Poll) : Prop :=
  ∃ onTime last rest, polls = onTime ++ last :: rest ∧
    (∀ q ∈ onTime, late cfTimeoutMs q = false) ∧ onTime.filterMap consecutiveOf = frames ∧
    late cfTimeoutMs last = true

theorem toList_data (f : CanFrame) : f.data.toList = [f.byteAt 0, f.byteAt 1, f.byteAt 2,
    f.byteAt 3, f.byteAt 4, f.byteAt 5, f.byteAt 6, f.byteAt 7] := by
  apply List.ext_getElem
  · simp
  · intro i hi hi'
    have hlt : i < 8 := by simpa using hi
    rw [Vector.getElem_toList]
    interval_cases i <;> rfl

theorem isExpected_consecutive {f : CanFrame} {k : ℕ} {contents : List UInt8}
    (hid : f.id = responseEcu) (hpci : pciType f = 0x2)
    (hdata : f.data.toList = UInt8.ofNat (0x20 + k % 16) :: contents) :
    isExpected (UInt8.ofNat k) f = true := by
  have hbyte : f.byteAt 0 = UInt8.ofNat (0x20 + k % 16) := by
    rw [toList_data] at hdata
    exact (List.cons.inj hdata).1
  have hnumber : (UInt8.ofNat (0x20 + k % 16) &&& 0x0F) = (UInt8.ofNat k &&& 0x0F) := by
    have hmod : ∀ r < 16, (UInt8.ofNat (0x20 + r) &&& 0x0F) = UInt8.ofNat r := by decide
    rw [hmod (k % 16) (by omega)]
    apply UInt8.toNat_inj.mp
    rw [UInt8.toNat_and, UInt8.toNat_ofNat', UInt8.toNat_ofNat']
    change k % 16 % 2 ^ 8 = k % 2 ^ 8 &&& 2 ^ 4 - 1
    rw [Nat.and_two_pow_sub_one_eq_mod]
    omega
  rw [isExpected, sequenceNumber, hid, hpci, hbyte, hnumber]
  simp

theorem consecutiveBytes_eq {f : CanFrame} {pci : UInt8} {contents : List UInt8}
    (hdata : f.data.toList = pci :: contents) : consecutiveBytes f = contents := by
  rw [toList_data] at hdata
  exact (List.cons.inj hdata).2

theorem consecutiveOf_eq_none (hframe : consecutiveOf p = none) {f : CanFrame}
    (hf : p.frame = some f) (expectedSeq : UInt8) : isExpected expectedSeq f = false := by
  rw [consecutiveOf, hf, Option.bind_some] at hframe
  apply not_expected_of_foreign
  by_contra hnone
  rw [not_or, not_not, not_not] at hnone
  rw [if_pos hnone] at hframe
  cases hframe

theorem consecutiveOf_eq_some {data : Vector UInt8 8} (hframe : consecutiveOf p = some data) :
    ∃ f, p.frame = some f ∧ f.id = responseEcu ∧ pciType f = 0x2 ∧ f.data = data := by
  rw [consecutiveOf] at hframe
  obtain ⟨f, hf, hif⟩ := Option.bind_eq_some_iff.mp hframe
  by_cases hours : f.id = responseEcu ∧ pciType f = 0x2
  · rw [if_pos hours] at hif
    exact ⟨f, hf, hours.1, hours.2, Option.some.inj hif⟩
  · rw [if_neg hours] at hif
    cases hif

theorem receiveName_stream {k : ℕ} {stream : List UInt8} {frames : List (Vector UInt8 8)}
    (hframes : Consecutive k stream frames) (hname : name.length ≤ maxEcuNameLen)
    (hfollow : FollowInTime frames polls) :
    ∃ rest, receiveName (UInt8.ofNat k) name polls =
      some ((name ++ untilNull stream).take maxEcuNameLen, rest) := by
  obtain ⟨onTime, last, rest, rfl, hearly, hours, hlast⟩ := hfollow
  induction onTime generalizing k stream frames name with
  | nil =>
    obtain rfl := hours
    cases hframes
    rw [show untilNull [] = [] from rfl, List.append_nil, List.take_of_length_le hname]
    by_cases hroom : name.length < maxEcuNameLen
    · exact ⟨rest, receiveName_late hroom hlast⟩
    · exact ⟨_, receiveName_full hroom⟩
  | cons p onTime ih =>
    by_cases hroom : name.length < maxEcuNameLen
    swap
    · have hfull : name.length = maxEcuNameLen := by omega
      refine ⟨p :: onTime ++ last :: rest, ?_⟩
      rw [receiveName_full hroom, List.take_append_of_le_length (Nat.le_of_eq hfull.symm), ← hfull,
        List.take_length]
    have hintime := hearly p List.mem_cons_self
    have htail : ∀ q ∈ onTime, late cfTimeoutMs q = false :=
      fun q hq => hearly q (List.mem_cons_of_mem p hq)
    cases hp : consecutiveOf p with
    | none =>
      rw [List.filterMap_cons_none hp] at hours
      rw [List.cons_append, receiveName_skip hroom hintime
        (fun f hf => consecutiveOf_eq_none hp hf (UInt8.ofNat k))]
      exact ih hframes hname htail hours
    | some data =>
      rw [List.filterMap_cons_some hp] at hours
      obtain ⟨f, hf, hid, hpci, rfl⟩ := consecutiveOf_eq_some hp
      subst hours
      cases hframes with
      | @cons _ contents stream _ _ hdata hrest =>
        have hbytes := consecutiveBytes_eq hdata
        have hnext : UInt8.ofNat k + 1 = UInt8.ofNat (k + 1) := (UInt8.ofNat_add k 1).symm
        rw [List.cons_append, receiveName_take hroom hintime hf
          (isExpected_consecutive hid hpci hdata), hbytes, appendName_eq name contents hname, hnext]
        by_cases hnull : 0 ∈ contents
        · rw [if_pos hnull, untilNull_append_of_mem hnull]
          exact ⟨_, rfl⟩
        · have hcap : ((name ++ contents).take maxEcuNameLen).length ≤ maxEcuNameLen :=
            List.length_take_le _ _
          obtain ⟨left, hreceive⟩ := ih hrest hcap htail rfl
          rw [if_neg hnull, untilNull_self hnull, untilNull_append hnull, hreceive,
            take_take_append, List.append_assoc]
          exact ⟨left, rfl⟩

end Loop

section Message

variable {items : UInt8} {payload padding : List UInt8}

def nameMessage (items : UInt8) (payload : List UInt8) : List UInt8 :=
  0x49 :: pidEcuName :: items :: payload

/-- The request is sent, and the ECU answers with the frames of the message. Before the first one
    nothing comes that passes for an answer, and the wait is not over. The others come in order
    once the flow control frame is sent. -/
structure SendsMessage (message padding : List UInt8) (bus : Bus) : Prop where
  takes : bus.takes = true
  comes : ∃ quiet p polls first more, bus.polls = quiet ++ p :: polls ∧
    (∀ q ∈ quiet, late 500 q = false ∧
      ∀ f, q.frame = some f → answers mode09VehicleInfo f = false) ∧
    late 500 p = false ∧ p.frame = some first ∧ first.id = responseEcu ∧
    Frames message padding (first.data :: more) ∧
    (more ≠ [] → bus.sends.tail.headD false = true ∧ FollowInTime more polls)

structure SingleName (name : List UInt8) (f : CanFrame) : Prop where
  type : pciType f = 0x0
  mode : f.byteAt 1 = 0x49
  pid : f.byteAt 2 = pidEcuName
  name : singleFrameName f = untilNull name

theorem singleName_of_data {f : CanFrame} (hfits : payload.length ≤ 4)
    (hdata : f.data.toList =
      UInt8.ofNat (nameMessage items payload).length :: (nameMessage items payload ++ padding)) :
    SingleName (payload ++ padding) f := by
  rw [toList_data] at hdata
  obtain ⟨hpci, hrest⟩ := List.cons.inj hdata
  obtain ⟨hmode, hrest⟩ := List.cons.inj hrest
  obtain ⟨hpid, hrest⟩ := List.cons.inj hrest
  obtain ⟨-, hbytes⟩ := List.cons.inj hrest
  have hsmall : ∀ n ≤ 4, (UInt8.ofNat (n + 1 + 1 + 1) >>> 4) &&& 0x0F = 0x0 := by decide
  refine ⟨?_, hmode, hpid, congrArg untilNull hbytes⟩
  rw [pciType, hpci]
  exact hsmall payload.length hfits

structure FirstName (name : List UInt8) (f : CanFrame) : Prop where
  type : pciType f = 0x1
  mode : f.byteAt 2 = 0x49
  pid : f.byteAt 3 = pidEcuName
  name : firstFrameName f = untilNull name

theorem firstName_of_data {f : CanFrame} (hlength : payload.length ≤ maxEcuNameLen)
    (hdata : f.data.toList = UInt8.ofNat (0x10 + (nameMessage items payload).length / 256) ::
      UInt8.ofNat ((nameMessage items payload).length % 256) ::
        (nameMessage items payload).take 6) :
    FirstName (payload.take 3) f := by
  have hcap : (nameMessage items payload).length / 256 = 0 := by
    change (payload.length + 1 + 1 + 1) / 256 = 0
    have hmax : maxEcuNameLen = 20 := rfl
    omega
  rw [toList_data, hcap] at hdata
  obtain ⟨hpci, hrest⟩ := List.cons.inj hdata
  obtain ⟨-, hrest⟩ := List.cons.inj hrest
  obtain ⟨hmode, hrest⟩ := List.cons.inj hrest
  obtain ⟨hpid, hrest⟩ := List.cons.inj hrest
  obtain ⟨-, hbytes⟩ := List.cons.inj hrest
  refine ⟨?_, hmode, hpid, congrArg untilNull hbytes⟩
  rw [pciType, hpci]
  decide

theorem getECUName_single {h h' : ObdHandler} {bus bus' : Bus} {f : CanFrame}
    (hfirst : SingleName (payload ++ padding) f)
    (hanswer : h.sendAndReceive (h.buildRequest mode09VehicleInfo pidEcuName 0) 500 bus =
      some ⟨some f, h', bus'⟩) :
    h.getECUName bus = some ⟨nonempty (untilNull (payload ++ padding)), h', bus'⟩ := by
  rw [getECUName, hanswer]
  simp only [hfirst.type, hfirst.mode, hfirst.pid, hfirst.name]
  rfl

theorem getECUName_multi {h h' : ObdHandler} {bus bus' : Bus} {f : CanFrame}
    {more : List (Vector UInt8 8)} (hfirst : FirstName (payload.take 3) f)
    (hmore : Consecutive 1 (payload.drop 3 ++ padding) more)
    (hanswer : h.sendAndReceive (h.buildRequest mode09VehicleInfo pidEcuName 0) 500 bus =
      some ⟨some f, h', bus'⟩)
    (hsent : bus'.takes = true) (hfollow : FollowInTime more bus'.polls) :
    ∃ answer, h.getECUName bus = some answer ∧
      answer.result = nonempty ((untilNull (payload.take 3) ++
        untilNull (payload.drop 3 ++ padding)).take maxEcuNameLen) := by
  have hroom : (untilNull (payload.take 3)).length ≤ maxEcuNameLen :=
    ((isPrefix_untilNull (payload.take 3)).length_le.trans (List.length_take_le 3 payload)).trans
      (by decide)
  obtain ⟨rest, hreceive⟩ := receiveName_stream hmore hroom hfollow
  have hreceive' : receiveName 1 (untilNull (payload.take 3)) bus'.polls = some _ := hreceive
  rw [getECUName, hanswer]
  simp only [hfirst.type, hfirst.mode, hfirst.pid, hfirst.name, Bus.send, hsent, hreceive']
  exact ⟨_, rfl, rfl⟩

/-- A name is sent in a single frame, or in a first one and those that follow. -/
theorem nameMessage_frames {f : CanFrame} {more : List (Vector UInt8 8)}
    (hlength : payload.length ≤ maxEcuNameLen)
    (hframes : Frames (nameMessage items payload) padding (f.data :: more)) :
    (payload.length ≤ 4 ∧ SingleName (payload ++ padding) f) ∨
    (4 < payload.length ∧ FirstName (payload.take 3) f ∧
      Consecutive 1 (payload.drop 3 ++ padding) more) := by
  have hmessage : (nameMessage items payload).length = payload.length + 1 + 1 + 1 := rfl
  by_cases hfits : payload.length ≤ 4
  · obtain ⟨data, hlist, hdata⟩ := frames_single (by omega) hframes
    obtain ⟨rfl, -⟩ := List.cons.inj hlist
    exact .inl ⟨hfits, singleName_of_data hfits hdata⟩
  · obtain ⟨data, rest, hlist, hdata, hmore⟩ := frames_multi (by omega) hframes
    obtain ⟨rfl, rfl⟩ := List.cons.inj hlist
    exact .inr ⟨Nat.not_le.mp hfits, firstName_of_data hlength hdata, hmore⟩

theorem answers_nameMessage {f : CanFrame} {more : List (Vector UInt8 8)}
    (hid : f.id = responseEcu) (hlength : payload.length ≤ maxEcuNameLen)
    (hframes : Frames (nameMessage items payload) padding (f.data :: more)) :
    answers mode09VehicleInfo f = true := by
  obtain ⟨-, hfirst⟩ | ⟨-, hfirst, -⟩ := nameMessage_frames hlength hframes
  · simp [answers, hid, hfirst.type, hfirst.mode, mode09VehicleInfo]
  · simp [answers, hid, hfirst.type, hfirst.mode, mode09VehicleInfo]

theorem getECUName_reads {h : ObdHandler} {bus : Bus} (hlength : payload.length ≤ maxEcuNameLen)
    (hsends : SendsMessage (nameMessage items payload) padding bus) :
    ∃ answer, h.getECUName bus = some answer ∧
      answer.result = nonempty (nameRead payload padding) := by
  obtain ⟨htakes, quiet, p, polls, first, more, hpolls, hquiet, htime, hfirst, hid, hframes,
    hothers⟩ := hsends
  have htake : await (late 500) Poll.frame (answers mode09VehicleInfo) bus.polls =
      some (some first, polls) := by
    rw [hpolls, await_append hquiet,
      await_take htime hfirst (answers_nameMessage hid hlength hframes)]
  obtain ⟨h', hanswer⟩ : ∃ h', h.sendAndReceive
      (h.buildRequest mode09VehicleInfo pidEcuName 0) 500 bus = some ⟨some first, h',
        { (bus.send (h.buildRequest mode09VehicleInfo pidEcuName 0)).2 with polls := polls }⟩ := by
    obtain ⟨hsent, -⟩ | ⟨-, hawait, -⟩ | ⟨-, frame, left, h', hawait, hsend⟩ :=
      h.sendAndReceive_cases (h.buildRequest mode09VehicleInfo pidEcuName 0) 500 bus
    · rw [htakes] at hsent
      cases hsent
    · rw [buildRequest_mode] at hawait
      cases htake.symm.trans hawait
    · rw [buildRequest_mode] at hawait
      cases htake.symm.trans hawait
      exact ⟨h', hsend⟩
  unfold nameRead
  obtain ⟨hfits, hname⟩ | ⟨hlong, hname, hmore⟩ := nameMessage_frames hlength hframes
  · rw [if_pos hfits]
    exact ⟨_, getECUName_single hname hanswer, rfl⟩
  · have hne : more ≠ [] := by
      rintro rfl
      generalize hcontents : payload.drop 3 ++ padding = stream at hmore
      cases hmore
      have hnil := (List.append_eq_nil_iff.mp hcontents).1
      have hzero := List.drop_eq_nil_iff.mp hnil
      omega
    obtain ⟨hsent, hfollow⟩ := hothers hne
    rw [if_neg (Nat.not_le.mpr hlong)]
    exact getECUName_multi hname hmore hanswer hsent hfollow

theorem nonempty_inj {a b : List UInt8} (h : nonempty a = nonempty b) : a = b := by
  unfold nonempty at h
  by_cases ha : a = []
  · by_cases hb : b = []
    · rw [ha, hb]
    · rw [if_pos ha, if_neg hb] at h
      cases h
  · by_cases hb : b = []
    · rw [if_neg ha, if_pos hb] at h
      cases h
    · rw [if_neg ha, if_neg hb] at h
      exact Option.some.inj h

/-- The bytes before the first zero are the result exactly for the readable names. -/
theorem ecuName_iff (items : UInt8) (payload padding : List UInt8)
    (hlength : payload.length ≤ maxEcuNameLen) (h : ObdHandler) (bus : Bus)
    (hsends : SendsMessage (nameMessage items payload) padding bus) :
    (∃ answer, h.getECUName bus = some answer ∧ answer.result = nonempty (untilNull payload)) ↔
      Readable payload padding := by
  obtain ⟨answer, hanswer, hresult⟩ := getECUName_reads (h := h) hlength hsends
  rw [← nameRead_eq_iff payload padding hlength]
  constructor
  · rintro ⟨answer', hanswer', hresult'⟩
    cases hanswer.symm.trans hanswer'
    exact nonempty_inj (hresult.symm.trans hresult')
  · intro heq
    exact ⟨answer, hanswer, by rw [hresult, heq]⟩

def nameBus (first next : Vector UInt8 8) : Bus where
  sends := [true, true]
  polls := [⟨0, some (ecuFrame first)⟩, ⟨1, some (ecuFrame next)⟩, ⟨1000000001, none⟩]

theorem sendsMessage_nameBus {message padding : List UInt8} {first next : Vector UInt8 8}
    (hframes : Frames message padding [first, next])
    (hpci : pciType (ecuFrame next) = 0x2) : SendsMessage message padding (nameBus first next) := by
  refine ⟨rfl, [], ⟨0, some (ecuFrame first)⟩, _, ecuFrame first, [next], rfl, by simp,
    by simp [late], rfl, rfl, hframes, ?_⟩
  intro _
  refine ⟨rfl, [⟨1, some (ecuFrame next)⟩], ⟨1000000001, none⟩, [], rfl,
    by simp [late, milliseconds, cfTimeoutMs], ?_, by decide⟩
  have hframe : consecutiveOf ⟨1, some (ecuFrame next)⟩ = some next := if_pos ⟨rfl, hpci⟩
  rw [List.filterMap_cons_some hframe]
  rfl

/-- The name ME9.2 in frames padded with 0x55. -/
def paddedBus : Bus :=
  nameBus #v[0x10, 0x08, 0x49, 0x0A, 0x01, 0x4D, 0x45, 0x39]
    #v[0x21, 0x2E, 0x32, 0x55, 0x55, 0x55, 0x55, 0x55]

theorem paddedBus_sends : SendsMessage (nameMessage 0x01 [0x4D, 0x45, 0x39, 0x2E, 0x32])
    [0x55, 0x55, 0x55, 0x55, 0x55] paddedBus :=
  sendsMessage_nameBus rfl (by decide)

theorem ecuName_iff_padded :
    (∃ answer, getECUName {} paddedBus = some answer ∧
      answer.result = nonempty (untilNull [0x4D, 0x45, 0x39, 0x2E, 0x32])) ↔
      Readable [0x4D, 0x45, 0x39, 0x2E, 0x32] [0x55, 0x55, 0x55, 0x55, 0x55] :=
  ecuName_iff 0x01 [0x4D, 0x45, 0x39, 0x2E, 0x32] [0x55, 0x55, 0x55, 0x55, 0x55] (by decide) {}
    paddedBus paddedBus_sends

def endedBus : Bus :=
  nameBus #v[0x10, 0x08, 0x49, 0x0A, 0x01, 0x45, 0x00, 0x4D]
    #v[0x21, 0x39, 0x32, 0x00, 0x00, 0x00, 0x00, 0x00]

/-- Padding is read as ME9.2UUUUU, and a name that ends in the first frame goes on as E92. -/
theorem ecuName_misread :
    (SendsMessage (nameMessage 0x01 [0x4D, 0x45, 0x39, 0x2E, 0x32])
        [0x55, 0x55, 0x55, 0x55, 0x55] paddedBus ∧
      (getECUName {} paddedBus).map Answer.result =
        some (some [0x4D, 0x45, 0x39, 0x2E, 0x32, 0x55, 0x55, 0x55, 0x55, 0x55]) ∧
      nonempty (untilNull [0x4D, 0x45, 0x39, 0x2E, 0x32]) =
        some [0x4D, 0x45, 0x39, 0x2E, 0x32]) ∧
    (SendsMessage (nameMessage 0x01 [0x45, 0x00, 0x4D, 0x39, 0x32]) [0, 0, 0, 0, 0] endedBus ∧
      (getECUName {} endedBus).map Answer.result = some (some [0x45, 0x39, 0x32]) ∧
      nonempty (untilNull [0x45, 0x00, 0x4D, 0x39, 0x32]) = some [0x45]) := by
  refine ⟨⟨paddedBus_sends, by decide +kernel, by decide⟩, ?_, by decide +kernel, by decide⟩
  exact sendsMessage_nameBus rfl (by decide)

end Message

end SpeeduinoDash.ObdHandler
