import SpeeduinoDash.DtcReader
import SpeeduinoDash.Lib.IsoTp

set_option autoImplicit false

/-!
# Reports of trouble codes

Up to two codes fit into a single frame. The readers take a first frame for an answer as well and
then look for the mode where a single frame has it.
-/
namespace SpeeduinoDash.ObdHandler
open Lib.ArrayReads Lib.Await Lib.IsoTp

/-- The number of codes is sent as a byte. -/
structure DtcReport where
  codes : List (UInt8 × UInt8)
  nonzero : ∀ code ∈ codes, code.1 ≠ 0 ∨ code.2 ≠ 0
  short : codes.length < 256

def codeBytes (codes : List (UInt8 × UInt8)) : List UInt8 :=
  codes.flatMap (fun code => [code.1, code.2])

def DtcReport.message (report : DtcReport) (mode : UInt8) : List UInt8 :=
  (mode + 0x40) :: UInt8.ofNat report.codes.length :: codeBytes report.codes

/-- The request is sent, and the frames of the message come in order. Before the first one nothing
    comes that passes for an answer, and the wait is not over. -/
structure Delivers (h : ObdHandler) (mode : UInt8) (message : List UInt8) (bus : Bus) : Prop where
  takes : bus.takes = true
  comes : ∃ quiet p rest first more, bus.polls = quiet ++ p :: rest ∧
    (∀ q ∈ quiet, late h.timeoutMs q = false ∧ ∀ f, q.frame = some f → answers mode f = false) ∧
    late h.timeoutMs p = false ∧ p.frame = some first ∧
    more.Sublist (rest.filterMap Poll.frame) ∧
    List.Forall₂ (fun f contents => f.id = responseEcu ∧ Carries f.data contents)
      (first :: more) (segments message)

theorem length_codeBytes (codes : List (UInt8 × UInt8)) :
    (codeBytes codes).length = 2 * codes.length := by
  induction codes with
  | nil => rfl
  | cons code codes ih =>
    change (code.1 :: code.2 :: codeBytes codes).length = _
    rw [List.length_cons, List.length_cons, ih, List.length_cons]
    omega

theorem length_message (report : DtcReport) (mode : UInt8) :
    (report.message mode).length = 2 + 2 * report.codes.length := by
  rw [DtcReport.message, List.length_cons, List.length_cons, length_codeBytes]
  omega

theorem codeBytes_get {codes : List (UInt8 × UInt8)} {i : ℕ} {code : UInt8 × UInt8}
    (h : codes[i]? = some code) :
    (codeBytes codes)[i * 2]? = some code.1 ∧ (codeBytes codes)[i * 2 + 1]? = some code.2 := by
  induction codes generalizing i with
  | nil => simp at h
  | cons first codes ih =>
    change (first.1 :: first.2 :: codeBytes codes)[i * 2]? = _ ∧
      (first.1 :: first.2 :: codeBytes codes)[i * 2 + 1]? = _
    cases i with
    | zero =>
      obtain rfl := Option.some.inj h
      exact ⟨rfl, rfl⟩
    | succ i =>
      rw [Nat.succ_mul]
      exact ih h

theorem byteAt_of_carries {f : CanFrame} {contents : List UInt8} (h : Carries f.data contents)
    {i : ℕ} {byte : UInt8} (hi : contents[i]? = some byte) : f.byteAt i = byte := by
  obtain ⟨hlt, rfl⟩ := List.getElem?_eq_some_iff.mp hi
  have hlength := List.IsPrefix.length_le h
  rw [Vector.length_toList] at hlength
  rw [CanFrame.byteAt, Vector.getElem?_eq_getElem (by omega), Option.getD_some]
  exact h.getElem hlt (by omega)

theorem eval_readCodes_codes {array : ℕ → UInt8} {codes : List (UInt8 × UInt8)}
    (hnonzero : ∀ code ∈ codes, code.1 ≠ 0 ∨ code.2 ≠ 0)
    (hbytes : ∀ i code, codes[i]? = some code →
      array (3 + i * 2) = code.1 ∧ array (4 + i * 2) = code.2) (make : UInt8 → UInt8 → Dtc) :
    (readCodes make (List.range codes.length)).eval array =
      codes.map (fun code => make code.1 code.2) := by
  have hall : (List.range codes.length).filter
      (fun i => array (3 + i * 2) ≠ 0 ∨ array (4 + i * 2) ≠ 0) = List.range codes.length := by
    apply List.filter_eq_self.mpr
    intro i hi
    have hget := List.getElem?_eq_getElem (List.mem_range.mp hi)
    obtain ⟨hhigh, hlow⟩ := hbytes i _ hget
    rw [hhigh, hlow]
    exact decide_eq_true (hnonzero _ (List.getElem_mem (List.mem_range.mp hi)))
  rw [eval_readCodes, hall]
  apply List.ext_getElem
  · simp
  · intro i hi hi'
    have hlt : i < codes.length := by simpa using hi
    obtain ⟨hhigh, hlow⟩ := hbytes i _ (List.getElem?_eq_getElem hlt)
    simp [hhigh, hlow]

/-- The frame of a report that is taken for the answer: its whole message, or the first part. -/
theorem firstContents (report : DtcReport) (mode : UInt8) :
    (report.codes.length ≤ 2 ∧ ∃ rest, segments (report.message mode) =
      (UInt8.ofNat (2 + 2 * report.codes.length) :: report.message mode) :: rest) ∨
    (2 < report.codes.length ∧ ∃ body rest, segments (report.message mode) =
      (UInt8.ofNat (0x10 + (2 + 2 * report.codes.length) / 256) ::
        UInt8.ofNat ((2 + 2 * report.codes.length) % 256) :: (mode + 0x40) :: body) :: rest) := by
  have hlength := length_message report mode
  by_cases hfits : report.codes.length ≤ 2
  · refine .inl ⟨hfits, [], ?_⟩
    rw [segments_single (by omega), hlength]
  · refine .inr ⟨by omega, ?_⟩
    obtain ⟨rest, hsegments⟩ := segments_first
      (show 7 < (report.message mode).length by omega)
    rw [hlength] at hsegments
    exact ⟨_, rest, hsegments⟩

theorem answers_first (report : DtcReport) {mode : UInt8} (hmode : mode.toNat < 0xC0)
    {f : CanFrame} (hid : f.id = responseEcu) {contents : List UInt8} {rest : List (List UInt8)}
    (hsegments : segments (report.message mode) = contents :: rest)
    (hcarries : Carries f.data contents) : answers mode f = true := by
  have hsum : (mode + 0x40).toNat = mode.toNat + 0x40 := by
    rw [UInt8.toNat_add]
    exact Nat.mod_eq_of_lt (by change mode.toNat + 0x40 < 256; omega)
  have hshort := report.short
  obtain ⟨hfits, rest', hsingle⟩ | ⟨hmany, body, rest', hfirst⟩ := firstContents report mode
  · rw [hsingle] at hsegments
    obtain ⟨rfl, -⟩ := List.cons.inj hsegments
    have hpci : f.byteAt 0 = UInt8.ofNat (2 + 2 * report.codes.length) :=
      byteAt_of_carries hcarries rfl
    have hresponse : f.byteAt 1 = mode + 0x40 := byteAt_of_carries hcarries rfl
    have htype : pciType f = 0 := by
      have hsmall : ∀ n ≤ 2, (UInt8.ofNat (2 + 2 * n) >>> 4) &&& 0x0F = 0 := by decide
      rw [pciType, hpci]
      exact hsmall _ hfits
    simp [answers, hid, htype, hresponse, hsum]
  · rw [hfirst] at hsegments
    obtain ⟨rfl, -⟩ := List.cons.inj hsegments
    have hpci : f.byteAt 0 = UInt8.ofNat (0x10 + (2 + 2 * report.codes.length) / 256) :=
      byteAt_of_carries hcarries rfl
    have hresponse : f.byteAt 2 = mode + 0x40 := byteAt_of_carries hcarries rfl
    have htype : pciType f = 1 := by
      have hsmall : ∀ n < 3, (UInt8.ofNat (0x10 + n) >>> 4) &&& 0x0F = 1 := by decide
      rw [pciType, hpci]
      exact hsmall _ (by omega)
    simp [answers, hid, htype, hresponse, hsum]

/-- The codes of a report that fits into a single frame, otherwise nothing: the second byte of the
    first frame is an even number. -/
theorem eval_parseCodes_first (report : DtcReport) {mode : UInt8} (hodd : mode.toNat % 2 = 1)
    (make : UInt8 → UInt8 → Dtc) {f : CanFrame} {contents : List UInt8}
    {rest : List (List UInt8)} (hsegments : segments (report.message mode) = contents :: rest)
    (hcarries : Carries f.data contents) :
    (parseCodes (mode + 0x40) make).eval f.byteAt =
      if report.codes.length ≤ 2 then some (UInt8.ofNat report.codes.length,
        report.codes.map (fun code => make code.1 code.2))
      else none := by
  have hshort := report.short
  rw [eval_parseCodes]
  obtain ⟨hfits, rest', hsingle⟩ | ⟨hmany, body, rest', hfirst⟩ := firstContents report mode
  · rw [hsingle] at hsegments
    obtain ⟨rfl, -⟩ := List.cons.inj hsegments
    have hmode : f.byteAt 1 = mode + 0x40 := byteAt_of_carries hcarries rfl
    have hcount : f.byteAt 2 = UInt8.ofNat report.codes.length := byteAt_of_carries hcarries rfl
    have hall : min (f.byteAt 2).toNat 3 = report.codes.length := by
      rw [hcount, UInt8.toNat_ofNat']
      omega
    rw [if_neg (not_not.mpr hmode), if_pos hfits, hall, hcount,
      eval_readCodes_codes report.nonzero ?_ make]
    intro i code hcode
    obtain ⟨hhigh, hlow⟩ := codeBytes_get hcode
    refine ⟨byteAt_of_carries hcarries ?_, byteAt_of_carries hcarries ?_⟩
    · rw [show 3 + i * 2 = i * 2 + 3 by omega]
      exact hhigh
    · rw [show 4 + i * 2 = i * 2 + 1 + 3 by omega]
      exact hlow
  · rw [hfirst] at hsegments
    obtain ⟨rfl, -⟩ := List.cons.inj hsegments
    have hlength : f.byteAt 1 = UInt8.ofNat ((2 + 2 * report.codes.length) % 256) :=
      byteAt_of_carries hcarries rfl
    rw [if_pos, if_neg (by omega)]
    rw [hlength]
    intro hsame
    have htoNat := congrArg UInt8.toNat hsame
    rw [UInt8.toNat_ofNat', UInt8.toNat_add] at htoNat
    have h40 : (0x40 : UInt8).toNat = 0x40 := rfl
    omega

/-- What the readers find in the answer that they take for a report. -/
theorem parseCodes_delivers {h : ObdHandler} {report : DtcReport} {mode : UInt8} {bus : Bus}
    (hmode : mode.toNat < 0xC0) (hodd : mode.toNat % 2 = 1) (make : UInt8 → UInt8 → Dtc)
    (hdelivers : Delivers h mode (report.message mode) bus) :
    ∃ first h' bus', h.sendAndReceive (h.buildRequest mode 0 0) 0 bus =
        some ⟨some first, h', bus'⟩ ∧
      (parseCodes (mode + 0x40) make).eval first.byteAt =
        if report.codes.length ≤ 2 then some (UInt8.ofNat report.codes.length,
          report.codes.map (fun code => make code.1 code.2))
        else none := by
  obtain ⟨htakes, quiet, p, rest, first, more, hpolls, hquiet, htime, hfirst, -, hframes⟩ := hdelivers
  cases hsegments : segments (report.message mode) with
  | nil =>
    rw [hsegments] at hframes
    cases hframes
  | cons contents others =>
  rw [hsegments] at hframes
  obtain ⟨⟨hid, hcarries⟩, -⟩ := List.forall₂_cons.mp hframes
  have hanswers := answers_first report hmode hid hsegments hcarries
  have htake : await (late h.timeoutMs) Poll.frame (answers mode) bus.polls =
      some (some first, rest) := by
    rw [hpolls, await_append hquiet, await_take htime hfirst hanswers]
  obtain ⟨hsent, -⟩ | ⟨-, hawait, -⟩ | ⟨-, frame, polls, h', hawait, hsend⟩ :=
    h.sendAndReceive_cases (h.buildRequest mode 0 0) 0 bus
  · rw [htakes] at hsent
    cases hsent
  · rw [buildRequest_mode] at hawait
    cases htake.symm.trans hawait
  · rw [buildRequest_mode] at hawait
    cases htake.symm.trans hawait
    exact ⟨first, h', _, hsend, eval_parseCodes_first report hodd make hsegments hcarries⟩

theorem readDTCs_delivers {h : ObdHandler} {report : DtcReport} {bus : Bus}
    (hdelivers : Delivers h mode03ReadDtcs (report.message mode03ReadDtcs) bus) :
    ∃ answer, h.readDTCs bus = some answer ∧ answer.result.confirmed =
      if report.codes.length ≤ 2 then report.codes.map (fun code => Dtc.fromBytes code.1 code.2)
      else [] := by
  obtain ⟨first, h', bus', hsend, hparse⟩ :=
    parseCodes_delivers (by decide) (by decide) Dtc.fromBytes hdelivers
  rw [readDTCs, hsend]
  refine ⟨_, rfl, ?_⟩
  change (parseDTCs.eval first.byteAt).confirmed = _
  rw [eval_parseDTCs, show (0x43 : UInt8) = mode03ReadDtcs + 0x40 from rfl, hparse]
  split_ifs <;> rfl

theorem readPendingDTCs_delivers {h : ObdHandler} {report : DtcReport} {bus : Bus}
    (hdelivers : Delivers h mode07PendingDtcs (report.message mode07PendingDtcs) bus) :
    ∃ answer, h.readPendingDTCs bus = some answer ∧ answer.result =
      if report.codes.length ≤ 2 then
        report.codes.map (fun code => Dtc.pendingFromBytes code.1 code.2)
      else [] := by
  obtain ⟨first, h', bus', hsend, hparse⟩ :=
    parseCodes_delivers (by decide) (by decide) Dtc.pendingFromBytes hdelivers
  rw [readPendingDTCs, hsend]
  refine ⟨_, rfl, ?_⟩
  change parsePendingDTCs.eval first.byteAt = _
  rw [eval_parsePendingDTCs, show (0x47 : UInt8) = mode07PendingDtcs + 0x40 from rfl, hparse]
  split_ifs <;> rfl

/-- The lists are complete exactly for reports of at most two codes. -/
theorem dtcs_complete_iff (h : ObdHandler) (report : DtcReport) (bus : Bus) :
    (Delivers h mode03ReadDtcs (report.message mode03ReadDtcs) bus →
      ∃ answer, h.readDTCs bus = some answer ∧
        (answer.result.confirmed = report.codes.map (fun code => Dtc.fromBytes code.1 code.2) ↔
          report.codes.length ≤ 2)) ∧
    (Delivers h mode07PendingDtcs (report.message mode07PendingDtcs) bus →
      ∃ answer, h.readPendingDTCs bus = some answer ∧
        (answer.result = report.codes.map (fun code => Dtc.pendingFromBytes code.1 code.2) ↔
          report.codes.length ≤ 2)) := by
  have hcomplete : ∀ {make : UInt8 → UInt8 → Dtc} {codes : List Dtc},
      (codes = if report.codes.length ≤ 2 then
        report.codes.map (fun code => make code.1 code.2) else []) →
      (codes = report.codes.map (fun code => make code.1 code.2) ↔
        report.codes.length ≤ 2) := by
    intro make codes hcodes
    rw [hcodes]
    split_ifs with hfits
    · exact iff_of_true rfl hfits
    · refine iff_of_false (fun hempty => hfits ?_) hfits
      rw [List.map_eq_nil_iff.mp hempty.symm]
      exact Nat.zero_le 2
  constructor
  · intro hdelivers
    obtain ⟨answer, hread, hcodes⟩ := readDTCs_delivers hdelivers
    exact ⟨answer, hread, hcomplete hcodes⟩
  · intro hdelivers
    obtain ⟨answer, hread, hcodes⟩ := readPendingDTCs_delivers hdelivers
    exact ⟨answer, hread, hcomplete hcodes⟩

def threeReported : DtcReport where
  codes := [(0x01, 0x05), (0x01, 0x07), (0x01, 0x15)]
  nonzero := by simp
  short := by decide

def reportFrame (data : Vector UInt8 8) : CanFrame := { id := responseEcu, dlc := 8, data := data }

/-- The message has eight bytes, of which the last two come in the consecutive frame. -/
def threeReportedBus : Bus :=
  ⟨[true], [⟨0, some (reportFrame #v[0x10, 0x08, 0x43, 0x03, 0x01, 0x05, 0x01, 0x07])⟩,
    ⟨1, some (reportFrame #v[0x21, 0x01, 0x15, 0, 0, 0, 0, 0])⟩], []⟩

theorem threeReported_delivers :
    Delivers {} mode03ReadDtcs (threeReported.message mode03ReadDtcs) threeReportedBus where
  takes := rfl
  comes := by
    refine ⟨[], _, _, _, [reportFrame #v[0x21, 0x01, 0x15, 0, 0, 0, 0, 0]], rfl, by simp,
      by decide, rfl, List.Sublist.refl _, ?_⟩
    refine .cons ⟨rfl, [], rfl⟩ (.cons ⟨rfl, [0, 0, 0, 0, 0], rfl⟩ .nil)

theorem dtcs_complete_iff_three : ∃ answer, readDTCs {} threeReportedBus = some answer ∧
    answer.result.confirmed ≠
      threeReported.codes.map (fun code => Dtc.fromBytes code.1 code.2) := by
  obtain ⟨answer, hread, hiff⟩ :=
    (dtcs_complete_iff {} threeReported threeReportedBus).1 threeReported_delivers
  exact ⟨answer, hread, fun hcodes => absurd (hiff.mp hcodes) (by decide)⟩

/-- Nothing is read of a report of three codes. -/
theorem three_codes_not_read : ¬ ∀ (h : ObdHandler) (report : DtcReport) (bus : Bus),
    Delivers h mode03ReadDtcs (report.message mode03ReadDtcs) bus →
      ∃ answer, h.readDTCs bus = some answer ∧
        answer.result.confirmed =
          report.codes.map (fun code => Dtc.fromBytes code.1 code.2) := by
  intro hclaim
  obtain ⟨answer, hread, hcodes⟩ := hclaim {} threeReported threeReportedBus threeReported_delivers
  obtain ⟨answer', hread', hempty⟩ := readDTCs_delivers threeReported_delivers
  rw [hread] at hread'
  cases hread'
  rw [hcodes] at hempty
  cases hempty

end SpeeduinoDash.ObdHandler
