import SpeeduinoDash.CanErrorHandler

set_option autoImplicit false

/-!
# Names of CAN interfaces

A recovery takes an interface down and up again. What the system calls answer is an argument.
Strings are lists of bytes, and characters are those of the C locale.
-/
namespace SpeeduinoDash.CanErrorHandler

def ifNameSize : ℕ := 16

def isLower (c : UInt8) : Bool := 0x61 ≤ c && c ≤ 0x7A

def isUpper (c : UInt8) : Bool := 0x41 ≤ c && c ≤ 0x5A

def isAlpha (c : UInt8) : Bool := isLower c || isUpper c

def isDigit (c : UInt8) : Bool := 0x30 ≤ c && c ≤ 0x39

/-- The flags after the loop. None if a character is rejected. -/
def scanName (hasLetters hasDigits : Bool) : List UInt8 → Option (Bool × Bool)
  | [] => some (hasLetters, hasDigits)
  | c :: name =>
    if isAlpha c then scanName true hasDigits name
    else if isDigit c then scanName hasLetters true name
    else none

/-- That there were digits is not asked. -/
def isValidName (interfaceName : List UInt8) : Bool :=
  if interfaceName = [] ∨ ifNameSize - 1 < interfaceName.length then false
  else
    match scanName false false interfaceName with
    | none => false
    | some (hasLetters, _) => hasLetters

inductive SystemCall where
  | socket
  | getIfIndex (name : List UInt8)
  | getIfFlags (name : List UInt8)
  | setIfFlags (name : List UInt8) (flags : UInt16)
  | sleep (us : UInt32)
  | close
deriving DecidableEq

structure RecoveryAnswers where
  socket : Bool
  index : Bool
  flags : Option UInt16
  down : Bool
  up : Bool

def iffUp : UInt16 := 0x1

def recoveryDelayUs : UInt32 := 100000

/-- `strncpy` into the request. -/
def requestName (interfaceName : List UInt8) : List UInt8 :=
  (interfaceName.takeWhile (fun c => c != 0)).take (ifNameSize - 1)

def triggerRecovery (answers : RecoveryAnswers) (interfaceName : List UInt8) :
    Bool × List SystemCall :=
  let name := requestName interfaceName
  if isValidName interfaceName = false then (false, [])
  else if answers.socket = false then (false, [.socket])
  else if answers.index = false then (false, [.socket, .getIfIndex name, .close])
  else
    match answers.flags with
    | none => (false, [.socket, .getIfIndex name, .getIfFlags name, .close])
    | some flags =>
      let down := flags &&& ~~~iffUp
      let calls := [.socket, .getIfIndex name, .getIfFlags name, .setIfFlags name down]
      if answers.down = false then (false, calls ++ [.close])
      else
        (answers.up,
          calls ++ [.sleep recoveryDelayUs, .setIfFlags name (down ||| iffUp), .close])

theorem socket_mem_iff (answers : RecoveryAnswers) (interfaceName : List UInt8) :
    .socket ∈ (triggerRecovery answers interfaceName).2 ↔ isValidName interfaceName = true := by
  unfold triggerRecovery
  cases hvalid : isValidName interfaceName with
  | false => simp
  | true =>
    cases answers.socket <;> cases answers.index <;> cases answers.flags <;>
      cases answers.down <;> simp

section Grammar

/-- Lower-case letters followed by digits, within the length. -/
def InGrammar (name : List UInt8) : Prop :=
  name.length ≤ ifNameSize - 1 ∧ ∃ letters digits, name = letters ++ digits ∧ letters ≠ [] ∧
    digits ≠ [] ∧ (∀ c ∈ letters, isLower c = true) ∧ ∀ c ∈ digits, isDigit c = true

theorem not_digit_of_alpha {c : UInt8} (h : isAlpha c = true) : isDigit c = false := by
  simp only [isAlpha, isLower, isUpper, isDigit, Bool.or_eq_true, Bool.and_eq_true,
    decide_eq_true_eq, Bool.and_eq_false_iff, decide_eq_false_iff_not, UInt8.le_iff_toNat_le] at h ⊢
  have h61 : (0x61 : UInt8).toNat = 0x61 := rfl
  have h41 : (0x41 : UInt8).toNat = 0x41 := rfl
  have h39 : (0x39 : UInt8).toNat = 0x39 := rfl
  omega

theorem not_upper_of_lower {c : UInt8} (h : isLower c = true) : isUpper c = false := by
  simp only [isLower, isUpper, Bool.and_eq_true, decide_eq_true_eq, Bool.and_eq_false_iff,
    decide_eq_false_iff_not, UInt8.le_iff_toNat_le] at h ⊢
  have h61 : (0x61 : UInt8).toNat = 0x61 := rfl
  have h5A : (0x5A : UInt8).toNat = 0x5A := rfl
  omega

theorem not_upper_of_digit {c : UInt8} (h : isDigit c = true) : isUpper c = false := by
  cases hupper : isUpper c with
  | false => rfl
  | true =>
    have halpha : isAlpha c = true := by simp [isAlpha, hupper]
    rw [not_digit_of_alpha halpha] at h
    cases h

/-- The loop lets letters and digits through, in any order. -/
theorem scanName_some_iff (l d l' d' : Bool) (name : List UInt8) :
    scanName l d name = some (l', d') ↔ (∀ c ∈ name, isAlpha c = true ∨ isDigit c = true) ∧
      l' = (l || name.any isAlpha) ∧ d' = (d || name.any isDigit) := by
  induction name generalizing l d with
  | nil =>
    constructor
    · rintro ⟨⟩
      simp
    · rintro ⟨-, rfl, rfl⟩
      simp [scanName]
  | cons c name ih =>
    rw [scanName]
    cases halpha : isAlpha c with
    | true =>
      rw [if_pos rfl, ih]
      simp [halpha, not_digit_of_alpha halpha]
    | false =>
      cases hdigit : isDigit c with
      | true =>
        rw [if_neg nofun, if_pos rfl, ih]
        simp [halpha, hdigit]
      | false => simp [halpha, hdigit]

theorem isValidName_iff (name : List UInt8) :
    isValidName name = true ↔ name.length ≤ ifNameSize - 1 ∧
      (∀ c ∈ name, isAlpha c = true ∨ isDigit c = true) ∧ name.any isAlpha = true := by
  unfold isValidName
  by_cases hlength : name = [] ∨ ifNameSize - 1 < name.length
  · rw [if_pos hlength]
    refine iff_of_false nofun ?_
    rintro ⟨hle, -, hany⟩
    rcases hlength with rfl | hlong
    · cases hany
    · exact Nat.not_lt.mpr hle hlong
  · rw [if_neg hlength]
    rw [not_or, Nat.not_lt] at hlength
    cases hscan : scanName false false name with
    | none =>
      refine iff_of_false nofun ?_
      rintro ⟨-, hall, -⟩
      have hsome := (scanName_some_iff false false _ _ name).mpr ⟨hall, rfl, rfl⟩
      rw [hscan] at hsome
      cases hsome
    | some flags =>
      obtain ⟨hall, hletters, -⟩ := (scanName_some_iff false false flags.1 flags.2 name).mp hscan
      rw [Bool.false_or] at hletters
      change flags.1 = true ↔ _
      rw [hletters]
      exact ⟨fun hany => ⟨hlength.2, hall, hany⟩, fun hname => hname.2.2⟩

def DigitsLast (name : List UInt8) : Prop :=
  name.Pairwise (fun c c' => isDigit c = true → isDigit c' = true)

theorem digitsLast_append {letters digits : List UInt8}
    (hletters : ∀ c ∈ letters, isLower c = true) (hdigits : ∀ c ∈ digits, isDigit c = true) :
    DigitsLast (letters ++ digits) := by
  refine List.pairwise_append.mpr ⟨?_, ?_, fun c _ c' hc' _ => hdigits c' hc'⟩
  · refine List.pairwise_of_forall_mem_list ?_
    intro c hc c' _ hdigit
    have halpha : isAlpha c = true := by simp [isAlpha, hletters c hc]
    rw [not_digit_of_alpha halpha] at hdigit
    cases hdigit
  · exact List.pairwise_of_forall_mem_list (fun c _ c' hc' _ => hdigits c' hc')

theorem split_of_digitsLast {name : List UInt8}
    (hall : ∀ c ∈ name, isLower c = true ∨ isDigit c = true) (hlast : DigitsLast name) :
    ∃ letters digits, name = letters ++ digits ∧ (∀ c ∈ letters, isLower c = true) ∧
      ∀ c ∈ digits, isDigit c = true := by
  induction name with
  | nil => exact ⟨[], [], rfl, by simp, by simp⟩
  | cons c name ih =>
    obtain ⟨hfirst, hrest⟩ := List.pairwise_cons.mp hlast
    rcases hall c List.mem_cons_self with hlower | hdigit
    · obtain ⟨letters, digits, rfl, hletters, hdigits⟩ :=
        ih (fun c' hc' => hall c' (List.mem_cons_of_mem c hc')) hrest
      refine ⟨c :: letters, digits, rfl, ?_, hdigits⟩
      exact List.forall_mem_cons.mpr ⟨hlower, hletters⟩
    · refine ⟨[], c :: name, rfl, by simp, ?_⟩
      exact List.forall_mem_cons.mpr ⟨hdigit, fun c' hc' => hfirst c' hc' hdigit⟩

/-- Letters and digits that are not in the grammar: there is an upper-case letter, or no digit, or
    a letter after a digit. -/
def Misjudged (name : List UInt8) : Prop :=
  name.length ≤ ifNameSize - 1 ∧ (∀ c ∈ name, isAlpha c = true ∨ isDigit c = true) ∧
    name.any isAlpha = true ∧
    (name.any isUpper = true ∨ name.any isDigit = false ∨ ¬ DigitsLast name)

theorem isValidName_of_grammar {name : List UInt8} (h : InGrammar name) :
    isValidName name = true ∧ ¬ Misjudged name := by
  obtain ⟨hlength, letters, digits, rfl, hletters, hdigits, hlower, hdigit⟩ := h
  have hall : ∀ c ∈ letters ++ digits, isLower c = true ∨ isDigit c = true := by
    intro c hc
    rcases List.mem_append.mp hc with hc | hc
    · exact .inl (hlower c hc)
    · exact .inr (hdigit c hc)
  obtain ⟨c, hc⟩ := List.exists_mem_of_ne_nil letters hletters
  obtain ⟨c', hc'⟩ := List.exists_mem_of_ne_nil digits hdigits
  constructor
  · rw [isValidName_iff]
    refine ⟨hlength, fun c hc => ?_, ?_⟩
    · exact (hall c hc).imp_left (fun hlow => by simp [isAlpha, hlow])
    · exact List.any_eq_true.mpr ⟨c, List.mem_append_left _ hc, by simp [isAlpha, hlower c hc]⟩
  · rintro ⟨-, -, -, hupper | hnone | hmixed⟩
    · obtain ⟨u, hu, hupper⟩ := List.any_eq_true.mp hupper
      rcases hall u hu with hlow | hdig
      · rw [not_upper_of_lower hlow] at hupper
        cases hupper
      · rw [not_upper_of_digit hdig] at hupper
        cases hupper
    · have hsome := List.any_eq_false.mp hnone c' (List.mem_append_right _ hc')
      exact hsome (hdigit c' hc')
    · exact hmixed (digitsLast_append hlower hdigit)

theorem inGrammar_of_valid {name : List UInt8} (hvalid : isValidName name = true)
    (hname : ¬ Misjudged name) : InGrammar name := by
  obtain ⟨hlength, hall, hany⟩ := (isValidName_iff name).mp hvalid
  have hgood : ¬ (name.any isUpper = true ∨ name.any isDigit = false ∨ ¬ DigitsLast name) :=
    fun hbad => hname ⟨hlength, hall, hany, hbad⟩
  rw [not_or, not_or, not_not, Bool.not_eq_true, Bool.not_eq_false] at hgood
  obtain ⟨hupper, hdigit, hlast⟩ := hgood
  have hlower : ∀ c ∈ name, isLower c = true ∨ isDigit c = true := by
    intro c hc
    refine (hall c hc).imp_left (fun halpha => ?_)
    have hnot := List.any_eq_false.mp hupper c hc
    simpa [isAlpha, hnot] using halpha
  obtain ⟨letters, digits, rfl, hletters, hdigits⟩ := split_of_digitsLast hlower hlast
  refine ⟨hlength, letters, digits, rfl, ?_, ?_, hletters, hdigits⟩
  · rintro rfl
    obtain ⟨c, hc, halpha⟩ := List.any_eq_true.mp hany
    have hdig := hdigits c hc
    rw [not_digit_of_alpha halpha] at hdig
    cases hdig
  · rintro rfl
    obtain ⟨c, hc, hdig⟩ := List.any_eq_true.mp hdigit
    rw [List.append_nil] at hc
    have halpha : isAlpha c = true := by simp [isAlpha, hletters c hc]
    rw [not_digit_of_alpha halpha] at hdig
    cases hdig

/-- The names that go past the validation are those of the grammar but for these. -/
theorem accepted_iff_grammar_iff (answers : RecoveryAnswers) (interfaceName : List UInt8) :
    (.socket ∈ (triggerRecovery answers interfaceName).2 ↔ InGrammar interfaceName) ↔
      ¬ Misjudged interfaceName := by
  rw [socket_mem_iff]
  constructor
  · intro hsame hbad
    have hvalid : isValidName interfaceName = true :=
      (isValidName_iff interfaceName).mpr ⟨hbad.1, hbad.2.1, hbad.2.2.1⟩
    exact (isValidName_of_grammar (hsame.mp hvalid)).2 hbad
  · intro hgood
    exact ⟨fun hvalid => inGrammar_of_valid hvalid hgood,
      fun hgrammar => (isValidName_of_grammar hgrammar).1⟩

/-- The name can has no digit. -/
theorem can_accepted :
    .socket ∈ (triggerRecovery ⟨true, true, some 0x41, true, true⟩ [0x63, 0x61, 0x6E]).2 ∧
      ¬ InGrammar [0x63, 0x61, 0x6E] := by
  constructor
  · decide
  · rintro ⟨-, letters, digits, hname, -, hdigits, -, hdigit⟩
    obtain ⟨c, hc⟩ := List.exists_mem_of_ne_nil digits hdigits
    have hmem : c ∈ ([0x63, 0x61, 0x6E] : List UInt8) := hname ▸ List.mem_append_right letters hc
    have hnone : ∀ c ∈ ([0x63, 0x61, 0x6E] : List UInt8), isDigit c = false := by
      simp [isDigit]
    have hdig := hdigit c hc
    rw [hnone c hmem] at hdig
    cases hdig

end Grammar

end SpeeduinoDash.CanErrorHandler
