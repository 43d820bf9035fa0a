import Mathlib.Data.Nat.Digits.Defs
import SpeeduinoDash.ConfigFiles

set_option autoImplicit false

/-!
# Hexadecimal numbers in the configuration

`stoul` reads the digits at the front of a text and stops without complaint at the first character
that is none. It throws for a value that does not fit into 64 bits.
-/
namespace SpeeduinoDash

section Value

def isHexDigit (c : Char) : Bool := (hexDigit c).isSome

def hexValue (digits : List Char) : ℕ :=
  Nat.ofDigits 16 (digits.reverse.map (fun c => (hexDigit c).getD 0))

def leadingDigits (text : List Char) : List Char := text.takeWhile isHexDigit

theorem hexValue_cons (c : Char) (digits : List Char) :
    hexValue (c :: digits) = hexValue digits + 16 ^ digits.length * (hexDigit c).getD 0 := by
  rw [hexValue, List.reverse_cons, List.map_append, Nat.ofDigits_append, List.length_map,
    List.length_reverse]
  exact congrArg _ (congrArg _ Nat.ofDigits_singleton)

theorem stoulHex_eq (text : List Char) (value : ℕ) :
    stoulHex text value =
      16 ^ (leadingDigits text).length * value + hexValue (leadingDigits text) := by
  induction text generalizing value with
  | nil => simp [stoulHex, leadingDigits, hexValue]
  | cons c text ih =>
    cases hdigit : hexDigit c with
    | none =>
      have hleading : leadingDigits (c :: text) = [] := by
        simp [leadingDigits, isHexDigit, hdigit]
      rw [stoulHex, hdigit, hleading]
      simp [hexValue]
    | some digit =>
      have hleading : leadingDigits (c :: text) = c :: leadingDigits text := by
        simp [leadingDigits, isHexDigit, hdigit]
      rw [stoulHex, hdigit, hleading, hexValue_cons, hdigit, List.length_cons, Nat.pow_succ]
      change stoulHex text (16 * value + digit) = _
      rw [ih, Option.getD_some]
      rw [Nat.mul_add, Nat.mul_assoc, Nat.add_assoc, Nat.add_comm (hexValue _)]

theorem leadingDigits_eq_self {text : List Char} (h : text.all isHexDigit = true) :
    leadingDigits text = text := by
  have hpos : (text ++ []).takeWhile isHexDigit = text ++ [].takeWhile isHexDigit :=
    List.takeWhile_append_of_pos (List.all_eq_true.mp h)
  simpa [leadingDigits] using hpos

/-- What comes out: clamped above 32 bits, and zero above 64. -/
theorem parseHex_eq (digits : List Char) :
    parseHex digits = if ulongMax < hexValue (leadingDigits digits) then 0
      else UInt32.ofNat (min (hexValue (leadingDigits digits)) 0xFFFFFFFF) := by
  have hvalue : stoulHex digits 0 = hexValue (leadingDigits digits) := by
    rw [stoulHex_eq, Nat.mul_zero, Nat.zero_add]
  unfold parseHex
  rw [hvalue]
  by_cases hnil : digits = []
  · subst hnil
    decide
  rw [if_neg hnil]
  dsimp only
  split_ifs with hlarge hclamp
  · rfl
  · rw [Nat.min_eq_right (Nat.le_of_lt hclamp)]
    rfl
  · rw [Nat.min_eq_left (Nat.not_lt.mp hclamp)]

end Value

namespace Yaml

variable {Node R : Type} (y : Yaml Node R)

structure IsText (node : Node) (text : List Char) : Prop where
  notNull : y.isNull node = false
  string : (y.asString node).map String.toList = some text

def HexText (text digits : List Char) : Prop :=
  text = '0' :: 'x' :: digits ∨ text = '0' :: 'X' :: digits

theorem parseHexOrDec_hex {y : Yaml Node R} {node : Node} {text digits : List Char}
    (htext : y.IsText node text) (hhex : HexText text digits) :
    y.parseHexOrDec (some node) = parseHex digits := by
  rw [parseHexOrDec, htext.notNull, htext.string]
  rcases hhex with rfl | rfl <;> rfl

/-- The clamped value of digits, and zero for anything else. -/
def wantedNumber (digits : List Char) : UInt32 :=
  if digits.all isHexDigit then UInt32.ofNat (min (hexValue digits) 0xFFFFFFFF) else 0

/-- Digits fit into 64 bits; the digits before another character are worth zero, or do not. -/
def Readable (digits : List Char) : Prop :=
  if digits.all isHexDigit then hexValue digits ≤ ulongMax
  else hexValue (leadingDigits digits) = 0 ∨ ulongMax < hexValue (leadingDigits digits)

theorem clamp_eq_zero_iff (n : ℕ) : UInt32.ofNat (min n 0xFFFFFFFF) = 0 ↔ n = 0 := by
  rw [← UInt32.toNat_inj, UInt32.toNat_ofNat']
  change min n 0xFFFFFFFF % 2 ^ 32 = 0 ↔ n = 0
  omega

theorem parseHex_wanted_iff (digits : List Char) :
    parseHex digits = wantedNumber digits ↔ Readable digits := by
  rw [parseHex_eq, wantedNumber, Readable]
  by_cases hall : digits.all isHexDigit = true
  · rw [if_pos hall, if_pos hall, leadingDigits_eq_self hall]
    split_ifs with hlarge
    · refine iff_of_false ?_ (Nat.not_le.mpr hlarge)
      rw [eq_comm, clamp_eq_zero_iff]
      omega
    · exact iff_of_true rfl (Nat.not_lt.mp hlarge)
  · rw [if_neg hall, if_neg hall]
    split_ifs with hlarge
    · exact iff_of_true rfl (.inr hlarge)
    · rw [clamp_eq_zero_iff]
      exact (or_iff_left hlarge).symm

/-- A hexadecimal number is parsed as wanted exactly where it is readable. -/
theorem parseHexOrDec_wanted_iff (node : Node) (text digits : List Char)
    (htext : y.IsText node text) (hhex : HexText text digits) :
    y.parseHexOrDec (some node) = wantedNumber digits ↔ Readable digits := by
  rw [parseHexOrDec_hex htext hhex, parseHex_wanted_iff]

theorem parseHexOrDec_wanted_iff_1FG :
    YamlTree.yaml.parseHexOrDec (some (.scalar "0x1FG")) = wantedNumber ['1', 'F', 'G'] ↔
      Readable ['1', 'F', 'G'] :=
  parseHexOrDec_wanted_iff YamlTree.yaml (.scalar "0x1FG") ['0', 'x', '1', 'F', 'G'] ['1', 'F', 'G']
    ⟨rfl, rfl⟩ (.inl rfl)

/-- 2^64 is not clamped, and of a text that is no number the front is taken. -/
theorem hex_misread :
    (YamlTree.yaml.parseHexOrDec (some (.scalar "0x10000000000000000")) = 0 ∧
      wantedNumber "10000000000000000".toList = 0xFFFFFFFF) ∧
    (YamlTree.yaml.parseHexOrDec (some (.scalar "0x1FG")) = 0x1F ∧
      wantedNumber "1FG".toList = 0) := by
  decide +kernel

end Yaml

end SpeeduinoDash
