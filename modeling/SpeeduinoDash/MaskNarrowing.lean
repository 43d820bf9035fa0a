import SpeeduinoDash.ConfigStores
import SpeeduinoDash.HexNumbers

set_option autoImplicit false

/-!
# Masks in the configuration

Masks and expected values are parsed with 32 bits and kept in eight. `plain` is the number that a
text without the hexadecimal prefix writes, if it writes one.
-/
namespace SpeeduinoDash
open Lib.Journal

section Numbers

variable {Node R : Type}

/-- The number is read if it has 32 bits, otherwise `yaml-cpp` throws. -/
structure ReadsNumbers (y : Yaml Node R) (plain : List Char → Option ℕ) : Prop where
  empty : plain [] = none
  number : ∀ node text, y.IsText node text → (∀ digits, ¬ Yaml.HexText text digits) →
    (y.asUInt32 node).map UInt32.toNat = (plain text).filter (fun n => n < 2 ^ 32)

def writtenNumber (plain : List Char → Option ℕ) : List Char → Option ℕ
  | '0' :: 'x' :: digits | '0' :: 'X' :: digits =>
    if digits ≠ [] ∧ digits.all isHexDigit then some (hexValue digits) else none
  | text => plain text

def Writes (plain : List Char → Option ℕ) (text : List Char) (byte : UInt8) : Prop :=
  writtenNumber plain text = some byte.toNat

def WritesByte (plain : List Char → Option ℕ) (text : List Char) : Prop :=
  ∃ n, writtenNumber plain text = some n ∧ n ≤ 255

variable {y : Yaml Node R} {plain : List Char → Option ℕ} {node : Node} {text : List Char}

theorem parseHex_small {digits : List Char} (hall : digits.all isHexDigit = true)
    (hsmall : hexValue digits ≤ 255) : (parseHex digits).toNat = hexValue digits := by
  rw [parseHex_eq, leadingDigits_eq_self hall, if_neg, UInt32.toNat_ofNat']
  · omega
  · have hmax : ulongMax = 2 ^ 64 - 1 := rfl
    omega

theorem writtenNumber_hex {digits : List Char} (hhex : Yaml.HexText text digits) :
    writtenNumber plain text =
      if digits ≠ [] ∧ digits.all isHexDigit then some (hexValue digits) else none := by
  rcases hhex with rfl | rfl <;> rfl

theorem writtenNumber_plain (hhex : ∀ digits, ¬ Yaml.HexText text digits) :
    writtenNumber plain text = plain text := by
  unfold writtenNumber
  split
  · exact absurd (.inl rfl) (hhex _)
  · exact absurd (.inr rfl) (hhex _)
  · rfl

theorem parseHexOrDec_plain (htext : y.IsText node text) (hne : text ≠ [])
    (hhex : ∀ digits, ¬ Yaml.HexText text digits) :
    y.parseHexOrDec (some node) = (y.asUInt32 node).getD 0 := by
  rw [Yaml.parseHexOrDec, htext.notNull, htext.string, if_neg (by simp)]
  split
  next hnone => cases hnone
  next hnil =>
    cases hnil
    exact absurd rfl hne
  next hx =>
    cases hx
    exact absurd (.inl rfl) (hhex _)
  next hx =>
    cases hx
    exact absurd (.inr rfl) (hhex _)
  next => rfl

theorem parseHexOrDec_small (hplain : ReadsNumbers y plain) (htext : y.IsText node text) {n : ℕ}
    (hn : writtenNumber plain text = some n) (hsmall : n ≤ 255) :
    (y.parseHexOrDec (some node)).toNat = n := by
  by_cases hhex : ∃ digits, Yaml.HexText text digits
  · obtain ⟨digits, hhex⟩ := hhex
    rw [writtenNumber_hex hhex] at hn
    by_cases hall : digits ≠ [] ∧ digits.all isHexDigit = true
    · rw [if_pos hall] at hn
      obtain rfl := Option.some.inj hn
      rw [Yaml.parseHexOrDec_hex htext hhex, parseHex_small hall.2 hsmall]
    · rw [if_neg hall] at hn
      cases hn
  · have hnone := not_exists.mp hhex
    rw [writtenNumber_plain hnone] at hn
    have hne : text ≠ [] := by
      rintro rfl
      rw [hplain.empty] at hn
      cases hn
    have hread := hplain.number node text htext hnone
    have hfits : (some n).filter (fun n => n < 2 ^ 32) = some n :=
      Option.filter_some_pos (decide_eq_true (by omega))
    rw [hn, hfits] at hread
    obtain ⟨value, hvalue, hnat⟩ := Option.map_eq_some_iff.mp hread
    rw [parseHexOrDec_plain htext hne hnone, hvalue]
    exact hnat

theorem writes_narrowed_iff (hplain : ReadsNumbers y plain) (htext : y.IsText node text) :
    Writes plain text (y.parseHexOrDec (some node)).toUInt8 ↔ WritesByte plain text := by
  constructor
  · intro hwrites
    exact ⟨_, hwrites, Nat.le_of_lt_succ (UInt8.toNat_lt _)⟩
  · rintro ⟨n, hn, hsmall⟩
    rw [Writes, hn, UInt32.toNat_toUInt8, parseHexOrDec_small hplain htext hn hsmall,
      Nat.mod_eq_of_lt (by omega)]

end Numbers

namespace ConfigLoader

variable {Node R : Type} {y : Yaml Node R}

section Statements

theorem ifPresent_of_get {node value : Node} {key : String}
    (hget : y.get node key = some (some value)) (body : Node → List (Option (ConfigEntry R))) :
    y.ifPresent node key body = body value := by
  rw [Yaml.ifPresent, hget]

def finallyWritten (f : Setting) (statements : List (Option (ConfigEntry R))) : Option f.Value :=
  lastWritten f (statements.filterMap id)

theorem finallyWritten_append (f : Setting) (xs ys : List (Option (ConfigEntry R))) :
    finallyWritten f (xs ++ ys) = (finallyWritten f ys).or (finallyWritten f xs) := by
  rw [finallyWritten, List.filterMap_append, lastWritten_append]
  rfl

theorem finallyWritten_eq_none {f : Setting} {statements : List (Option (ConfigEntry R))}
    (h : ∀ e, some e ∈ statements → e.written f = none) : finallyWritten f statements = none := by
  apply lastWritten_eq_none
  intro e he
  obtain ⟨statement, hmem, hsome⟩ := List.mem_filterMap.mp he
  obtain rfl : statement = some e := hsome
  exact h e hmem

theorem finallyWritten_assign_ne {f g : Setting} (hne : g ≠ f) (node : Node) (key : String)
    (as : Node → Option g.Value) : finallyWritten f (y.assign node key g as) = none := by
  apply finallyWritten_eq_none
  intro e he
  unfold Yaml.assign Yaml.ifPresent at he
  cases hget : y.get node key with
  | none => simp [hget] at he
  | some value =>
    cases value with
    | none => simp [hget] at he
    | some value =>
      rw [hget, List.mem_singleton] at he
      obtain ⟨v, -, rfl⟩ := Option.map_eq_some_iff.mp he.symm
      exact dif_neg hne

theorem finallyWritten_assign {node value : Node} {key : String} {f : Setting}
    {as : Node → Option f.Value} {v : f.Value} (hget : y.get node key = some (some value))
    (hread : as value = some v) : finallyWritten f (y.assign node key f as) = some v := by
  rw [Yaml.assign, ifPresent_of_get hget, hread]
  exact (lastWritten_singleton f (.set f v)).trans (dif_pos rfl)

theorem finallyWritten_appends {α : Type} {l : Listing} (f : Setting) (node : Node) (key : String)
    (items : Node → List α) (as : α → Option (l.Item R)) :
    finallyWritten f (y.ifPresent node key (fun value =>
      (items value).map (fun item => (as item).map (.append l)))) = none := by
  apply finallyWritten_eq_none
  intro e he
  unfold Yaml.ifPresent at he
  cases hget : y.get node key with
  | none => simp [hget] at he
  | some value =>
    cases value with
    | none => simp [hget] at he
    | some value =>
      rw [hget] at he
      obtain ⟨item, -, hitem⟩ := List.mem_map.mp he
      obtain ⟨v, -, rfl⟩ := Option.map_eq_some_iff.mp hitem
      rfl

end Statements

section Fields

inductive MaskField where
  | bitMask
  | expectedValue

def MaskField.key : MaskField → String
  | .bitMask => "bit_mask"
  | .expectedValue => "expected_value"

def MaskField.stored (c : ConfigLoader R) : MaskField → UInt8
  | .bitMask => c.reverseConfig.bitMask
  | .expectedValue => c.reverseConfig.expectedValue

variable {config rev node : Node} {text : List Char} {plain : List Char → Option ℕ}

theorem finallyWritten_reverse (f : Setting) (hrev : y.get config "reverse" = some (some rev))
    {v : f.Value} (hfield : finallyWritten f (y.reverseStatements rev) = some v) :
    finallyWritten f (y.systemStatements config) = some v := by
  rw [Yaml.systemStatements, finallyWritten_append, finallyWritten_appends, Option.none_or,
    finallyWritten_append, ifPresent_of_get hrev, hfield]
  rfl

theorem finallyWritten_bitMask (hnode : y.get rev "bit_mask" = some (some node)) :
    finallyWritten .reverseBitMask (y.reverseStatements rev) =
      some (y.parseHexOrDec (some node)).toUInt8 := by
  rw [Yaml.reverseStatements]
  simp (disch := decide) only [finallyWritten_append, finallyWritten_assign_ne, Option.none_or]
  rw [finallyWritten_assign hnode rfl]
  rfl

theorem finallyWritten_expectedValue (hnode : y.get rev "expected_value" = some (some node)) :
    finallyWritten .reverseExpectedValue (y.reverseStatements rev) =
      some (y.parseHexOrDec (some node)).toUInt8 := by
  rw [Yaml.reverseStatements]
  simp (disch := decide) only [finallyWritten_append, finallyWritten_assign_ne, Option.none_or]
  rw [finallyWritten_assign hnode rfl]
  rfl

variable [OfScientific R] [Neg R]

theorem load_snd_iff (kind : FileKind) (c : ConfigLoader R) (file : Option Node) :
    (load y kind c file).2 = false ↔ none ∈ statements y kind file := by
  rw [load, Ledger.attempt_eq, completes_eq_false_iff]

theorem setting_load {kind : FileKind} (c : ConfigLoader R) {file : Option Node}
    (h : none ∉ statements y kind file) {f : Setting} {v : f.Value}
    (hwritten : finallyWritten f (statements y kind file) = some v) :
    (load y kind c file).1.setting f = v := by
  have hreplay := (ledger R).setting_replay c (stored y kind file) f
  rw [stored, entered_eq h] at hreplay
  unfold finallyWritten at hwritten
  rw [hwritten] at hreplay
  rw [load_fst, stored, entered_eq h]
  exact hreplay

/-- A load that runs to the end keeps the low byte of a mask. -/
theorem stored_mask (m : MaskField) (c : ConfigLoader R)
    (hrev : y.get config "reverse" = some (some rev))
    (hnode : y.get rev m.key = some (some node))
    (h : none ∉ statements y .system (some config)) :
    m.stored (loadSystemConfig y c (some config)).1 = (y.parseHexOrDec (some node)).toUInt8 := by
  cases m with
  | bitMask =>
    exact setting_load (f := .reverseBitMask) c h
      (finallyWritten_reverse _ hrev (finallyWritten_bitMask hnode))
  | expectedValue =>
    exact setting_load (f := .reverseExpectedValue) c h
      (finallyWritten_reverse _ hrev (finallyWritten_expectedValue hnode))

end Fields

section Buttons

variable {config buttons btn node : Node}

theorem bitMask_button (hnode : y.get btn "bit_mask" = some (some node))
    {button : SteeringButtonDef} (hbutton : y.button btn = some button) :
    button.bitMask = (y.parseHexOrDec (some node)).toUInt8 := by
  unfold Yaml.button Yaml.hexOrDec at hbutton
  rw [hnode] at hbutton
  simp only [Option.bind_eq_bind, Option.bind_eq_some_iff] at hbutton
  obtain ⟨buttonId, -, canId, -, byteIndex, -, mask, hmask, action, -, hmade⟩ := hbutton
  cases hmask
  cases hmade
  rfl

variable [OfScientific R] [Neg R]

theorem steeringButtons_load (c : ConfigLoader R)
    (hbuttons : y.get config "buttons" = some (some buttons))
    (h : none ∉ statements y .steering (some config)) :
    (loadSteeringConfig y c (some config)).1.steeringButtons =
      c.steeringButtons ++ (y.elements buttons).filterMap y.button := by
  have hreplay := (ledger R).list_replay c (stored y .steering (some config)) .steeringButtons
  have hall : allAppended .steeringButtons (stored y .steering (some config)) =
      (y.elements buttons).filterMap y.button := by
    rw [stored, entered_eq h, allAppended, statements, Yaml.steeringStatements,
      ifPresent_of_get hbuttons, List.filterMap_map, List.filterMap_filterMap]
    apply List.filterMap_congr
    intro btn _
    change ((y.button btn).map _).bind _ = _
    cases y.button btn <;> rfl
  rw [hall] at hreplay
  rw [loadSteeringConfig, load_fst]
  exact hreplay

theorem getElem?_filterMap_of_isSome {α β : Type} {f : α → Option β} {xs : List α}
    (h : ∀ x ∈ xs, f x ≠ none) (i : ℕ) : (xs.filterMap f)[i]? = xs[i]?.bind f := by
  induction xs generalizing i with
  | nil => rfl
  | cons x xs ih =>
    have hrest := ih (fun x' hmem => h x' (List.mem_cons_of_mem x hmem))
    cases hx : f x with
    | none => exact absurd hx (h x List.mem_cons_self)
    | some b =>
      rw [List.filterMap_cons_some hx]
      cases i with
      | zero => exact hx.symm
      | succ i => exact hrest i

theorem stored_button (c : ConfigLoader R) (hbuttons : y.get config "buttons" = some (some buttons))
    {i : ℕ} (hbtn : (y.elements buttons)[i]? = some btn)
    (hnode : y.get btn "bit_mask" = some (some node))
    (h : none ∉ statements y .steering (some config)) :
    ∃ button, (loadSteeringConfig y c (some config)).1.steeringButtons[
        c.steeringButtons.length + i]? = some button ∧
      button.bitMask = (y.parseHexOrDec (some node)).toUInt8 := by
  have hread : ∀ btn ∈ y.elements buttons, y.button btn ≠ none := by
    intro btn hmem hnone
    apply h
    rw [statements, Yaml.steeringStatements, ifPresent_of_get hbuttons]
    exact List.mem_map.mpr ⟨btn, hmem, by rw [hnone]; rfl⟩
  cases hbutton : y.button btn with
  | none => exact absurd hbutton (hread btn (List.mem_of_getElem? hbtn))
  | some button =>
    refine ⟨button, ?_, bitMask_button hnode hbutton⟩
    rw [steeringButtons_load c hbuttons h, List.getElem?_append_right (Nat.le_add_right _ i),
      Nat.add_sub_cancel_left, getElem?_filterMap_of_isSome hread, hbtn]
    exact hbutton

end Buttons

section Masks

variable [OfScientific R] [Neg R]

/-- A mask is kept as written, or the load fails, exactly where its text writes a number of eight
    bits or the file has an entry that throws. -/
theorem masks_written_iff (y : Yaml Node R) (plain : List Char → Option ℕ)
    (hplain : ReadsNumbers y plain) (c : ConfigLoader R) (config : Node) :
    (∀ (m : MaskField) (rev node : Node) (text : List Char),
      y.get config "reverse" = some (some rev) → y.get rev m.key = some (some node) →
      y.IsText node text →
      ((loadSystemConfig y c (some config)).2 = false ∨
          Writes plain text (m.stored (loadSystemConfig y c (some config)).1) ↔
        none ∈ statements y .system (some config) ∨ WritesByte plain text)) ∧
    (∀ (buttons btn node : Node) (i : ℕ) (text : List Char),
      y.get config "buttons" = some (some buttons) → (y.elements buttons)[i]? = some btn →
      y.get btn "bit_mask" = some (some node) → y.IsText node text →
      ((loadSteeringConfig y c (some config)).2 = false ∨
          (∃ button, (loadSteeringConfig y c (some config)).1.steeringButtons[
            c.steeringButtons.length + i]? = some button ∧ Writes plain text button.bitMask) ↔
        none ∈ statements y .steering (some config) ∨ WritesByte plain text)) := by
  constructor
  · intro m rev node text hrev hnode htext
    rw [loadSystemConfig, load_snd_iff]
    by_cases hthrows : none ∈ statements y .system (some config)
    · exact iff_of_true (.inl hthrows) (.inl hthrows)
    · have hstored := stored_mask m c hrev hnode hthrows
      rw [loadSystemConfig] at hstored
      rw [hstored, or_iff_right hthrows, or_iff_right hthrows, writes_narrowed_iff hplain htext]
  · intro buttons btn node i text hbuttons hbtn hnode htext
    rw [loadSteeringConfig, load_snd_iff]
    by_cases hthrows : none ∈ statements y .steering (some config)
    · exact iff_of_true (.inl hthrows) (.inl hthrows)
    · obtain ⟨button, hbutton, hmask⟩ := stored_button c hbuttons hbtn hnode hthrows
      rw [loadSteeringConfig] at hbutton
      rw [or_iff_right hthrows, or_iff_right hthrows, ← writes_narrowed_iff hplain htext, ← hmask]
      constructor
      · rintro ⟨button', hbutton', hwrites⟩
        cases hbutton.symm.trans hbutton'
        exact hwrites
      · exact fun hwrites => ⟨button, hbutton, hwrites⟩

end Masks

section Trees

def decimalNumber (text : List Char) : Option ℕ :=
  if text ≠ [] ∧ text.all Char.isDigit then
    some (text.foldl (fun value c => 10 * value + (c.toNat - '0'.toNat)) 0)
  else none

theorem decimal_scalar (limit : ℕ) (text : String) : YamlTree.decimal limit (.scalar text) =
    (decimalNumber text.toList).filter (fun n => n < limit) := by
  unfold YamlTree.decimal decimalNumber
  dsimp only
  by_cases hdigits : text.toList ≠ [] ∧ text.toList.all Char.isDigit = true
  · rw [if_pos hdigits, Option.filter_some]
    by_cases hfits : text.toList.foldl (fun value c => 10 * value + (c.toNat - '0'.toNat)) 0 < limit
    · rw [if_pos ⟨hdigits.1, hdigits.2, hfits⟩, if_pos (decide_eq_true hfits)]
    · rw [if_neg (fun hall => hfits hall.2.2), if_neg (by simpa using hfits)]
  · rw [if_neg hdigits, if_neg (fun hall => hdigits ⟨hall.1, hall.2.1⟩)]
    rfl

theorem yaml_readsNumbers : ReadsNumbers YamlTree.yaml decimalNumber where
  empty := rfl
  number node text htext _ := by
    cases node with
    | sequence items => cases htext.string
    | map pairs => cases htext.string
    | scalar string =>
      obtain rfl : string.toList = text := Option.some.inj htext.string
      change ((YamlTree.decimal (2 ^ 32) (.scalar string)).map UInt32.ofNat).map UInt32.toNat = _
      rw [decimal_scalar]
      cases hkept : (decimalNumber string.toList).filter (fun n => n < 2 ^ 32) with
      | none => rfl
      | some n =>
        have hfits : n < 2 ^ 32 := of_decide_eq_true (Option.filter_eq_some_iff.mp hkept).2
        rw [Option.map_some, Option.map_some, UInt32.toNat_ofNat', Nat.mod_eq_of_lt hfits]

def maskTree (reverseMask buttonMask : String) : YamlTree :=
  .map [("reverse", .map [("bit_mask", .scalar reverseMask)]),
    ("buttons", .sequence [.map [("id", .scalar "1"), ("can_id", .scalar "0x1D6"),
      ("byte_index", .scalar "0"), ("bit_mask", .scalar buttonMask),
      ("action", .scalar "vol_up")]])]

theorem masks_written_iff_tree :
    ((loadSystemConfig YamlTree.yaml {} (some (maskTree "0x80" "16"))).2 = false ∨
        Writes decimalNumber "0x80".toList (MaskField.bitMask.stored
          (loadSystemConfig YamlTree.yaml {} (some (maskTree "0x80" "16"))).1) ↔
      none ∈ statements YamlTree.yaml .system (some (maskTree "0x80" "16")) ∨
        WritesByte decimalNumber "0x80".toList) ∧
    ((loadSteeringConfig YamlTree.yaml {} (some (maskTree "0x80" "16"))).2 = false ∨
        (∃ button, (loadSteeringConfig YamlTree.yaml {}
            (some (maskTree "0x80" "16"))).1.steeringButtons[0 + 0]? = some button ∧
          Writes decimalNumber "16".toList button.bitMask) ↔
      none ∈ statements YamlTree.yaml .steering (some (maskTree "0x80" "16")) ∨
        WritesByte decimalNumber "16".toList) := by
  have hmasks := masks_written_iff YamlTree.yaml decimalNumber yaml_readsNumbers {}
    (maskTree "0x80" "16")
  exact ⟨hmasks.1 .bitMask _ _ _ rfl rfl ⟨rfl, rfl⟩, hmasks.2 _ _ _ 0 _ rfl rfl rfl ⟨rfl, rfl⟩⟩

/-- Masks of 256 and 257 are kept as 0 and 1. -/
theorem wide_masks_kept :
    let system := loadSystemConfig YamlTree.yaml {} (some (maskTree "0x100" "257"))
    let steering := loadSteeringConfig YamlTree.yaml {} (some (maskTree "0x100" "257"))
    (system.2 = true ∧ writtenNumber decimalNumber "0x100".toList = some 256 ∧
      system.1.reverseConfig.bitMask = 0) ∧
    (steering.2 = true ∧ writtenNumber decimalNumber "257".toList = some 257 ∧
      steering.1.steeringButtons.map SteeringButtonDef.bitMask = [1]) := by
  decide +kernel

end Trees

end ConfigLoader

end SpeeduinoDash
