import Mathlib.Data.Int.Notation
import Mathlib.Data.Nat.Notation
import Mathlib.Tactic.SplitIfs

set_option autoImplicit false

/-!
# Byte codecs and the MessagePack formats of small records

A codec reads back what it wrote, whatever follows. Codecs compose, so a record of
numbers and booleans gets its array format, and its round trip, from those of its fields.
-/
namespace Lib.MsgPack

structure Codec (α : Type) where
  pack : α → List UInt8
  unpack : List UInt8 → Option (α × List UInt8)
  unpack_pack : ∀ a rest, unpack (pack a ++ rest) = some (a, rest)

def Codec.convert {α : Type} (c : Codec α) (bytes : List UInt8) : Option α :=
  (c.unpack bytes).map Prod.fst

theorem Codec.convert_pack {α : Type} (c : Codec α) (a : α) : c.convert (c.pack a) = some a := by
  have h := c.unpack_pack a []
  rw [List.append_nil] at h
  rw [convert, h]
  rfl

namespace Codec

variable {α β : Type}

def seq (c : Codec α) (d : Codec β) : Codec (α × β) where
  pack p := c.pack p.1 ++ d.pack p.2
  unpack bytes := (c.unpack bytes).bind (fun x => (d.unpack x.2).map (fun y => ((x.1, y.1), y.2)))
  unpack_pack p rest := by
    rw [List.append_assoc, c.unpack_pack, Option.bind_some, d.unpack_pack]
    rfl

def tagged (tag : UInt8) (c : Codec α) : Codec α where
  pack a := tag :: c.pack a
  unpack
    | [] => none
    | b :: bytes => if b = tag then c.unpack bytes else none
  unpack_pack a rest := by
    change (if tag = tag then c.unpack (c.pack a ++ rest) else none) = _
    rw [if_pos rfl, c.unpack_pack]

def imap (c : Codec α) (f : α → β) (g : β → α) (h : ∀ b, f (g b) = b) : Codec β where
  pack b := c.pack (g b)
  unpack bytes := (c.unpack bytes).map (fun x => (f x.1, x.2))
  unpack_pack b rest := by
    rw [c.unpack_pack, Option.map_some, h]

end Codec

def packNat (n : ℕ) : List UInt8 :=
  if n < 128 then [UInt8.ofNat n]
  else if n < 256 then [0xcc, UInt8.ofNat n]
  else if n < 65536 then [0xcd, UInt8.ofNat (n / 256), UInt8.ofNat n]
  else [0xce, UInt8.ofNat (n / 16777216), UInt8.ofNat (n / 65536), UInt8.ofNat (n / 256),
    UInt8.ofNat n]

def readDigits : ℕ → ℕ → List UInt8 → Option (ℕ × List UInt8)
  | 0, n, rest => some (n, rest)
  | _ + 1, _, [] => none
  | count + 1, n, b :: rest => readDigits count (n * 256 + b.toNat) rest

def unpackNat : List UInt8 → Option (ℕ × List UInt8)
  | [] => none
  | tag :: rest =>
    if tag < 128 then some (tag.toNat, rest)
    else if tag = 0xcc then readDigits 1 0 rest
    else if tag = 0xcd then readDigits 2 0 rest
    else if tag = 0xce then readDigits 4 0 rest
    else none

theorem unpackNat_packNat (n : ℕ) (h : n < 4294967296) (rest : List UInt8) :
    unpackNat (packNat n ++ rest) = some (n, rest) := by
  unfold packNat
  split_ifs with h7 h8 h16
  · have hlt : UInt8.ofNat n < 128 := by
      rw [UInt8.lt_iff_toNat_lt, UInt8.toNat_ofNat']
      change n % 256 < 128
      omega
    change (if UInt8.ofNat n < 128 then _ else _) = _
    rw [if_pos hlt, UInt8.toNat_ofNat', Nat.mod_eq_of_lt (by omega)]
    rfl
  · change some (0 * 256 + (UInt8.ofNat n).toNat, rest) = _
    rw [UInt8.toNat_ofNat']
    congr 2
    omega
  · change some ((0 * 256 + (UInt8.ofNat (n / 256)).toNat) * 256 + (UInt8.ofNat n).toNat, rest) = _
    rw [UInt8.toNat_ofNat', UInt8.toNat_ofNat']
    congr 2
    omega
  · change some ((((0 * 256 + (UInt8.ofNat (n / 16777216)).toNat) * 256 +
      (UInt8.ofNat (n / 65536)).toNat) * 256 + (UInt8.ofNat (n / 256)).toNat) * 256 +
      (UInt8.ofNat n).toNat, rest) = _
    rw [UInt8.toNat_ofNat', UInt8.toNat_ofNat', UInt8.toNat_ofNat', UInt8.toNat_ofNat']
    congr 2
    omega

/-- An unsigned field of `bound` values; a larger number does not convert. -/
def unsigned (bound : ℕ) (hbound : bound ≤ 4294967296) : Codec (Fin bound) where
  pack n := packNat n
  unpack bytes := (unpackNat bytes).bind
    (fun x => if h : x.1 < bound then some (⟨x.1, h⟩, x.2) else none)
  unpack_pack n rest := by
    rw [unpackNat_packNat n.val (Nat.lt_of_lt_of_le n.isLt hbound), Option.bind_some]
    exact dif_pos n.isLt

/-- Negative numbers have formats of their own, the others share the unsigned ones. -/
def packInt (n : ℤ) : List UInt8 :=
  if 0 ≤ n then packNat n.toNat
  else if -32 ≤ n then [UInt8.ofNat (n + 256).toNat]
  else if -128 ≤ n then [0xd0, UInt8.ofNat (n + 256).toNat]
  else [0xd1, UInt8.ofNat ((n + 65536).toNat / 256), UInt8.ofNat (n + 65536).toNat]

def signedValue (bound n : ℕ) : ℤ := if bound / 2 ≤ n then (n : ℤ) - bound else n

def unpackInt : List UInt8 → Option (ℤ × List UInt8)
  | [] => none
  | tag :: rest =>
    if 224 ≤ tag then some (signedValue 256 tag.toNat, rest)
    else if tag = 0xd0 then
      (readDigits 1 0 rest).map (fun x => (signedValue 256 x.1, x.2))
    else if tag = 0xd1 then
      (readDigits 2 0 rest).map (fun x => (signedValue 65536 x.1, x.2))
    else (unpackNat (tag :: rest)).map (fun x => ((x.1 : ℤ), x.2))

theorem packNat_head (n : ℕ) : ∃ tag bytes, packNat n = tag :: bytes ∧ tag < 0xd0 := by
  unfold packNat
  split_ifs with h7
  · refine ⟨_, [], rfl, ?_⟩
    rw [UInt8.lt_iff_toNat_lt, UInt8.toNat_ofNat']
    change n % 256 < 208
    omega
  · exact ⟨0xcc, _, rfl, by decide⟩
  · exact ⟨0xcd, _, rfl, by decide⟩
  · exact ⟨0xce, _, rfl, by decide⟩

theorem unpackInt_packInt (n : ℤ) (hlo : -32768 ≤ n) (hhi : n < 4294967296)
    (rest : List UInt8) : unpackInt (packInt n ++ rest) = some (n, rest) := by
  unfold packInt
  split_ifs with h0 h5 h7
  · have hnat := unpackNat_packNat n.toNat (by omega) rest
    obtain ⟨tag, bytes, hpack, htag⟩ := packNat_head n.toNat
    have hfix : ¬ 224 ≤ tag := fun h => absurd (UInt8.lt_of_le_of_lt h htag) (by decide)
    have hd0 : tag ≠ 0xd0 := UInt8.ne_of_lt htag
    have hd1 : tag ≠ 0xd1 := by
      rintro rfl
      exact absurd htag (by decide)
    rw [hpack, List.cons_append] at hnat ⊢
    rw [unpackInt, if_neg hfix, if_neg hd0, if_neg hd1, hnat, Option.map_some,
      Int.toNat_of_nonneg h0]
  · have htag : 224 ≤ UInt8.ofNat (n + 256).toNat := by
      rw [UInt8.le_iff_toNat_le, UInt8.toNat_ofNat']
      change 224 ≤ (n + 256).toNat % 256
      omega
    change (if 224 ≤ UInt8.ofNat (n + 256).toNat then _ else _) = _
    rw [if_pos htag, UInt8.toNat_ofNat', signedValue]
    congr 2
    split_ifs <;> omega
  · change some (signedValue 256 (0 * 256 + (UInt8.ofNat (n + 256).toNat).toNat), rest) = _
    rw [UInt8.toNat_ofNat', signedValue]
    congr 2
    split_ifs <;> omega
  · change some (signedValue 65536 ((0 * 256 + (UInt8.ofNat ((n + 65536).toNat / 256)).toNat) * 256 +
      (UInt8.ofNat (n + 65536).toNat).toNat), rest) = _
    rw [UInt8.toNat_ofNat', UInt8.toNat_ofNat', signedValue]
    congr 2
    split_ifs <;> omega

def signed (lo hi : ℤ) (hlo : -32768 ≤ lo) (hhi : hi ≤ 4294967296) :
    Codec {n : ℤ // lo ≤ n ∧ n < hi} where
  pack n := packInt n.val
  unpack bytes := (unpackInt bytes).bind
    (fun x => if h : lo ≤ x.1 ∧ x.1 < hi then some (⟨x.1, h⟩, x.2) else none)
  unpack_pack n rest := by
    obtain ⟨hlow, hhigh⟩ := n.property
    rw [unpackInt_packInt n.val (Int.le_trans hlo hlow) (by omega), Option.bind_some]
    exact dif_pos n.property

def uint8 : Codec UInt8 :=
  (unsigned 256 (by omega)).imap (fun n => UInt8.ofFin n) UInt8.toFin (fun _ => rfl)

def uint32 : Codec UInt32 :=
  (unsigned 4294967296 (by omega)).imap (fun n => UInt32.ofFin n) UInt32.toFin (fun _ => rfl)

def uint16 : Codec UInt16 :=
  (unsigned 65536 (by omega)).imap (fun n => UInt16.ofFin n) UInt16.toFin (fun _ => rfl)

def int8 : Codec Int8 :=
  (signed (-128) 128 (by omega) (by omega)).imap (fun n => Int8.ofInt n.val)
    (fun n => ⟨n.toInt, n.le_toInt, n.toInt_lt⟩) (fun n => n.ofInt_toInt)

def int16 : Codec Int16 :=
  (signed (-32768) 32768 (by omega) (by omega)).imap (fun n => Int16.ofInt n.val)
    (fun n => ⟨n.toInt, n.le_toInt, n.toInt_lt⟩) (fun n => n.ofInt_toInt)

def bool : Codec Bool where
  pack b := [if b then 0xc3 else 0xc2]
  unpack
    | [] => none
    | tag :: rest =>
      if tag = 0xc3 then some (true, rest) else if tag = 0xc2 then some (false, rest) else none
  unpack_pack b rest := by
    cases b <;> rfl

def bin8 : Codec (Vector UInt8 8) where
  pack v := 0xc4 :: 8 :: v.toList
  unpack
    | tag :: size :: b₀ :: b₁ :: b₂ :: b₃ :: b₄ :: b₅ :: b₆ :: b₇ :: rest =>
      if tag = 0xc4 ∧ size = 8 then some (#v[b₀, b₁, b₂, b₃, b₄, b₅, b₆, b₇], rest) else none
    | _ => none
  unpack_pack v rest := by
    obtain ⟨⟨bytes⟩, hsize⟩ := v
    match bytes, hsize with
    | [_, _, _, _, _, _, _, _], _ => rfl

end Lib.MsgPack
