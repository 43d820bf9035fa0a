import Mathlib.Data.List.Basic
import Mathlib.Data.Nat.Notation

set_option autoImplicit false

/-!
# Segments of a message

A message of at most seven bytes travels in a single frame, a longer one in a first frame and
consecutive frames. The first nibble of a frame says which it is. Frames have eight bytes, of which
those behind the contents are padding.
-/
namespace Lib.IsoTp

def segments (message : List UInt8) : List (List UInt8) :=
  if message.length ≤ 7 then [UInt8.ofNat message.length :: message]
  else
    (UInt8.ofNat (0x10 + message.length / 256) :: UInt8.ofNat (message.length % 256) ::
      message.take 6) ::
    (List.range (((message.drop 6).length + 6) / 7)).map (fun k =>
      UInt8.ofNat (0x20 + (k + 1) % 16) :: ((message.drop 6).drop (7 * k)).take 7)

def Carries (data : Vector UInt8 8) (contents : List UInt8) : Prop := contents <+: data.toList

/-- Padding comes behind the contents of the last frame. -/
def padLast (padding : List UInt8) : List (List UInt8) → List (List UInt8)
  | [] => []
  | [contents] => [contents ++ padding]
  | contents :: next :: rest => contents :: padLast padding (next :: rest)

def Frames (message padding : List UInt8) (frames : List (Vector UInt8 8)) : Prop :=
  frames.map Vector.toList = padLast padding (segments message)

/-- Consecutive frames from number `k` on, with seven bytes of the stream each. -/
inductive Consecutive : ℕ → List UInt8 → List (Vector UInt8 8) → Prop where
  | nil (k : ℕ) : Consecutive k [] []
  | cons {k : ℕ} {contents stream : List UInt8} {frame : Vector UInt8 8}
      {frames : List (Vector UInt8 8)} :
      frame.toList = UInt8.ofNat (0x20 + k % 16) :: contents → Consecutive (k + 1) stream frames →
      Consecutive k (contents ++ stream) (frame :: frames)

def singleFrame (data : Vector UInt8 8) : Option (List UInt8) :=
  if data[0]! >>> 4 = 0 ∧ data[0]! ≠ 0 ∧ data[0]! ≤ 7 then
    some ((data.toList.drop 1).take data[0]!.toNat)
  else none

theorem Carries.getElem {data : Vector UInt8 8} {contents : List UInt8} (h : Carries data contents)
    {i : ℕ} (hi : i < contents.length) (h8 : i < 8) : data[i] = contents[i] := by
  rw [List.IsPrefix.getElem h hi, Vector.getElem_toList]

theorem segments_single {message : List UInt8} (h : message.length ≤ 7) :
    segments message = [UInt8.ofNat message.length :: message] := if_pos h

theorem segments_first {message : List UInt8} (h : 7 < message.length) :
    ∃ rest, segments message = (UInt8.ofNat (0x10 + message.length / 256) ::
      UInt8.ofNat (message.length % 256) :: message.take 6) :: rest :=
  ⟨_, if_neg (Nat.not_le.mpr h)⟩

theorem frames_single {message padding : List UInt8} {frames : List (Vector UInt8 8)}
    (h : message.length ≤ 7) (hframes : Frames message padding frames) :
    ∃ frame : Vector UInt8 8, frames = [frame] ∧
      frame.toList = UInt8.ofNat message.length :: (message ++ padding) := by
  rw [Frames, segments_single h] at hframes
  obtain ⟨frame, rest, rfl, hframe, hrest⟩ := List.map_eq_cons_iff.mp hframes
  exact ⟨frame, by rw [List.map_eq_nil_iff.mp hrest], hframe⟩

theorem consecutive_of_map {padding : List UInt8} (n k : ℕ) (body : List UInt8)
    (frames : List (Vector UInt8 8)) (hn : 7 * n < body.length) (hn' : body.length ≤ 7 * (n + 1))
    (h : frames.map Vector.toList = padLast padding ((List.range (n + 1)).map (fun i =>
      UInt8.ofNat (0x20 + (k + i) % 16) :: (body.drop (7 * i)).take 7))) :
    Consecutive k (body ++ padding) frames := by
  induction n generalizing k body frames with
  | zero =>
    obtain ⟨frame, rest, rfl, hframe, hrest⟩ := List.map_eq_cons_iff.mp h
    have hall : (body.drop 0).take 7 = body := List.take_of_length_le hn'
    change frame.toList = UInt8.ofNat (0x20 + k % 16) :: ((body.drop 0).take 7 ++ padding) at hframe
    rw [hall] at hframe
    rw [List.map_eq_nil_iff.mp hrest, ← List.append_nil (body ++ padding)]
    exact .cons hframe (.nil (k + 1))
  | succ n ih =>
    rw [List.range_succ_eq_map, List.map_cons, List.map_map, List.range_succ_eq_map,
      List.map_cons, padLast] at h
    obtain ⟨frame, rest, rfl, hframe, hrest⟩ := List.map_eq_cons_iff.mp h
    have hsplit : body ++ padding = body.take 7 ++ (body.drop 7 ++ padding) := by
      rw [← List.append_assoc, List.take_append_drop]
    rw [hsplit]
    refine .cons hframe (ih (k + 1) (body.drop 7) rest ?_ ?_ ?_)
    · rw [List.length_drop]
      omega
    · rw [List.length_drop]
      omega
    · rw [hrest, List.range_succ_eq_map, List.map_cons]
      simp [List.drop_drop, Nat.mul_add, Nat.add_comm, Nat.add_left_comm, Function.comp_def]

theorem frames_multi {message padding : List UInt8} {frames : List (Vector UInt8 8)}
    (h : 7 < message.length) (hframes : Frames message padding frames) :
    ∃ (first : Vector UInt8 8) (rest : List (Vector UInt8 8)), frames = first :: rest ∧
      first.toList = UInt8.ofNat (0x10 + message.length / 256) ::
        UInt8.ofNat (message.length % 256) :: message.take 6 ∧
      Consecutive 1 (message.drop 6 ++ padding) rest := by
  have hlength : (message.drop 6).length = message.length - 6 := List.length_drop
  obtain ⟨n, hn⟩ : ∃ n, ((message.drop 6).length + 6) / 7 = n + 1 :=
    ⟨((message.drop 6).length + 6) / 7 - 1, by omega⟩
  rw [Frames, segments, if_neg (Nat.not_le.mpr h), hn, List.range_succ_eq_map, List.map_cons,
    padLast] at hframes
  obtain ⟨first, rest, rfl, hfirst, hrest⟩ := List.map_eq_cons_iff.mp hframes
  refine ⟨first, rest, rfl, hfirst, consecutive_of_map n 1 _ rest (by omega) (by omega) ?_⟩
  rw [hrest, List.range_succ_eq_map, List.map_cons]
  simp [Nat.add_comm]

theorem singleFrame_of_carries {data : Vector UInt8 8} {message : List UInt8}
    (hpos : 0 < message.length) (h : message.length ≤ 7)
    (hcarries : Carries data (UInt8.ofNat message.length :: message)) :
    singleFrame data = some message := by
  have hlength : data[0]! = UInt8.ofNat message.length :=
    hcarries.getElem (i := 0) (by simp) (by omega)
  obtain ⟨padding, hdata⟩ := hcarries
  have htoNat : (UInt8.ofNat message.length).toNat = message.length := by
    rw [UInt8.toNat_ofNat']
    omega
  have hguard : data[0]! >>> 4 = 0 ∧ data[0]! ≠ 0 ∧ data[0]! ≤ 7 := by
    have hsmall : ∀ n < 8, 0 < n →
        UInt8.ofNat n >>> 4 = 0 ∧ UInt8.ofNat n ≠ 0 ∧ UInt8.ofNat n ≤ 7 := by decide
    rw [hlength]
    exact hsmall message.length (by omega) hpos
  rw [singleFrame, if_pos hguard, hlength, htoNat, ← hdata]
  simp

end Lib.IsoTp
