import Mathlib.Algebra.Group.Nat.Defs
import SpeeduinoDash.ConfigWatcher
import SpeeduinoDash.Lib.BoundedLoop
import SpeeduinoDash.Lib.ByteOrder
import SpeeduinoDash.WatchTable

set_option autoImplicit false

/-!
# The loop that reads inotify events

One read fills a buffer with packed records: descriptor, mask, cookie and name length in four
little-endian bytes each, and the name with at least one zero byte behind it. The buffer keeps what
earlier reads left behind the bytes read. Other threads may change the watch table between two
events; the clock is read once an event.
-/
namespace SpeeduinoDash.WatchLoop
open Lib.BoundedLoop Lib.ByteOrder Lib.Runs

def inotifyBufferSize : ℕ := 4096
def eventSize : ℕ := 16

/-- The bytes of a `std::string`, one character each. -/
def text (bytes : List UInt8) : String := String.ofList (bytes.map (fun b => Char.ofNat b.toNat))

def contents (buffer : ℕ → UInt8) (i n : ℕ) : List UInt8 :=
  (List.range n).map (fun k => buffer (i + k))

/-- The string that starts at place `i`, as far as the buffer goes. -/
def cString (buffer : ℕ → UInt8) (i : ℕ) : List UInt8 :=
  (contents buffer i (inotifyBufferSize - i)).takeWhile (· ≠ 0)

def field (buffer : ℕ → UInt8) (i : ℕ) : UInt32 :=
  UInt32.ofNat (littleEndian [buffer i, buffer (i + 1), buffer (i + 2), buffer (i + 3)])

structure Heard where
  wd : ℤ
  mask : UInt32
  filename : String
deriving DecidableEq

/-- The state shared by all reads: how many events there were, the watcher, and what the callback
    was told. -/
structure Hearing where
  count : ℕ := 0
  watcher : ConfigWatcher
  told : List ConfigChangeEvent := []

section Loop

variable (tables : ℕ → WatchTable) (clock : ℕ → ℤ)

def hear (s : Hearing) (e : Heard) : Hearing :=
  let watchPath := (tables s.count).watchPath e.wd
  if watchPath = "" then { s with count := s.count + 1 }
  else
    let r := s.watcher.processEvent watchPath ⟨clock s.count, e.mask, e.filename⟩
    ⟨s.count + 1, r.1, s.told ++ r.2.toList⟩

def eventAt (buffer : ℕ → UInt8) (i : ℕ) : Heard where
  wd := (field buffer i).toInt32.toInt
  mask := field buffer (i + 4)
  filename := if 0 < field buffer (i + 12) then text (cString buffer (i + eventSize)) else ""

def processEvents (buffer : ℕ → UInt8) (length : ℕ) (s : ℕ × Hearing) :
    Round (ℕ × Hearing) Hearing :=
  if s.1 < length then
    .next (s.1 + eventSize + (field buffer (s.1 + 12)).toNat,
      hear tables clock s.2 (eventAt buffer s.1))
  else .done s.2

/-- What `poll` and `read` give in a pass of the outer loop. -/
inductive Pass where
  | timeout
  | interrupted
  | again
  | pollFailed
  | readFailed
  | read (buffer : ℕ → UInt8) (length : ℕ)

/-- A failure ends the outer loop. -/
def watchLoop (s : Hearing) : List Pass → Hearing
  | [] => s
  | .timeout :: passes => watchLoop s passes
  | .interrupted :: passes => watchLoop s passes
  | .again :: passes => watchLoop s passes
  | .pollFailed :: _ => s
  | .readFailed :: _ => s
  | .read buffer length :: passes =>
    watchLoop ((loop (processEvents tables clock buffer length) (length + 1) (0, s)).getD s) passes

theorem processEvents_falls (buffer : ℕ → UInt8) (length : ℕ) (s s' : ℕ × Hearing)
    (h : processEvents tables clock buffer length s = .next s') : length - s'.1 < length - s.1 := by
  unfold processEvents at h
  split_ifs at h with hlt
  cases h
  change length - (s.1 + eventSize + _) < _
  unfold eventSize
  omega

theorem processEvents_ends (buffer : ℕ → UInt8) (length : ℕ) (s : Hearing) :
    ∃ r, loop (processEvents tables clock buffer length) (length + 1) (0, s) = some r :=
  loop_of_measure (processEvents_falls tables clock buffer length) _ (0, s)
    (Nat.lt_succ_self length)

end Loop

structure KernelEvent where
  wd : UInt32
  mask : UInt32
  cookie : UInt32
  name : List UInt8
  pad : ℕ
  noNul : ∀ b ∈ name, b ≠ 0
  terminated : name ≠ [] → 0 < pad
  small : name.length + pad < 4294967296

namespace KernelEvent

def record (e : KernelEvent) : List UInt8 :=
  toLittleEndian 4 e.wd.toNat ++ toLittleEndian 4 e.mask.toNat ++
    toLittleEndian 4 e.cookie.toNat ++ toLittleEndian 4 (e.name.length + e.pad) ++
    (e.name ++ List.replicate e.pad 0)

def heard (e : KernelEvent) : Heard := ⟨e.wd.toInt32.toInt, e.mask, text e.name⟩

theorem length_record (e : KernelEvent) :
    e.record.length = eventSize + (e.name.length + e.pad) := by
  simp only [record, eventSize, List.length_append, length_toLittleEndian, List.length_replicate]

end KernelEvent

section Memory

variable {buffer : ℕ → UInt8} {i : ℕ}

theorem contents_add (m n : ℕ) :
    contents buffer i (m + n) = contents buffer i m ++ contents buffer (i + m) n := by
  simp [contents, List.range_add, Nat.add_assoc]

@[simp] theorem length_contents (n : ℕ) : (contents buffer i n).length = n := by simp [contents]

def Holds (buffer : ℕ → UInt8) (i : ℕ) (bytes : List UInt8) : Prop :=
  contents buffer i bytes.length = bytes

theorem holds_append {xs ys : List UInt8} :
    Holds buffer i (xs ++ ys) ↔ Holds buffer i xs ∧ Holds buffer (i + xs.length) ys := by
  rw [Holds, List.length_append, contents_add]
  constructor
  · intro h
    exact List.append_inj h (length_contents xs.length)
  · rintro ⟨hxs, hys⟩
    rw [hxs, hys]

theorem field_eq {n : ℕ} (h : Holds buffer i (toLittleEndian 4 n)) :
    field buffer i = UInt32.ofNat n := by
  have hbytes : [buffer i, buffer (i + 1), buffer (i + 2), buffer (i + 3)] =
      toLittleEndian 4 n := by
    rw [Holds, length_toLittleEndian] at h
    exact h
  rw [field, hbytes, littleEndian_toLittleEndian, ← UInt32.toNat_inj, UInt32.toNat_ofNat',
    UInt32.toNat_ofNat']
  omega

theorem cString_eq {name : List UInt8} {pad : ℕ} (hname : ∀ b ∈ name, b ≠ 0) (hpad : 0 < pad)
    (hholds : Holds buffer i (name ++ List.replicate pad 0))
    (hfits : i + (name.length + pad) ≤ inotifyBufferSize) : cString buffer i = name := by
  obtain ⟨rest, hrest⟩ := Nat.exists_eq_add_of_le
    (show (name ++ List.replicate pad (0 : UInt8)).length ≤ inotifyBufferSize - i by
      rw [List.length_append, List.length_replicate]
      omega)
  obtain ⟨zeros, rfl⟩ := Nat.exists_eq_succ_of_ne_zero hpad.ne'
  rw [cString, hrest, contents_add, hholds, List.append_assoc,
    List.takeWhile_append_of_pos (by simpa using hname)]
  simp [List.replicate_succ]

end Memory

section Records

variable {buffer : ℕ → UInt8} {i : ℕ} {e : KernelEvent}

theorem eventAt_record (h : Holds buffer i e.record)
    (hfits : i + e.record.length ≤ inotifyBufferSize) :
    eventAt buffer i = e.heard ∧ (field buffer (i + 12)).toNat = e.name.length + e.pad := by
  rw [KernelEvent.length_record, eventSize] at hfits
  simp only [KernelEvent.record, holds_append, List.length_append, length_toLittleEndian] at h
  obtain ⟨⟨⟨⟨hwd, hmask⟩, -⟩, hlen⟩, hname⟩ := h
  have hlenField := field_eq hlen
  have hlenNat : (field buffer (i + 12)).toNat = e.name.length + e.pad := by
    rw [hlenField, UInt32.toNat_ofNat', Nat.mod_eq_of_lt e.small]
  refine ⟨?_, hlenNat⟩
  have hfilename :
      (if 0 < field buffer (i + 12) then text (cString buffer (i + eventSize)) else "") =
        text e.name := by
    split_ifs with hpos
    · rw [UInt32.lt_iff_toNat_lt, hlenNat] at hpos
      have hpad : 0 < e.pad := by
        rcases eq_or_ne e.name [] with hnil | hname
        · simpa [hnil] using hpos
        · exact e.terminated hname
      have hbehind : i + eventSize + (e.name.length + e.pad) ≤ inotifyBufferSize := by
        rw [eventSize]
        omega
      exact congrArg text (cString_eq e.noNul hpad (holds_append.mpr hname) hbehind)
    · rw [UInt32.lt_iff_toNat_lt, hlenNat] at hpos
      have hnil : e.name = [] := by
        rw [← List.length_eq_zero_iff]
        have hzero : ¬ 0 < e.name.length + e.pad := hpos
        omega
      rw [hnil]
      rfl
  rw [eventAt, hfilename, field_eq hwd, field_eq hmask, UInt32.ofNat_toNat, UInt32.ofNat_toNat]
  rfl

end Records

section Reads

variable (tables : ℕ → WatchTable) (clock : ℕ → ℤ)

/-- Whatever lies behind the bytes read. -/
theorem loop_records {buffer : ℕ → UInt8} {length : ℕ} (hlength : length ≤ inotifyBufferSize)
    (events : List KernelEvent) {i fuel : ℕ}
    (hholds : Holds buffer i (events.flatMap KernelEvent.record))
    (hend : i + (events.flatMap KernelEvent.record).length = length) (hfuel : length - i < fuel)
    (s : Hearing) :
    loop (processEvents tables clock buffer length) fuel (i, s) =
      some (run (hear tables clock) s (events.map KernelEvent.heard)) := by
  induction events generalizing i fuel s with
  | nil =>
    rw [List.flatMap_nil, List.length_nil] at hend
    have hdone : processEvents tables clock buffer length (i, s) = .done s :=
      if_neg (show ¬ i < length by omega)
    cases fuel with
    | zero => exact absurd hfuel (Nat.not_lt_zero _)
    | succ fuel => rw [loop_done hdone, List.map_nil, run_nil]
  | cons e events ih =>
    rw [List.flatMap_cons, holds_append] at hholds
    rw [List.flatMap_cons, List.length_append] at hend
    have hrecord := e.length_record
    have hpos : 0 < e.record.length := by
      rw [hrecord, eventSize]
      omega
    obtain ⟨hevent, hlen⟩ := eventAt_record hholds.1 (by omega)
    have hnext : processEvents tables clock buffer length (i, s) =
        .next (i + e.record.length, hear tables clock s e.heard) := by
      rw [processEvents, if_pos (show i < length by omega), hevent, hlen, hrecord, Nat.add_assoc]
    cases fuel with
    | zero => exact absurd hfuel (Nat.not_lt_zero _)
    | succ fuel =>
      rw [loop_next hnext, List.map_cons, run_cons]
      exact ih hholds.2 (by omega) (by omega) _

structure Batch where
  events : List KernelEvent
  leftover : ℕ → UInt8
  fits : (events.flatMap KernelEvent.record).length ≤ inotifyBufferSize

namespace Batch

def bytes (b : Batch) : List UInt8 := b.events.flatMap KernelEvent.record

def buffer (b : Batch) (i : ℕ) : UInt8 := b.bytes[i]?.getD (b.leftover i)

theorem holds_bytes (b : Batch) : Holds b.buffer 0 b.bytes := by
  refine List.ext_getElem (length_contents _) fun i h₁ h₂ => ?_
  simp [contents, buffer, List.getElem?_eq_getElem h₂]

end Batch

inductive KernelPass where
  | timeout
  | interrupted
  | again
  | pollFailed
  | readFailed
  | delivers (batch : Batch)

namespace KernelPass

def pass : KernelPass → Pass
  | timeout => .timeout
  | interrupted => .interrupted
  | again => .again
  | pollFailed => .pollFailed
  | readFailed => .readFailed
  | delivers batch => .read batch.buffer batch.bytes.length

end KernelPass

def delivered : List KernelPass → List KernelEvent
  | .timeout :: passes => delivered passes
  | .interrupted :: passes => delivered passes
  | .again :: passes => delivered passes
  | .delivers batch :: passes => batch.events ++ delivered passes
  | _ => []

/-- The watcher hears every event once and in order, however the kernel packs the events into
    reads, and nothing else. -/
theorem hears_delivered (s : Hearing) (passes : List KernelPass) :
    watchLoop tables clock s (passes.map KernelPass.pass) =
      run (hear tables clock) s ((delivered passes).map KernelEvent.heard) := by
  induction passes generalizing s with
  | nil => rfl
  | cons p passes ih =>
    cases p with
    | timeout => exact ih s
    | interrupted => exact ih s
    | again => exact ih s
    | pollFailed => rfl
    | readFailed => rfl
    | delivers batch =>
      have hread := loop_records tables clock batch.fits batch.events batch.holds_bytes
        (Nat.zero_add _) (Nat.lt_succ_self _) s
      simp only [List.map_cons, KernelPass.pass, watchLoop, delivered, List.map_append, run_append]
      rw [← ih]
      exact congrArg (fun r : Option Hearing => watchLoop tables clock (r.getD s) _) hread

def written : KernelEvent := ⟨3, inCloseWrite, 0, [97], 3, by simp, by decide, by simp⟩

def removed : KernelEvent := ⟨3, inDelete, 0, [98, 99], 2, by simp, by decide, by simp⟩

def packed : Batch where
  events := [written, removed]
  leftover _ := 255
  fits := by decide

def configDirectory : WatchTable :=
  (({ initialized := true } : WatchTable).addPath "/etc" (some (1, true)) (some 3)).2

theorem hears_delivered_packed :
    (watchLoop (fun _ => configDirectory) (fun _ => 0) { watcher := { callback := true } }
      ([.timeout, .delivers packed, .readFailed].map KernelPass.pass)).told =
        [⟨"/etc/a", .modified, 0⟩, ⟨"/etc/bc", .deleted, 0⟩] := by
  rw [hears_delivered]
  decide +kernel

end Reads

end SpeeduinoDash.WatchLoop
