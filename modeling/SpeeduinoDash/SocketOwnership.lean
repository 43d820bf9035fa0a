import SpeeduinoDash.CanInterface
import SpeeduinoDash.Lib.Ownership
import SpeeduinoDash.Lib.Runs

set_option autoImplicit false

/-!
# Who closes the sockets

The interface has room for one descriptor. The log says which descriptors the kernel has handed out
and which have been closed.
-/
namespace SpeeduinoDash.CanInterface
open Lib.Ownership Lib.Runs

/-- The descriptor that `socket` returns, if it does, and whether the calls after it succeed.
    `setsockopt` may fail. -/
structure OpenCalls where
  socket : Option ℕ
  ioctl : Bool
  bind : Bool

/-- What `open` returns, what it leaves, and the descriptors that it got and closed. -/
def openSocket (iface : CanInterface) (calls : OpenCalls) :
    Bool × CanInterface × List (Event ℕ) :=
  match calls.socket with
  | none => (false, { iface with socket := -1 }, [])
  | some fd =>
    if ¬ calls.ioctl then (false, { iface with socket := -1 }, [.acquire fd, .release fd])
    else if ¬ calls.bind then (false, { iface with socket := -1 }, [.acquire fd, .release fd])
    else (true, { iface with socket := fd }, [.acquire fd])

def closeSocket (iface : CanInterface) : CanInterface × List (Event ℕ) :=
  if 0 ≤ iface.socket then ({ iface with socket := -1 }, [.release iface.socket.toNat])
  else (iface, [])

structure Sockets where
  iface : CanInterface := {}
  log : List (Event ℕ) := []

inductive Call where
  | open (calls : OpenCalls)
  | close

namespace Sockets

def step (s : Sockets) : Call → Sockets
  | .open calls =>
    let (_, iface, events) := s.iface.openSocket calls
    { iface := iface, log := s.log ++ events }
  | .close =>
    let (iface, events) := s.iface.closeSocket
    { iface := iface, log := s.log ++ events }

def owner (s : Sockets) : Option ℕ := if 0 ≤ s.iface.socket then some s.iface.socket.toNat else none

/-- Every descriptor so far is the current one, or has been closed exactly once. -/
def Owned (s : Sockets) : Prop := Accounted s.owner s.log

def leavesNone (s : Sockets) : Call → Bool
  | .open calls => !(s.iface.openSocket calls).1
  | .close => true

/-- Every state of a run owns its sockets, and none is open after a call that is to leave none. -/
structure Kept (calls : List Call) : Prop where
  owned : EveryState step Owned {} calls
  closed : ∀ pre call, pre ++ [call] <+: calls → (run step {} pre).leavesNone call = true →
    ∀ fd, isOpen fd (run step {} (pre ++ [call])).log = false

def Closed (s : Sockets) : Call → Prop
  | .open _ => s.iface.isConnected = false
  | .close => True

section Step

variable {s : Sockets}

/-- What a call can do: nothing to the sockets, or get one and keep it or close it, or close the
    current one. -/
theorem step_cases (s : Sockets) (call : Call) :
    (∃ calls fd, call = .open calls ∧ calls.socket = some fd ∧ (s.step call).owner = some fd ∧
      (s.step call).log = s.log ++ [.acquire fd] ∧ s.leavesNone call = false) ∨
    (s.step call).owner = none ∧ s.leavesNone call = true ∧
      ((∃ calls, call = .open calls ∧ (s.step call).log = s.log) ∨
      (∃ calls fd, call = .open calls ∧ calls.socket = some fd ∧
        (s.step call).log = s.log ++ [.acquire fd, .release fd]) ∨
      (call = .close ∧ s.owner = none ∧ (s.step call).log = s.log) ∨
      ∃ fd, call = .close ∧ s.owner = some fd ∧ (s.step call).log = s.log ++ [.release fd]) := by
  cases call with
  | «open» calls =>
    obtain ⟨socket, ioctl, bind⟩ := calls
    cases socket with
    | none => exact .inr ⟨rfl, rfl, .inl ⟨_, rfl, List.append_nil _⟩⟩
    | some fd =>
      cases ioctl with
      | false => exact .inr ⟨rfl, rfl, .inr (.inl ⟨_, fd, rfl, rfl, rfl⟩)⟩
      | true =>
        cases bind with
        | false => exact .inr ⟨rfl, rfl, .inr (.inl ⟨_, fd, rfl, rfl, rfl⟩)⟩
        | true => exact .inl ⟨_, fd, rfl, rfl, rfl, rfl, rfl⟩
  | close =>
    refine .inr ?_
    by_cases hsocket : 0 ≤ s.iface.socket
    · have hstep : s.step .close =
          ⟨{ s.iface with socket := -1 }, s.log ++ [.release s.iface.socket.toNat]⟩ := by
        simp [step, closeSocket, hsocket]
      rw [hstep]
      exact ⟨rfl, rfl, .inr (.inr (.inr ⟨_, rfl, if_pos hsocket, rfl⟩))⟩
    · have hstep : s.step .close = s := by
        simp [step, closeSocket, hsocket]
      rw [hstep]
      exact ⟨if_neg hsocket, rfl, .inr (.inr (.inl ⟨rfl, if_neg hsocket, rfl⟩))⟩

theorem owner_eq_none_iff : s.owner = none ↔ s.iface.isConnected = false := by
  unfold owner isConnected
  by_cases hsocket : 0 ≤ s.iface.socket <;> simp [hsocket]

theorem owned_step {call : Call} (h : s.Owned) (hclosed : s.Closed call) :
    (s.step call).Owned := by
  unfold Owned at h ⊢
  obtain ⟨calls, fd, rfl, -, howner, hlog, -⟩ | ⟨hnone, -, hcases⟩ := step_cases s call
  · rw [owner_eq_none_iff.mpr hclosed] at h
    rw [howner, hlog]
    exact h.acquire
  · rw [hnone]
    obtain ⟨calls, rfl, hlog⟩ | ⟨calls, fd, rfl, -, hlog⟩ | ⟨rfl, howner, hlog⟩ |
      ⟨fd, rfl, howner, hlog⟩ := hcases
    · rw [owner_eq_none_iff.mpr hclosed] at h
      rw [hlog]
      exact h
    · rw [owner_eq_none_iff.mpr hclosed] at h
      rw [hlog, show [Event.acquire fd, .release fd] = [.acquire fd] ++ [.release fd] from rfl,
        ← List.append_assoc]
      exact h.acquire.release
    · rw [howner] at h
      rw [hlog]
      exact h
    · rw [howner] at h
      rw [hlog]
      exact h.release

def OwnerOpen (s : Sockets) : Prop := ∀ fd, s.owner = some fd → isOpen fd s.log = true

theorem ownerOpen_step (s : Sockets) (call : Call) : (s.step call).OwnerOpen := by
  intro fd howner
  obtain ⟨calls, fd', rfl, -, howner', hlog, -⟩ | ⟨hnone, -⟩ := step_cases s call
  · rw [howner'] at howner
    obtain rfl := Option.some.inj howner
    rw [hlog, isOpen_snoc, record, if_pos rfl]
  · rw [hnone] at howner
    cases howner

theorem ownerOpen_run (calls : List Call) : (run step {} calls).OwnerOpen := by
  refine run_history step (fun _ s => s.OwnerOpen) ?_ calls (fun _ call _ _ => ownerOpen_step _ call)
  intro fd howner
  cases howner

/-- Opening over an open socket loses it. -/
theorem not_owned_step {calls : OpenCalls} {fd : ℕ} (howner : s.owner = some fd)
    (hopen : isOpen fd s.log = true) (hfresh : Fresh (s.step (.open calls)).log) :
    ¬ (s.step (.open calls)).Owned := by
  intro howned
  obtain ⟨_, fd', -, -, howner', hlog, -⟩ | ⟨hnone, -, hcases⟩ := step_cases s (.open calls)
  · have hother := hfresh s.log fd' [] hlog
    have hstill : isOpen fd (s.step (.open calls)).log = true := by
      rw [hlog, isOpen_snoc, record, hopen]
      simp
    have hsame := howned.owner_of_open hstill
    rw [howner'] at hsame
    obtain rfl := Option.some.inj hsame
    rw [hopen] at hother
    cases hother
  · suffices hstill : isOpen fd (s.step (.open calls)).log = true by
      have hsame := howned.owner_of_open hstill
      rw [hnone] at hsame
      cases hsame
    obtain ⟨_, -, hlog⟩ | ⟨_, fd', -, -, hlog⟩ | ⟨hcall, -⟩ | ⟨_, hcall, -⟩ := hcases
    · rw [hlog]
      exact hopen
    · have hother := hfresh s.log fd' [.release fd'] hlog
      have hne : fd' ≠ fd := by
        rintro rfl
        rw [hopen] at hother
        cases hother
      rw [hlog, show [Event.acquire fd', .release fd'] = [.acquire fd'] ++ [.release fd'] from rfl,
        ← List.append_assoc, isOpen_snoc, isOpen_snoc, record, record, hopen]
      simp [hne]
    · cases hcall
    · cases hcall

end Step

theorem log_grows (s : Sockets) (call : Call) : s.log <+: (s.step call).log := by
  cases call <;> exact List.prefix_append _ _

theorem log_grows_run {pre calls : List Call} (h : pre <+: calls) :
    (run step {} pre).log <+: (run step {} calls).log := by
  obtain ⟨rest, rfl⟩ := h
  rw [run_append]
  exact run_invariant step (fun s => (run step {} pre).log <+: s.log)
    (fun s call hprefix => hprefix.trans (log_grows s call)) (List.prefix_refl _) rest

theorem owned_run {calls : List Call} (hsteps : EveryStep step Closed {} calls) :
    (run step {} calls).Owned := by
  refine run_history step (fun _ s => s.Owned) ?_ calls ?_
  · exact accounted_nil
  · intro pre call hpre hpreOwned
    exact owned_step hpreOwned (hsteps pre call hpre)

/-- With a kernel that hands out free descriptors only, no socket is lost exactly if `open` is
    called on closed interfaces only. -/
theorem kept_iff (calls : List Call) (hkernel : Fresh (run step {} calls).log) :
    Kept calls ↔ EveryStep step Closed {} calls := by
  constructor
  · intro hkept pre call hpre
    cases call with
    | close => trivial
    | «open» outcome =>
      rw [Closed, ← owner_eq_none_iff]
      by_contra howner
      obtain ⟨fd, howner⟩ := Option.ne_none_iff_exists'.mp howner
      have hfresh : Fresh (run step {} (pre ++ [.open outcome])).log := by
        obtain ⟨rest, hrest⟩ := log_grows_run hpre
        intro earlier handle later hlog
        refine hkernel earlier handle (later ++ rest) ?_
        rw [← hrest, hlog, List.append_assoc, List.cons_append]
      have howned := hkept.owned (pre ++ [.open outcome]) hpre
      rw [run_snoc] at hfresh howned
      exact not_owned_step howner (ownerOpen_run pre fd howner) hfresh howned
  · intro hsteps
    have howned : ∀ pre, pre <+: calls → (run step {} pre).Owned := fun pre hpre =>
      owned_run (fun pre' call hpre' => hsteps pre' call (hpre'.trans hpre))
    refine ⟨howned, ?_⟩
    intro pre call hpre hnone fd
    rw [Bool.eq_false_iff]
    intro hopen
    have howner := (howned (pre ++ [call]) hpre).owner_of_open hopen
    rw [run_snoc] at howner
    obtain ⟨_, _, -, -, -, -, hkeeps⟩ | ⟨hclosed, -⟩ := step_cases (run step {} pre) call
    · rw [hnone] at hkeeps
      cases hkeeps
    · rw [hclosed] at howner
      cases howner

/-- Descriptor 3 twice, the first time it fails to bind. -/
def reopened : List Call := [.open ⟨some 3, true, false⟩, .open ⟨some 3, true, true⟩, .close]

theorem reopened_fresh : Fresh (run step {} reopened).log := by
  intro pre fd later hlog
  change [Event.acquire 3, .release 3, .acquire 3, .release 3] = _ at hlog
  rcases pre with _ | ⟨first, _ | ⟨second, _ | ⟨third, _ | ⟨fourth, rest⟩⟩⟩⟩ <;>
    simp at hlog
  · rfl
  · obtain ⟨rfl, rfl, rfl, -⟩ := hlog
    rfl

theorem kept_iff_reopened : Kept reopened ↔ EveryStep step Closed {} reopened :=
  kept_iff reopened reopened_fresh

/-- The second `open` gets descriptor 4 and forgets 3. -/
theorem socket_lost :
    ¬ ∀ calls : List Call, Fresh (run step {} calls).log → Kept calls := by
  intro hclaim
  have hkept := hclaim [.open ⟨some 3, true, true⟩, .open ⟨some 4, true, true⟩] (by
    intro pre fd later hlog
    change [Event.acquire 3, .acquire 4] = _ at hlog
    rcases pre with _ | ⟨first, _ | ⟨second, rest⟩⟩ <;> simp at hlog
    · rfl
    · obtain ⟨rfl, rfl, -⟩ := hlog
      rfl)
  have howned := hkept.owned _ (List.prefix_refl _)
  have hsame : owner _ = some 3 := howned.owner_of_open (by decide)
  exact absurd hsame (by decide)

end Sockets

end SpeeduinoDash.CanInterface
