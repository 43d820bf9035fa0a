import Mathlib.Logic.Equiv.Basic
import Mathlib.Logic.Function.Basic
import SpeeduinoDash.Lib.Ownership
import SpeeduinoDash.Lib.Runs

set_option autoImplicit false

/-!
# Sockets that close themselves

A program has any number of objects. The log says which descriptors it has handed to them, and
which of these were closed and which released.
-/
namespace SpeeduinoDash
open Lib.Ownership Lib.Runs

structure RaiiSocket where
  fd : ℤ := -1
deriving DecidableEq

inductive FdEvent where
  | taken (fd : ℤ)
  | closed (fd : ℤ)
  | released (fd : ℤ)
deriving DecidableEq

/-- Closing a descriptor and releasing it both end what was taken. -/
def FdEvent.toEvent : FdEvent → Event ℤ
  | .taken fd => .acquire fd
  | .closed fd => .release fd
  | .released fd => .release fd

structure SocketHeap where
  objects : ℕ → Option RaiiSocket := fun _ => none
  log : List FdEvent := []

inductive SocketOp where
  | construct (o : ℕ)
  | constructFrom (o : ℕ) (fd : ℤ)
  | moveConstruct (o other : ℕ)
  | moveAssign (o other : ℕ)
  | swap (o other : ℕ)
  | reset (o : ℕ) (fd : ℤ)
  | release (o : ℕ)
  | close (o : ℕ)
  | destroy (o : ℕ)

namespace SocketHeap

section Methods

variable (h : SocketHeap) (o other : ℕ)

def put (socket : RaiiSocket) : SocketHeap :=
  { h with objects := Function.update h.objects o (some socket) }

def hand (fd : ℤ) : SocketHeap :=
  { h.put o ⟨fd⟩ with log := h.log ++ if 0 ≤ fd then [.taken fd] else [] }

def close (socket : RaiiSocket) : SocketHeap :=
  if 0 ≤ socket.fd then { h.put o {} with log := h.log ++ [.closed socket.fd] } else h

def release (socket : RaiiSocket) : SocketHeap :=
  { h.put o {} with log := h.log ++ if 0 ≤ socket.fd then [.released socket.fd] else [] }

def exchange (source : RaiiSocket) : SocketHeap := (h.put other {}).put o source

def moveAssign (socket source : RaiiSocket) : SocketHeap :=
  if o ≠ other then (h.close o socket).exchange o other source else h

def reset (socket : RaiiSocket) (fd : ℤ) : SocketHeap :=
  if socket.fd ≠ fd then (h.close o socket).hand o fd else h

def swap (socket socket' : RaiiSocket) : SocketHeap := (h.put o socket').put other socket

def destroy (socket : RaiiSocket) : SocketHeap :=
  { h.close o socket with objects := Function.update h.objects o none }

end Methods

/-- An operation on a place without an object does nothing. -/
def step (h : SocketHeap) : SocketOp → SocketHeap
  | .construct o => h.put o {}
  | .constructFrom o fd => h.hand o fd
  | .moveConstruct o other =>
    match h.objects other with
    | some source => h.exchange o other source
    | none => h
  | .moveAssign o other =>
    match h.objects o, h.objects other with
    | some socket, some source => h.moveAssign o other socket source
    | _, _ => h
  | .swap o other =>
    match h.objects o, h.objects other with
    | some socket, some socket' => h.swap o other socket socket'
    | _, _ => h
  | .reset o fd =>
    match h.objects o with
    | some socket => h.reset o socket fd
    | none => h
  | .release o =>
    match h.objects o with
    | some socket => h.release o socket
    | none => h
  | .close o =>
    match h.objects o with
    | some socket => h.close o socket
    | none => h
  | .destroy o =>
    match h.objects o with
    | some socket => h.destroy o socket
    | none => h

def Owns (h : SocketHeap) (o : ℕ) (fd : ℤ) : Prop := 0 ≤ fd ∧ h.objects o = some ⟨fd⟩

def Tracks (h : SocketHeap) : Prop := Tracked h.Owns (h.log.map FdEvent.toEvent)

section Effects

variable {h : SocketHeap} {o other x : ℕ} {fd f : ℤ} {socket source : RaiiSocket}

end Effects

/-- How often a descriptor was closed after it was taken, and how often released, until it was taken
    again. -/
def closes (fd : ℤ) (later : List FdEvent) : ℕ :=
  (later.takeWhile fun e => e ≠ .taken fd).count (.closed fd)

def releases (fd : ℤ) (later : List FdEvent) : ℕ :=
  (later.takeWhile fun e => e ≠ .taken fd).count (.released fd)

/-- A descriptor that was taken has one owner and was neither closed nor released, or it was closed
    once, or released once and not closed. -/
def Kept (h : SocketHeap) (fd : ℤ) (later : List FdEvent) : Prop :=
  ((∃! o, h.Owns o fd) ∧ .taken fd ∉ later ∧ closes fd later = 0 ∧ releases fd later = 0) ∨
    (closes fd later = 1 ∧ releases fd later = 0) ∨ (closes fd later = 0 ∧ releases fd later = 1)

section Kept

variable {h : SocketHeap} {pre later : List FdEvent} {fd : ℤ}

end Kept

end SocketHeap

end SpeeduinoDash
