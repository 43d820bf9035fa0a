import Mathlib.Data.List.Basic
import Mathlib.Data.Nat.Notation

set_option autoImplicit false

/-!
# Computations that index an array

A computation reads an array one index at a time, and what it reads may decide where it reads
next. The array is a function on all indices: whether a computation keeps to the first `n` of them
is a question about the indices it uses.
-/
namespace Lib.ArrayReads

inductive Reading (β α : Type*) where
  | done (a : α)
  | read (i : ℕ) (rest : β → Reading β α)

namespace Reading

variable {β α γ : Type*}

def bind : Reading β α → (α → Reading β γ) → Reading β γ
  | .done a, f => f a
  | .read i rest, f => .read i (fun b => (rest b).bind f)

instance : Monad (Reading β) where
  pure := .done
  bind := bind

def fetch (i : ℕ) : Reading β β := .read i .done

def fetchAll : List ℕ → Reading β (List β)
  | [] => .done []
  | i :: is => .read i (fun b => (fetchAll is).bind (fun bs => .done (b :: bs)))

variable (array : ℕ → β)

def eval : Reading β α → α
  | .done a => a
  | .read i rest => (rest (array i)).eval

def indices : Reading β α → List ℕ
  | .done _ => []
  | .read i rest => i :: (rest (array i)).indices

@[simp] theorem eval_pure (a : α) : (pure a : Reading β α).eval array = a := rfl

@[simp] theorem indices_pure (a : α) : (pure a : Reading β α).indices array = [] := rfl

@[simp] theorem eval_fetch (i : ℕ) : (fetch i).eval array = array i := rfl

@[simp] theorem indices_fetch (i : ℕ) : (fetch i).indices array = [i] := rfl

theorem eval_bind' (r : Reading β α) (f : α → Reading β γ) :
    (r.bind f).eval array = (f (r.eval array)).eval array := by
  induction r with
  | done a => rfl
  | read i rest ih => exact ih (array i)

theorem indices_bind' (r : Reading β α) (f : α → Reading β γ) :
    (r.bind f).indices array = r.indices array ++ (f (r.eval array)).indices array := by
  induction r with
  | done a => rfl
  | read i rest ih => exact congrArg (i :: ·) (ih (array i))

@[simp] theorem eval_bind {α γ : Type _} (r : Reading β α) (f : α → Reading β γ) :
    (r >>= f).eval array = (f (r.eval array)).eval array := eval_bind' array r f

@[simp] theorem indices_bind {α γ : Type _} (r : Reading β α) (f : α → Reading β γ) :
    (r >>= f).indices array = r.indices array ++ (f (r.eval array)).indices array :=
  indices_bind' array r f

@[simp] theorem eval_fetchAll (is : List ℕ) : (fetchAll is).eval array = is.map array := by
  induction is with
  | nil => rfl
  | cons i is ih =>
    change ((fetchAll is).bind _).eval array = _
    rw [eval_bind', ih]
    rfl

@[simp] theorem indices_fetchAll (is : List ℕ) : (fetchAll is).indices array = is := by
  induction is with
  | nil => rfl
  | cons i is ih =>
    change i :: ((fetchAll is).bind _).indices array = _
    rw [indices_bind', ih]
    exact congrArg (i :: ·) (List.append_nil is)

def InBounds (n : ℕ) (r : Reading β α) : Prop := ∀ i ∈ r.indices array, i < n

/-- What is done with the elements afterwards does not read the array. -/
theorem inBounds_bind_iff {α γ : Type _} {n : ℕ} {r : Reading β α} {f : α → Reading β γ}
    (h : ∀ a, (f a).indices array = []) :
    (r >>= f).InBounds array n ↔ r.InBounds array n := by
  rw [InBounds, indices_bind, h, List.append_nil, InBounds]

end Reading

end Lib.ArrayReads
