import Mathlib.Data.List.Basic
import Mathlib.Data.List.Induction
import Mathlib.Data.Nat.Notation
import Mathlib.Logic.Equiv.Defs
import Mathlib.Tactic.SplitIfs

set_option autoImplicit false

/-!
# Handles that are acquired and released

A log records which handles a component acquires and releases. Handles are used again once they
are free, so a release belongs to the last acquisition before it. A component accounts for all
handles if it has released each but those it holds exactly once. It has room for one, or owners
that hold one each.
-/
namespace Lib.Ownership

inductive Event (η : Type*) where
  | acquire (handle : η)
  | release (handle : η)
deriving DecidableEq

theorem acquire_snoc {η : Type*} {handle : η} {e : Event η} {log pre later : List (Event η)}
    (h : log ++ [e] = pre ++ .acquire handle :: later) :
    (later = [] ∧ e = .acquire handle) ∨
      ∃ later', later = later' ++ [e] ∧ log = pre ++ .acquire handle :: later' := by
  rcases List.eq_nil_or_concat later with rfl | ⟨later', last, rfl⟩
  · have hlast := congrArg List.getLast? h
    simp only [List.getLast?_append, List.getLast?_singleton, Option.some_or,
      Option.some.injEq] at hlast
    exact .inl ⟨rfl, hlast⟩
  · rw [List.concat_eq_append, ← List.cons_append, ← List.append_assoc] at h
    obtain ⟨hlog, hlast⟩ := List.append_inj' h rfl
    obtain rfl := List.singleton_injective hlast
    exact .inr ⟨later', List.concat_eq_append, hlog⟩

variable {η : Type*} [DecidableEq η]

def record (handle : η) (held : Bool) (e : Event η) : Bool :=
  if e = .acquire handle then true
  else if e = .release handle then false
  else held

def isOpen (handle : η) (log : List (Event η)) : Bool := log.foldl (record handle) false

/-- The releases that follow an acquisition, up to the next one of that handle. -/
def releases (handle : η) (later : List (Event η)) : ℕ :=
  (later.takeWhile (fun e => e ≠ .acquire handle)).count (.release handle)

def Fresh (log : List (Event η)) : Prop :=
  ∀ pre handle later, log = pre ++ .acquire handle :: later → isOpen handle pre = false

/-- The last acquisition of the owner's handle is not released, every other one exactly once. -/
def Accounted (owner : Option η) (log : List (Event η)) : Prop :=
  ∀ pre handle later, log = pre ++ .acquire handle :: later →
    releases handle later =
      if owner = some handle ∧ .acquire handle ∉ later then 0 else 1

def AccountedFor (held : η → Prop) (log : List (Event η)) : Prop :=
  ∀ pre handle later, log = pre ++ .acquire handle :: later →
    (held handle ∧ .acquire handle ∉ later → releases handle later = 0) ∧
      (¬ (held handle ∧ .acquire handle ∉ later) → releases handle later = 1)

section Snoc

variable {handle : η} {log later : List (Event η)} {e : Event η}

theorem isOpen_snoc : isOpen handle (log ++ [e]) = record handle (isOpen handle log) e := by
  rw [isOpen, List.foldl_append]
  rfl

@[simp] theorem releases_nil : releases handle [] = 0 := rfl

theorem releases_cons : releases handle (e :: later) =
    if e = .acquire handle then 0
    else (if e = .release handle then 1 else 0) + releases handle later := by
  unfold releases
  rw [List.takeWhile_cons]
  by_cases hacquire : e = .acquire handle
  · simp [hacquire]
  · simp [hacquire, List.count_cons, Nat.add_comm]

theorem releases_snoc : releases handle (later ++ [e]) =
    releases handle later + if e = .release handle ∧ .acquire handle ∉ later then 1 else 0 := by
  induction later with
  | nil =>
    rw [List.nil_append, releases_cons, releases_nil]
    by_cases hacquire : e = .acquire handle
    · simp [hacquire]
    · simp [hacquire]
  | cons first later ih =>
    rw [List.cons_append, releases_cons, releases_cons, ih]
    by_cases hacquire : first = .acquire handle
    · simp [hacquire]
    · have hother : ¬ Event.acquire handle = first := fun h => hacquire h.symm
      simp [hacquire, hother, Nat.add_assoc]

end Snoc

section Held

variable {held held' : η → Prop} {handle : η} {log : List (Event η)}

theorem accountedFor_nil : AccountedFor held [] := by
  intro pre h later hlog
  simp at hlog

theorem AccountedFor.congr (h : AccountedFor held log) (hsame : ∀ x, held' x ↔ held x) :
    AccountedFor held' log := by
  intro pre x later hlog
  rw [hsame x]
  exact h pre x later hlog

theorem AccountedFor.acquire (h : AccountedFor held log) (hfree : ¬ held handle) :
    AccountedFor (fun x => held x ∨ x = handle) (log ++ [.acquire handle]) := by
  intro pre x later hlog
  obtain ⟨rfl, hnew⟩ | ⟨later', rfl, hold⟩ := acquire_snoc hlog
  · obtain rfl := Event.acquire.inj hnew
    refine ⟨fun _ => rfl, fun hlost => absurd ⟨.inr rfl, List.not_mem_nil⟩ hlost⟩
  · obtain ⟨hzero, hone⟩ := h pre x later' hold
    rw [releases_snoc, if_neg (by simp), Nat.add_zero]
    by_cases hsame : x = handle
    · subst hsame
      exact ⟨fun hheld => absurd (by simp) hheld.2, fun _ => hone fun hheld => hfree hheld.1⟩
    · have hother : ¬ Event.acquire x = .acquire handle := fun heq => hsame (Event.acquire.inj heq)
      simp only [hsame, or_false, List.mem_append, List.mem_singleton, hother]
      exact ⟨hzero, hone⟩

theorem AccountedFor.release (h : AccountedFor held log) (hheld : held handle) :
    AccountedFor (fun x => held x ∧ x ≠ handle) (log ++ [.release handle]) := by
  intro pre x later hlog
  obtain ⟨-, hnew⟩ | ⟨later', rfl, hold⟩ := acquire_snoc hlog
  · cases hnew
  · obtain ⟨hzero, hone⟩ := h pre x later' hold
    rw [releases_snoc]
    by_cases hsame : x = handle
    · subst hsame
      refine ⟨fun hlost => absurd rfl hlost.1.2, fun _ => ?_⟩
      by_cases hlast : Event.acquire x ∈ later'
      · rw [hone fun hboth => hboth.2 hlast, if_neg fun hboth => hboth.2 hlast]
      · rw [hzero ⟨hheld, hlast⟩, if_pos ⟨rfl, hlast⟩]
    · have hother : ¬ Event.release handle = .release x :=
        fun heq => hsame (Event.release.inj heq).symm
      rw [if_neg fun hboth => hother hboth.1, Nat.add_zero]
      simp only [hsame, ne_eq, not_false_eq_true, and_true, List.mem_append, List.mem_singleton,
        reduceCtorEq, or_false]
      exact ⟨hzero, hone⟩

end Held

section Owner

variable {owner : Option η} {handle : η} {log : List (Event η)}

theorem accounted_iff : Accounted owner log ↔ AccountedFor (fun x => owner = some x) log := by
  refine forall_congr' fun pre => forall_congr' fun x => forall_congr' fun later =>
    imp_congr_right fun _ => ?_
  split_ifs with hheld
  · exact ⟨fun hzero => ⟨fun _ => hzero, fun hlost => absurd hheld hlost⟩, fun h => h.1 hheld⟩
  · exact ⟨fun hone => ⟨fun hkept => absurd hkept hheld, fun _ => hone⟩, fun h => h.2 hheld⟩

theorem accounted_nil : Accounted owner [] := accounted_iff.mpr accountedFor_nil

theorem Accounted.acquire (h : Accounted none log) :
    Accounted (some handle) (log ++ [.acquire handle]) := by
  rw [accounted_iff] at h ⊢
  have hfree : ¬ (none : Option η) = some handle := nofun
  refine (h.acquire hfree).congr fun x => ?_
  simp [eq_comm]

theorem Accounted.release (h : Accounted (some handle) log) :
    Accounted none (log ++ [.release handle]) := by
  rw [accounted_iff] at h ⊢
  have hheld : some handle = some handle := rfl
  refine (h.release hheld).congr fun x => ?_
  simp [eq_comm]

theorem exists_of_isOpen (h : isOpen handle log = true) : ∃ pre later,
    log = pre ++ .acquire handle :: later ∧ .acquire handle ∉ later ∧ .release handle ∉ later := by
  induction log using List.reverseRecOn with
  | nil => cases h
  | append_singleton log e ih =>
    rw [isOpen_snoc, record] at h
    split_ifs at h with hacquire hrelease
    · exact ⟨log, [], by rw [hacquire], List.not_mem_nil, List.not_mem_nil⟩
    · obtain ⟨pre, later, hlog, hacquired, hreleased⟩ := ih h
      refine ⟨pre, later ++ [e], by rw [hlog, List.append_assoc]; rfl, ?_, ?_⟩
      · simp [hacquired, Ne.symm hacquire]
      · simp [hreleased, Ne.symm hrelease]

/-- No handle is open but the owner's. -/
theorem Accounted.owner_of_open (h : Accounted owner log) (hopen : isOpen handle log = true) :
    owner = some handle := by
  obtain ⟨pre, later, hlog, -, hreleased⟩ := exists_of_isOpen hopen
  have hcount := h pre handle later hlog
  have hzero : releases handle later = 0 := by
    apply List.count_eq_zero.mpr
    exact fun hmem => hreleased ((List.takeWhile_sublist _).subset hmem)
  rw [hzero] at hcount
  by_contra hother
  rw [if_neg (fun hboth => hother hboth.1)] at hcount
  cases hcount

end Owner

section Owners

variable {ι : Type*} {owns owns' : ι → η → Prop} {handle : η} {log : List (Event η)}

/-- Owners that hold handles: no handle has two, and they account for all. -/
structure Tracked (owns : ι → η → Prop) (log : List (Event η)) : Prop where
  single : ∀ handle x y, owns x handle → owns y handle → x = y
  accounted : AccountedFor (fun handle => ∃ x, owns x handle) log

theorem Tracked.acquire (h : Tracked owns log) (hfree : ∀ x, ¬ owns x handle) (owner : ι)
    (howns : ∀ x y, owns' x y ↔ owns x y ∨ (x = owner ∧ y = handle)) :
    Tracked owns' (log ++ [.acquire handle]) := by
  constructor
  · intro y x x' hx hx'
    rw [howns] at hx hx'
    rcases hx with hx | ⟨rfl, rfl⟩ <;> rcases hx' with hx' | ⟨rfl, hy⟩
    · exact h.single y x x' hx hx'
    · exact absurd (hy ▸ hx) (hfree x)
    · exact absurd hx' (hfree x')
    · rfl
  · have hnone : ¬ ∃ x, owns x handle := fun ⟨x, hx⟩ => hfree x hx
    refine (h.accounted.acquire hnone).congr fun y => ?_
    simp only [howns, exists_or, exists_and_right, exists_eq, true_and]

theorem Tracked.release (h : Tracked owns log) {owner : ι} (hheld : owns owner handle)
    (howns : ∀ x y, owns' x y ↔ owns x y ∧ y ≠ handle) :
    Tracked owns' (log ++ [.release handle]) := by
  constructor
  · intro y x x' hx hx'
    rw [howns] at hx hx'
    exact h.single y x x' hx.1 hx'.1
  · refine (h.accounted.release ⟨owner, hheld⟩).congr fun y => ?_
    simp only [howns, exists_and_right]

theorem Tracked.permute (h : Tracked owns log) (π : Equiv.Perm ι)
    (howns : ∀ x y, owns' x y ↔ owns (π x) y) : Tracked owns' log := by
  constructor
  · intro y x x' hx hx'
    rw [howns] at hx hx'
    exact π.injective (h.single y _ _ hx hx')
  · refine h.accounted.congr fun y => ?_
    simp only [howns]
    exact ⟨fun ⟨x, hx⟩ => ⟨π x, hx⟩, fun ⟨x, hx⟩ => ⟨π.symm x, by rwa [π.apply_symm_apply]⟩⟩

theorem Tracked.congr (h : Tracked owns log) (hsame : ∀ x y, owns' x y ↔ owns x y) :
    Tracked owns' log :=
  h.permute (Equiv.refl ι) hsame

end Owners

end Lib.Ownership
