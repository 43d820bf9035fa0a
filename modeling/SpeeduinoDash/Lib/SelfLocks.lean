import SpeeduinoDash.Lib.LockedCalls

set_option autoImplicit false

/-!
# Threads that wait for themselves

A thread waits for itself when it comes to take the lock with the lock in its hand. In between it
was called back, so what counts is which callbacks are made holding the lock.
-/
namespace Lib.LockedCalls
open Lib.Runs

variable {T σ ℓ κ μ : Type*}

section SelfLocks

variable [DecidableEq T] {underLock : κ → Prop}

/-- Nothing above a method that has the lock takes the lock. -/
def Quiet : List (Activation σ ℓ κ) → Prop
  | [] => True
  | a :: stack => (Holding stack → .lock ∉ a.rest) ∧ Quiet stack

variable {s : System T σ ℓ κ} {t : T} {locals : ℓ} {stack : List (Activation σ ℓ κ)}
  {rest : Body σ ℓ κ}

theorem exec_frames (htop : s.frames t = ⟨rest, locals, none⟩ :: stack) :
    (exec s t locals stack rest).frames = Function.update s.frames t stack ∨
    ∃ a, (exec s t locals stack rest).frames = Function.update s.frames t (a :: stack) ∧
      (a.rest ⊆ rest ∨ ∃ f rest', rest = .callReleased f :: rest') := by
  cases rest with
  | nil => exact .inl rfl
  | cons stmt rest =>
    cases stmt with
    | lock =>
      rw [exec]
      split_ifs with hfree
      · exact .inr ⟨_, rfl, .inl (List.subset_cons_self _ _)⟩
      · refine .inr ⟨⟨.lock :: rest, locals, none⟩, ?_, .inl (List.Subset.refl _)⟩
        rw [← htop, Function.update_eq_self]
    | callReleased f =>
      rw [exec]
      split
      · exact .inr ⟨_, rfl, .inr ⟨f, rest, rfl⟩⟩
      · exact .inr ⟨_, rfl, .inr ⟨f, rest, rfl⟩⟩
    | _ => exact .inr ⟨_, rfl, .inl (List.subset_cons_self _ _)⟩

theorem Quiet.cons {a : Activation σ ℓ κ} (h : Holding stack → .lock ∉ a.rest)
    (hstack : Quiet stack) : Quiet (a :: stack) := ⟨h, hstack⟩

theorem quiet_update (hquiet : ∀ t, Quiet (s.frames t)) (h : Quiet stack) (t' : T) :
    Quiet (Function.update s.frames t stack t') := by
  by_cases ht : t' = t
  · subst ht
    rwa [Function.update_self]
  · rw [Function.update_of_ne ht]
    exact hquiet t'

theorem quiet_exec (h : s.Sound underLock) (hquiet : ∀ t, Quiet (s.frames t))
    (htop : s.frames t = ⟨rest, locals, none⟩ :: stack) (t' : T) :
    Quiet ((exec s t locals stack rest).frames t') := by
  have htquiet := hquiet t
  rw [htop] at htquiet
  obtain ⟨hquiets, hbelow⟩ := htquiet
  obtain hs | ⟨a, hs, hsub | ⟨f, rest', rfl⟩⟩ := exec_frames htop
  · rw [hs]
    exact quiet_update hquiet hbelow t'
  · rw [hs]
    exact quiet_update hquiet (.cons (fun hholding hmem => hquiets hholding (hsub hmem)) hbelow) t'
  · -- the lock comes back into the list, but then nothing below can have it
    obtain ⟨ha, honce, -⟩ := h.top htop
    obtain ⟨held, rfl, hdisc⟩ := ha.disciplined
    rw [hs]
    exact quiet_update hquiet
      (.cons (fun hholding => absurd hholding (honce ⟨rfl, hdisc⟩)) hbelow) t'

section Runs

variable (body : μ → Body σ ℓ κ) (init : ℓ)

/-- No method that locks is called inside a callback that was made holding the lock. -/
def NoCallsHolding (s : System T σ ℓ κ) (events : List (Event T μ)) : Prop :=
  EveryStep (step body init)
    (fun s e => ∀ t m, e = .call t m → (∃ k, s.Inside t k true) → .lock ∉ body m) s events

omit [DecidableEq T] in
theorem quiet_call (h : s.Sound underLock) (hquiet : ∀ t, Quiet (s.frames t)) {m : μ}
    (hfree : free (s.frames t) = true) (hcall : (∃ k, s.Inside t k true) → .lock ∉ body m) :
    Holding (s.frames t) → .lock ∉ body m := by
  intro hholding
  cases hstack : s.frames t with
  | nil =>
    rw [hstack] at hholding
    exact absurd hholding (by simp [Holding])
  | cons a stack =>
    obtain ⟨rest, locals, w⟩ := a
    rw [hstack] at hfree hholding
    obtain ⟨⟨k, locked⟩, rfl⟩ := Option.isSome_iff_exists.mp hfree
    cases locked with
    | true => exact hcall ⟨k, rest, locals, stack, hstack⟩
    | false =>
      -- the method waits to take the lock again, so it is quiet below it
      have htquiet := hquiet t
      rw [hstack] at htquiet
      obtain ⟨ha, -, -⟩ := h.top hstack
      obtain ⟨⟨rest', hrest⟩, -⟩ := ha.released k rfl
      dsimp only at hrest
      subst hrest
      have hbelow := (holding_cons_of_not (not_holds_lock rest' locals _)).mp hholding
      exact absurd List.mem_cons_self (htquiet.1 hbelow)

variable {body init} (hbody : ∀ m, Disciplined false (body m))
  (htells : ∀ m, ∀ stmt ∈ body m, stmt.Tells underLock)

include hbody htells

theorem run_quiet (hidle : s.Idle) {events : List (Event T μ)}
    (hcalls : NoCallsHolding body init s events) (t : T) :
    Quiet ((run (step body init) s events).frames t) := by
  refine run_history (step body init) (fun _ s => ∀ t, Quiet (s.frames t)) ?_ events ?_ t
  · intro t
    rw [hidle.2 t]
    trivial
  · intro pre e hpre hquiet t'
    have hsound := run_sound body init hbody htells hidle pre
    obtain hs | ⟨t, m, rfl, hfree, hs⟩ | ⟨t, rest, locals, stack, -, htop, hs⟩ |
        ⟨t, rest, rest', locals, stack, k, locked, htop, hrest, hs⟩ :=
      step_cases body init (run (step body init) s pre) e
    · rw [hs]
      exact hquiet t'
    · rw [hs]
      exact quiet_update hquiet
        (.cons (quiet_call body hsound hquiet hfree (hcalls pre _ hpre t m rfl)) (hquiet t)) t'
    · rw [hs]
      exact quiet_exec hsound hquiet htop t'
    · rw [hs]
      have htquiet := hquiet t
      rw [htop] at htquiet
      obtain ⟨hquiets, hbelow⟩ := htquiet
      refine quiet_update hquiet (.cons (fun hholding => ?_) hbelow) t'
      rcases hrest with rfl | ⟨-, rfl⟩
      · exact hquiets hholding
      · simp

/-- With methods that lock first or not at all, a thread comes to wait for itself exactly where a
    locking method is called inside a callback that was made holding the lock. -/
theorem selfLockFree_iff (hfirst : ∀ m, .lock ∈ body m → ∃ rest, body m = .lock :: rest)
    (hidle : s.Idle) (events : List (Event T μ)) :
    SelfLockFree body init s events ↔ NoCallsHolding body init s events := by
  constructor
  · rintro hfree pre e hpre t m rfl ⟨k, hin⟩ hlock
    have hsound := run_sound body init hbody htells hidle pre
    have howns := (hsound.inside_iff hin).2 rfl
    obtain ⟨rest, hrest⟩ := hfirst m hlock
    obtain ⟨rest', locals, stack, htop⟩ := hin
    apply hfree _ hpre t
    rw [run_snoc]
    refine ⟨?_, rest, init, (run (step body init) s pre).frames t, ?_⟩
    · simpa [step, htop, free, System.put] using howns
    · simp [step, htop, free, System.put, hrest]
  · rintro hcalls pre hpre t ⟨howns, rest, locals, stack, htop⟩
    have hsound := run_sound body init hbody htells hidle pre
    have hquiet := run_quiet hbody htells hidle
      (fun pre' e hpre' => hcalls pre' e (hpre'.trans hpre)) t
    have hholding := (hsound.owner t).mp howns
    rw [htop] at hquiet hholding
    have hbelow := (holding_cons_of_not (not_holds_lock rest locals none)).mp hholding
    exact absurd List.mem_cons_self (hquiet.1 hbelow)

end Runs

end SelfLocks

section Log

variable [DecidableEq T] {s : System T σ ℓ κ} {t : T} {locals : ℓ}
  {stack : List (Activation σ ℓ κ)} {rest : Body σ ℓ κ}

/-- Thread `t` is at a statement that calls back without touching the lock, with `k` to tell. -/
def System.CallsHolding (s : System T σ ℓ κ) (t : T) (k : κ) : Prop :=
  ∃ f rest locals stack, s.frames t = ⟨.callHolding f :: rest, locals, none⟩ :: stack ∧
    f s.object locals = some k

theorem exec_log (htop : s.frames t = ⟨rest, locals, none⟩ :: stack) :
    (∃ released : List κ, (exec s t locals stack rest).log =
      s.log ++ released.map (fun k => (k, false)) ∧ ∀ k, ¬ s.CallsHolding t k) ∨
    (∃ k, (exec s t locals stack rest).log = s.log ++ [(k, decide (s.owner = some t))] ∧
      s.CallsHolding t k) := by
  have hother : (∀ f rest', rest ≠ .callHolding f :: rest') → ∀ k, ¬ s.CallsHolding t k := by
    rintro hrest k ⟨f, rest', locals', stack', htop', -⟩
    rw [htop] at htop'
    injection htop' with hact
    injection hact with hrest'
    exact hrest f rest' hrest'
  cases rest with
  | nil => exact .inl ⟨[], by simp [exec, System.put], hother (by simp)⟩
  | cons stmt rest =>
    cases stmt with
    | lock =>
      refine .inl ⟨[], ?_, hother (by simp)⟩
      rw [exec]
      split_ifs <;> simp [System.put]
    | unlock => exact .inl ⟨[], by simp [exec, System.put], hother (by simp)⟩
    | update f => exact .inl ⟨[], by simp [exec, System.put], hother (by simp)⟩
    | callHolding f =>
      cases htold : f s.object locals with
      | none =>
        refine .inl ⟨[], by simp [exec, htold], ?_⟩
        rintro k ⟨f', rest', locals', stack', htop', htold'⟩
        rw [htop] at htop'
        injection htop' with hact
        injection hact with hrest hlocals
        injection hrest with hstmt
        injection hstmt with hf
        subst hf hlocals
        rw [htold] at htold'
        cases htold'
      | some k => exact .inr ⟨k, by simp [exec, htold], f, rest, locals, stack, htop, htold⟩
    | callReleased f =>
      cases htold : (f s.object).2 with
      | none => exact .inl ⟨[], by simp [exec, htold, System.put], hother (by simp)⟩
      | some k => exact .inl ⟨[k], by simp [exec, htold], hother (by simp)⟩

variable (body : μ → Body σ ℓ κ) (init : ℓ) {underLock : κ → Prop}

omit [DecidableEq T] in
theorem System.Sound.owns (h : s.Sound underLock) {k : κ} (hcalls : s.CallsHolding t k) :
    s.owner = some t := by
  obtain ⟨f, rest, locals, stack, htop, -⟩ := hcalls
  obtain ⟨held, rfl, hdisc⟩ := (h.top htop).1.disciplined
  exact h.owner_eq htop ⟨rfl, hdisc⟩

theorem step_log (h : s.Sound underLock) (e : Event T μ) :
    (∃ released : List κ, (step body init s e).log =
      s.log ++ released.map (fun k => (k, false)) ∧
      ∀ t, e = .advance t → ∀ k, ¬ s.CallsHolding t k) ∨
    (∃ t k, e = .advance t ∧ (step body init s e).log = s.log ++ [(k, true)] ∧
      s.CallsHolding t k) := by
  cases e with
  | call t m =>
    refine .inl ⟨[], ?_, by simp⟩
    rw [step]
    split_ifs <;> simp [System.put]
  | advance t =>
    rw [step]
    split
    · next rest locals stack htop =>
      obtain ⟨released, hlog, hnone⟩ | ⟨k, hlog, hcalls⟩ := exec_log htop
      · refine .inl ⟨released, hlog, ?_⟩
        rintro t' ⟨⟩
        exact hnone
      · refine .inr ⟨t, k, rfl, ?_, hcalls⟩
        rw [hlog, h.owns hcalls, decide_eq_true rfl]
    · next hnot =>
      refine .inl ⟨[], by simp, ?_⟩
      rintro t' ⟨⟩ k ⟨f, rest, locals, stack, htop, -⟩
      exact hnot _ _ _ htop
  | finish t =>
    refine .inl ⟨[], ?_, by simp⟩
    rw [step]
    split <;> simp [System.put]
  | raise t =>
    refine .inl ⟨[], ?_, by simp⟩
    rw [step]
    split <;> simp [System.put]

/-- Every callback is made with the lock given up exactly where no statement that keeps it has
    anybody to call. -/
theorem released_iff (hbody : ∀ m, Disciplined false (body m))
    (htells : ∀ m, ∀ stmt ∈ body m, stmt.Tells underLock) (hidle : s.Idle) (hlog : s.log = [])
    (events : List (Event T μ)) :
    (∀ made ∈ (run (step body init) s events).log, made.2 = false) ↔
      EveryStep (step body init) (fun s e => ∀ t, e = .advance t → ∀ k, ¬ s.CallsHolding t k)
        s events := by
  induction events using List.reverseRecOn with
  | nil => simp [hlog, everyStep_nil]
  | append_singleton events e ih =>
    have hsound := run_sound body init hbody htells hidle events
    rw [everyStep_snoc, ← ih, run_snoc]
    obtain ⟨released, hstep, hnone⟩ | ⟨t, k, rfl, hstep, hcalls⟩ := step_log body init hsound e
    · rw [hstep]
      constructor
      · exact fun h => ⟨fun made hmem => h made (List.mem_append_left _ hmem), hnone⟩
      · rintro ⟨h, -⟩ made hmem
        rcases List.mem_append.mp hmem with hmem | hmem
        · exact h made hmem
        · obtain ⟨k, -, rfl⟩ := List.mem_map.mp hmem
          rfl
    · rw [hstep]
      refine iff_of_false (fun h => ?_) (fun h => h.2 t rfl k hcalls)
      exact Bool.noConfusion (h (k, true) (List.mem_append_right _ List.mem_cons_self))

end Log

end Lib.LockedCalls
