import Mathlib.Data.List.Pairwise
import Mathlib.Data.Nat.Notation
import Mathlib.Tactic.SplitIfs
import SpeeduinoDash.Lib.Runs

set_option autoImplicit false

/-!
# A loop that sleeps out its interval

A thread runs the statements of its body in rounds: it reads the clock, runs them, and sleeps for
what is left of the interval. One caller starts and stops it, other threads change settings between
any two of its steps, and time passes as it likes.
-/
namespace Lib.PacedLoop
open Lib.Runs

variable {D S A E : Type}

/-- The interval is read once, when the thread begins. A statement reads and writes the device,
    with what its environment answers, and puts out some events. -/
structure Program (D S A E : Type) where
  interval : D → ℕ
  set : S → D → D
  statements : List (A → D → D × List E)

/-- Where the thread is: before it reads its interval, before it reads the flag (asleep if `since`
    is still to come), before it reads the clock, before a statement, or returned. -/
inductive ThreadPlace where
  | entering (since : ℕ)
  | ready (interval since : ℕ)
  | timing (interval since : ℕ)
  | body (interval start next : ℕ)
  | finished
deriving DecidableEq

/-- Where the caller is: in `start` before the thread is made, in a setter that will stop the loop
    if it runs, or in the join of `stop`. -/
inductive Control where
  | idle
  | spawning
  | halting
  | joining
deriving DecidableEq

structure Stamp (E : Type) where
  session : ℕ
  interval : ℕ
  round : ℕ
  place : ℕ
  time : ℕ
  events : List E

/-- `thread` is none unless the thread is joinable, `terminated` is set if a joinable thread is
    assigned over; threads and rounds are counted from the beginning. -/
structure State (D E : Type) where
  device : D
  now : ℕ := 0
  running : Bool := false
  thread : Option ThreadPlace := none
  control : Control := .idle
  terminated : Bool := false
  sessions : ℕ := 0
  rounds : ℕ := 0
  log : List (Stamp E) := []

/-- A `shut` is a setting after which the loop is stopped if it runs. -/
inductive Op (S A : Type) where
  | start
  | stop
  | shut (x : S)
  | proceed
  | set (x : S)
  | loop (input : A)
  | pass (duration : ℕ)

def State.start (s : State D E) : State D E :=
  if s.running then s else { s with running := true, control := .spawning }

def State.stop (s : State D E) : State D E := { s with running := false, control := .joining }

def State.proceed (s : State D E) : State D E :=
  match s.control with
  | .idle => s
  | .spawning =>
    { s with
      thread := some (.entering s.now)
      terminated := s.terminated || s.thread.isSome
      sessions := s.sessions + 1
      control := .idle }
  | .halting => if s.running then s.stop else { s with control := .idle }
  | .joining =>
    match s.thread with
    | none => { s with control := .idle }
    | some .finished => { s with thread := none, control := .idle }
    | some _ => s

namespace Program

def loop (p : Program D S A E) (s : State D E) (input : A) : State D E :=
  match s.thread with
  | none => s
  | some (.entering since) => { s with thread := some (.ready (p.interval s.device) since) }
  | some (.ready interval since) =>
    if s.now < since then s
    else { s with thread := some (if s.running then .timing interval since else .finished) }
  | some (.timing interval _) =>
    { s with thread := some (.body interval s.now 0), rounds := s.rounds + 1 }
  | some (.body interval start next) =>
    match p.statements[next]? with
    | none => { s with thread := some (.ready interval (s.now + (interval - (s.now - start)))) }
    | some statement =>
      { s with
        device := (statement input s.device).1
        thread := some (.body interval start (next + 1))
        log := s.log ++
          [⟨s.sessions, interval, s.rounds, next, s.now, (statement input s.device).2⟩] }
  | some .finished => s

/-- A call begins only when the last one has returned. -/
def step (p : Program D S A E) (s : State D E) : Op S A → State D E
  | .start => if s.control = .idle then s.start else s
  | .stop => if s.control = .idle then s.stop else s
  | .shut x =>
    if s.control = .idle then { s with device := p.set x s.device, control := .halting } else s
  | .proceed => s.proceed
  | .set x => { s with device := p.set x s.device }
  | .loop input => p.loop s input
  | .pass duration => { s with now := s.now + duration }

inductive Moves (p : Program D S A E) (s : State D E) (input : A) : State D E → Prop
  | enters {since : ℕ} (h : s.thread = some (.entering since)) :
      Moves p s input { s with thread := some (.ready (p.interval s.device) since) }
  | wakes {interval since : ℕ} (h : s.thread = some (.ready interval since))
      (hsince : since ≤ s.now) (hrunning : s.running = true) :
      Moves p s input { s with thread := some (.timing interval since) }
  | returns {interval since : ℕ} (h : s.thread = some (.ready interval since))
      (hsince : since ≤ s.now) (hrunning : s.running = false) :
      Moves p s input { s with thread := some .finished }
  | begins {interval since : ℕ} (h : s.thread = some (.timing interval since)) :
      Moves p s input
        { s with thread := some (.body interval s.now 0), rounds := s.rounds + 1 }
  | runs {interval start next : ℕ} {statement : A → D → D × List E}
      (h : s.thread = some (.body interval start next))
      (hstatement : p.statements[next]? = some statement) :
      Moves p s input
        { s with
          device := (statement input s.device).1
          thread := some (.body interval start (next + 1))
          log := s.log ++
            [⟨s.sessions, interval, s.rounds, next, s.now, (statement input s.device).2⟩] }
  | rests {interval start next : ℕ} (h : s.thread = some (.body interval start next))
      (hend : p.statements.length ≤ next) :
      Moves p s input
        { s with thread := some (.ready interval (s.now + (interval - (s.now - start)))) }

theorem loop_cases (p : Program D S A E) (s : State D E) (input : A) :
    p.loop s input = s ∨ p.Moves s input (p.loop s input) := by
  unfold loop
  cases hthread : s.thread with
  | none => exact .inl rfl
  | some place =>
    cases place with
    | entering since => exact .inr (.enters hthread)
    | ready interval since =>
      dsimp only
      split_ifs with hsleeps hrunning
      · exact .inl rfl
      · exact .inr (.wakes hthread (Nat.le_of_not_lt hsleeps) hrunning)
      · exact .inr (.returns hthread (Nat.le_of_not_lt hsleeps) (Bool.eq_false_iff.mpr hrunning))
    | timing interval since => exact .inr (.begins hthread)
    | body interval start next =>
      dsimp only
      cases hstatement : p.statements[next]? with
      | none => exact .inr (.rests hthread (List.getElem?_eq_none_iff.mp hstatement))
      | some statement => exact .inr (.runs hthread hstatement)
    | finished => exact .inl rfl

theorem loop_rule {p : Program D S A E} {s : State D E} {input : A} {I : State D E → Prop}
    (hsame : I s) (hmoves : ∀ s', p.Moves s input s' → I s') : I (p.loop s input) := by
  obtain hstays | hgoes := p.loop_cases s input
  · rwa [hstays]
  · exact hmoves _ hgoes

/-- A step of the system: settings, the flag and the caller's place, or a thread that is made,
    joined or moves, or time that passes. -/
inductive Acts (p : Program D S A E) (s : State D E) : Op S A → State D E → Prop
  | turns {op : Op S A} {device : D} {running : Bool} {control : Control}
      (h : device = s.device ∨ ∃ x, (op = .set x ∨ op = .shut x) ∧ device = p.set x s.device) :
      Acts p s op { s with device := device, running := running, control := control }
  | spawns (h : s.control = .spawning) :
      Acts p s .proceed
        { s with
          thread := some (.entering s.now)
          terminated := s.terminated || s.thread.isSome
          sessions := s.sessions + 1
          control := .idle }
  | joins (h : s.thread = some .finished) :
      Acts p s .proceed { s with thread := none, control := .idle }
  | moves {input : A} {s' : State D E} (h : p.Moves s input s') : Acts p s (.loop input) s'
  | passes (duration : ℕ) : Acts p s (.pass duration) { s with now := s.now + duration }

theorem step_acts (p : Program D S A E) (s : State D E) (op : Op S A) :
    p.Acts s op (p.step s op) := by
  have hself : p.Acts s op s := .turns (.inl rfl)
  cases op with
  | start =>
    dsimp only [step, State.start]
    split_ifs
    · exact hself
    · exact .turns (.inl rfl)
    · exact hself
  | stop =>
    dsimp only [step, State.stop]
    split_ifs
    · exact .turns (.inl rfl)
    · exact hself
  | shut x =>
    dsimp only [step]
    split_ifs
    · exact .turns (.inr ⟨x, .inr rfl, rfl⟩)
    · exact hself
  | proceed =>
    dsimp only [step, State.proceed]
    split
    · exact hself
    · rename_i hspawning
      exact .spawns hspawning
    · split_ifs
      · exact .turns (.inl rfl)
      · exact .turns (.inl rfl)
    · split
      · exact .turns (.inl rfl)
      · rename_i hfinished
        exact .joins hfinished
      · exact hself
  | set x => exact .turns (.inr ⟨x, .inl rfl, rfl⟩)
  | loop input =>
    obtain hstays | hgoes := p.loop_cases s input
    · rw [step, hstays]
      exact hself
    · exact .moves hgoes
  | pass duration => exact .passes duration

theorem step_rule {p : Program D S A E} {s : State D E} {op : Op S A} {I : State D E → Prop}
    (h : ∀ s', p.Acts s op s' → I s') : I (p.step s op) := h _ (p.step_acts s op)

end Program

/-! The caller and the thread -/

namespace State

def Fits (s : State D E) : Prop :=
  match s.control with
  | .spawning => s.running = true ∧ s.thread = none
  | .joining => s.running = false
  | _ => if s.running then s.thread ≠ none ∧ s.thread ≠ some .finished else s.thread = none

structure Coherent (s : State D E) : Prop where
  fits : s.Fits
  alive : s.terminated = false

theorem Coherent.silent {s : State D E} (h : s.Coherent) (hidle : s.control = .idle)
    (hstopped : s.running = false) : s.thread = none := by
  have hfits := h.fits
  rw [Fits, hidle] at hfits
  simpa [hstopped] using hfits

theorem Coherent.proceed {s : State D E} (h : s.Coherent) : s.proceed.Coherent := by
  obtain ⟨hfits, halive⟩ := h
  unfold State.proceed
  rw [Fits] at hfits
  cases hcontrol : s.control with
  | idle =>
    rw [hcontrol] at hfits
    exact ⟨by rwa [Fits, hcontrol], halive⟩
  | spawning =>
    rw [hcontrol] at hfits
    obtain ⟨hrunning, hthread⟩ := hfits
    refine ⟨?_, ?_⟩
    · simp [Fits, hrunning]
    · simp [halive, hthread]
  | halting =>
    rw [hcontrol] at hfits
    dsimp only
    split_ifs with hrunning
    · exact ⟨rfl, halive⟩
    · exact ⟨by simpa [Fits, hrunning] using hfits, halive⟩
  | joining =>
    rw [hcontrol] at hfits
    dsimp only at hfits ⊢
    split
    · rename_i hthread
      exact ⟨by simp [Fits, hfits, hthread], halive⟩
    · exact ⟨by simp [Fits, hfits], halive⟩
    · exact ⟨by rw [Fits, hcontrol]; exact hfits, halive⟩

end State

namespace Program

theorem coherent_loop (p : Program D S A E) {s : State D E} (h : s.Coherent) (input : A) :
    (p.loop s input).Coherent := by
  obtain ⟨hfits, halive⟩ := h
  have hwith : ∀ {place place' : ThreadPlace} {s' : State D E}, s.thread = some place →
      s'.thread = some place' → s'.control = s.control → s'.running = s.running →
      s'.terminated = s.terminated → (s.running = true → place' ≠ .finished) → s'.Coherent := by
    intro place place' s' hthread hthread' hcontrol' hrunning' hterminated' hgoes
    refine ⟨?_, hterminated'.trans halive⟩
    unfold State.Fits at hfits ⊢
    rw [hcontrol', hrunning', hthread']
    cases hcontrol : s.control <;> cases hrunning : s.running <;> simp_all
  refine loop_rule ⟨hfits, halive⟩ fun s' hmoves => ?_
  cases hmoves with
  | enters h => exact hwith h rfl rfl rfl rfl (by simp)
  | wakes h _ _ => exact hwith h rfl rfl rfl rfl (by simp)
  | returns h _ hstopped => exact hwith h rfl rfl rfl rfl (by simp [hstopped])
  | begins h => exact hwith h rfl rfl rfl rfl (by simp)
  | runs h _ => exact hwith h rfl rfl rfl rfl (by simp)
  | rests h _ => exact hwith h rfl rfl rfl rfl (by simp)

theorem coherent_step (p : Program D S A E) (s : State D E) (op : Op S A) (h : s.Coherent) :
    (p.step s op).Coherent := by
  have hfits := h.fits
  cases op with
  | start =>
    dsimp only [step, State.start]
    split_ifs with hidle hrunning
    · exact h
    · refine ⟨⟨rfl, ?_⟩, h.alive⟩
      exact h.silent hidle (Bool.eq_false_iff.mpr hrunning)
    · exact h
  | stop =>
    dsimp only [step, State.stop]
    split_ifs
    · exact ⟨rfl, h.alive⟩
    · exact h
  | shut x =>
    dsimp only [step]
    split_ifs with hidle
    · exact ⟨by simpa [State.Fits, hidle] using hfits, h.alive⟩
    · exact h
  | proceed => exact h.proceed
  | set x => exact ⟨hfits, h.alive⟩
  | loop input => exact p.coherent_loop h input
  | pass duration => exact ⟨hfits, h.alive⟩

end Program

/-! The order of the statements, and how far apart the rounds are -/

/-- Statements of one session that are `j + 1` rounds apart are at least `j` intervals apart. -/
structure Stamp.Before (x y : Stamp E) : Prop where
  session : x.session ≤ y.session
  time : x.time ≤ y.time
  place : x.round < y.round ∨ x.round = y.round ∧ x.place < y.place
  interval : x.session = y.session → x.interval = y.interval
  spaced : x.session = y.session →
    ∀ j, x.round + j + 1 ≤ y.round → x.time + j * x.interval ≤ y.time

/-- Among statements whose marks are at least `d` apart, one lies as many times `d` after the
    first as there are others. -/
theorem exists_far {mark : ℕ → ℕ} {d : ℕ} {x : Stamp E} {l : List (Stamp E)}
    (hapart : (x :: l).Pairwise fun y z => mark y.round + d ≤ mark z.round) :
    ∃ y ∈ x :: l, mark x.round + l.length * d ≤ mark y.round := by
  induction l generalizing x with
  | nil => exact ⟨x, List.mem_cons_self, by simp⟩
  | cons y l ih =>
    obtain ⟨hfirst, hrest⟩ := List.pairwise_cons.mp hapart
    obtain ⟨z, hz, hfar⟩ := ih hrest
    have hstep := hfirst y List.mem_cons_self
    refine ⟨z, List.mem_cons_of_mem x hz, ?_⟩
    rw [List.length_cons, Nat.succ_mul]
    omega

/-- In a window of a session, `n + 2` statements whose marks are at least `d` apart take `n * d`
    intervals, if the marks gain less than `d` on the rounds. -/
theorem span_of_window {mark : ℕ → ℕ} {d interval session a width : ℕ} (hd : 0 < d)
    {l : List (Stamp E)} (hsorted : l.Pairwise Stamp.Before)
    (hwithin : ∀ x ∈ l, x.session = session ∧ x.interval = interval ∧ a ≤ x.time ∧
      x.time ≤ a + width)
    (hapart : l.Pairwise fun x y => mark x.round + d ≤ mark y.round)
    (hgain : ∀ x ∈ l, ∀ y ∈ l, x.Before y →
      mark y.round + x.round < mark x.round + y.round + d) :
    (l.length - 2) * (d * interval) ≤ width := by
  rcases l with _ | ⟨x, l⟩
  · simp
  · obtain ⟨y, hy, hfar⟩ := exists_far hapart
    obtain ⟨hx, hsame, hstart, -⟩ := hwithin x List.mem_cons_self
    obtain ⟨hsession, -, -, hend⟩ := hwithin y hy
    obtain rfl | hlater := List.mem_cons.mp hy
    · have hnone : l.length * d = 0 := by omega
      obtain hlength | hzero := Nat.mul_eq_zero.mp hnone
      · simp [hlength]
      · omega
    · have hbefore := (List.pairwise_cons.mp hsorted).1 y hlater
      have hmarks := hgain x List.mem_cons_self y hy hbefore
      obtain ⟨n, hn⟩ : ∃ n, l.length = n + 1 :=
        Nat.exists_eq_succ_of_ne_zero (Nat.ne_of_gt (List.length_pos_of_mem hlater))
      rw [hn, Nat.succ_mul] at hfar
      have hspaced := hbefore.spaced (hx.trans hsession.symm) (n * d) (by omega)
      rw [hsame] at hspaced
      have hcount : (x :: l).length - 2 = n := by
        rw [List.length_cons]
        omega
      rw [hcount, ← Nat.mul_assoc]
      omega

namespace State

def eventsIn (s : State D E) (session a width : ℕ) : List E :=
  (s.log.filter fun x => x.session = session ∧ a ≤ x.time ∧ x.time ≤ a + width).flatMap
    Stamp.events

def Since (s : State D E) (x : Stamp E) : Prop :=
  match s.thread with
  | none => True
  | some (.entering _) => x.session < s.sessions
  | some (.ready interval since) => x.session = s.sessions → x.interval = interval ∧
      ∀ j, x.round + j ≤ s.rounds → x.time + j * interval ≤ since
  | some (.timing interval since) => x.session = s.sessions → x.interval = interval ∧
      ∀ j, x.round + j ≤ s.rounds → x.time + j * interval ≤ since
  | some (.body interval start next) =>
    (x.round < s.rounds ∨ x.round = s.rounds ∧ x.place < next) ∧
      (x.session = s.sessions → x.interval = interval ∧
        ∀ j, x.round + j + 1 ≤ s.rounds → x.time + j * interval ≤ start)
  | some .finished => True

def Begun (s : State D E) : Prop :=
  match s.thread with
  | some (.entering since) => since ≤ s.now
  | some (.ready interval since) => since ≤ s.now + interval
  | some (.timing _ since) => since ≤ s.now
  | some (.body _ start _) => start ≤ s.now
  | _ => True

structure Ordered (s : State D E) : Prop where
  past : ∀ x ∈ s.log, x.session ≤ s.sessions ∧ x.round ≤ s.rounds ∧ x.time ≤ s.now
  sorted : s.log.Pairwise Stamp.Before
  begun : s.Begun
  since : ∀ x ∈ s.log, s.Since x

theorem Begun.pass {s : State D E} (h : s.Begun) (duration : ℕ) :
    State.Begun { s with now := s.now + duration } := by
  have hmore := Nat.le_add_right s.now duration
  unfold State.Begun at h ⊢
  dsimp only
  rcases hthread : s.thread with _ | place
  · trivial
  · rw [hthread] at h
    cases place with
    | entering since => exact Nat.le_trans h hmore
    | ready interval since => exact Nat.le_trans h (Nat.add_le_add_right hmore interval)
    | timing interval since => exact Nat.le_trans h hmore
    | body interval start next => exact Nat.le_trans h hmore
    | finished => trivial

end State

namespace Program

theorem before_new {s : State D E} (h : s.Ordered) {interval start next : ℕ} (events : List E)
    (hthread : s.thread = some (.body interval start next)) {x : Stamp E} (hx : x ∈ s.log) :
    x.Before ⟨s.sessions, interval, s.rounds, next, s.now, events⟩ := by
  obtain ⟨hsession, -, htime⟩ := h.past x hx
  have hsince := h.since x hx
  have hbegun := h.begun
  rw [State.Since, hthread] at hsince
  rw [State.Begun, hthread] at hbegun
  obtain ⟨hplace, hsame⟩ := hsince
  refine ⟨hsession, htime, hplace, fun hs => (hsame hs).1, fun hs j hj => ?_⟩
  rw [(hsame hs).1]
  exact Nat.le_trans ((hsame hs).2 j hj) hbegun

theorem ordered_runs {s : State D E} (h : s.Ordered) {interval start next : ℕ} {events : List E}
    {device : D} (hthread : s.thread = some (.body interval start next)) :
    State.Ordered
      { s with
        device := device
        thread := some (.body interval start (next + 1))
        log := s.log ++ [⟨s.sessions, interval, s.rounds, next, s.now, events⟩] } := by
  have hbegun := h.begun
  rw [State.Begun, hthread] at hbegun
  refine ⟨fun x hx => ?_, ?_, hbegun, fun x hx => ?_⟩
  · obtain hold | rfl := List.mem_append.mp hx |>.imp_right List.mem_singleton.mp
    · exact h.past x hold
    · exact ⟨Nat.le_refl _, Nat.le_refl _, Nat.le_refl _⟩
  · refine List.pairwise_append.mpr ⟨h.sorted, List.pairwise_singleton .., fun x hx y hy => ?_⟩
    rw [List.mem_singleton.mp hy]
    exact before_new h events hthread hx
  · obtain hold | rfl := List.mem_append.mp hx |>.imp_right List.mem_singleton.mp
    · have hsince := h.since x hold
      rw [State.Since, hthread] at hsince
      refine ⟨hsince.1.imp_right fun hround => ?_, hsince.2⟩
      exact ⟨hround.1, Nat.lt_succ_of_lt hround.2⟩
    · refine ⟨.inr ⟨rfl, Nat.lt_succ_self next⟩, fun _ => ⟨rfl, fun j hj => ?_⟩⟩
      exact absurd hj (by dsimp only; omega)

theorem ordered_rests {s : State D E} (h : s.Ordered) {interval start next : ℕ}
    (hthread : s.thread = some (.body interval start next)) :
    State.Ordered
      { s with thread := some (.ready interval (s.now + (interval - (s.now - start)))) } := by
  have hbegun := h.begun
  rw [State.Begun, hthread] at hbegun
  refine ⟨h.past, h.sorted, ?_, fun x hx hs => ?_⟩
  · exact Nat.add_le_add_left (Nat.sub_le ..) s.now
  · have hsince := h.since x hx
    rw [State.Since, hthread] at hsince
    obtain ⟨hsame, hspaced⟩ := hsince.2 hs
    refine ⟨hsame, fun j hj => ?_⟩
    have htime := (h.past x hx).2.2
    cases j with
    | zero => omega
    | succ i =>
      have hround := hspaced i hj
      rw [Nat.succ_mul]
      omega

theorem ordered_moves {p : Program D S A E} {s s' : State D E} {input : A} (h : s.Ordered)
    (hmoves : p.Moves s input s') : s'.Ordered := by
  have hbegun := h.begun
  have hsince := h.since
  cases hmoves with
  | enters hthread =>
    rw [State.Begun, hthread] at hbegun
    refine ⟨h.past, h.sorted, Nat.le_add_right_of_le hbegun, fun x hx hs => ?_⟩
    have hearlier := hsince x hx
    rw [State.Since, hthread] at hearlier
    exact absurd hs (Nat.ne_of_lt hearlier)
  | wakes hthread hnow _ =>
    refine ⟨h.past, h.sorted, hnow, fun x hx => ?_⟩
    have hearlier := hsince x hx
    rwa [State.Since, hthread] at hearlier
  | returns hthread _ _ => exact ⟨h.past, h.sorted, trivial, fun _ _ => trivial⟩
  | @begins interval since hthread =>
    rw [State.Begun, hthread] at hbegun
    replace hbegun : since ≤ s.now := hbegun
    refine ⟨fun x hx => ?_, h.sorted, Nat.le_refl _, fun x hx => ?_⟩
    · obtain ⟨hsession, hround, htime⟩ := h.past x hx
      exact ⟨hsession, Nat.le_succ_of_le hround, htime⟩
    · have hearlier := hsince x hx
      rw [State.Since, hthread] at hearlier
      refine ⟨.inl (Nat.lt_succ_of_le (h.past x hx).2.1), fun hs => ?_⟩
      refine ⟨(hearlier hs).1, fun j hj => ?_⟩
      exact Nat.le_trans ((hearlier hs).2 j (Nat.le_of_succ_le_succ hj)) hbegun
  | runs hthread _ => exact ordered_runs h hthread
  | rests hthread _ => exact ordered_rests h hthread

theorem ordered_step (p : Program D S A E) (s : State D E) (op : Op S A) (h : s.Ordered) :
    (p.step s op).Ordered := by
  refine step_rule fun s' hacts => ?_
  cases hacts with
  | turns _ => exact ⟨h.past, h.sorted, h.begun, h.since⟩
  | spawns _ =>
    refine ⟨fun x hx => ?_, h.sorted, Nat.le_refl _, fun x hx => ?_⟩
    · exact ⟨Nat.le_succ_of_le (h.past x hx).1, (h.past x hx).2⟩
    · exact Nat.lt_succ_of_le (h.past x hx).1
  | joins _ => exact ⟨h.past, h.sorted, trivial, fun _ _ => trivial⟩
  | moves hmoves => exact ordered_moves h hmoves
  | passes duration =>
    refine ⟨fun x hx => ?_, h.sorted, h.begun.pass duration, h.since⟩
    obtain ⟨hsession, hround, htime⟩ := h.past x hx
    exact ⟨hsession, hround, Nat.le_add_right_of_le htime⟩

/-! What holds of the device, and of the intervals read from it -/

structure Keeps (p : Program D S A E) (Q : D → Prop) : Prop where
  set : ∀ x d, Q d → Q (p.set x d)
  run : ∀ statement ∈ p.statements, ∀ input d, Q d → Q (statement input d).1

/-- The device has `Q`, and every interval in use has `I`. -/
structure Holds (Q : D → Prop) (I : ℕ → Prop) (s : State D E) : Prop where
  device : Q s.device
  thread : ∀ interval, (∃ t, s.thread = some (.ready interval t)) ∨
    (∃ t, s.thread = some (.timing interval t)) ∨
    (∃ t next, s.thread = some (.body interval t next)) → I interval
  log : ∀ x ∈ s.log, I x.interval

section Intervals

variable {p : Program D S A E} {Q : D → Prop} {I : ℕ → Prop}

theorem holds_moves (hkeeps : p.Keeps Q) (hreads : ∀ d, Q d → I (p.interval d))
    {s s' : State D E} {input : A} (h : Holds Q I s) (hmoves : p.Moves s input s') :
    Holds Q I s' := by
  cases hmoves with
  | enters _ =>
    refine ⟨h.device, fun interval hinterval => ?_, h.log⟩
    have hread := hreads s.device h.device
    simp at hinterval
    rwa [← hinterval]
  | wakes hthread _ _ =>
    refine ⟨h.device, fun interval hinterval => ?_, h.log⟩
    simp at hinterval
    exact hinterval ▸ h.thread _ (.inl ⟨_, hthread⟩)
  | returns _ _ _ => exact ⟨h.device, by simp, h.log⟩
  | begins hthread =>
    refine ⟨h.device, fun interval hinterval => ?_, h.log⟩
    simp at hinterval
    exact hinterval ▸ h.thread _ (.inr (.inl ⟨_, hthread⟩))
  | runs hthread hstatement =>
    have hsame := h.thread _ (.inr (.inr ⟨_, _, hthread⟩))
    refine ⟨?_, fun interval hinterval => ?_, fun x hx => ?_⟩
    · exact hkeeps.run _ (List.mem_of_getElem? hstatement) input _ h.device
    · simp at hinterval
      exact hinterval ▸ hsame
    · obtain hold | rfl := List.mem_append.mp hx |>.imp_right List.mem_singleton.mp
      · exact h.log x hold
      · exact hsame
  | rests hthread _ =>
    refine ⟨h.device, fun interval hinterval => ?_, h.log⟩
    simp at hinterval
    exact hinterval ▸ h.thread _ (.inr (.inr ⟨_, _, hthread⟩))

theorem holds_step (hkeeps : p.Keeps Q) (hreads : ∀ d, Q d → I (p.interval d)) (s : State D E)
    (op : Op S A) (h : Holds Q I s) : Holds Q I (p.step s op) := by
  refine step_rule fun s' hacts => ?_
  cases hacts with
  | turns hdevice =>
    obtain rfl | ⟨x, -, rfl⟩ := hdevice
    · exact ⟨h.device, h.thread, h.log⟩
    · exact ⟨hkeeps.set x _ h.device, h.thread, h.log⟩
  | spawns _ => exact ⟨h.device, by simp, h.log⟩
  | joins _ => exact ⟨h.device, by simp, h.log⟩
  | moves hmoves => exact holds_moves hkeeps hreads h hmoves
  | passes _ => exact ⟨h.device, h.thread, h.log⟩

end Intervals

/-! What holds of every run -/

theorem loop_frame (p : Program D S A E) (s : State D E) (input : A) :
    (p.loop s input).control = s.control ∧ (p.loop s input).running = s.running ∧
      (p.loop s input).sessions = s.sessions ∧ (p.loop s input).now = s.now := by
  have hself : s.control = s.control ∧ s.running = s.running ∧ s.sessions = s.sessions ∧
      s.now = s.now := ⟨rfl, rfl, rfl, rfl⟩
  refine loop_rule (I := fun s' => s'.control = s.control ∧ s'.running = s.running ∧
    s'.sessions = s.sessions ∧ s'.now = s.now) hself fun s' hmoves => ?_
  cases hmoves <;> exact hself

structure Sound (p : Program D S A E) (Q : D → Prop) (I : ℕ → Prop) (s : State D E) : Prop where
  coherent : s.Coherent
  ordered : s.Ordered
  holds : Holds Q I s
  place : ∀ x ∈ s.log, x.place < p.statements.length

section Runs

variable {p : Program D S A E} {Q : D → Prop} {I : ℕ → Prop}

theorem log_step (s : State D E) (op : Op S A) : (p.step s op).log = s.log ∨
    ∃ interval start next statement input, op = .loop input ∧
      s.thread = some (.body interval start next) ∧ p.statements[next]? = some statement ∧
      (p.step s op).log = s.log ++
        [⟨s.sessions, interval, s.rounds, next, s.now, (statement input s.device).2⟩] := by
  have hacts := p.step_acts s op
  generalize p.step s op = s' at hacts ⊢
  cases hacts with
  | moves hmoves =>
    cases hmoves with
    | runs hthread hstatement => exact .inr ⟨_, _, _, _, _, rfl, hthread, hstatement, rfl⟩
    | _ => exact .inl rfl
  | _ => exact .inl rfl

theorem log_cases {s : State D E} {op : Op S A} {x : Stamp E} (hx : x ∈ (p.step s op).log) :
    x ∈ s.log ∨ x.session = s.sessions ∧
      (∃ start, s.thread = some (.body x.interval start x.place)) ∧
      x.place < p.statements.length ∧ x.round = s.rounds ∧ x.time = s.now := by
  obtain hsame | ⟨interval, start, next, statement, input, -, hthread, hstatement, hlog⟩ :=
    p.log_step s op
  · exact .inl (hsame ▸ hx)
  · rw [hlog] at hx
    obtain hold | rfl := List.mem_append.mp hx |>.imp_right List.mem_singleton.mp
    · exact .inl hold
    · exact .inr ⟨rfl, ⟨start, hthread⟩, (List.getElem?_eq_some_iff.mp hstatement).1, rfl, rfl⟩

theorem sound_step (hkeeps : p.Keeps Q) (hreads : ∀ d, Q d → I (p.interval d)) (s : State D E)
    (op : Op S A) (h : Sound p Q I s) : Sound p Q I (p.step s op) where
  coherent := p.coherent_step s op h.coherent
  ordered := p.ordered_step s op h.ordered
  holds := holds_step hkeeps hreads s op h.holds
  place x hx := by
    obtain hold | ⟨-, -, hplace, -⟩ := log_cases hx
    · exact h.place x hold
    · exact hplace

theorem sound_new {device : D} (hdevice : Q device) :
    Sound p Q I ({ device := device } : State D E) where
  coherent := ⟨rfl, rfl⟩
  ordered := ⟨by simp, List.Pairwise.nil, trivial, by simp⟩
  holds := ⟨hdevice, by simp, by simp⟩
  place := by simp

theorem sound_run (hkeeps : p.Keeps Q) (hreads : ∀ d, Q d → I (p.interval d)) {device : D}
    (hdevice : Q device) (ops : List (Op S A)) :
    Sound p Q I (run p.step { device := device } ops) :=
  run_invariant p.step _ (sound_step hkeeps hreads) (sound_new hdevice) ops

/-- The session `n` keeps the interval that its thread has read. -/
structure Reads (n interval : ℕ) (s : State D E) : Prop where
  begun : n ≤ s.sessions
  thread : s.sessions = n → (∀ since, s.thread ≠ some (.entering since)) ∧
    ∀ used, (∃ t, s.thread = some (.ready used t)) ∨ (∃ t, s.thread = some (.timing used t)) ∨
      (∃ t next, s.thread = some (.body used t next)) → used = interval
  log : ∀ x ∈ s.log, x.session = n → x.interval = interval

theorem reads_moves {n interval : ℕ} {s s' : State D E} {input : A} (h : Reads n interval s)
    (hmoves : p.Moves s input s') : Reads n interval s' := by
  obtain ⟨hbegun, hthread, hlog⟩ := h
  cases hmoves with
  | enters h => exact ⟨hbegun, fun hn => absurd h ((hthread hn).1 _), hlog⟩
  | wakes h _ _ =>
    exact ⟨hbegun, fun hn => by simpa using (hthread hn).2 _ (.inl ⟨_, h⟩), hlog⟩
  | returns _ _ _ => exact ⟨hbegun, by simp, hlog⟩
  | begins h =>
    exact ⟨hbegun, fun hn => by simpa using (hthread hn).2 _ (.inr (.inl ⟨_, h⟩)), hlog⟩
  | runs h _ =>
    have hused : s.sessions = n → _ := fun hn => (hthread hn).2 _ (.inr (.inr ⟨_, _, h⟩))
    refine ⟨hbegun, fun hn => by simpa using hused hn, fun x hx hn => ?_⟩
    obtain hold | rfl := List.mem_append.mp hx |>.imp_right List.mem_singleton.mp
    · exact hlog x hold hn
    · exact hused hn
  | rests h _ =>
    exact ⟨hbegun, fun hn => by simpa using (hthread hn).2 _ (.inr (.inr ⟨_, _, h⟩)), hlog⟩

theorem reads_step {n interval : ℕ} (s : State D E) (op : Op S A) (h : Reads n interval s) :
    Reads n interval (p.step s op) := by
  refine step_rule fun s' hacts => ?_
  cases hacts with
  | turns _ => exact ⟨h.begun, h.thread, h.log⟩
  | spawns _ =>
    have hlater := h.begun
    refine ⟨Nat.le_succ_of_le hlater, fun hn => ?_, h.log⟩
    dsimp only at hn
    omega
  | joins _ => exact ⟨h.begun, by simp, h.log⟩
  | moves hmoves => exact reads_moves h hmoves
  | passes _ => exact ⟨h.begun, h.thread, h.log⟩

theorem reads_start {s : State D E} (h : s.Ordered) {since : ℕ}
    (hbegins : s.thread = some (.entering since)) (input : A) :
    Reads s.sessions (p.interval s.device) (p.step s (.loop input)) := by
  have hstep : p.step s (.loop input) =
      { s with thread := some (.ready (p.interval s.device) since) } := by
    rw [step, loop, hbegins]
  rw [hstep]
  refine ⟨Nat.le_refl _, fun _ => ⟨by simp, by simp⟩, fun x hx hn => ?_⟩
  have hearlier := h.since x hx
  rw [State.Since, hbegins] at hearlier
  exact absurd hn (Nat.ne_of_lt hearlier)

end Runs

end Program

end Lib.PacedLoop
