import SpeeduinoDash.Lib.PacedLoop

set_option autoImplicit false

/-!
# A paced loop that is not held up

How long it takes to a statement of a later round, and to the return of `stop`, if no step of the
thread comes late.
-/
namespace Lib.PacedLoop
open Lib.Runs

variable {D S A E : Type}

namespace State

variable (longest delay work : ℕ)

/-- The thread runs within `delay` of the time when it may, and the statements of a round are run
    within `work`. -/
def OnTime (s : State D E) : Prop :=
  match s.thread with
  | some (.entering since) => s.now ≤ since + delay
  | some (.ready _ since) => s.now ≤ since + delay
  | some (.timing _ since) => s.now ≤ since + delay
  | some (.body _ start _) => s.now ≤ start + work
  | _ => True

/-- From the start of a round to the start of the next. -/
def roundTime : ℕ := max longest work + delay

/-- The statement at `place` of the round `target` is still to come, by the time `due`. -/
def DueBy (target place due : ℕ) (s : State D E) : Prop :=
  match s.thread with
  | some (.entering since) => ∃ m, s.rounds + m + 1 = target ∧
      since + delay + m * roundTime longest delay work + work ≤ due
  | some (.ready _ since) => ∃ m, s.rounds + m + 1 = target ∧
      since + delay + m * roundTime longest delay work + work ≤ due
  | some (.timing _ since) => ∃ m, s.rounds + m + 1 = target ∧
      since + delay + m * roundTime longest delay work + work ≤ due
  | some (.body _ start next) => s.rounds = target ∧ next ≤ place ∧ start + work ≤ due ∨
      ∃ m, s.rounds + m + 1 = target ∧
        start + (m + 1) * roundTime longest delay work + work ≤ due
  | _ => False

def Ran (target place : ℕ) (s : State D E) : Prop :=
  ∃ x ∈ s.log, x.round = target ∧ x.place = place

/-- The thread returns by the time `due`, if the loop is told to stop. -/
def EndBy (due : ℕ) (s : State D E) : Prop :=
  match s.thread with
  | some (.entering since) => since + delay ≤ due
  | some (.ready _ since) => since + delay ≤ due
  | some (.timing _ since) => since + delay + roundTime longest delay work ≤ due
  | some (.body _ start _) => start + roundTime longest delay work ≤ due
  | _ => True

structure Silent (s : State D E) : Prop where
  stopped : s.running = false
  thread : s.thread = none
  control : s.control ≠ .spawning

end State

def Op.goesOn : Op S A → Bool
  | .stop => false
  | .shut _ => false
  | _ => true

def Op.isStart : Op S A → Bool
  | .start => true
  | _ => false

namespace Program

section Prompt

variable {p : Program D S A E} {longest delay work : ℕ} {s : State D E}

theorem wake_le (hbegun : s.Begun) (htimely : s.OnTime delay work) {interval start next : ℕ}
    (hthread : s.thread = some (.body interval start next)) (hinterval : interval ≤ longest) :
    s.now + (interval - (s.now - start)) + delay ≤ start + State.roundTime longest delay work := by
  rw [State.Begun, hthread] at hbegun
  rw [State.OnTime, hthread] at htimely
  unfold State.roundTime
  dsimp only at hbegun htimely
  omega

theorem due_loop {target place due : ℕ} (hplace : place < p.statements.length)
    (hrunning : s.running = true) (hbegun : s.Begun) (htimely : s.OnTime delay work)
    (hlong : ∀ interval start next, s.thread = some (.body interval start next) →
      interval ≤ longest)
    (hdue : s.DueBy longest delay work target place due) (input : A) :
    (p.loop s input).Ran target place ∨
      (p.loop s input).DueBy longest delay work target place due := by
  refine loop_rule (I := fun s' => s'.Ran target place ∨
    s'.DueBy longest delay work target place due) (.inr hdue) fun s' hmoves => ?_
  rw [State.DueBy] at hdue
  cases hmoves with
  | enters hthread =>
    rw [hthread] at hdue
    exact .inr hdue
  | wakes hthread _ _ =>
    rw [hthread] at hdue
    exact .inr hdue
  | returns _ _ hstopped => exact absurd (hrunning.symm.trans hstopped) (by decide)
  | begins hthread =>
    rw [hthread] at hdue
    rw [State.OnTime, hthread] at htimely
    obtain ⟨m, htarget, hm⟩ := hdue
    dsimp only at htimely
    refine .inr ?_
    cases m with
    | zero => exact .inl ⟨by simpa using htarget, Nat.zero_le place, by omega⟩
    | succ i => exact .inr ⟨i, by dsimp only; omega, by omega⟩
  | @runs interval start next statement hthread hstatement =>
    rw [hthread] at hdue
    obtain ⟨htarget, hnext, hwork⟩ | hlater := hdue
    · obtain hlt | rfl := Nat.lt_or_eq_of_le hnext
      · exact .inr (.inl ⟨htarget, hlt, hwork⟩)
      · exact .inl ⟨_, List.mem_append_right _ (List.mem_singleton_self _), htarget, rfl⟩
    · exact .inr (.inr hlater)
  | @rests interval start next hthread hend =>
    have hwake := wake_le hbegun htimely hthread (hlong _ _ _ hthread)
    rw [hthread] at hdue
    obtain ⟨htarget, hnext, -⟩ | ⟨m, htarget, hm⟩ := hdue
    · omega
    · refine .inr ⟨m, htarget, ?_⟩
      rw [Nat.succ_mul] at hm
      omega

theorem end_loop {due : ℕ} (hstopped : s.running = false) (hbegun : s.Begun)
    (htimely : s.OnTime delay work)
    (hlong : ∀ interval start next, s.thread = some (.body interval start next) →
      interval ≤ longest)
    (hend : s.EndBy longest delay work due) (input : A) :
    (p.loop s input).EndBy longest delay work due := by
  refine loop_rule hend fun s' hmoves => ?_
  rw [State.EndBy] at hend
  cases hmoves with
  | enters hthread =>
    rw [hthread] at hend
    exact hend
  | wakes _ _ hrunning => exact absurd (hrunning.symm.trans hstopped) (by decide)
  | returns _ _ _ => trivial
  | begins hthread =>
    rw [hthread] at hend
    rw [State.OnTime, hthread] at htimely
    exact Nat.le_trans (Nat.add_le_add_right htimely _) hend
  | runs hthread _ =>
    rw [hthread] at hend
    exact hend
  | rests hthread _ =>
    have hwake := wake_le hbegun htimely hthread (hlong _ _ _ hthread)
    rw [hthread] at hend
    exact Nat.le_trans hwake hend

end Prompt

section Runs

variable {p : Program D S A E} {Q : D → Prop} {longest delay work : ℕ}

theorem ran_step {s : State D E} {target place : ℕ} (h : s.Ran target place) (op : Op S A) :
    (p.step s op).Ran target place := by
  obtain ⟨x, hx, hran⟩ := h
  refine ⟨x, ?_, hran⟩
  obtain hsame | ⟨_, _, _, _, _, -, -, -, hlog⟩ := p.log_step s op
  · rwa [hsame]
  · rw [hlog]
    exact List.mem_append_left _ hx

theorem due_step {s : State D E} (h : Sound p Q (· ≤ longest) s) (hidle : s.control = .idle)
    (hrunning : s.running = true) (htimely : s.OnTime delay work) {target place due : ℕ}
    (hplace : place < p.statements.length)
    (hdue : s.Ran target place ∨ s.DueBy longest delay work target place due) {op : Op S A}
    (hop : op.goesOn = true) :
    (p.step s op).control = .idle ∧ (p.step s op).running = true ∧
      ((p.step s op).Ran target place ∨
        (p.step s op).DueBy longest delay work target place due) := by
  have hran : s.Ran target place → (p.step s op).Ran target place := fun h => ran_step h op
  cases op with
  | start =>
    rw [step, if_pos hidle, State.start, if_pos hrunning]
    exact ⟨hidle, hrunning, hdue⟩
  | stop => cases hop
  | shut x => cases hop
  | proceed =>
    rw [step, State.proceed, hidle]
    exact ⟨hidle, hrunning, hdue⟩
  | set x => exact ⟨hidle, hrunning, hdue⟩
  | loop input =>
    obtain ⟨hcontrol, hflag, -, -⟩ := p.loop_frame s input
    refine ⟨hcontrol.trans hidle, hflag.trans hrunning, ?_⟩
    obtain hdone | hdue := hdue
    · exact .inl (hran hdone)
    · refine due_loop hplace hrunning h.ordered.begun htimely (fun interval start next ht => ?_)
        hdue input
      exact h.holds.thread interval (.inr (.inr ⟨start, next, ht⟩))
  | pass duration => exact ⟨hidle, hrunning, hdue⟩

theorem due_now {s : State D E} (htimely : s.OnTime delay work) {target place due : ℕ}
    (hdue : s.DueBy longest delay work target place due) : s.now ≤ due := by
  rw [State.OnTime] at htimely
  rw [State.DueBy] at hdue
  rcases hthread : s.thread with _ | thread
  · rw [hthread] at hdue
    exact hdue.elim
  · rw [hthread] at htimely hdue
    cases thread with
    | entering since =>
      obtain ⟨m, -, hm⟩ := hdue
      exact Nat.le_trans htimely (by omega)
    | ready interval since =>
      obtain ⟨m, -, hm⟩ := hdue
      exact Nat.le_trans htimely (by omega)
    | timing interval since =>
      obtain ⟨m, -, hm⟩ := hdue
      exact Nat.le_trans htimely (by omega)
    | body interval start next =>
      obtain ⟨-, -, hwork⟩ | ⟨m, -, hm⟩ := hdue
      · exact Nat.le_trans htimely hwork
      · exact Nat.le_trans htimely (by omega)
    | finished => exact hdue.elim

theorem due_start {s : State D E} (h : Sound p Q (· ≤ longest) s) (hidle : s.control = .idle)
    (hrunning : s.running = true) (place : ℕ) {n : ℕ} (hn : 0 < n) :
    s.DueBy longest delay work (s.rounds + n) place
      (s.now + n * State.roundTime longest delay work + work) := by
  obtain ⟨m, rfl⟩ := Nat.exists_eq_succ_of_ne_zero (Nat.ne_of_gt hn)
  have hfits := h.coherent.fits
  have hbegun := h.ordered.begun
  have hround : longest + delay ≤ State.roundTime longest delay work :=
    Nat.add_le_add_right (Nat.le_max_left longest work) delay
  rw [State.Fits, hidle] at hfits
  rw [State.Begun] at hbegun
  rw [State.DueBy, Nat.succ_mul]
  simp only [hrunning, if_true] at hfits
  rcases hthread : s.thread with _ | thread
  · exact absurd hthread hfits.1
  · have hinterval := h.holds.thread
    rw [hthread] at hbegun hfits hinterval
    cases thread with
    | entering since =>
      refine ⟨m, Nat.add_assoc .., ?_⟩
      dsimp only at hbegun
      omega
    | ready interval since =>
      have hlong := hinterval interval (.inl ⟨since, rfl⟩)
      refine ⟨m, Nat.add_assoc .., ?_⟩
      dsimp only at hbegun
      omega
    | timing interval since =>
      refine ⟨m, Nat.add_assoc .., ?_⟩
      dsimp only at hbegun
      omega
    | body interval start next =>
      refine .inr ⟨m, Nat.add_assoc .., ?_⟩
      rw [Nat.succ_mul]
      dsimp only at hbegun
      omega
    | finished => exact absurd rfl hfits.2

/-- While the loop goes on and is not held up, its next `n` rounds are run in the time of `n`
    rounds. -/
theorem heard (hkeeps : p.Keeps Q) (hreads : ∀ d, Q d → p.interval d ≤ longest) {s : State D E}
    (h : Sound p Q (· ≤ longest) s) (hidle : s.control = .idle) (hrunning : s.running = true)
    {ops : List (Op S A)} (hops : ∀ op ∈ ops, op.goesOn = true)
    (htimely : EveryState p.step (State.OnTime delay work) s ops) {place n : ℕ}
    (hplace : place < p.statements.length) (hn : 0 < n)
    (hlate : s.now + n * State.roundTime longest delay work + work < (run p.step s ops).now) :
    (run p.step s ops).Ran (s.rounds + n) place := by
  have hstart : s.DueBy longest delay work (s.rounds + n) place
      (s.now + n * State.roundTime longest delay work + work) :=
    due_start h hidle hrunning place hn
  generalize s.rounds + n = target at hstart ⊢
  generalize s.now + n * State.roundTime longest delay work + work = due at hlate hstart
  replace hstart : s.Ran target place ∨ s.DueBy longest delay work target place due := .inr hstart
  induction ops generalizing s with
  | nil =>
    obtain hran | hdue := hstart
    · exact hran
    · have hnow := due_now (everyState_nil.mp htimely) hdue
      rw [run_nil] at hlate
      omega
  | cons op ops ih =>
    obtain ⟨htime, hrest⟩ := everyState_cons.mp htimely
    obtain ⟨hidle', hrunning', hdue'⟩ := due_step h hidle hrunning htime hplace hstart
      (hops op List.mem_cons_self)
    exact ih (sound_step hkeeps hreads s op h) hidle' hrunning'
      (fun op' hop' => hops op' (List.mem_cons_of_mem op hop')) hrest hlate hdue'

theorem silent_step {s : State D E} (h : s.Silent) {op : Op S A} (hop : op.isStart = false) :
    (p.step s op).Silent ∧ (p.step s op).log = s.log := by
  obtain ⟨hstopped, hthread, hcontrol⟩ := h
  cases op with
  | start => cases hop
  | stop =>
    dsimp only [step, State.stop]
    split_ifs
    · exact ⟨⟨rfl, hthread, by simp⟩, rfl⟩
    · exact ⟨⟨hstopped, hthread, hcontrol⟩, rfl⟩
  | shut x =>
    dsimp only [step]
    split_ifs
    · exact ⟨⟨hstopped, hthread, by simp⟩, rfl⟩
    · exact ⟨⟨hstopped, hthread, hcontrol⟩, rfl⟩
  | proceed =>
    dsimp only [step, State.proceed]
    cases hplace : s.control with
    | idle => exact ⟨⟨hstopped, hthread, hcontrol⟩, rfl⟩
    | spawning => exact absurd hplace hcontrol
    | halting =>
      dsimp only
      rw [if_neg (Bool.eq_false_iff.mp hstopped)]
      exact ⟨⟨hstopped, hthread, by simp⟩, rfl⟩
    | joining =>
      rw [hthread]
      exact ⟨⟨hstopped, rfl, by simp⟩, rfl⟩
  | set x => exact ⟨⟨hstopped, hthread, hcontrol⟩, rfl⟩
  | loop input =>
    rw [step, loop, hthread]
    exact ⟨⟨hstopped, hthread, hcontrol⟩, rfl⟩
  | pass duration => exact ⟨⟨hstopped, hthread, hcontrol⟩, rfl⟩

/-- A loop that has been joined runs no statement before it is started again. -/
theorem silent_run {s : State D E} (h : s.Silent) {ops : List (Op S A)}
    (hops : ∀ op ∈ ops, op.isStart = false) : (run p.step s ops).log = s.log := by
  induction ops generalizing s with
  | nil => rfl
  | cons op ops ih =>
    obtain ⟨hsilent, hlog⟩ := silent_step (p := p) h (hops op List.mem_cons_self)
    exact (ih hsilent fun op' hop' => hops op' (List.mem_cons_of_mem op hop')).trans hlog

/-- Where the thread is when `stop` is called, it returns within a round and a delay. -/
theorem end_start {s : State D E} (h : Sound p Q (· ≤ longest) s) :
    s.EndBy longest delay work (s.now + State.roundTime longest delay work + delay) := by
  have hbegun := h.ordered.begun
  have hround : longest + delay ≤ State.roundTime longest delay work :=
    Nat.add_le_add_right (Nat.le_max_left longest work) delay
  rw [State.Begun] at hbegun
  rw [State.EndBy]
  rcases hthread : s.thread with _ | thread
  · trivial
  · have hinterval := h.holds.thread
    rw [hthread] at hbegun hinterval
    cases thread with
    | entering since =>
      dsimp only at hbegun ⊢
      omega
    | ready interval since =>
      have hlong := hinterval interval (.inl ⟨since, rfl⟩)
      dsimp only at hbegun ⊢
      omega
    | timing interval since =>
      dsimp only at hbegun ⊢
      omega
    | body interval start next =>
      dsimp only at hbegun ⊢
      omega
    | finished => trivial

theorem end_now {s : State D E} (htimely : s.OnTime delay work) {due : ℕ}
    (hend : s.EndBy longest delay work due) (hlate : due < s.now) :
    s.thread = none ∨ s.thread = some .finished := by
  have hwork : work ≤ State.roundTime longest delay work :=
    Nat.le_add_right_of_le (Nat.le_max_right longest work)
  rw [State.OnTime] at htimely
  rw [State.EndBy] at hend
  rcases hthread : s.thread with _ | thread
  · exact .inl rfl
  · rw [hthread] at htimely hend
    cases thread with
    | finished => exact .inr rfl
    | _ =>
      dsimp only at htimely hend
      omega

theorem end_step {s : State D E} (h : Sound p Q (· ≤ longest) s) (hjoining : s.control = .joining)
    (hstopped : s.running = false) (htimely : s.OnTime delay work) {due : ℕ}
    (hend : s.EndBy longest delay work due) (op : Op S A) :
    (p.step s op).running = false ∧ ((p.step s op).control = .idle ∨
      (p.step s op).control = .joining ∧ (p.step s op).EndBy longest delay work due) := by
  have hbusy : s.control ≠ .idle := by simp [hjoining]
  cases op with
  | start =>
    rw [step, if_neg hbusy]
    exact ⟨hstopped, .inr ⟨hjoining, hend⟩⟩
  | stop =>
    rw [step, if_neg hbusy]
    exact ⟨hstopped, .inr ⟨hjoining, hend⟩⟩
  | shut x =>
    rw [step, if_neg hbusy]
    exact ⟨hstopped, .inr ⟨hjoining, hend⟩⟩
  | proceed =>
    rw [step, State.proceed, hjoining]
    dsimp only
    split
    · exact ⟨hstopped, .inl rfl⟩
    · exact ⟨hstopped, .inl rfl⟩
    · exact ⟨hstopped, .inr ⟨hjoining, hend⟩⟩
  | set x => exact ⟨hstopped, .inr ⟨hjoining, hend⟩⟩
  | loop input =>
    obtain ⟨hcontrol, hflag, -, -⟩ := p.loop_frame s input
    refine ⟨hflag.trans hstopped, .inr ⟨hcontrol.trans hjoining, ?_⟩⟩
    refine end_loop hstopped h.ordered.begun htimely (fun interval start next ht => ?_) hend input
    exact h.holds.thread interval (.inr (.inr ⟨start, next, ht⟩))
  | pass duration => exact ⟨hstopped, .inr ⟨hjoining, hend⟩⟩

/-- A call of `stop` returns once a round and a delay have passed, if the loop is not held up. -/
theorem joined (hkeeps : p.Keeps Q) (hreads : ∀ d, Q d → p.interval d ≤ longest) {s : State D E}
    (h : Sound p Q (· ≤ longest) s) (hjoining : s.control = .joining) {ops : List (Op S A)}
    (htimely : EveryState p.step (State.OnTime delay work) s ops)
    (hlate : s.now + State.roundTime longest delay work + delay < (run p.step s ops).now) :
    ∃ pre, pre <+: ops ++ [.proceed] ∧ (run p.step s pre).control = .idle ∧
      (run p.step s pre).running = false := by
  have hstopped : s.running = false := by
    have hfits := h.coherent.fits
    rwa [State.Fits, hjoining] at hfits
  have hend : s.EndBy longest delay work
      (s.now + State.roundTime longest delay work + delay) := end_start h
  generalize s.now + State.roundTime longest delay work + delay = due at hlate hend
  induction ops generalizing s with
  | nil =>
    refine ⟨[.proceed], List.prefix_refl _, ?_⟩
    obtain hnone | hfinished := end_now (everyState_nil.mp htimely) hend hlate
    · simp [step, State.proceed, hjoining, hnone, hstopped]
    · simp [step, State.proceed, hjoining, hfinished, hstopped]
  | cons op ops ih =>
    obtain ⟨htime, hrest⟩ := everyState_cons.mp htimely
    obtain ⟨hstopped', hidle | ⟨hjoining', hend'⟩⟩ := end_step h hjoining hstopped htime hend op
    · exact ⟨[op], ⟨ops ++ [.proceed], rfl⟩, hidle, hstopped'⟩
    · obtain ⟨pre, hpre, hreturned⟩ := ih (sound_step hkeeps hreads s op h) hjoining' hrest
        hstopped' hlate hend'
      exact ⟨op :: pre, (List.prefix_cons_inj op).mpr hpre, hreturned⟩

/-- From its construction on: no joinable thread is assigned over, a call of `stop` returns if the
    loop is not held up, and a loop that has been stopped is silent until it is started. -/
structure Stops (p : Program D S A E) (device : D) (longest : ℕ) : Prop where
  alive : ∀ ops, (run p.step { device := device } ops).terminated = false
  returns : ∀ (before during : List (Op S A)) (delay work : ℕ),
    (run p.step { device := device } before).control = .joining →
    EveryState p.step (State.OnTime delay work) (run p.step { device := device } before) during →
    (run p.step { device := device } before).now + State.roundTime longest delay work + delay <
      (run p.step { device := device } (before ++ during)).now →
    ∃ pre, pre <+: during ++ [.proceed] ∧
      (run p.step { device := device } (before ++ pre)).control = .idle ∧
      (run p.step { device := device } (before ++ pre)).running = false
  silent : ∀ before after : List (Op S A),
    (run p.step { device := device } before).control = .idle →
    (run p.step { device := device } before).running = false →
    (∀ op ∈ after, op.isStart = false) →
    (run p.step { device := device } (before ++ after)).log =
      (run p.step { device := device } before).log

theorem stops (hkeeps : p.Keeps Q) (hreads : ∀ d, Q d → p.interval d ≤ longest) {device : D}
    (hdevice : Q device) : Stops p device longest := by
  have hsound := sound_run (I := (· ≤ longest)) hkeeps hreads hdevice
  refine ⟨fun ops => (hsound ops).coherent.alive, ?_, ?_⟩
  · intro before during delay work hjoining htimely hlate
    rw [run_append] at hlate
    simp only [run_append]
    exact joined hkeeps hreads (hsound before) hjoining htimely hlate
  · intro before after hidle hstopped hafter
    rw [run_append]
    refine silent_run ⟨hstopped, (hsound before).coherent.silent hidle hstopped, ?_⟩ hafter
    simp [hidle]

end Runs

end Program

end Lib.PacedLoop
