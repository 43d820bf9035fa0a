import SpeeduinoDash.ReverseWindow

set_option autoImplicit false

/-!
# How long the window takes

A level of the line that stays is in the window once the detector has settled, the worker has read
the messages on the wire and the GUI thread has run the slots before the last of them.
-/
namespace SpeeduinoDash
open Lib.Alternation Lib.Cadence Lib.Runs

namespace Dashboard

/-- How many slots the GUI thread has to run until the last queued reverse event is delivered. -/
def awaited : List Hmi.Message → ℕ
  | [] => 0
  | .engineData _ :: slots => if awaited slots = 0 then 0 else awaited slots + 1
  | .reverseEvent _ :: slots => awaited slots + 1

theorem awaited_le_length (slots : List Hmi.Message) : awaited slots ≤ slots.length := by
  induction slots with
  | nil => exact Nat.le_refl _
  | cons message slots ih =>
    rw [List.length_cons]
    cases message with
    | engineData data =>
      rw [awaited]
      split_ifs <;> omega
    | reverseEvent event => exact Nat.succ_le_succ ih

theorem awaited_eq_zero_iff (slots : List Hmi.Message) :
    awaited slots = 0 ↔ slots.filterMap reverseEvent = [] := by
  induction slots with
  | nil => exact iff_of_true rfl rfl
  | cons message slots ih =>
    cases message with
    | engineData data =>
      rw [List.filterMap_cons_none (reverseEvent_engineData data), ← ih, awaited]
      by_cases hzero : awaited slots = 0
      · rw [if_pos hzero]
        exact iff_of_true rfl hzero
      · rw [if_neg hzero]
        exact iff_of_false (Nat.succ_ne_zero _) hzero
    | reverseEvent event =>
      rw [List.filterMap_cons_some (reverseEvent_reverseEvent event)]
      exact iff_of_false (Nat.succ_ne_zero _) (List.cons_ne_nil _ _)

theorem awaited_tail (slots : List Hmi.Message) : awaited slots.tail = awaited slots - 1 := by
  cases slots with
  | nil => rfl
  | cons message slots =>
    cases message with
    | engineData data =>
      rw [List.tail_cons, awaited]
      split_ifs with hzero
      · exact hzero
      · rfl
    | reverseEvent event => rfl

theorem awaited_append (slots : List Hmi.Message) {more : List Hmi.Message}
    (hmore : more.filterMap reverseEvent = []) : awaited (slots ++ more) = awaited slots := by
  induction slots with
  | nil => exact (awaited_eq_zero_iff more).mpr hmore
  | cons message slots ih =>
    cases message with
    | engineData data => rw [List.cons_append, awaited, awaited, ih]
    | reverseEvent event => rw [List.cons_append, awaited, awaited, ih]

end Dashboard

namespace Vehicle

variable {R : Type}

def Op.reads : Op R → Bool
  | .poll _ reverseReady => reverseReady
  | _ => false

def Op.runs : Op R → Bool
  | .runSlot => true
  | _ => false

variable [OfScientific R] [Add R] [Mul R] [NatCast R] [IntCast R] [Neg R] [LT R] [DecidableLT R]
variable [Truncate R] [Sub R] [Min R] [One R] [LE R] [DecidableLE R] (x : Externals)

theorem wire_step (s : Vehicle R) {op : Op R} (hnone : s.announces x op = []) :
    (s.step x op).dashboard.reverseWire.length ≤
      s.dashboard.reverseWire.length - if op.reads then 1 else 0 := by
  cases op with
  | reverse op carried =>
    change (s.dashboard.reverseWire ++
      ((s.announces x (.reverse op carried)).filter carried).map x.reverseCodec.pack).length ≤ _
    rw [hnone, List.filter_nil, List.map_nil, List.append_nil]
    exact Nat.le_refl _
  | reverseLost kept => exact List.length_take_le' kept _
  | service op carried => exact Nat.le_refl _
  | disconnect => exact Nat.le_refl _
  | poll engineReady reverseReady =>
    have hwire := (s.dashboard.process_reverse x.engineCodec x.reverseCodec engineReady
      reverseReady).2.1
    change (s.dashboard.process _ _ engineReady reverseReady).reverseWire.length ≤ _
    rw [hwire]
    cases reverseReady with
    | false => exact Nat.le_refl _
    | true => exact Nat.le_of_eq List.length_tail
  | runSlot =>
    have hwire : s.dashboard.runSlot.reverseWire = s.dashboard.reverseWire := by
      unfold Dashboard.runSlot
      cases s.dashboard.slots <;> rfl
    exact Nat.le_of_eq (congrArg List.length hwire)
  | user input => exact Nat.le_refl _

theorem awaited_step (s : Vehicle R) (op : Op R) (hwire : s.dashboard.reverseWire = []) :
    Dashboard.awaited (s.step x op).dashboard.slots ≤
      Dashboard.awaited s.dashboard.slots - if op.runs then 1 else 0 := by
  cases op with
  | reverse op carried => exact Nat.le_refl _
  | reverseLost kept => exact Nat.le_refl _
  | service op carried => exact Nat.le_refl _
  | disconnect => exact Nat.le_refl _
  | poll engineReady reverseReady =>
    obtain ⟨more, hslots, hmore⟩ := (s.dashboard.process_reverse x.engineCodec x.reverseCodec
      engineReady reverseReady).2.2 hwire
    change Dashboard.awaited (s.dashboard.process _ _ engineReady reverseReady).slots ≤ _
    rw [hslots, Dashboard.awaited_append _ hmore]
    exact Nat.le_refl _
  | runSlot =>
    have hslots : s.dashboard.runSlot.slots = s.dashboard.slots.tail := by
      unfold Dashboard.runSlot
      cases hslots : s.dashboard.slots with
      | nil => exact hslots
      | cons message slots => rfl
    change Dashboard.awaited s.dashboard.runSlot.slots ≤ _
    rw [hslots, Dashboard.awaited_tail]
    exact Nat.le_refl _
  | user input => exact Nat.le_refl _

/-- Every reading that the detector gets in the run is `v`. -/
def Steady (s : Vehicle R) (v : Bool) (ops : List (Op R)) : Prop :=
  ∀ e ∈ s.reverse.calls x.delivers (reverseOps ops), ∀ y ∈ s.reverse.detector.sample e, y.2 = v

theorem Steady.append {s : Vehicle R} {v : Bool} {xs ys : List (Op R)}
    (h : s.Steady x v (xs ++ ys)) :
    s.Steady x v xs ∧ (run (step x) s xs).Steady x v ys := by
  unfold Steady ReverseService.calls at *
  rw [reverseOps_append, emitted_append] at h
  have hreverse := reverse_run x s xs
  constructor
  · intro e he
    exact h e (List.mem_append_left _ he)
  · rw [hreverse]
    intro e he
    obtain ⟨hconfig, hgpio⟩ := ReverseDetector.run_config s.reverse.detector
      (s.reverse.calls x.delivers (reverseOps xs))
    rw [ReverseService.detector_after, ReverseDetector.sample_congr hconfig hgpio]
    exact h e (List.mem_append_right _ he)

/-- While all readings are what the detector reports, nothing is sent. -/
theorem quiet_of_steady {s : Vehicle R} {v : Bool}
    (hflag : s.reverse.detector.isReverseEngaged = v) {ops : List (Op R)}
    (hsteady : s.Steady x v ops) :
    EveryStep (step x) (fun s op => s.announces x op = []) s ops ∧
      (run (step x) s ops).reverse.detector.isReverseEngaged = v := by
  have hsame : ∀ pre, pre <+: ops → (run (step x) s pre).announced = s.announced := by
    rintro pre ⟨rest, rfl⟩
    rw [announced_run, (ReverseDetector.emitted_steady hflag _ (hsteady.append x).1).1,
      List.append_nil]
  constructor
  · intro pre op hpre
    have hlater := hsame (pre ++ [op]) hpre
    have hearlier := hsame pre ((List.prefix_append pre [op]).trans hpre)
    rw [run_snoc] at hlater
    change (run (step x) s pre).announced ++ announces x _ op = _ at hlater
    rw [hearlier] at hlater
    exact List.append_right_eq_self.mp hlater
  · rw [reverse_run, ReverseService.detector_after]
    exact (ReverseDetector.emitted_steady hflag _ hsteady).2

/-- Enough rounds of the worker and then enough slots of the GUI thread, with nothing sent, leave
    nothing in transit. -/
theorem transit_drains (s : Vehicle R) (reading running : List (Op R))
    (hquiet : EveryStep (step x) (fun s op => s.announces x op = []) s (reading ++ running))
    (hreads : s.dashboard.reverseWire.length ≤ reading.countP Op.reads)
    (hruns : Dashboard.awaited (run (step x) s reading).dashboard.slots ≤
      running.countP Op.runs) :
    (run (step x) s (reading ++ running)).dashboard.reverseInTransit x.reverseCodec = [] := by
  have hwires : ∀ pre, pre <+: reading ++ running →
      (run (step x) s pre).dashboard.reverseWire.length ≤
        s.dashboard.reverseWire.length - pre.countP Op.reads := by
    intro pre hpre
    refine run_lowers (fun s : Vehicle R => s.dashboard.reverseWire.length) Op.reads ?_
    intro earlier op hop
    exact wire_step x _ (hquiet earlier op (hop.trans hpre))
  have hempty : ∀ pre, pre <+: running →
      (run (step x) (run (step x) s reading) pre).dashboard.reverseWire = [] := by
    intro pre hpre
    have hwire := hwires (reading ++ pre) ((List.prefix_append_right_inj reading).mpr hpre)
    rw [List.countP_append, run_append] at hwire
    exact List.length_eq_zero_iff.mp (by omega)
  have hslots : Dashboard.awaited
      (run (step x) (run (step x) s reading) running).dashboard.slots = 0 := by
    have hlowers := run_lowers (fun s : Vehicle R => Dashboard.awaited s.dashboard.slots) Op.runs
      (fun pre op (hpre : pre ++ [op] <+: running) =>
        awaited_step x (run (step x) (run (step x) s reading) pre) op
          (hempty pre ((List.prefix_append pre [op]).trans hpre)))
    omega
  rw [run_append, Dashboard.reverseInTransit, (Dashboard.awaited_eq_zero_iff _).mp hslots,
    hempty running (List.prefix_refl _)]
  rfl

section Run

variable {config : ReverseConfig} {socketCalls : SocketCalls} {start : ℕ}
variable {reverse : ReverseService} (service : CanService R)

theorem detector_responds (hgpio : config.effectiveSources.2 = true)
    (hs : ReverseService.startUp config socketCalls true start = some reverse)
    (before window : List (Op R)) (delay : ℕ) (v : Bool)
    (hpaced : ReverseService.Paced start delay (reverseOps (before ++ window)))
    (hsteady : (after x service reverse before).Steady x v window)
    (hlong : ∃ t ∈ (reverseOps window).filterMap ReverseService.Op.loopNow,
      lastPoll (start : ℤ) ((reverseOps before).filterMap ReverseService.Op.loopNow) +
        (config.debounceMs.toNat * 1000000 : ℕ) + 2 * (ReverseService.gpioInterval + delay) ≤ t) :
    (after x service reverse (before ++ window)).reverse.detector.isReverseEngaged = v := by
  obtain ⟨hdetector, hlast⟩ := ReverseService.startUp_started hs
  rw [reverseOps_append] at hpaced
  rw [reverse_after, reverseOps_append]
  refine ReverseService.detector_settles x.delivers hdetector _ _
    (hpaced.clocked_calls x.delivers reverse) v ?_
    (ReverseService.two_checks x.delivers hgpio hlast _ _ delay hpaced hlong)
  obtain ⟨hconfig, hgpioInit⟩ := ReverseDetector.run_config reverse.detector
    (reverse.calls x.delivers (reverseOps before))
  unfold Steady at hsteady
  rwa [reverse_after, ReverseService.detector_after,
    ReverseDetector.sample_congr hconfig hgpioInit] at hsteady

/-- From the line to the window. Whatever happened before: once a level has stayed for the response
    time of the service, the worker has read as many messages as there were and the GUI thread has
    run as many slots, the window shows it, unless the last loss, wherever it lies, left it wrong
    and no event has been sent since. -/
theorem line_reaches_window (hgpio : config.effectiveSources.2 = true)
    (hs : ReverseService.startUp config socketCalls true start = some reverse)
    (before window reading running earlier kept : List (Op R)) (delay : ℕ) (v : Bool)
    (hpaced : ReverseService.Paced start delay (reverseOps (before ++ window)))
    (hsteady : (after x service reverse before).Steady x v (window ++ (reading ++ running)))
    (hlong : ∃ t ∈ (reverseOps window).filterMap ReverseService.Op.loopNow,
      lastPoll (start : ℤ) ((reverseOps before).filterMap ReverseService.Op.loopNow) +
        (config.debounceMs.toNat * 1000000 : ℕ) + 2 * (ReverseService.gpioInterval + delay) ≤ t)
    (hsplit : before ++ window ++ (reading ++ running) = earlier ++ kept)
    (hkeeps : ∀ op ∈ kept, op.Keeps)
    (hfollows : (after x service reverse earlier).Follows x ∨
      (after x service reverse earlier).announced ≠
        (after x service reverse (earlier ++ kept)).announced)
    (hreads : (after x service reverse (before ++ window)).dashboard.reverseWire.length ≤
      reading.countP Op.reads)
    (hruns : (after x service reverse (before ++ window ++ reading)).dashboard.slots.length ≤
      running.countP Op.runs) :
    let s := after x service reverse (before ++ window ++ (reading ++ running))
    s.dashboard.hmi.provider.reverseEngaged = v ∧ s.dashboard.hmi.app.reverseEngaged = v := by
  intro s
  let mid := after x service reverse (before ++ window)
  have hmid : mid = run (step x) (after x service reverse before) window :=
    after_append x service reverse before window
  have hs' : s = run (step x) mid (reading ++ running) :=
    after_append x service reverse (before ++ window) (reading ++ running)
  obtain ⟨hwindow, hrest⟩ := hsteady.append x
  rw [← hmid] at hrest
  -- The detector settles in the window and sends nothing after it.
  have hflag : mid.reverse.detector.isReverseEngaged = v :=
    detector_responds x service hgpio hs before window delay v hpaced hwindow hlong
  obtain ⟨hquiet, hflag'⟩ := quiet_of_steady x hflag hrest
  rw [← hs'] at hflag'
  -- What it has sent is delivered.
  have hempty : s.dashboard.reverseInTransit x.reverseCodec = [] := by
    rw [hs']
    refine transit_drains x mid reading running hquiet hreads ?_
    rw [← after_append]
    exact Nat.le_trans (Dashboard.awaited_le_length _) hruns
  have hheard : s.Heard x := heard x service hs _
  have hfollows' : s.Follows x := by
    have hlast : s = run (step x) (after x service reverse earlier) kept := by
      rw [← after_append, ← hsplit]
    rw [after_append] at hfollows
    rw [hlast] at hheard ⊢
    exact (follows_run x hkeeps (heard x service hs earlier) hheard).mpr hfollows
  have happ := ((hheard.right_iff x hempty).mpr hfollows').trans hflag'
  exact ⟨(hheard.shown.provider.trans hheard.shown.app.symm).trans happ, happ⟩

def activePasses : List (Op ℚ) :=
  [pass true 50 true, .reverseLost 0] ++ [100, 150, 200, 250].map (pass true · true)

theorem mem_activePasses {line : Bool} {frameNow loopNow gpioNow : ℕ}
    (h : .iterate line frameNow loopNow gpioNow ∈ reverseOps activePasses) :
    line = true ∧ gpioNow = loopNow := by
  have hpasses : reverseOps activePasses = [50, 100, 150, 200, 250].map (fun ms =>
      .iterate true (ms * 1000000) (ms * 1000000) (ms * 1000000)) := rfl
  rw [hpasses] at h
  obtain ⟨ms, -, hsame⟩ := List.mem_map.mp h
  cases hsame
  exact ⟨rfl, rfl⟩

/-- One round of the worker and one slot show it. -/
theorem line_reaches_window_active :
    let s := after silentBus (.started {} [] (.inOrder []) 3 0 0) gpioService
      ([] ++ activePasses ++ ([.poll false true] ++ [.runSlot]))
    s.dashboard.hmi.provider.reverseEngaged = true ∧ s.dashboard.hmi.app.reverseEngaged = true := by
  have hpaced : ReverseService.Paced 0 50000000 (reverseOps ([] ++ activePasses)) := by
    refine ⟨⟨by decide, by decide⟩, by decide, fun line frameNow loopNow gpioNow hop => ?_⟩
    rw [(mem_activePasses hop).2]
    exact ⟨le_refl _, Nat.le_add_right _ _⟩
  exact line_reaches_window silentBus (.started {} [] (.inOrder []) 3 0 0) (by decide)
    (rfl : ReverseService.startUp gpioOnly SocketCalls.ok true 0 = some gpioService)
    [] activePasses [.poll false true] [.runSlot] [pass true 50 true, .reverseLost 0]
    ([100, 150, 200, 250].map (pass true · true) ++ [.poll false true, .runSlot]) 50000000 true
    hpaced
    (ReverseService.steady_line _ (by decide) _ _ true fun line frameNow loopNow gpioNow hop => by
      rw [(mem_activePasses hop).1]
      rfl)
    (by decide) rfl (by simp [pass, Op.Keeps]) (.inr (by decide +kernel)) (by decide +kernel)
    (by decide +kernel)

end Run

end Vehicle

end SpeeduinoDash
