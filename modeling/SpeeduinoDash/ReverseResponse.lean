import Mathlib.Algebra.Order.Group.Int
import SpeeduinoDash.Lib.Cadence
import SpeeduinoDash.ReverseService

set_option autoImplicit false

/-!
# How long the reverse service takes

The GPIO line is checked by a polled timer and its readings go through the debounce, so a level
that stays is reported after the debounce and at most two checks.
-/
namespace SpeeduinoDash.ReverseService
open Lib.Alternation Lib.Cadence Lib.Debounce Lib.Runs
open ReverseDetector (Event debounced started)

def gpioInterval : ℤ := (gpioCheckIntervalMs * 1000000 : ℕ)

def Op.readings : Op → List ℕ
  | .arrive _ => []
  | .iterate _ frameNow loopNow gpioNow => [frameNow, loopNow, gpioNow]

def Op.loopNow : Op → Option ℤ
  | .arrive _ => none
  | .iterate _ _ loopNow _ => some loopNow

variable (delivers : UInt32 → UInt32 → KernelFrame → Bool)

theorem calls_now (s : ReverseService) (ops : List Op) :
    ((s.calls delivers ops).map Event.now).Sublist (ops.flatMap Op.readings) := by
  unfold calls
  induction ops generalizing s with
  | nil => exact List.Sublist.slnil
  | cons op ops ih =>
    rw [emitted, List.map_append, List.flatMap_cons]
    refine List.Sublist.append ?_ (ih _)
    cases op with
    | arrive cf => exact List.nil_sublist _
    | iterate line frameNow loopNow gpioNow =>
      have hframe : ((s.poll frameNow).map Event.now).Sublist [frameNow] := by
        unfold poll
        cases s.canSocket <;> cases s.queue <;> simp [frameEvent, Event.now]
      have hgpio : ((if s.gpioDue loopNow then [Event.gpioCheck line gpioNow] else []).map
          Event.now).Sublist [loopNow, gpioNow] := by
        split_ifs
        · exact List.sublist_append_right [loopNow] [gpioNow]
        · exact List.nil_sublist _
      have hboth := hframe.append hgpio
      rwa [← List.map_append] at hboth

theorem lastGpioCheck_after (s : ReverseService) (ops : List Op) :
    ((s.after delivers ops).lastGpioCheck : ℤ) =
      run (tick gpioInterval) s.lastGpioCheck (ops.filterMap Op.loopNow) := by
  refine run_view _ (fun s : ReverseService => (s.lastGpioCheck : ℤ)) Op.loopNow
    (tick gpioInterval) ?_ s ops
  intro s op
  cases op with
  | arrive cf => rfl
  | iterate line frameNow loopNow gpioNow =>
    change ((if s.gpioDue loopNow then loopNow else s.lastGpioCheck : ℕ) : ℤ) =
      if gpioInterval ≤ (loopNow : ℤ) - s.lastGpioCheck then (loopNow : ℤ) else s.lastGpioCheck
    unfold gpioDue gpioInterval
    simp only [decide_eq_true_eq]
    split_ifs <;> omega

theorem gpioDue_iff (s : ReverseService) (loopNow : ℕ) :
    s.gpioDue loopNow = true ↔ gpioInterval ≤ (loopNow : ℤ) - s.lastGpioCheck := by
  unfold gpioDue gpioInterval
  rw [decide_eq_true_iff]
  omega

theorem exists_check (s : ReverseService) (ops : List Op) {delay a p : ℤ}
    (hlast : p - s.lastGpioCheck < gpioInterval)
    (hpasses : (p :: ops.filterMap Op.loopNow).IsChain (fun x y => y - x ≤ delay))
    (hafter : (s.lastGpioCheck : ℤ) ≤ a)
    (hlater : ∃ t ∈ ops.filterMap Op.loopNow, a + gpioInterval ≤ t) :
    ∃ before line frameNow loopNow gpioNow rest,
      ops = before ++ .iterate line frameNow loopNow gpioNow :: rest ∧
      (s.after delivers before).gpioDue loopNow = true ∧ a ≤ loopNow ∧
      (loopNow : ℤ) < a + gpioInterval + delay := by
  obtain ⟨us, t, vs, hts, hfires, hat, hta⟩ :=
    exists_firing (by decide : (0 : ℤ) < gpioInterval) hlast hpasses hafter hlater
  obtain ⟨before, tail, rfl, hbefore, htail⟩ := List.filterMap_eq_append_iff.mp hts
  obtain ⟨quiet, op, rest, rfl, hquiet, hop, -⟩ := List.filterMap_eq_cons_iff.mp htail
  have hus : (before ++ quiet).filterMap Op.loopNow = us := by
    rw [List.filterMap_append, hbefore, List.filterMap_eq_nil_iff.mpr hquiet, List.append_nil]
  cases op with
  | arrive cf => cases hop
  | iterate line frameNow loopNow gpioNow =>
    obtain rfl : (loopNow : ℤ) = t := Option.some.inj hop
    refine ⟨before ++ quiet, line, frameNow, loopNow, gpioNow, rest, ?_, ?_, hat, hta⟩
    · rw [List.append_assoc]
    · rw [gpioDue_iff, lastGpioCheck_after, hus]
      exact hfires

theorem calls_check (s : ReverseService) (before rest : List Op) {line : Bool}
    {frameNow loopNow gpioNow : ℕ} (hdue : (s.after delivers before).gpioDue loopNow = true) :
    let op := Op.iterate line frameNow loopNow gpioNow
    ∃ frames, s.calls delivers (before ++ op :: rest) = s.calls delivers before ++ (frames ++
      .gpioCheck line gpioNow :: (s.after delivers (before ++ [op])).calls delivers rest) := by
  refine ⟨(s.after delivers before).poll frameNow, ?_⟩
  have hreact : ((s.after delivers before).react delivers
      (.iterate line frameNow loopNow gpioNow)).2 =
        (s.after delivers before).poll frameNow ++ [.gpioCheck line gpioNow] := by
    change _ ++ (if (s.after delivers before).gpioDue loopNow then _ else _) = _
    rw [if_pos hdue]
  have hrest : s.after delivers (before ++ [.iterate line frameNow loopNow gpioNow]) =
      next (react delivers) (s.after delivers before) (.iterate line frameNow loopNow gpioNow) :=
    run_snoc _ _ _ _
  unfold calls at *
  rw [emitted_append, emitted, hrest]
  unfold after at hreact ⊢
  rw [hreact, List.append_assoc, List.singleton_append]

/-- No pass of the loop takes longer than `delay`. -/
structure Paced (start delay : ℕ) (ops : List Op) : Prop where
  clocked : Clocked id start (ops.flatMap Op.readings)
  loops : ((start : ℤ) :: ops.filterMap Op.loopNow).IsChain (fun a b => b - a ≤ (delay : ℤ))
  checks : ∀ line frameNow loopNow gpioNow, Op.iterate line frameNow loopNow gpioNow ∈ ops →
    loopNow ≤ gpioNow ∧ gpioNow ≤ loopNow + delay

theorem loopNows_sublist (ops : List Op) :
    (ops.filterMap Op.loopNow).Sublist ((ops.flatMap Op.readings).map (fun n : ℕ => (n : ℤ))) := by
  induction ops with
  | nil => exact List.Sublist.slnil
  | cons op ops ih =>
    rw [List.flatMap_cons, List.map_append]
    cases op with
    | arrive cf => exact ih
    | iterate line frameNow loopNow gpioNow =>
      exact (ih.cons (gpioNow : ℤ)).cons_cons (loopNow : ℤ) |>.cons (frameNow : ℤ)

theorem Paced.sorted {start delay : ℕ} {ops : List Op} (h : Paced start delay ops) :
    ((start : ℤ) :: ops.filterMap Op.loopNow).Pairwise (· ≤ ·) := by
  have hreadings : ((ops.flatMap Op.readings).map (fun n : ℕ => (n : ℤ))).Pairwise (· ≤ ·) :=
    List.pairwise_map.mpr (h.clocked.2.imp Int.ofNat_le.mpr)
  refine List.pairwise_cons.mpr ⟨?_, hreadings.sublist (loopNows_sublist ops)⟩
  intro t ht
  obtain ⟨n, hn, rfl⟩ := List.mem_map.mp ((loopNows_sublist ops).subset ht)
  exact Int.ofNat_le.mpr (h.clocked.1 n hn)

theorem lastGpioCheck_checked (s : ReverseService) (ops : List Op) {line : Bool}
    {frameNow loopNow gpioNow : ℕ} (hdue : (s.after delivers ops).gpioDue loopNow = true) :
    (s.after delivers (ops ++ [.iterate line frameNow loopNow gpioNow])).lastGpioCheck =
      loopNow := by
  unfold after at *
  rw [run_snoc]
  exact if_pos hdue

theorem Paced.clocked_calls {start delay : ℕ} {ops : List Op} (h : Paced start delay ops)
    (s : ReverseService) : Clocked Event.now start (s.calls delivers ops) := by
  have hnow := s.calls_now delivers ops
  constructor
  · intro e he
    exact h.clocked.1 e.now (hnow.subset (List.mem_map_of_mem he))
  · exact List.pairwise_map.mp (h.clocked.2.sublist hnow)

theorem loopNows_split (xs ys : List Op) (line : Bool) (frameNow loopNow gpioNow : ℕ) :
    (xs ++ .iterate line frameNow loopNow gpioNow :: ys).filterMap Op.loopNow =
      xs.filterMap Op.loopNow ++ (loopNow : ℤ) :: ys.filterMap Op.loopNow := by
  rw [List.filterMap_append, List.filterMap_cons_some (rfl : Op.loopNow _ = some (loopNow : ℤ))]

section Response

variable {config : ReverseConfig} {socketCalls : SocketCalls} (start : ℕ)

theorem sample_check (hgpio : config.effectiveSources.2 = true) (line : Bool) (now : ℕ) :
    (started config true start).sample (.gpioCheck line now) =
      some (now, line ^^ config.gpioActiveLow) := by
  change (if config.effectiveSources.2 = true ∧ (false || config.effectiveSources.2 && true) = true
    then some (now, line ^^ config.gpioActiveLow) else none) = _
  rw [hgpio]
  rfl

theorem checks_sublist (hgpio : config.effectiveSources.2 = true) {xs ys zs : List Event}
    (line line' : Bool) (now now' : ℕ) :
    ∃ v v', [(now, v), (now', v')].Sublist ((started config true start).samples
      (xs ++ .gpioCheck line now :: (ys ++ .gpioCheck line' now' :: zs))) := by
  refine ⟨line ^^ config.gpioActiveLow, line' ^^ config.gpioActiveLow, ?_⟩
  have hevents : [Event.gpioCheck line now, .gpioCheck line' now'].Sublist
      (xs ++ .gpioCheck line now :: (ys ++ .gpioCheck line' now' :: zs)) := by
    refine List.Sublist.trans ?_ (List.sublist_append_right xs _)
    refine List.Sublist.cons_cons _ (List.Sublist.trans ?_ (List.sublist_append_right ys _))
    exact (List.nil_sublist zs).cons_cons _
  have hsamples := hevents.filterMap (started config true start).sample
  rwa [List.filterMap_cons_some (sample_check start hgpio line now),
    List.filterMap_cons_some (sample_check start hgpio line' now')] at hsamples

variable {start}

/-- In a window long enough the line is read twice with a debounce in between. -/
theorem two_checks (hgpio : config.effectiveSources.2 = true) {s : ReverseService}
    (hstart : s.lastGpioCheck = start) (before window : List Op) (delay : ℕ)
    (hpaced : Paced start delay (before ++ window))
    (hlong : ∃ t ∈ window.filterMap Op.loopNow,
      lastPoll (start : ℤ) (before.filterMap Op.loopNow) +
        (config.debounceMs.toNat * 1000000 : ℕ) + 2 * (gpioInterval + delay) ≤ t) :
    ∃ first later : Sample ℕ Bool, [first, later].Sublist ((started config true start).samples
      ((s.after delivers before).calls delivers window)) ∧
      debounced config first.1 later.1 = true := by
  obtain ⟨far, hfar, hlong⟩ := hlong
  have hpos : (0 : ℤ) < gpioInterval := by decide
  have hsorted := hpaced.sorted
  have hloops := hpaced.loops
  rw [List.filterMap_append] at hsorted hloops
  -- The first check in the window.
  obtain ⟨hle, hsince⟩ := run_tick hpos
    (hsorted.sublist (List.sublist_append_left (_ :: before.filterMap Op.loopNow) _))
  have hstate := lastGpioCheck_after delivers s before
  rw [hstart] at hstate
  rw [← hstate] at hle hsince
  obtain ⟨quiet, line, frameNow, loopNow, gpioNow, rest, rfl, hdue, hfirst, hsoon⟩ :=
    exists_check delivers (s.after delivers before) window hsince (isChain_lastPoll hloops) hle
      ⟨far, hfar, by omega⟩
  obtain ⟨hreads, hreadsSoon⟩ := hpaced.checks line frameNow loopNow gpioNow
    (List.mem_append_right _ (List.mem_append_right _ List.mem_cons_self))
  -- The first check a debounce after its reading.
  rw [loopNows_split] at hsorted hloops hfar
  have hrest : far ∈ rest.filterMap Op.loopNow := by
    have hquiet : ∀ t ∈ quiet.filterMap Op.loopNow, t ≤ loopNow := by
      intro t ht
      have hwindow := (List.pairwise_append.mp (List.pairwise_cons.mp hsorted).2).2.1
      exact (List.pairwise_append.mp hwindow).2.2 t ht _ List.mem_cons_self
    rcases List.mem_append.mp hfar with hfar | hfar
    · have := hquiet far hfar
      omega
    · rcases List.mem_cons.mp hfar with rfl | hfar
      · omega
      · exact hfar
  have hchain : ((loopNow : ℤ) :: rest.filterMap Op.loopNow).IsChain
      (fun a b => b - a ≤ (delay : ℤ)) := by
    refine hloops.suffix ⟨start :: (before.filterMap Op.loopNow ++ quiet.filterMap Op.loopNow), ?_⟩
    rw [List.cons_append, List.append_assoc]
  have hchecked := @lastGpioCheck_checked delivers (s.after delivers before) quiet line frameNow
    loopNow gpioNow hdue
  obtain ⟨quiet', line', frameNow', loopNow', gpioNow', rest', rfl, hdue', hsettled, -⟩ :=
    exists_check delivers ((s.after delivers before).after delivers
      (quiet ++ [.iterate line frameNow loopNow gpioNow])) rest (p := loopNow)
      (a := gpioNow + (config.debounceMs.toNat * 1000000 : ℕ))
      (by rw [hchecked]; omega) hchain (by rw [hchecked]; omega) ⟨far, hrest, by omega⟩
  obtain ⟨hreads', -⟩ := hpaced.checks line' frameNow' loopNow' gpioNow'
    (List.mem_append_right _ (List.mem_append_right _ (List.mem_cons_of_mem _
      (List.mem_append_right _ List.mem_cons_self))))
  obtain ⟨frames, hcalls⟩ := @calls_check delivers (s.after delivers before) quiet
    (quiet' ++ .iterate line' frameNow' loopNow' gpioNow' :: rest') line frameNow loopNow gpioNow
    hdue
  obtain ⟨frames', hcalls'⟩ := @calls_check delivers _ quiet' rest' line' frameNow' loopNow'
    gpioNow' hdue'
  obtain ⟨w, w', hpair⟩ := checks_sublist start hgpio line line' gpioNow gpioNow'
  rw [hcalls, hcalls', ← List.append_assoc, ← List.append_assoc _ frames']
  refine ⟨(gpioNow, w), (gpioNow', w'), hpair, ?_⟩
  rw [debounced, decide_eq_true_iff]
  omega

theorem startUp_started {initGpio : Bool} {s : ReverseService}
    (hs : startUp config socketCalls initGpio start = some s) :
    s.detector = started config initGpio start ∧ s.lastGpioCheck = start := by
  obtain ⟨canSocket, -, rfl⟩ := Option.map_eq_some_iff.mp hs
  exact ⟨rfl, rfl⟩

/-- The detector reports a reading that it has had twice with a debounce in between and that
    nothing has contradicted. -/
theorem detector_settles {s : ReverseService} (hs : s.detector = started config true start)
    (before window : List Op)
    (hclock : Clocked Event.now start (s.calls delivers (before ++ window))) (v : Bool)
    (hsteady : ∀ e ∈ (s.after delivers before).calls delivers window,
      ∀ x ∈ s.detector.sample e, x.2 = v)
    (hpair : ∃ first later : Sample ℕ Bool, [first, later].Sublist
      ((started config true start).samples ((s.after delivers before).calls delivers window)) ∧
        debounced config first.1 later.1 = true) :
    (s.after delivers (before ++ window)).detector.isReverseEngaged = v := by
  obtain ⟨first, later, hpair, hdebounced⟩ := hpair
  have hmono := ReverseDetector.samples_monotone (d := started config true start) config hclock
  have hcalls : s.calls delivers (before ++ window) =
      s.calls delivers before ++ (s.after delivers before).calls delivers window :=
    emitted_append _ _ _ _
  rw [detector_after, hs, ReverseDetector.run_engaged config true start _ hclock]
  rw [hcalls, ReverseDetector.samples, List.filterMap_append] at hmono ⊢
  rw [hs] at hsteady
  refine settledValue_of_tail (debounced config) false ?_ hmono hpair hdebounced
  intro x hx
  obtain ⟨e, he, hex⟩ := List.mem_filterMap.mp hx
  exact hsteady e he x hex

/-- A reading that stays, on the line and on the bus, is what the detector reports after the
    debounce, two intervals and what two passes of the loop take. -/
theorem reverse_responds (hgpio : config.effectiveSources.2 = true) {s : ReverseService}
    (hs : startUp config socketCalls true start = some s) (before window : List Op) (delay : ℕ)
    (hpaced : Paced start delay (before ++ window)) (v : Bool)
    (hsteady : ∀ e ∈ (s.after delivers before).calls delivers window,
      ∀ x ∈ s.detector.sample e, x.2 = v)
    (hlong : ∃ t ∈ window.filterMap Op.loopNow,
      lastPoll (start : ℤ) (before.filterMap Op.loopNow) +
        (config.debounceMs.toNat * 1000000 : ℕ) + 2 * (gpioInterval + delay) ≤ t) :
    (s.after delivers (before ++ window)).detector.isReverseEngaged = v := by
  obtain ⟨hdetector, hlast⟩ := startUp_started hs
  have hpair := two_checks delivers hgpio hlast before window delay hpaced hlong
  exact detector_settles delivers hdetector before window (hpaced.clocked_calls delivers s) v
    hsteady hpair

theorem mem_calls (s : ReverseService) (ops : List Op) {e : Event}
    (he : e ∈ s.calls delivers ops) : (∃ cf now, e = frameEvent cf now) ∨
      ∃ line frameNow loopNow gpioNow, e = .gpioCheck line gpioNow ∧
        .iterate line frameNow loopNow gpioNow ∈ ops := by
  unfold calls at he
  induction ops generalizing s with
  | nil => exact absurd he List.not_mem_nil
  | cons op ops ih =>
    rcases List.mem_append.mp he with he | he
    · cases op with
      | arrive cf => exact absurd he List.not_mem_nil
      | iterate line frameNow loopNow gpioNow =>
        rcases List.mem_append.mp he with he | he
        · unfold poll at he
          split_ifs at he
          · obtain ⟨cf, -, rfl⟩ := Option.map_eq_some_iff.mp (Option.mem_toList.mp he)
            exact .inl ⟨cf, frameNow, rfl⟩
          · exact absurd he List.not_mem_nil
        · split_ifs at he
          · exact .inr ⟨line, frameNow, loopNow, gpioNow, List.mem_singleton.mp he,
              List.mem_cons_self⟩
          · exact absurd he List.not_mem_nil
    · obtain hframe | ⟨line, frameNow, loopNow, gpioNow, heq, hmem⟩ := ih _ he
      · exact .inl hframe
      · exact .inr ⟨line, frameNow, loopNow, gpioNow, heq, List.mem_cons_of_mem op hmem⟩

theorem steady_line (hsources : config.effectiveSources = (false, true)) (s : ReverseService)
    (window : List Op) (v : Bool)
    (hline : ∀ line frameNow loopNow gpioNow, Op.iterate line frameNow loopNow gpioNow ∈ window →
      (line ^^ config.gpioActiveLow) = v) :
    ∀ e ∈ s.calls delivers window, ∀ x ∈ (started config true start).sample e, x.2 = v := by
  intro e he x hx
  obtain ⟨cf, now, rfl⟩ | ⟨line, frameNow, loopNow, gpioNow, rfl, hmem⟩ := mem_calls delivers s _ he
  · have hnone : (started config true start).sample (frameEvent cf now) = none := by
      change ((started config true start).canSample _).or none = none
      rw [frameEvent, ReverseDetector.canSample_started, hsources]
      rfl
    rw [hnone] at hx
    cases hx
  · rw [sample_check start (by rw [hsources])] at hx
    cases hx
    exact hline line frameNow loopNow gpioNow hmem

end Response

def passes (line : Bool) (n : ℕ) : List Op :=
  (List.range n).map (fun k => .iterate line (50000000 * (k + 1)) (50000000 * (k + 1))
    (50000000 * (k + 1)))

/-- A line that reads active for a quarter of a second is reported. -/
theorem reverse_responds_active :
    let config : ReverseConfig :=
      { detectionMode := "gpio", gpioActiveLow := false, debounceMs := 50 }
    let s : ReverseService := ⟨started config true 0, true, config.canId, [], 0⟩
    (s.after (fun _ _ _ => false) ([] ++ passes true 5)).detector.isReverseEngaged = true := by
  intro config s
  have hmem : ∀ line frameNow loopNow gpioNow,
      Op.iterate line frameNow loopNow gpioNow ∈ passes true 5 → line = true ∧ gpioNow = loopNow := by
    intro line frameNow loopNow gpioNow hmem
    obtain ⟨k, -, hk⟩ := List.mem_map.mp hmem
    cases hk
    exact ⟨rfl, rfl⟩
  have hpaced : Paced 0 50000000 ([] ++ passes true 5) := by
    refine ⟨⟨by decide, by decide⟩, by decide, fun line frameNow loopNow gpioNow hop => ?_⟩
    rw [(hmem line frameNow loopNow gpioNow hop).2]
    exact ⟨le_refl _, Nat.le_add_right _ _⟩
  exact reverse_responds (fun _ _ _ => false) (by decide)
    (rfl : startUp config SocketCalls.ok true 0 = some s) [] (passes true 5) 50000000 hpaced true
    (steady_line _ (by decide) _ _ true fun line frameNow loopNow gpioNow hop => by
      rw [(hmem line frameNow loopNow gpioNow hop).1]
      rfl)
    (by decide)

end SpeeduinoDash.ReverseService
