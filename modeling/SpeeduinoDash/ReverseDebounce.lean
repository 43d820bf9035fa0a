import SpeeduinoDash.ReverseDetector

set_option autoImplicit false

/-!
# What the reverse detector reports

The three debounce fields of the detector are a `Debouncer` that is fed the samples of both
sources in the order they come in.
-/
namespace SpeeduinoDash.ReverseDetector
open Lib.Debounce Lib.Keyed Lib.Runs

def debounced (config : ReverseConfig) (first later : ℕ) : Bool :=
  first + config.debounceMs.toNat * 1000000 ≤ later

def view (d : ReverseDetector) : Debouncer ℕ Bool := ⟨d.pendingState, d.lastTransition, d.engaged⟩

def started (config : ReverseConfig) (initGpio : Bool) (start : ℕ) : ReverseDetector :=
  ({} : ReverseDetector).init config initGpio start

theorem canSample_started (config : ReverseConfig) (initGpio : Bool) (start : ℕ) (canId : UInt32)
    (data : ℕ → UInt8) (dlc : UInt8) (now : ℕ) :
    (started config initGpio start).canSample (.canFrame canId data dlc now) =
      if config.effectiveSources.1 = true ∧ canId = config.canId ∧ config.byteIndex < dlc then
        some (now, data config.byteIndex.toNat &&& config.bitMask == config.expectedValue)
      else none := rfl

def samples (d : ReverseDetector) (events : List Event) : List (Sample ℕ Bool) :=
  events.filterMap d.sample

theorem run_config (d : ReverseDetector) (events : List Event) :
    (run step d events).config = d.config ∧
      (run step d events).gpioInitialized = d.gpioInitialized := by
  refine run_invariant step
    (fun t => t.config = d.config ∧ t.gpioInitialized = d.gpioInitialized) ?_ ⟨rfl, rfl⟩ events
  intro t e h
  exact ⟨(t.step_config e).1.trans h.1, (t.step_config e).2.trans h.2⟩

theorem debounce_view (d : ReverseDetector) (reading : Bool) (source : Source) (now : ℕ)
    (hnow : d.lastTransition ≤ now) :
    (d.debounce reading source now).1.view =
      Lib.Debounce.step (debounced d.config) d.view (now, reading) := by
  have helapsed : d.config.debounceMs.toNat ≤ (now - d.lastTransition) / 1000000 ↔
      debounced d.config d.lastTransition now = true := by
    rw [debounced, decide_eq_true_iff]
    omega
  change _ = if reading ≠ d.pendingState then (⟨reading, now, d.engaged⟩ : Debouncer ℕ Bool)
    else if debounced d.config d.lastTransition now ∧ d.pendingState ≠ d.engaged then
      ⟨d.pendingState, d.lastTransition, d.pendingState⟩
    else d.view
  obtain ⟨hne, h⟩ | ⟨heq, hdue, h⟩ | ⟨heq, hdue, h⟩ := d.debounce_cases reading source now
  · rw [h, if_pos hne]
    rfl
  · rw [h, if_neg (not_not.mpr heq), if_pos ⟨helapsed.mp hdue.1, hdue.2⟩]
    rfl
  · rw [h, if_neg (not_not.mpr heq), if_neg (fun hd => hdue ⟨helapsed.mpr hd.1, hd.2⟩)]

structure Follows (d₀ : ReverseDetector) (pre : List Event) (d : ReverseDetector) : Prop where
  view : d.view = run (Lib.Debounce.step (debounced d₀.config)) d₀.view (d₀.samples pre)
  config : d.config = d₀.config
  gpioInitialized : d.gpioInitialized = d₀.gpioInitialized
  lastTransition : d.lastTransition = d₀.lastTransition ∨ ∃ e ∈ pre, d.lastTransition = e.now

theorem Follows.step {d₀ d : ReverseDetector} {pre : List Event} {e : Event}
    (h : Follows d₀ pre d) (hclock : Clocked Event.now d₀.lastTransition (pre ++ [e])) :
    Follows d₀ (pre ++ [e]) (d.step e) := by
  obtain ⟨hstart, hpre⟩ := hclock.snoc
  have hnow : d.lastTransition ≤ e.now := by
    rcases h.lastTransition with hlast | ⟨e', he', hlast⟩
    · rw [hlast]
      exact hstart
    · rw [hlast]
      exact hpre e' he'
  have hconfig := d.step_config e
  have hsample := sample_congr h.config h.gpioInitialized
  have hsamples : d₀.samples (pre ++ [e]) = d₀.samples pre ++ (d₀.sample e).toList := by
    rw [samples, List.filterMap_append]
    cases hx : d₀.sample e <;> simp [samples, hx]
  refine ⟨?_, hconfig.1.trans h.config, hconfig.2.trans h.gpioInitialized, ?_⟩
  · rw [hsamples, run_append, ← h.view, ← hsample]
    obtain ⟨x, source, hx, hstep⟩ | ⟨hx, hstep⟩ := react_cases d e
    · have hview := d.debounce_view x.2 source e.now hnow
      rw [← sample_now hx] at hview
      rw [hx, ReverseDetector.step, hstep, ← h.config, ← sample_now hx, hview]
      rfl
    · rw [hx, ReverseDetector.step, hstep]
      rfl
  · have hlast : (d.step e).lastTransition = d.lastTransition ∨
        (d.step e).lastTransition = e.now := by
      obtain ⟨x, source, -, hstep⟩ | ⟨-, hstep⟩ := react_cases d e
      · rw [ReverseDetector.step, hstep]
        obtain ⟨-, h⟩ | ⟨-, -, h⟩ | ⟨-, -, h⟩ := d.debounce_cases x.2 source e.now
        · exact .inr (by rw [h])
        · exact .inl (by rw [h])
        · exact .inl (by rw [h])
      · rw [ReverseDetector.step, hstep]
        exact .inl rfl
    rcases hlast with hlast | hlast
    · rcases h.lastTransition with h0 | ⟨e', he', h0⟩
      · exact .inl (hlast.trans h0)
      · exact .inr ⟨e', List.mem_append_left _ he', hlast.trans h0⟩
    · exact .inr ⟨e, List.mem_append_right _ List.mem_cons_self, hlast⟩

theorem run_follows (d₀ : ReverseDetector) (events : List Event)
    (hclock : Clocked Event.now d₀.lastTransition events) :
    Follows d₀ events (run step d₀ events) := by
  refine run_history step (Follows d₀) ⟨rfl, rfl, rfl, .inl rfl⟩ events ?_
  intro pre e hp ih
  exact ih.step (hclock.of_prefix Event.now hp)

theorem run_engaged (config : ReverseConfig) (initGpio : Bool) (start : ℕ) (events : List Event)
    (hclock : Clocked Event.now start events) :
    (run step (started config initGpio start) events).isReverseEngaged =
      settledValue (debounced config) false ((started config initGpio start).samples events) := by
  have h := run_follows (started config initGpio start) events hclock
  have hlaw := committed_eq_settledValue (debounced config) false start
    ((started config initGpio start).samples events)
  rw [← hlaw]
  exact congrArg Debouncer.committed h.view

/-- The debounce law, after every event of every run since `init`. -/
theorem engaged_eq_debounced (config : ReverseConfig) (initGpio : Bool) (start : ℕ)
    (events : List Event) (hclock : Clocked Event.now start events) :
    let d₀ := started config initGpio start
    let d := run step d₀ events
    d.isReverseEngaged = settledValue (debounced config) false (d₀.samples events) ∧
    (∀ e, d₀.sample e = none → d.step e = d) ∧
    ∀ block v first, Clocked Event.now start (events ++ block) →
      (d₀.samples block).head? = some first → Constant v (d₀.samples block) →
      (∀ x ∈ (d₀.samples events).getLast?, x.2 ≠ v) →
      (∀ x ∈ d₀.samples block, x.1 < first.1 + config.debounceMs.toNat * 1000000) →
      (run step d block).isReverseEngaged = d.isReverseEngaged := by
  intro d₀ d
  refine ⟨run_engaged config initGpio start events hclock, ?_, ?_⟩
  · intro e he
    have h := run_follows d₀ events hclock
    rw [← sample_congr h.config h.gpioInitialized] at he
    obtain ⟨x, source, hx, -⟩ | ⟨-, hstep⟩ := react_cases d e
    · rw [hx] at he
      cases he
    · rw [step, hstep]
  · intro block v first hblock hfirst hv hlast hshort
    have hunsettled : settled (debounced config) (d₀.samples block) = false := by
      cases hs : d₀.samples block with
      | nil => rfl
      | cons x later =>
        rw [hs] at hfirst hshort
        obtain rfl : x = first := Option.some.inj hfirst
        apply List.any_eq_false.mpr
        intro y hy
        rw [debounced, decide_eq_true_iff, not_le]
        exact hshort y (List.mem_cons_of_mem x hy)
    rw [← run_append, run_engaged config initGpio start _ hblock,
      run_engaged config initGpio start events hclock, samples, List.filterMap_append]
    change settledValue _ false (d₀.samples events ++ d₀.samples block) = _
    rw [settledValue_append _ false hv hlast, if_neg (by simp [hunsettled])]

theorem engaged_eq_debounced_can :
    let config : ReverseConfig := { detectionMode := "can" }
    let d₀ := started config false 0
    let events := [Event.canFrame 0x370 (fun _ => 0x80) 8 0,
      Event.canFrame 0x370 (fun _ => 0x80) 8 60000000]
    let block := [Event.canFrame 0x370 (fun _ => 0) 8 70000000]
    (run step d₀ events).isReverseEngaged = true ∧
      settledValue (debounced config) false (d₀.samples events) = true ∧
      (run step (run step d₀ events) block).isReverseEngaged = true := by
  intro config d₀ events block
  have hclock : Clocked Event.now 0 (events ++ block) := by
    refine ⟨by simp, ?_⟩
    simp [events, block, Event.now]
  have h := engaged_eq_debounced config false 0 events
    (hclock.of_prefix Event.now (List.prefix_append events block))
  have hengaged : (run step d₀ events).isReverseEngaged = true := by decide
  refine ⟨hengaged, h.1.symm.trans hengaged, ?_⟩
  refine (h.2.2 block false (70000000, false) hclock ?_ ?_ ?_ ?_).trans hengaged
  · decide
  · unfold Constant
    decide
  · decide
  · decide

section BothSources

variable {d : ReverseDetector} {events : List Event}

theorem canSamples_sublist (d : ReverseDetector) (events : List Event) :
    (events.filterMap d.canSample).Sublist (d.samples events) := by
  induction events with
  | nil => exact List.Sublist.slnil
  | cons e events ih =>
    unfold samples at ih ⊢
    cases hcan : d.canSample e with
    | none =>
      rw [List.filterMap_cons_none hcan]
      cases hx : d.sample e with
      | none => rwa [List.filterMap_cons_none hx]
      | some x =>
        rw [List.filterMap_cons_some hx]
        exact ih.cons x
    | some x =>
      have hx : d.sample e = some x := by rw [sample, hcan, Option.some_or]
      rw [List.filterMap_cons_some hcan, List.filterMap_cons_some hx]
      exact ih.cons_cons x

theorem samples_monotone (config : ReverseConfig) {start : ℕ}
    (hclock : Clocked Event.now start events) :
    Monotone (debounced config) (d.samples events) := by
  apply List.Pairwise.filterMap d.sample _ hclock.2
  intro e e' hle x hx y hy t hlong
  rw [debounced, decide_eq_true_iff] at hlong ⊢
  have := sample_now hx
  have := sample_now hy
  omega

theorem samples_constant {v : Bool} (hcan : Constant v (events.filterMap d.canSample))
    (hgpio : Constant v (events.filterMap d.gpioSample)) : Constant v (d.samples events) := by
  intro x hx
  obtain ⟨e, he, hsample⟩ := List.mem_filterMap.mp hx
  rcases Option.or_eq_some_iff.mp hsample with hx | ⟨-, hx⟩
  · exact hcan x (List.mem_filterMap.mpr ⟨e, he, hx⟩)
  · exact hgpio x (List.mem_filterMap.mpr ⟨e, he, hx⟩)

theorem sample_of_gpioSample {e : Event} {x : Sample ℕ Bool} (h : d.gpioSample e = some x) :
    d.sample e = some x := by
  cases e with
  | canFrame canId data dlc now => cases h
  | gpioCheck line now => exact h

/-- The GPIO samples agree, or one of them is the last that does not. -/
theorem gpio_agrees_or_last (d : ReverseDetector) (v : Bool) (events : List Event) :
    Constant v (events.filterMap d.gpioSample) ∨
    ∃ before g after, events = before ++ g :: after ∧ d.gpioSample g = some (g.now, !v) ∧
      Constant v (after.filterMap d.gpioSample) := by
  induction events with
  | nil =>
    left
    intro x hx
    cases hx
  | cons e events ih =>
    rcases ih with hagree | ⟨before, g, after, rfl, hg, hafter⟩
    · by_cases he : d.gpioSample e = some (e.now, !v)
      · exact .inr ⟨[], e, events, rfl, he, hagree⟩
      · left
        intro x hx
        obtain ⟨e', he', hsample⟩ := List.mem_filterMap.mp hx
        rcases List.mem_cons.mp he' with rfl | he'
        · by_contra hne
          have hpair : x = (e'.now, !v) :=
            Prod.ext (sample_now (sample_of_gpioSample hsample)) (Bool.eq_not.mpr hne)
          exact he (hpair ▸ hsample)
        · exact hagree x (List.mem_filterMap.mpr ⟨e', he', hsample⟩)
    · exact .inr ⟨e :: before, g, after, rfl, hg, hafter⟩

/-- What follows the last disagreeing GPIO sample decides if it lasted for the debounce, and else
    leaves what was settled by then. -/
theorem settledValue_after_last (config : ReverseConfig) {before after : List Event} {g : Event}
    {v : Bool} (hg : d.gpioSample g = some (g.now, !v)) (hafter : Constant v (d.samples after)) :
    settledValue (debounced config) false (d.samples (before ++ g :: after)) =
      if settled (debounced config) (d.samples after) then v
      else settledValue (debounced config) false (d.samples (before ++ [g])) := by
  have hsample : d.samples [g] = [(g.now, !v)] :=
    List.filterMap_cons_some (sample_of_gpioSample hg)
  have hsplit : d.samples (before ++ g :: after) =
      d.samples (before ++ [g]) ++ d.samples after := by
    rw [List.append_cons, samples, List.filterMap_append]
    rfl
  have hlast : ∀ x ∈ (d.samples (before ++ [g])).getLast?, x.2 ≠ v := by
    intro x hx
    have happend : d.samples (before ++ [g]) = d.samples before ++ [(g.now, !v)] := by
      rw [← hsample]
      exact List.filterMap_append
    rw [happend, List.getLast?_concat, Option.mem_some_iff] at hx
    rw [← hx]
    simp
  rw [hsplit]
  exact settledValue_append (debounced config) false hafter hlast

theorem engaged_of_agreeing (config : ReverseConfig) (initGpio : Bool) (start : ℕ)
    (events interval : List Event) (hclock : Clocked Event.now start (events ++ interval))
    (v : Bool) (x y : Sample ℕ Bool)
    (hcan : Constant v (interval.filterMap (started config initGpio start).canSample))
    (hgpio : Constant v (interval.filterMap (started config initGpio start).gpioSample))
    (hxy : [x, y].Sublist (interval.filterMap (started config initGpio start).canSample))
    (hlong : debounced config x.1 y.1 = true) :
    (run step (started config initGpio start) (events ++ interval)).isReverseEngaged = v := by
  have hmono := samples_monotone (d := started config initGpio start) config hclock
  rw [run_engaged config initGpio start _ hclock, samples, List.filterMap_append]
  rw [samples, List.filterMap_append] at hmono
  exact settledValue_of_tail (debounced config) false (samples_constant hcan hgpio) hmono
    (hxy.trans (canSamples_sublist _ interval)) hlong

/-- Whatever the sources read: the detector says `v` exactly if the last run of the merged samples
    that lasted for the debounce does. -/
theorem engaged_eq_iff (config : ReverseConfig) (initGpio : Bool) (start : ℕ)
    (hclock : Clocked Event.now start events) (v : Bool) :
    let d₀ := started config initGpio start
    let merged := constantRuns (d₀.samples events)
    (run step d₀ events).isReverseEngaged = v ↔
      (∃ last, lastWhere (settled (debounced config)) merged = some last ∧ Constant v last) ∨
      (lastWhere (settled (debounced config)) merged = none ∧ false = v) := by
  intro d₀ merged
  rw [run_engaged config initGpio start events hclock]
  exact settledValue_eq_iff (debounced config) false v _

/-- Two CAN samples a debounce apart in an interval whose CAN samples all read `v`: the detector
    ends at `v` exactly if the last run of the merged samples that lasted for the debounce reads
    `v`. Of the GPIO samples of the interval this asks that none disagrees, or that after the last
    one that does either the interval went on for a debounce or `v` was what the samples up to
    there had settled to. -/
theorem follows_can_iff (config : ReverseConfig) (initGpio : Bool) (start : ℕ)
    (events interval : List Event) (hclock : Clocked Event.now start (events ++ interval))
    (v : Bool) (x y : Sample ℕ Bool)
    (hcan : Constant v (interval.filterMap (started config initGpio start).canSample))
    (hxy : [x, y].Sublist (interval.filterMap (started config initGpio start).canSample))
    (hlong : debounced config x.1 y.1 = true) :
    let d₀ := started config initGpio start
    let merged := constantRuns (d₀.samples (events ++ interval))
    ((run step d₀ (events ++ interval)).isReverseEngaged = v ↔
      (∃ last, lastWhere (settled (debounced config)) merged = some last ∧ Constant v last) ∨
      (lastWhere (settled (debounced config)) merged = none ∧ false = v)) ∧
    ((run step d₀ (events ++ interval)).isReverseEngaged = v ↔
      Constant v (interval.filterMap d₀.gpioSample) ∨
      ∃ before g after, interval = before ++ g :: after ∧ d₀.gpioSample g = some (g.now, !v) ∧
        Constant v (after.filterMap d₀.gpioSample) ∧
        (settled (debounced config) (d₀.samples after) = true ∨
          settledValue (debounced config) false (d₀.samples (events ++ before ++ [g])) = v)) := by
  intro d₀ merged
  refine ⟨engaged_eq_iff config initGpio start hclock v, ?_⟩
  -- The samples after a disagreeing one are a run of their own.
  have hlast : ∀ before g after, interval = before ++ g :: after →
      d₀.gpioSample g = some (g.now, !v) → Constant v (after.filterMap d₀.gpioSample) →
      ((run step d₀ (events ++ interval)).isReverseEngaged = v ↔
        settled (debounced config) (d₀.samples after) = true ∨
          settledValue (debounced config) false (d₀.samples (events ++ before ++ [g])) = v) := by
    rintro before g after rfl hg hafter
    have hcanAfter : Constant v (after.filterMap d₀.canSample) := by
      intro z hz
      apply hcan z
      rw [List.filterMap_append]
      exact List.mem_append_right _ ((List.sublist_cons_self g after).filterMap _ |>.subset hz)
    rw [run_engaged config initGpio start _ hclock]
    change settledValue (debounced config) false (d₀.samples (events ++ (before ++ g :: after))) =
      v ↔ _
    rw [← List.append_assoc, settledValue_after_last config hg (samples_constant hcanAfter hafter)]
    by_cases hsettled : settled (debounced config) (d₀.samples after) = true
    · simp [hsettled]
    · simp [hsettled]
  constructor
  · intro hfollows
    rcases gpio_agrees_or_last d₀ v interval with hagree | ⟨before, g, after, hsplit, hg, hafter⟩
    · exact .inl hagree
    · exact .inr ⟨before, g, after, hsplit, hg, hafter,
        (hlast before g after hsplit hg hafter).mp hfollows⟩
  · rintro (hagree | ⟨before, g, after, hsplit, hg, hafter, hsettled⟩)
    · exact engaged_of_agreeing config initGpio start events interval hclock v x y hcan hagree hxy
        hlong
    · exact (hlast before g after hsplit hg hafter).mpr hsettled

end BothSources

/-- CAN reads reverse at 0 ms and at 100 ms, the GPIO fallback reads it clear in between. -/
def disturbed : List Event :=
  [.canFrame 0x370 (fun _ => 0x80) 8 0, .gpioCheck false 10000000,
    .canFrame 0x370 (fun _ => 0x80) 8 100000000]

theorem disturbed_clocked : Clocked Event.now 0 disturbed := by
  refine ⟨by simp, ?_⟩
  simp [disturbed, Event.now]

theorem follows_can_iff_disturbed :
    let config : ReverseConfig := { gpioEnabled := true }
    (run step (started config true 0) disturbed).isReverseEngaged = true ↔
      (∃ last, lastWhere (settled (debounced config))
        (constantRuns ((started config true 0).samples disturbed)) = some last ∧
        Constant true last) ∨
      (lastWhere (settled (debounced config))
        (constantRuns ((started config true 0).samples disturbed)) = none ∧ false = true) := by
  intro config
  refine (follows_can_iff config true 0 [] disturbed disturbed_clocked true (0, true)
    (100000000, true) ?_ ?_ ?_).1
  · unfold Constant
    decide
  · decide
  · decide

theorem gpio_overrides_can :
    ¬ ∀ (config : ReverseConfig) (start : ℕ) (events interval : List Event) (v : Bool)
      (x y : Sample ℕ Bool), config.detectionMode = "both" → config.canEnabled = true →
      config.gpioEnabled = true → Clocked Event.now start (events ++ interval) →
      Constant v (interval.filterMap (started config true start).canSample) →
      [x, y].Sublist (interval.filterMap (started config true start).canSample) →
      debounced config x.1 y.1 = true →
      (run step (started config true start) (events ++ interval)).isReverseEngaged = v := by
  intro hclaim
  have hengaged := hclaim { gpioEnabled := true } 0 [] disturbed true (0, true) (100000000, true)
    rfl rfl rfl disturbed_clocked (by unfold Constant; decide) (by decide) (by decide)
  exact absurd hengaged (by decide)

end SpeeduinoDash.ReverseDetector
