import SpeeduinoDash.ReverseDebounce

set_option autoImplicit false

/-!
# The CAN presets

A preset sets the identifier, the byte and the mask of the reverse signal and leaves the expected
value as it was.
-/
namespace SpeeduinoDash.ReverseDetector
open Lib.Debounce Lib.Runs

def frameCall (cf : KernelFrame) (now : ℕ) : Event := .canFrame cf.canId cf.byteAt cf.canDlc now

def frameCalls (frames : List (KernelFrame × ℕ)) : List Event :=
  frames.map (fun x => frameCall x.1 x.2)

/-- From `init` on, frames can drive the detector to reverse and from there back. -/
def Drivable (config : ReverseConfig) : Prop :=
  ∀ initGpio start, ∃ there back : List (KernelFrame × ℕ),
    (∀ x ∈ there ++ back, x.1.canDlc ≤ canClassicMaxDlc) ∧
    Clocked Event.now start (frameCalls (there ++ back)) ∧
    (run step (started config initGpio start) (frameCalls there)).isReverseEngaged = true ∧
    (run step (started config initGpio start) (frameCalls (there ++ back))).isReverseEngaged = false

section Driving

variable {config : ReverseConfig}

/-- Without a byte that reads reverse the detector never leaves its first state. -/
theorem run_idle {d : ReverseDetector} (hpending : d.pendingState = false)
    (hengaged : d.engaged = false) (events : List Event)
    (hidle : ∀ e ∈ events, ∀ x ∈ d.sample e, x.2 = false) :
    (run step d events).isReverseEngaged = false := by
  have h : (run step d events).pendingState = false ∧ (run step d events).engaged = false := by
    refine run_history step (fun _ t => t.pendingState = false ∧ t.engaged = false)
      ⟨hpending, hengaged⟩ events ?_
    rintro pre e hpre ⟨hp, he⟩
    have hconfig := run_config d pre
    rw [step]
    obtain ⟨x, source, hx, h⟩ | ⟨-, h⟩ := react_cases (run step d pre) e
    · have hmem : e ∈ events := hpre.subset (List.mem_append_right pre List.mem_cons_self)
      rw [sample_congr hconfig.1 hconfig.2] at hx
      rw [h, debounce, hidle e hmem x hx, hp]
      simp [hp, he]
    · rw [h]
      exact ⟨hp, he⟩
  exact h.2

def uniform (config : ReverseConfig) (b : UInt8) : KernelFrame :=
  ⟨config.canId, canClassicMaxDlc, Vector.replicate 8 b⟩

def twice (config : ReverseConfig) (b : UInt8) (now : ℕ) : List (KernelFrame × ℕ) :=
  [(uniform config b, now), (uniform config b, now + config.debounceMs.toNat * 1000000)]

theorem canSamples_twice (hcan : config.effectiveSources.1 = true)
    (hbyte : config.byteIndex.toNat < 8) (initGpio : Bool) (start now : ℕ) (b : UInt8) :
    (frameCalls (twice config b now)).filterMap (started config initGpio start).canSample =
      [(now, b &&& config.bitMask == config.expectedValue),
        (now + config.debounceMs.toNat * 1000000,
          b &&& config.bitMask == config.expectedValue)] := by
  have hvalue : (uniform config b).byteAt config.byteIndex.toNat = b := by
    simp [uniform, KernelFrame.byteAt, hbyte]
  have hone : ∀ t, (started config initGpio start).canSample (frameCall (uniform config b) t) =
      some (t, b &&& config.bitMask == config.expectedValue) := by
    intro t
    rw [frameCall, canSample_started, if_pos ⟨hcan, rfl, hbyte⟩, hvalue]
  simp [frameCalls, twice, hone]

theorem gpioSamples_frameCalls (d : ReverseDetector) (frames : List (KernelFrame × ℕ)) :
    (frameCalls frames).filterMap d.gpioSample = [] := by
  rw [List.filterMap_eq_nil_iff]
  intro e he
  obtain ⟨x, -, rfl⟩ := List.mem_map.mp he
  rfl

/-- After two frames a debounce apart the detector reads what they read. -/
theorem engaged_twice (hcan : config.effectiveSources.1 = true)
    (hbyte : config.byteIndex.toNat < 8) (initGpio : Bool) (start now : ℕ) (b : UInt8)
    (before : List (KernelFrame × ℕ))
    (hclock : Clocked Event.now start (frameCalls (before ++ twice config b now))) :
    (run step (started config initGpio start)
      (frameCalls (before ++ twice config b now))).isReverseEngaged =
        (b &&& config.bitMask == config.expectedValue) := by
  have hsamples := canSamples_twice hcan hbyte initGpio start now b
  have hconstant : Constant (b &&& config.bitMask == config.expectedValue)
      ((frameCalls (twice config b now)).filterMap (started config initGpio start).canSample) := by
    rw [hsamples]
    simp [Constant]
  have hdebounced : debounced config now (now + config.debounceMs.toNat * 1000000) = true := by
    simp [debounced]
  have happend : frameCalls (before ++ twice config b now) =
      frameCalls before ++ frameCalls (twice config b now) := List.map_append
  rw [happend] at hclock ⊢
  refine engaged_of_agreeing config initGpio start (frameCalls before)
    (frameCalls (twice config b now)) hclock _ _ _ hconstant ?_ (by rw [hsamples]) hdebounced
  rw [gpioSamples_frameCalls]
  simp [Constant]

theorem clocked_twice (config : ReverseConfig) (start : ℕ) (b b' : UInt8) :
    Clocked Event.now start (frameCalls (twice config b start ++
      twice config b' (start + config.debounceMs.toNat * 1000000))) := by
  unfold Clocked frameCalls twice
  simp [frameCall, Event.now]
  omega

theorem and_and_self (b mask : UInt8) : b &&& mask &&& mask = b &&& mask := by
  rw [UInt8.and_assoc, UInt8.and_self]

theorem exists_other_byte {mask : UInt8} (hmask : mask ≠ 0) (expected : UInt8) :
    ∃ b : UInt8, (b &&& mask == expected) = false := by
  by_cases hzero : expected = 0
  · refine ⟨mask, ?_⟩
    rw [UInt8.and_self, hzero]
    exact beq_false_of_ne hmask
  · refine ⟨0, ?_⟩
    rw [UInt8.zero_and]
    exact beq_false_of_ne (Ne.symm hzero)

/-- CAN alone in use, a byte that fits into a frame and a mask: frames can drive the detector
    exactly if the expected value has no bit outside the mask. -/
theorem drivable_iff (hcan : config.effectiveSources = (true, false))
    (hbyte : config.byteIndex.toNat < 8) (hmask : config.bitMask ≠ 0) :
    Drivable config ↔ config.expectedValue &&& config.bitMask = config.expectedValue := by
  have heffective : config.effectiveSources.1 = true := by rw [hcan]
  constructor
  · intro h
    obtain ⟨there, back, -, -, hengaged, -⟩ := h false 0
    by_contra hoff
    have hidle := run_idle (d := started config false 0) rfl rfl (frameCalls there) (by
      intro e he x hx
      obtain ⟨y, -, rfl⟩ := List.mem_map.mp he
      change x ∈ ((started config false 0).canSample (frameCall y.1 y.2)).or none at hx
      rw [Option.or_none, frameCall, canSample_started] at hx
      split_ifs at hx
      · obtain rfl := Option.mem_some_iff.mp hx
        apply beq_false_of_ne
        intro hsame
        rw [← hsame, and_and_self] at hoff
        exact hoff rfl
      · cases hx)
    rw [hengaged] at hidle
    cases hidle
  · intro hfits initGpio start
    obtain ⟨b, hb⟩ := exists_other_byte hmask config.expectedValue
    have hclock := clocked_twice config start config.expectedValue b
    have hthere := engaged_twice heffective hbyte initGpio start start config.expectedValue []
      (by
        have hprefix : frameCalls ([] ++ twice config config.expectedValue start) <+:
            frameCalls (twice config config.expectedValue start ++
              twice config b (start + config.debounceMs.toNat * 1000000)) :=
          List.IsPrefix.map _ (List.prefix_append _ _)
        exact hclock.of_prefix Event.now hprefix)
    have hback := engaged_twice heffective hbyte initGpio start
      (start + config.debounceMs.toNat * 1000000) b _ hclock
    refine ⟨_, _, ?_, hclock, ?_, ?_⟩
    · intro x hx
      simp only [twice, uniform, List.mem_append, List.mem_cons, List.not_mem_nil, or_false] at hx
      rcases hx with (rfl | rfl) | (rfl | rfl) <;> exact UInt8.le_refl _
    · rw [List.nil_append] at hthere
      rw [hthere, hfits, beq_self_eq_true]
    · rw [hback, hb]

end Driving

/-- A CAN preset is usable exactly if the expected value that it leaves alone has no bit outside
    the mask that it sets. -/
theorem preset_drivable_iff (config : ReverseConfig) (preset : String)
    (hpreset : preset = "speeduino_can" ∨ preset = "haltech") :
    Drivable (config.applyPreset preset) ↔
      config.expectedValue &&& (config.applyPreset preset).bitMask = config.expectedValue := by
  rcases hpreset with rfl | rfl
  · exact drivable_iff rfl (show (3 : UInt8).toNat < 8 by decide)
      (show (0x80 : UInt8) ≠ 0 by decide)
  · exact drivable_iff rfl (show (4 : UInt8).toNat < 8 by decide)
      (show (0x02 : UInt8) ≠ 0 by decide)

theorem speeduino_default_drivable : Drivable (({} : ReverseConfig).applyPreset "speeduino_can") :=
  (preset_drivable_iff {} "speeduino_can" (.inl rfl)).mpr (by decide)

theorem haltech_default_not_drivable :
    ¬ ∀ (config : ReverseConfig) (preset : String), preset = "speeduino_can" ∨ preset = "haltech" →
      Drivable (config.applyPreset preset) := by
  intro hclaim
  have hfits := (drivable_iff rfl (by decide) (by decide)).mp (hclaim {} "haltech" (.inr rfl))
  exact absurd hfits (by decide)

end SpeeduinoDash.ReverseDetector
