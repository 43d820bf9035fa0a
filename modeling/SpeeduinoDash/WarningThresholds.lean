import SpeeduinoDash.EmergencyAlerts

set_option autoImplicit false

/-!
# What the thresholds say and what is reported

Each parameter of the thresholds table has its own cascade of comparisons. Fuel pressure has none,
and that of the intake air leaves out one threshold and understates another.
-/
namespace SpeeduinoDash

inductive TableParameter where
  | rpm
  | coolantTemp
  | oilTemp
  | oilPressure
  | fuelPressure
  | batteryVoltage
  | afr
  | iat
  | boostPsi
  | egt
deriving DecidableEq

inductive Crossing where
  | atLeast
  | atMost
  | above
  | below
deriving DecidableEq

def Crossing.goesUp : Crossing → Bool
  | .atLeast | .above => true
  | .atMost | .below => false

structure Limit where
  type : String
  severity : Severity
  crossing : Crossing
deriving DecidableEq

namespace TableParameter

def name : TableParameter → String
  | .rpm => "rpm"
  | .coolantTemp => "coolantTemp"
  | .oilTemp => "oilTemp"
  | .oilPressure => "oilPressure"
  | .fuelPressure => "fuelPressure"
  | .batteryVoltage => "batteryVoltage"
  | .afr => "afr"
  | .iat => "iat"
  | .boostPsi => "boostPsi"
  | .egt => "egt"

/-- What a check reports it as. No check is about fuel pressure. -/
def parameter : TableParameter → Option Parameter
  | .rpm => some .rpm
  | .coolantTemp => some .clt
  | .oilTemp => some .oilTemp
  | .oilPressure => some .oilPress
  | .fuelPressure => none
  | .batteryVoltage => some .battery
  | .afr => some .afr
  | .iat => some .iat
  | .boostPsi => some .boost
  | .egt => some .egt

def rising : List Limit :=
  [⟨"warning", .warning, .atLeast⟩, ⟨"critical", .critical, .atLeast⟩,
    ⟨"emergency", .emergency, .atLeast⟩]

/-- The thresholds it has in the table, with the severities they are named for. -/
def limits : TableParameter → List Limit
  | .oilPressure | .fuelPressure =>
    [⟨"warningLow", .warning, .atMost⟩, ⟨"criticalLow", .critical, .atMost⟩,
      ⟨"emergencyLow", .emergency, .atMost⟩]
  | .batteryVoltage =>
    [⟨"warningLow", .warning, .below⟩, ⟨"criticalLow", .critical, .below⟩,
      ⟨"warningHigh", .warning, .above⟩, ⟨"criticalHigh", .critical, .above⟩]
  | .afr =>
    [⟨"warningLean", .warning, .above⟩, ⟨"criticalLean", .critical, .above⟩,
      ⟨"warningRich", .warning, .below⟩, ⟨"criticalRich", .critical, .below⟩]
  | _ => rising

theorem limits_types (p : TableParameter) :
    (defaultThresholds.lookup p.name).map (List.map Prod.fst) =
      some (p.limits.map Limit.type) := by
  cases p <;> decide

/-- The thresholds that its cascade compares with, and what it makes of them. -/
def compared : TableParameter → List Limit
  | .fuelPressure => []
  | .iat => [⟨"warning", .warning, .atLeast⟩, ⟨"emergency", .critical, .atLeast⟩]
  | p => p.limits

theorem compared_limits (p : TableParameter) :
    ∀ l ∈ p.compared, ∃ l' ∈ p.limits, l'.type = l.type ∧ l'.crossing = l.crossing := by
  cases p <;> decide

end TableParameter

def highest (crossed : Limit → Bool) (limits : List Limit) : ℕ :=
  limits.foldr (fun l n => max (if crossed l then l.severity.level else 0) n) 0

theorem highest_mono {crossed crossed' : Limit → Bool} {limits : List Limit}
    (h : ∀ l ∈ limits, crossed l = true → crossed' l = true) :
    highest crossed limits ≤ highest crossed' limits := by
  induction limits with
  | nil => exact Nat.le_refl _
  | cons l limits ih =>
    have hrest := ih fun l' hmem => h l' (List.mem_cons_of_mem l hmem)
    have hfirst := h l List.mem_cons_self
    unfold highest at hrest ⊢
    rw [List.foldr_cons, List.foldr_cons]
    split_ifs with hold hnew <;> grind

namespace WarningManager
open QmlReal (literal)

variable {R : Type} [QmlReal R]

def Crosses (crossing : Crossing) (x : R) (threshold : Option R) : Bool :=
  match crossing with
  | .atLeast => atLeast x threshold
  | .atMost => atMost x threshold
  | .above => above x threshold
  | .below => below x threshold

variable (m : WarningManager R)

def crosses (p : TableParameter) (x : R) (l : Limit) : Bool :=
  Crosses l.crossing x (m.threshold p.name l.type)

/-- With `x` as the input. Nothing reads `fuelPressure`. -/
def at_ (p : TableParameter) (x : R) : WarningManager R :=
  { m with
    inputs :=
      match p with
      | .rpm => { m.inputs with rpm := x }
      | .coolantTemp => { m.inputs with coolantTemp := x }
      | .oilTemp => { m.inputs with oilTemp := x }
      | .oilPressure => { m.inputs with oilPressure := x }
      | .fuelPressure => m.inputs
      | .batteryVoltage => { m.inputs with batteryVoltage := x }
      | .afr => { m.inputs with afr := x }
      | .iat => { m.inputs with iat := x }
      | .boostPsi => { m.inputs with boostPsi := x }
      | .egt => { m.inputs with egt := x } }

def reported (now : Parameter → ℕ) (p : TableParameter) : ℕ :=
  (p.parameter.bind (m.checkWarnings now).1.active).elim 0 Severity.level

/-- The thresholds are there, the more severe ones further out. -/
structure Ordered (p : TableParameter) : Prop where
  present : ∀ l ∈ p.limits, ∃ t, m.threshold p.name l.type = some t
  upwards : ∀ l ∈ p.limits, ∀ l' ∈ p.limits, l.crossing.goesUp = true →
    l'.crossing.goesUp = true → l.severity.level ≤ l'.severity.level →
      ∀ t ∈ m.threshold p.name l.type, ∀ t' ∈ m.threshold p.name l'.type, t ≤ t'
  downwards : ∀ l ∈ p.limits, ∀ l' ∈ p.limits, l.crossing.goesUp = false →
    l'.crossing.goesUp = false → l.severity.level ≤ l'.severity.level →
      ∀ t ∈ m.threshold p.name l.type, ∀ t' ∈ m.threshold p.name l'.type, t' ≤ t

/-- The engine turns fast enough for the check to count. -/
def Gated : TableParameter → Prop
  | .oilPressure => literal 1000 < m.inputs.rpm
  | .afr => literal 2000 < m.inputs.rpm
  | _ => True

/-- From `x` to `x'` a value moves away from normal. -/
def Away (p : TableParameter) (x x' : R) : Prop :=
  (x ≤ x' ∧ ∀ l ∈ p.limits, l.crossing.goesUp = false → m.crosses p x l = false) ∨
    (x' ≤ x ∧ ∀ l ∈ p.limits, l.crossing.goesUp = true → m.crosses p x l = false)

structure FollowsThresholds (now : Parameter → ℕ) (p : TableParameter) (x : R) : Prop where
  exactly : (m.at_ p x).reported now p = highest (m.crosses p x) p.limits
  monotone : ∀ x', literal 0 < x' → m.Away p x x' →
    (m.at_ p x).reported now p ≤ (m.at_ p x').reported now p

/-- Fuel pressure is normal, and the intake air below its critical temperature. -/
def Compared (p : TableParameter) (x : R) : Prop :=
  (p = .fuelPressure → ∀ l ∈ p.limits, m.crosses p x l = false) ∧
    (p = .iat → atLeast x (m.threshold "iat" "critical") = false)

theorem reported_eq (now : Parameter → ℕ) (p : TableParameter) :
    m.reported now p = (p.parameter.bind m.severity).elim 0 Severity.level := by
  rw [reported, active_checkWarnings]

theorem Ordered.rising {m : WarningManager R} {p : TableParameter} (h : m.Ordered p)
    (hlimits : p.limits = TableParameter.rising) :
    ∃ w c e, m.threshold p.name "warning" = some w ∧ m.threshold p.name "critical" = some c ∧
      m.threshold p.name "emergency" = some e ∧ w ≤ c ∧ c ≤ e := by
  obtain ⟨hpresent, hupwards, -⟩ := h
  rw [hlimits] at hpresent hupwards
  obtain ⟨w, hw⟩ := hpresent ⟨"warning", .warning, .atLeast⟩ (by decide)
  obtain ⟨c, hc⟩ := hpresent ⟨"critical", .critical, .atLeast⟩ (by decide)
  obtain ⟨e, he⟩ := hpresent ⟨"emergency", .emergency, .atLeast⟩ (by decide)
  have hwc := hupwards ⟨"warning", .warning, .atLeast⟩ (by decide)
    ⟨"critical", .critical, .atLeast⟩ (by decide) rfl rfl (by decide) w hw c hc
  have hce := hupwards ⟨"critical", .critical, .atLeast⟩ (by decide)
    ⟨"emergency", .emergency, .atLeast⟩ (by decide) rfl rfl (by decide) c hc e he
  exact ⟨w, c, e, hw, hc, he, hwc, hce⟩

theorem Ordered.oilPressure {m : WarningManager R} (h : m.Ordered .oilPressure) :
    ∃ w c e, m.threshold "oilPressure" "warningLow" = some w ∧
      m.threshold "oilPressure" "criticalLow" = some c ∧
      m.threshold "oilPressure" "emergencyLow" = some e ∧ c ≤ w ∧ e ≤ c := by
  obtain ⟨hpresent, -, hdownwards⟩ := h
  obtain ⟨w, hw⟩ := hpresent ⟨"warningLow", .warning, .atMost⟩ (by decide)
  obtain ⟨c, hc⟩ := hpresent ⟨"criticalLow", .critical, .atMost⟩ (by decide)
  obtain ⟨e, he⟩ := hpresent ⟨"emergencyLow", .emergency, .atMost⟩ (by decide)
  have hcw := hdownwards ⟨"warningLow", .warning, .atMost⟩ (by decide)
    ⟨"criticalLow", .critical, .atMost⟩ (by decide) rfl rfl (by decide) w hw c hc
  have hec := hdownwards ⟨"criticalLow", .critical, .atMost⟩ (by decide)
    ⟨"emergencyLow", .emergency, .atMost⟩ (by decide) rfl rfl (by decide) c hc e he
  exact ⟨w, c, e, hw, hc, he, hcw, hec⟩

section Cascades

/-- Where each condition includes the next one, the cascade finds the highest that is met. -/
theorem cascade_level {emergency critical warning : Bool} (hce : emergency = true → critical = true)
    (hwc : critical = true → warning = true) :
    (worst emergency critical (warning && !critical)).elim 0 Severity.level =
      max (if warning then 2 else 0) (max (if critical then 3 else 0) (if emergency then 4 else 0)) := by
  revert emergency critical warning
  decide

theorem critical_level (critical warning : Bool) :
    (worst false critical warning).elim 0 Severity.level =
      max (if warning then 2 else 0) (if critical then 3 else 0) := by
  revert critical warning
  decide

theorem pair_level (warning warning' critical critical' : Bool) :
    (worst false (critical || critical') (warning || warning')).elim 0 Severity.level =
      max (if warning then 2 else 0) (max (if critical then 3 else 0)
        (max (if warning' then 2 else 0) (if critical' then 3 else 0))) := by
  revert warning warning' critical critical'
  decide

theorem fuelPressure_exact_iff (crossed : Limit → Bool) :
    0 = highest crossed TableParameter.fuelPressure.limits ↔
      ∀ l ∈ TableParameter.fuelPressure.limits, crossed l = false := by
  simp only [highest, TableParameter.limits, Severity.level, List.foldr_cons, List.foldr_nil,
    List.forall_mem_cons, List.not_mem_nil]
  generalize crossed ⟨"warningLow", .warning, .atMost⟩ = warning
  generalize crossed ⟨"criticalLow", .critical, .atMost⟩ = critical
  generalize crossed ⟨"emergencyLow", .emergency, .atMost⟩ = emergency
  cases warning <;> cases critical <;> cases emergency <;> simp

end Cascades

section Order

variable [Std.IsLinearOrder R]

theorem atLeast_of_le {x t t' : R} (hle : t ≤ t') (h : atLeast x (some t') = true) :
    atLeast x (some t) = true := by
  simp only [atLeast, Option.any_some, decide_eq_true_eq] at h ⊢
  exact Std.le_trans hle h

theorem atMost_of_le {x t t' : R} (hle : t' ≤ t) (h : atMost x (some t') = true) :
    atMost x (some t) = true := by
  simp only [atMost, Option.any_some, decide_eq_true_eq] at h ⊢
  exact Std.le_trans h hle

theorem iat_exact_iff (h : m.Ordered .iat) (x : R) :
    highest (m.crosses .iat x) TableParameter.iat.compared =
        highest (m.crosses .iat x) TableParameter.iat.limits ↔
      atLeast x (m.threshold "iat" "critical") = false := by
  obtain ⟨w, c, e, hw, hc, he, hwc, hce⟩ := h.rising rfl
  have hemergency := atLeast_of_le (x := x) hce
  have hcritical := atLeast_of_le (x := x) hwc
  have hc' : m.threshold "iat" "critical" = some c := hc
  simp only [highest, TableParameter.compared, TableParameter.limits, TableParameter.rising, crosses,
    Crosses, Severity.level, List.foldr_cons, List.foldr_nil, hw, hc, he, hc']
  revert hemergency hcritical
  generalize atLeast x (some w) = warning
  generalize atLeast x (some c) = critical
  generalize atLeast x (some e) = emergency
  revert warning critical emergency
  decide

variable [Std.LawfulOrderLT R]

theorem below_some (x t : R) : below x (some t) = !atLeast x (some t) := by
  rw [below, atLeast, Option.any_some, Option.any_some, ← decide_not, decide_eq_decide, Std.not_le]

theorem above_some (x t : R) : above x (some t) = !atMost x (some t) := by
  rw [above, atMost, Option.any_some, Option.any_some, ← decide_not, decide_eq_decide, Std.not_le]

theorem crosses_up {crossing : Crossing} (hup : crossing.goesUp = true) {x x' : R} (hle : x ≤ x')
    {threshold : Option R} (h : Crosses crossing x threshold = true) :
    Crosses crossing x' threshold = true := by
  cases threshold with
  | none => cases crossing <;> cases h
  | some t =>
    cases crossing with
    | atLeast =>
      simp only [Crosses, atLeast, Option.any_some, decide_eq_true_eq] at h ⊢
      exact Std.le_trans h hle
    | above =>
      simp only [Crosses, above, Option.any_some, decide_eq_true_eq] at h ⊢
      exact Std.lt_of_lt_of_le h hle
    | _ => cases hup

theorem crosses_down {crossing : Crossing} (hdown : crossing.goesUp = false) {x x' : R}
    (hle : x' ≤ x) {threshold : Option R} (h : Crosses crossing x threshold = true) :
    Crosses crossing x' threshold = true := by
  cases threshold with
  | none => cases crossing <;> cases h
  | some t =>
    cases crossing with
    | atMost =>
      simp only [Crosses, atMost, Option.any_some, decide_eq_true_eq] at h ⊢
      exact Std.le_trans hle h
    | below =>
      simp only [Crosses, below, Option.any_some, decide_eq_true_eq] at h ⊢
      exact Std.lt_of_le_of_lt hle h
    | _ => cases hdown

/-- Away from normal a value crosses what it has crossed. -/
theorem crosses_away {p : TableParameter} {x x' : R} (haway : m.Away p x x') {l : Limit}
    (hl : l ∈ p.limits) (h : m.crosses p x l = true) : m.crosses p x' l = true := by
  cases hside : l.crossing.goesUp with
  | true =>
    rcases haway with ⟨hle, -⟩ | ⟨-, hnone⟩
    · exact crosses_up hside hle h
    · rw [hnone l hl hside] at h
      cases h
  | false =>
    rcases haway with ⟨-, hnone⟩ | ⟨hle, -⟩
    · rw [hnone l hl hside] at h
      cases h
    · exact crosses_down hside hle h

theorem rising_level {p : TableParameter} (h : m.Ordered p)
    (hlimits : p.limits = TableParameter.rising) (x : R) :
    (worst (atLeast x (m.threshold p.name "emergency")) (m.risingLevels x p.name).critical
        (m.risingLevels x p.name).warning).elim 0 Severity.level =
      highest (m.crosses p x) TableParameter.rising := by
  obtain ⟨w, c, e, hw, hc, he, hwc, hce⟩ := h.rising hlimits
  rw [risingLevels, hw, hc, he]
  dsimp only
  rw [below_some, cascade_level (atLeast_of_le hce) (atLeast_of_le hwc)]
  simp [highest, TableParameter.rising, crosses, Crosses, Severity.level, hw, hc, he]

theorem oilPressure_level (h : m.Ordered .oilPressure) {x : R} (hpos : literal 0 < x)
    (hgate : literal 1000 < m.inputs.rpm) :
    ((m.at_ .oilPressure x).severity .oilPress).elim 0 Severity.level =
      highest (m.crosses .oilPressure x) TableParameter.oilPressure.limits := by
  obtain ⟨w, c, e, hw, hc, he, hcw, hec⟩ := h.oilPressure
  have hthreshold : ∀ type, (m.at_ .oilPressure x).threshold "oilPressure" type =
      m.threshold "oilPressure" type := fun _ => rfl
  have hrpm : (m.at_ .oilPressure x).inputs.rpm = m.inputs.rpm := rfl
  have hx : (m.at_ .oilPressure x).inputs.oilPressure = x := rfl
  dsimp only [severity, newLevels]
  rw [hrpm, hx, hthreshold, hthreshold, hthreshold, hw, hc, he, decide_eq_true hgate,
    decide_eq_true hpos]
  simp only [Bool.true_and, Bool.and_true]
  rw [above_some, cascade_level (atMost_of_le hec) (atMost_of_le hcw)]
  simp [highest, TableParameter.limits, crosses, Crosses, Severity.level, TableParameter.name, hw, hc,
    he]

/-- What is reported is the highest of the limits that the cascade compares with. -/
theorem reported_at {p : TableParameter} {x : R} (now : Parameter → ℕ) (h : m.Ordered p)
    (hgate : m.Gated p) (hpos : literal 0 < x) :
    (m.at_ p x).reported now p = highest (m.crosses p x) p.compared := by
  rw [reported_eq]
  cases p with
  | rpm => exact m.rising_level h rfl x
  | coolantTemp => exact m.rising_level h rfl x
  | oilTemp => exact m.rising_level h rfl x
  | boostPsi => exact m.rising_level h rfl x
  | egt => exact m.rising_level h rfl x
  | oilPressure => exact m.oilPressure_level h hpos hgate
  | fuelPressure => rfl
  | batteryVoltage =>
    refine (pair_level _ _ _ _).trans ?_
    simp [highest, TableParameter.compared, TableParameter.limits, crosses, Crosses, Severity.level]
    rfl
  | afr =>
    have hrunning : decide (literal 2000 < (m.at_ .afr x).inputs.rpm) = true := decide_eq_true hgate
    dsimp only [TableParameter.parameter, Option.bind_some, severity]
    rw [hrunning, Bool.and_true, Bool.and_true]
    refine (pair_level _ _ _ _).trans ?_
    simp [highest, TableParameter.compared, TableParameter.limits, crosses, Crosses, Severity.level]
    rfl
  | iat =>
    refine (critical_level _ _).trans ?_
    simp [highest, TableParameter.compared, crosses, Crosses, Severity.level]
    rfl

theorem reported_mono {p : TableParameter} {x x' : R} (now : Parameter → ℕ) (h : m.Ordered p)
    (hgate : m.Gated p) (hpos : literal 0 < x) (hpos' : literal 0 < x') (haway : m.Away p x x') :
    (m.at_ p x).reported now p ≤ (m.at_ p x').reported now p := by
  rw [m.reported_at now h hgate hpos, m.reported_at now h hgate hpos']
  apply highest_mono
  intro l hl hcrossed
  obtain ⟨l', hl', htype, hcrossing⟩ := p.compared_limits l hl
  have hsame : ∀ y, m.crosses p y l = m.crosses p y l' := by
    intro y
    rw [crosses, crosses, htype, hcrossing]
  rw [hsame] at hcrossed ⊢
  exact m.crosses_away haway hl' hcrossed

theorem follows_thresholds_iff {p : TableParameter} {x : R} (now : Parameter → ℕ)
    (h : m.Ordered p) (hgate : m.Gated p) (hpos : literal 0 < x) :
    m.FollowsThresholds now p x ↔ m.Compared p x := by
  have hexact : m.FollowsThresholds now p x ↔
      highest (m.crosses p x) p.compared = highest (m.crosses p x) p.limits := by
    constructor
    · intro hfollows
      rw [← m.reported_at now h hgate hpos]
      exact hfollows.exactly
    · intro heq
      exact ⟨(m.reported_at now h hgate hpos).trans heq,
        fun x' hpos' haway => m.reported_mono now h hgate hpos hpos' haway⟩
  rw [hexact]
  cases p with
  | fuelPressure =>
    refine (fuelPressure_exact_iff _).trans ?_
    simp [Compared]
  | iat =>
    rw [m.iat_exact_iff h]
    simp [Compared]
  | _ => exact iff_of_true rfl ⟨nofun, nofun⟩

end Order

section Rationals

theorem default_ordered (p : TableParameter) : Ordered ({} : WarningManager ℚ) p := by
  have hpresent : ∀ p : TableParameter, ∀ l ∈ p.limits,
      (threshold ({} : WarningManager ℚ) p.name l.type).isSome = true := by
    intro p
    cases p <;> decide +kernel
  refine ⟨fun l hl => Option.isSome_iff_exists.mp (hpresent p l hl), ?_, ?_⟩ <;>
    cases p <;> decide +kernel

/-- The intake air at 55 degrees, in its table as it is. -/
theorem follows_thresholds_warm :
    FollowsThresholds ({} : WarningManager ℚ) (fun _ => 0) .iat 55 ↔
      Compared ({} : WarningManager ℚ) .iat 55 :=
  follows_thresholds_iff {} (fun _ => 0) (default_ordered .iat) trivial (by decide +kernel)

/-- At 20 psi fuel pressure is below all its thresholds, and nothing is reported. -/
theorem fuelPressure_not_reported :
    ¬ ∀ (m : WarningManager ℚ) (now : Parameter → ℕ) (p : TableParameter) (x : ℚ), m.Ordered p →
      m.Gated p → literal 0 < x → m.FollowsThresholds now p x := by
  intro h
  have hexactly := (h {} (fun _ => 0) .fuelPressure 20 (default_ordered _) trivial
    (by decide +kernel)).exactly
  revert hexactly
  decide +kernel

end Rationals

end WarningManager

end SpeeduinoDash
