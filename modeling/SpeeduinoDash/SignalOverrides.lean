import SpeeduinoDash.CanParser
import SpeeduinoDash.ConfigReload
import SpeeduinoDash.SignalDatabase

set_option autoImplicit false

/-!
# Which definition of a signal is in force

`can_signals.yaml` picks a built-in table and lists custom definitions. The loader appends both
and looks a name up from the front; the CAN service decodes by the table of the protocol.
-/
namespace SpeeduinoDash
open Lib.Journal Lib.Keyed

variable {Node R : Type} [OfScientific R] [Neg R]

structure SignalsFile (R : Type) where
  useBuiltin : Option String
  signals : List (CanSignalDef R)

namespace SignalsFile

def builtin (content : SignalsFile R) : List (CanSignalDef R) :=
  match content.useBuiltin with
  | some "haltech" => loadHaltechSignals
  | some "bmw" => loadBMWSignals
  | _ => []

def definitions (content : SignalsFile R) : List (CanSignalDef R) :=
  content.builtin ++ content.signals

/-- The last custom definition of the name, the built-in one without any. -/
def configured (content : SignalsFile R) (name : String) : Option (CanSignalDef R) :=
  (lastWhere (fun sig => sig.name == name) content.signals).or
    (content.builtin.find? (fun sig => sig.name == name))

theorem builtin_names (content : SignalsFile R) :
    (content.builtin.map CanSignalDef.name).Nodup := by
  unfold builtin
  split
  · simp [loadHaltechSignals]
  · simp [loadBMWSignals]
  · exact List.nodup_nil

theorem configured_eq (content : SignalsFile R) (name : String) :
    content.configured name = lastWhere (fun sig => sig.name == name) content.definitions := by
  have hbuiltin := lastWhere_filter_of_nodup CanSignalDef.name (fun _ => true)
    content.builtin_names name
  rw [List.filter_true] at hbuiltin
  rw [configured, definitions, lastWhere_append, hbuiltin]
  cases content.builtin.find? (fun sig => sig.name == name) <;> rfl

end SignalsFile

structure Reads (y : Yaml Node R) (config : Node) (content : SignalsFile R) : Prop where
  useBuiltin : match content.useBuiltin with
    | none => y.get config "use_builtin" = some none
    | some builtin => ∃ node, y.get config "use_builtin" = some (some node) ∧
        y.asString node = some builtin
  signals : ∃ sigs, (y.get config "signals").map (fun node => node.elim [] y.elements) = some sigs ∧
    sigs.map y.signal = content.signals.map some

omit [Neg R] in
theorem Reads.custom {y : Yaml Node R} {config : Node} {content : SignalsFile R}
    (h : Reads y config content) :
    y.ifPresent config "signals" (fun signals =>
      (y.elements signals).map (fun sig => (y.signal sig).map (.append .signals))) =
        (ConfigLoader.appendSignals content.signals).map some := by
  obtain ⟨sigs, hsigs, hread⟩ := h.signals
  have happend : sigs.map (fun sig => (y.signal sig).map (Entry.append Listing.signals)) =
      (ConfigLoader.appendSignals content.signals).map some := by
    rw [ConfigLoader.appendSignals, List.map_map]
    have hmapped := congrArg (List.map (Option.map (fun sig : CanSignalDef R =>
      (.append .signals sig : ConfigEntry R)))) hread
    rw [List.map_map, List.map_map] at hmapped
    exact hmapped
  unfold Yaml.ifPresent
  cases hget : y.get config "signals" with
  | none => simp [hget] at hsigs
  | some node =>
    rw [hget] at hsigs
    cases node with
    | none =>
      obtain rfl : [] = sigs := Option.some.inj hsigs
      exact happend
    | some node =>
      obtain rfl : y.elements node = sigs := Option.some.inj hsigs
      exact happend

theorem SignalsFile.definitions_append (content : SignalsFile R) :
    (ConfigLoader.appendSignals content.definitions).map some =
      (ConfigLoader.appendSignals content.builtin).map some ++
        (ConfigLoader.appendSignals content.signals).map some := by
  simp [ConfigLoader.appendSignals, SignalsFile.definitions]

theorem Reads.statements {y : Yaml Node R} {config : Node} {content : SignalsFile R}
    (h : Reads y config content) : y.signalsStatements config =
      (ConfigLoader.appendSignals content.definitions).map some := by
  rw [Yaml.signalsStatements, content.definitions_append, h.custom]
  congr 1
  have huse := h.useBuiltin
  unfold Yaml.ifPresent SignalsFile.builtin
  cases hchoice : content.useBuiltin with
  | none =>
    rw [hchoice] at huse
    rw [huse]
    rfl
  | some builtin =>
    rw [hchoice] at huse
    obtain ⟨node, hget, hstring⟩ := huse
    rw [hget]
    dsimp only
    rw [hstring]
    by_cases hhaltech : builtin = "haltech"
    · subst hhaltech
      simp [ConfigLoader.appendSignals]
    · by_cases hbmw : builtin = "bmw"
      · subst hbmw
        simp [ConfigLoader.appendSignals]
      · simp [ConfigLoader.appendSignals, hhaltech, hbmw]

namespace ConfigLoader

theorem signals_loadFromDirectory (y : Yaml Node R) (dir : Directory Node) {config : Node}
    {content : SignalsFile R} (hfile : dir.canSignals = some (some config))
    (hread : Reads y config content) :
    (loadFromDirectory y {} dir).1.signals = content.definitions := by
  have hsystem : (dir.system.elim (({} : ConfigLoader R), true) (loadSystemConfig y {})).1.signals =
      [] := by
    cases dir.system with
    | none => rfl
    | some file =>
      have hother : FileKind.system.listing ≠ .signals := by decide
      exact load_list y hother {} file
  have hsteering : ∀ c : ConfigLoader R,
      (dir.steeringWheel.elim (c, true) (loadSteeringConfig y c)).1.signals = c.signals := by
    intro c
    cases dir.steeringWheel with
    | none => rfl
    | some file =>
      have hother : FileKind.steering.listing ≠ .signals := by decide
      exact load_list y hother c file
  have hstored : stored y .signals (some config) = appendSignals content.definitions := by
    rw [stored, statements, hread.statements]
    induction appendSignals content.definitions with
    | nil => rfl
    | cons e entries ih => exact congrArg (e :: ·) ih
  rw [loadFromDirectory]
  dsimp only
  rw [hsteering, hfile, Option.elim_some, loadSignalsConfig, load_fst, hstored,
    replay_appendSignals]
  dsimp only
  rw [hsystem, List.nil_append]

end ConfigLoader

/-- The table that the CAN service loads, in the order its parser comes to keep it. -/
def serviceParser (c : ConfigLoader R) (stored : List (CanSignalDef R))
    (hperm : stored.Perm (getSignalsForProtocol c.systemConfig.canProtocol)) : CanParser R :=
  ({} : CanParser R).loadSignals ⟨getSignalsForProtocol c.systemConfig.canProtocol, stored, hperm⟩

def CanParser.definition (p : CanParser R) (name : String) : Option (CanSignalDef R) :=
  p.signalsByCanId.find? (fun signal => signal.name == name)

theorem definition_serviceParser (c : ConfigLoader R) (stored : List (CanSignalDef R))
    (hperm : stored.Perm (getSignalsForProtocol c.systemConfig.canProtocol)) (name : String) :
    (serviceParser c stored hperm).definition name =
      (getSignalsForProtocol c.systemConfig.canProtocol).find? (fun signal => signal.name == name) :=
  find?_perm_of_nodup CanSignalDef.name hperm
    ((hperm.map CanSignalDef.name).nodup_iff.mpr (getSignalsForProtocol_names _)) name

namespace SignalsFile

/-- Of the definitions of the name, the built-in one before the custom ones, the first is the
    last. -/
def FirstIsLast (content : SignalsFile R) (name : String) : Prop :=
  ∀ first last, (content.definitions.filter (fun sig => sig.name == name)).head? = some first →
    (content.definitions.filter (fun sig => sig.name == name)).getLast? = some last → first = last

/-- The table of the protocol has the configured definition under the name, and no other. -/
def MatchesProtocol (content : SignalsFile R) (protocol name : String) : Prop :=
  ∀ signal, signal ∈ (getSignalsForProtocol protocol : List (CanSignalDef R)) ∧
    signal.name = name ↔ content.configured name = some signal

theorem find?_definitions_iff (content : SignalsFile R) (name : String) :
    content.definitions.find? (fun sig => sig.name == name) = content.configured name ↔
      content.FirstIsLast name := by
  rw [content.configured_eq, lastWhere, FirstIsLast, ← List.head?_filter]
  cases content.definitions.filter (fun sig => sig.name == name) with
  | nil => simp
  | cons sig sigs =>
    rw [List.head?_cons, List.getLast?_cons]
    constructor
    · intro heq first last hfirst hlast
      exact Option.some.inj (hfirst.symm.trans (heq.trans hlast))
    · intro hsame
      exact congrArg some (hsame _ _ rfl rfl)

theorem find?_protocol_iff (content : SignalsFile R) (protocol name : String) :
    (getSignalsForProtocol protocol).find? (fun sig => sig.name == name) =
        content.configured name ↔ content.MatchesProtocol protocol name := by
  have hfind := find?_eq_some_iff_of_nodup CanSignalDef.name
    (getSignalsForProtocol_names (R := R) protocol) name
  unfold MatchesProtocol
  constructor
  · intro heq signal
    rw [← heq, hfind]
  · intro hmatches
    apply Option.ext
    intro signal
    rw [hfind, hmatches]

end SignalsFile

/-- The configured definition is the one in force in the loader exactly if no definition of the
    name overrides another, and in the service exactly if the table of the protocol has it too. -/
theorem configured_in_force_iff (y : Yaml Node R) (dir : ConfigLoader.Directory Node)
    {config : Node} {content : SignalsFile R} (hfile : dir.canSignals = some (some config))
    (hread : Reads y config content) (stored : List (CanSignalDef R))
    (hperm : stored.Perm (getSignalsForProtocol
      (ConfigLoader.loadFromDirectory y {} dir).1.systemConfig.canProtocol)) (name : String) :
    (ConfigLoader.loadFromDirectory y {} dir).1.findSignal name = content.configured name ∧
        (serviceParser (ConfigLoader.loadFromDirectory y {} dir).1 stored hperm).definition name =
          content.configured name ↔
      content.FirstIsLast name ∧ content.MatchesProtocol
        (ConfigLoader.loadFromDirectory y {} dir).1.systemConfig.canProtocol name := by
  rw [definition_serviceParser, content.find?_protocol_iff, ConfigLoader.findSignal,
    ConfigLoader.signals_loadFromDirectory y dir hfile hread, content.find?_definitions_iff]

def rpmOverride : YamlTree :=
  .map [("use_builtin", .scalar "haltech"), ("signals", .sequence [.map [("name", .scalar "rpm"),
    ("can_id", .scalar "0x5F0"), ("start_byte", .scalar "6"), ("length_bits", .scalar "16")]])]

def customRpm : CanSignalDef ℚ where
  name := "rpm"
  canId := 0x5F0
  startByte := 6
  lengthBits := 16
  scale := 1.0
  offset := 0.0

theorem rpmOverride_reads :
    Reads YamlTree.yaml rpmOverride ⟨some "haltech", [customRpm]⟩ where
  useBuiltin := ⟨.scalar "haltech", rfl, rfl⟩
  signals := by
    refine ⟨_, rfl, ?_⟩
    rfl

def overridden : ConfigLoader.Directory YamlTree := ⟨none, some (some rpmOverride), none⟩

theorem configured_in_force_iff_rpm :
    let c := (ConfigLoader.loadFromDirectory YamlTree.yaml {} overridden).1
    let content : SignalsFile ℚ := ⟨some "haltech", [customRpm]⟩
    c.findSignal "rpm" = content.configured "rpm" ∧
        (serviceParser c _ (List.Perm.refl _)).definition "rpm" = content.configured "rpm" ↔
      content.FirstIsLast "rpm" ∧ content.MatchesProtocol c.systemConfig.canProtocol "rpm" :=
  configured_in_force_iff YamlTree.yaml overridden rfl rpmOverride_reads _ (List.Perm.refl _) "rpm"

theorem rpm_override_ignored :
    ¬ ∀ (y : Yaml YamlTree ℚ) (dir : ConfigLoader.Directory YamlTree) (config : YamlTree)
      (content : SignalsFile ℚ) (name : String), dir.canSignals = some (some config) →
      Reads y config content →
      (ConfigLoader.loadFromDirectory y {} dir).1.findSignal name = content.configured name ∧
        (serviceParser (ConfigLoader.loadFromDirectory y {} dir).1 _
          (List.Perm.refl _)).definition name = content.configured name := by
  intro hclaim
  have hrpm := hclaim YamlTree.yaml overridden rpmOverride _ "rpm" rfl rpmOverride_reads
  have hids := congrArg (Option.map CanSignalDef.canId) hrpm.1
  exact absurd hids (by decide +kernel)

end SpeeduinoDash
