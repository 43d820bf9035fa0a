import SpeeduinoDash.ConfigFiles

set_option autoImplicit false

/-!
# What a file stores

Each kind of file has one list that it appends to, and only the system file has settings.
-/
namespace SpeeduinoDash
open Lib.Journal

def FileKind.listing : FileKind → Listing
  | .system => .allowedCommands
  | .signals => .signals
  | .steering => .steeringButtons

def FileKind.stores {R : Type} : FileKind → ConfigEntry R → Bool
  | .system, .set _ _ => true
  | .system, .append .allowedCommands _ => true
  | .signals, .append .signals _ => true
  | .steering, .append .steeringButtons _ => true
  | _, _ => false

namespace ConfigLoader

variable {Node R : Type} {y : Yaml Node R}

section Statements

def Within (kind : FileKind) (statements : List (Option (ConfigEntry R))) : Prop :=
  ∀ e, some e ∈ statements → kind.stores e = true

theorem within_append {kind : FileKind} {xs ys : List (Option (ConfigEntry R))}
    (hxs : Within kind xs) (hys : Within kind ys) : Within kind (xs ++ ys) := by
  intro e he
  rcases List.mem_append.mp he with he | he
  · exact hxs e he
  · exact hys e he

theorem within_throw (kind : FileKind) : Within kind [(none : Option (ConfigEntry R))] := by
  intro e he
  simp at he

theorem within_map {α : Type} {kind : FileKind} {xs : List α} {f : α → Option (ConfigEntry R)}
    (h : ∀ x ∈ xs, ∀ e, f x = some e → kind.stores e = true) : Within kind (xs.map f) := by
  intro e he
  obtain ⟨x, hmem, hx⟩ := List.mem_map.mp he
  exact h x hmem e hx

theorem within_ifPresent {kind : FileKind} {node : Node} {key : String}
    {body : Node → List (Option (ConfigEntry R))} (h : ∀ n, Within kind (body n)) :
    Within kind (y.ifPresent node key body) := by
  unfold Yaml.ifPresent
  split
  · exact within_throw kind
  · intro e he
    cases he
  · exact h _

theorem within_assign (node : Node) (key : String) (f : Setting) (as : Node → Option f.Value) :
    Within .system (y.assign node key f as) := by
  apply within_ifPresent
  intro n e he
  rw [List.mem_singleton] at he
  obtain ⟨v, -, rfl⟩ := Option.map_eq_some_iff.mp he.symm
  rfl

theorem within_appends {α : Type} {kind : FileKind} {l : Listing} (xs : List α)
    (f : α → Option (l.Item R)) (h : ∀ item : l.Item R, kind.stores (.append l item) = true) :
    Within kind (xs.map (fun x => (f x).map (.append l))) := by
  apply within_map
  intro x _ e he
  obtain ⟨item, -, rfl⟩ := Option.map_eq_some_iff.mp he
  exact h item

theorem within_preset (preset : String) :
    Within .system ((presetEntries R preset).map some) := by
  have hentries : ∀ e ∈ presetEntries R preset, FileKind.system.stores e = true := by
    unfold presetEntries
    split_ifs <;> simp [FileKind.stores]
  apply within_map
  intro e hmem e' he
  cases he
  exact hentries e hmem

theorem within_reverse (rev : Node) : Within .system (y.reverseStatements rev) := by
  unfold Yaml.reverseStatements
  repeat apply within_append
  · apply within_ifPresent
    intro n
    split
    · exact within_throw .system
    · exact within_preset _
  all_goals apply within_assign

theorem within_system (config : Node) : Within .system (y.systemStatements config) := by
  unfold Yaml.systemStatements
  repeat apply within_append
  · apply within_ifPresent
    intro can
    repeat apply within_append
    all_goals apply within_assign
  · apply within_ifPresent
    intro zmq
    apply within_assign
  · apply within_ifPresent
    intro cam
    repeat apply within_append
    all_goals apply within_assign
  · apply within_ifPresent
    intro oa
    apply within_assign
  · apply within_ifPresent
    intro rev
    exact within_reverse rev
  · apply within_ifPresent
    intro commands
    exact within_appends (l := .allowedCommands) _ y.command (fun _ => rfl)

theorem within_steering (config : Node) : Within .steering (y.steeringStatements config) := by
  apply within_ifPresent
  intro buttons
  exact within_appends (l := .steeringButtons) _ y.button (fun _ => rfl)

end Statements

variable [OfScientific R] [Neg R]

theorem within_signals (config : Node) : Within .signals (y.signalsStatements config) := by
  unfold Yaml.signalsStatements
  apply within_append
  · apply within_ifPresent
    intro n
    split
    · exact within_throw .signals
    · exact within_appends (l := .signals) loadHaltechSignals some (fun _ => rfl)
    · exact within_appends (l := .signals) loadBMWSignals some (fun _ => rfl)
    · intro e he
      cases he
  · apply within_ifPresent
    intro signals
    exact within_appends (l := .signals) _ y.signal (fun _ => rfl)

variable (y)

/-- What a load stores, up to the statement that throws. -/
def stored (kind : FileKind) (file : Option Node) : List (ConfigEntry R) :=
  entered (statements y kind file)

theorem load_fst (kind : FileKind) (c : ConfigLoader R) (file : Option Node) :
    (load y kind c file).1 = (ledger R).replay c (stored y kind file) := by
  rw [load, Ledger.attempt_eq]
  rfl

theorem stores_of_mem_stored {kind : FileKind} {file : Option Node} {e : ConfigEntry R}
    (he : e ∈ stored y kind file) : kind.stores e = true := by
  have hmem : some e ∈ statements y kind file := mem_of_mem_entered he
  cases file with
  | none => exact within_throw kind e hmem
  | some config =>
    cases kind with
    | system => exact within_system config e hmem
    | signals => exact within_signals config e hmem
    | steering => exact within_steering config e hmem

theorem load_setting {kind : FileKind} (hkind : kind ≠ .system) (c : ConfigLoader R)
    (file : Option Node) : (load y kind c file).1.setting = c.setting := by
  funext f
  have hnone : lastWritten f (stored y kind file) = none := by
    apply lastWritten_eq_none
    intro e he
    have hstores := stores_of_mem_stored y he
    cases e with
    | set g v =>
      cases kind with
      | system => exact absurd rfl hkind
      | signals => cases hstores
      | steering => cases hstores
    | append l item => rfl
  have hreplay := (ledger R).setting_replay c (stored y kind file) f
  rw [hnone] at hreplay
  rw [load_fst]
  exact hreplay

theorem load_list {kind : FileKind} {l : Listing} (hkind : kind.listing ≠ l) (c : ConfigLoader R)
    (file : Option Node) : (load y kind c file).1.list l = c.list l := by
  have hnone : allAppended l (stored y kind file) = [] := by
    apply allAppended_eq_nil
    intro e he
    have hstores := stores_of_mem_stored y he
    cases e with
    | set g v => rfl
    | append k item =>
      apply dif_neg
      intro hk
      subst hk
      cases kind <;> cases k <;> first | exact absurd rfl hkind | cases hstores
  have hreplay := (ledger R).list_replay c (stored y kind file) l
  rw [hnone, List.append_nil] at hreplay
  rw [load_fst]
  exact hreplay

end ConfigLoader

end SpeeduinoDash
