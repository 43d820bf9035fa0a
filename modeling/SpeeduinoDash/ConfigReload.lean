import SpeeduinoDash.ConfigStores

set_option autoImplicit false

/-!
# Loads after loads

A load starts from what the loads before it left, and one that fails leaves what it has stored so
far.
-/
namespace SpeeduinoDash.ConfigLoader
open Lib.Journal

variable {Node R : Type} [OfScientific R] [Neg R] (y : Yaml Node R)

section Failures

def FailedLoadKeeps (kind : FileKind) (c : ConfigLoader R) (file : Option Node) : Prop :=
  (load y kind c file).2 = false → (load y kind c file).1 = c

/-- Before the statement that throws nothing is appended, and a setting ends as it began. -/
theorem failedLoadKeeps_iff (kind : FileKind) (c : ConfigLoader R) (file : Option Node) :
    FailedLoadKeeps y kind c file ↔
      ((load y kind c file).2 = false →
        (∀ f, ∀ v ∈ lastWritten f (stored y kind file), v = c.setting f) ∧
          ∀ l, allAppended l (stored y kind file) = []) := by
  apply imp_congr_right
  intro _
  rw [load_fst, Ledger.replay_eq_self_iff]
  rfl

/-- The rate limit of the second command is a list. -/
def badRateLimit : YamlTree :=
  .map [("allowed_commands", .sequence [.map [("id", .scalar "0x200")],
    .map [("id", .scalar "0x201"), ("rate_limit", .sequence [.scalar "50"])]])]

theorem command_kept_of_failed_load :
    ¬ ∀ kind c file, FailedLoadKeeps YamlTree.yaml kind c file := by
  intro h
  have hkept := h .system {} (some badRateLimit) (by decide +kernel)
  have hcommands := congrArg (fun c => c.isCommandAllowed 0x200) hkept
  revert hcommands
  decide +kernel

end Failures

section Reloads

def ReloadIsFresh (kind : FileKind) (c : ConfigLoader R) (first second : Option Node) : Prop :=
  (load y kind c first).2 = true → (load y kind c second).2 = true →
    (load y kind (load y kind c first).1 second).1 = (load y kind c second).1

def NoStaleCommand (kind : FileKind) (c : ConfigLoader R) (first second : Option Node) : Prop :=
  ∀ canId, (load y kind (load y kind c first).1 second).1.isCommandAllowed canId = true →
    (load y kind c second).1.isCommandAllowed canId = true

theorem noStaleCommand_iff (kind : FileKind) (c : ConfigLoader R) (first second : Option Node) :
    NoStaleCommand y kind c first second ↔
      ∀ cmd ∈ allAppended .allowedCommands (stored y kind first),
        (load y kind c second).1.isCommandAllowed cmd.canId = true := by
  unfold NoStaleCommand
  rw [load_fst y kind c second, load_fst y kind _ second, load_fst]
  constructor
  · intro h cmd hmem
    apply h
    rw [isCommandAllowed_replay, isCommandAllowed_replay]
    exact .inl (.inr ⟨cmd, hmem, rfl⟩)
  · intro h canId hallowed
    rw [isCommandAllowed_replay, isCommandAllowed_replay] at hallowed
    rcases hallowed with (hbefore | ⟨cmd, hmem, hid⟩) | hsecond
    · exact (isCommandAllowed_replay c _ canId).mpr (.inl hbefore)
    · rw [← hid]
      exact h cmd hmem
    · exact (isCommandAllowed_replay c _ canId).mpr (.inr hsecond)

theorem load_twice_iff (kind : FileKind) (c : ConfigLoader R) (file : Option Node) :
    (load y kind (load y kind c file).1 file).1 = (load y kind c file).1 ↔
      ∀ l, allAppended l (stored y kind file) = [] := by
  rw [load_fst, load_fst, Ledger.replay_twice_iff]

/-- A reload is a fresh load exactly if the first file appends nothing, and leaves the settings
    that the second one leaves alone as they were. Its commands are the allowed ones, and a file
    may be loaded twice if it appends nothing. -/
theorem reload_fresh_iff (kind : FileKind) (c : ConfigLoader R) (first second : Option Node) :
    (ReloadIsFresh y kind c first second ↔
      ((load y kind c first).2 = true → (load y kind c second).2 = true →
        (∀ f, lastWritten f (stored y kind second) = none →
          ∀ v ∈ lastWritten f (stored y kind first), v = c.setting f) ∧
        ∀ l, allAppended l (stored y kind first) = [])) ∧
    (NoStaleCommand y kind c first second ↔
      ∀ cmd ∈ allAppended .allowedCommands (stored y kind first),
        (load y kind c second).1.isCommandAllowed cmd.canId = true) ∧
    ((load y kind (load y kind c first).1 first).1 = (load y kind c first).1 ↔
      ∀ l, allAppended l (stored y kind first) = []) := by
  refine ⟨?_, noStaleCommand_iff y kind c first second, load_twice_iff y kind c first⟩
  apply imp_congr_right
  intro _
  apply imp_congr_right
  intro _
  rw [load_fst y kind c second, load_fst y kind _ second, load_fst, Ledger.replay_replay_iff]
  rfl

def commands (ids : List String) : YamlTree :=
  .map [("allowed_commands", .sequence (ids.map (fun id => .map [("id", .scalar id)])))]

/-- Command `0x201` is taken out of the file and stays allowed. -/
theorem command_allowed_after_reload :
    ¬ ∀ kind first second, ReloadIsFresh YamlTree.yaml kind {} first second := by
  intro h
  have hfresh := h .system (some (commands ["0x200", "0x201"])) (some (commands ["0x200"]))
    (by decide +kernel) (by decide +kernel)
  have hcommands := congrArg (fun c => c.isCommandAllowed 0x201) hfresh
  revert hcommands
  decide +kernel

end Reloads

section Directories

/-- What the files of a directory store; without `can_signals.yaml` the Haltech signals. -/
def storedFromDirectory (dir : Directory Node) : List (ConfigEntry R) :=
  dir.system.elim [] (stored y .system) ++
    (dir.canSignals.elim (appendSignals loadHaltechSignals) (stored y .signals) ++
      dir.steeringWheel.elim [] (stored y .steering))

theorem loadFromDirectory_fst (c : ConfigLoader R) (dir : Directory Node) :
    (loadFromDirectory y c dir).1 = (ledger R).replay c (storedFromDirectory y dir) := by
  obtain ⟨system, canSignals, steeringWheel⟩ := dir
  rw [storedFromDirectory, Ledger.replay_append, Ledger.replay_append]
  cases system <;> cases canSignals <;> cases steeringWheel <;>
    simp [loadFromDirectory, loadSystemConfig, loadSignalsConfig, loadSteeringConfig, load_fst,
      replay_appendSignals]

/-- Without `can_signals.yaml` a directory is never loaded twice to the same effect. -/
theorem loadFromDirectory_twice_iff (c : ConfigLoader R) (dir : Directory Node) :
    (loadFromDirectory y (loadFromDirectory y c dir).1 dir).1 = (loadFromDirectory y c dir).1 ↔
      ∀ l, allAppended l (storedFromDirectory y dir) = [] := by
  rw [loadFromDirectory_fst, loadFromDirectory_fst, Ledger.replay_twice_iff]

end Directories

end SpeeduinoDash.ConfigLoader
