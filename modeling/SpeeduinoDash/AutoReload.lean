import SpeeduinoDash.ConfigWatcher
import SpeeduinoDash.Lib.Alternation
import SpeeduinoDash.WatchTable

set_option autoImplicit false

/-!
# Reloading a file that is replaced

A save that renames a new file over the old one reaches a watch on the directory as `IN_MOVED_TO`.
A watch on the file itself belongs to the old inode and ends with it.
-/
namespace SpeeduinoDash
open Lib.Alternation Lib.Runs

def inIgnored : UInt32 := 0x8000

structure AutoReloadConfig where
  path : String
  table : WatchTable
  watcher : ConfigWatcher

namespace AutoReloadConfig

/-- What `stat` finds of the path, and the descriptor of a new kernel watch. -/
def new (path : String) (found : Option (ℕ × Bool)) (fresh : Option ℕ) : AutoReloadConfig where
  path := path
  table := (WatchTable.addPath { initialized := true } path found fresh).2
  watcher := { callback := true }

def reloads (told : ConfigChangeEvent) : Bool :=
  decide (told.type = .modified ∨ told.type = .created)

def onEvent (a : AutoReloadConfig) (wd : ℤ) (e : InotifyEvent) :
    AutoReloadConfig × List String :=
  let watchPath := a.table.watchPath wd
  if watchPath = "" then (a, [])
  else
    let (watcher, told) := a.watcher.processEvent watchPath e
    ({ a with watcher := watcher }, (told.filter reloads).toList.map ConfigChangeEvent.path)

end AutoReloadConfig

structure Place where
  directory : ℕ
  name : String
  inode : ℕ

/-- The file is replaced by one of the directory, if `source` is its name there, or of another.
    `gone` is whether the old inode goes with its name. Otherwise something happens to another name
    of the directory. -/
inductive Happening where
  | replaced (time : ℤ) (source : Option String) (inode : ℕ) (gone : Bool)
  | elsewhere (e : InotifyEvent)

namespace Happening

def replaces : Happening → Bool
  | .replaced _ _ _ _ => true
  | .elsewhere _ => false

def Spares (name : String) : Happening → Prop
  | .replaced _ source _ _ => source ≠ some name
  | .elsewhere e => e.filename ≠ name

end Happening

namespace Place

def reported (place : Place) (watched : ℕ) : Happening → List InotifyEvent
  | .replaced time source _ gone =>
    if watched = place.directory then
      source.toList.map (fun name => ⟨time, inMovedFrom, name⟩) ++
        [⟨time, inMovedTo, place.name⟩]
    else if watched = place.inode ∧ gone = true then [⟨time, inIgnored, ""⟩]
    else []
  | .elsewhere e => if watched = place.directory then [e] else []

def after (place : Place) : Happening → Place
  | .replaced _ _ inode _ => { place with inode := inode }
  | .elsewhere _ => place

end Place

namespace AutoReloadConfig

def onEvents (a : AutoReloadConfig) (events : List (ℤ × InotifyEvent)) :
    AutoReloadConfig × List String :=
  (run (next fun a e => a.onEvent e.1 e.2) a events,
    emitted (fun a e => a.onEvent e.1 e.2) a events)

/-- Every kernel watch is told what it can see, and the watcher takes it at once. -/
def react (s : AutoReloadConfig × Place) (h : Happening) :
    (AutoReloadConfig × Place) × List String :=
  let events := s.1.table.kernel.watches.flatMap fun watch =>
    (s.2.reported watch.1 h).map fun e => (watch.2, e)
  let (a, calls) := s.1.onEvents events
  ((a, s.2.after h), calls)

section Calls

variable {a : AutoReloadConfig} {wd : ℤ} {e : InotifyEvent}

theorem table_onEvent : (a.onEvent wd e).1.table = a.table := by
  unfold onEvent
  dsimp only
  split_ifs <;> rfl

theorem call_onEvent {call : String} (h : call ∈ (a.onEvent wd e).2) :
    call = ConfigWatcher.fullPath (a.table.watchPath wd) e.filename ∧
      ConfigWatcher.isChange e.mask = true ∧
      (ConfigWatcher.changeType e.mask = .modified ∨
        ConfigWatcher.changeType e.mask = .created) := by
  unfold onEvent ConfigWatcher.processEvent at h
  dsimp only at h
  split_ifs at h with hempty hdebounced hchange hcallback
  · cases h
  · cases h
  · cases hreloads : reloads ⟨ConfigWatcher.fullPath (a.table.watchPath wd) e.filename,
        ConfigWatcher.changeType e.mask, e.time⟩ with
    | true =>
      rw [Option.filter_some_pos hreloads] at h
      exact ⟨List.mem_singleton.mp h, hchange, of_decide_eq_true hreloads⟩
    | false =>
      rw [Option.filter_some_neg hreloads] at h
      cases h
  · cases h
  · cases h

theorem table_onEvents (events : List (ℤ × InotifyEvent)) :
    (a.onEvents events).1.table = a.table := by
  refine run_invariant _ (fun a' : AutoReloadConfig => a'.table = a.table) ?_ rfl events
  intro a' e h
  exact table_onEvent.trans h

theorem call_onEvents {events : List (ℤ × InotifyEvent)} {call : String}
    (h : call ∈ (a.onEvents events).2) : ∃ e ∈ events,
      call = ConfigWatcher.fullPath (a.table.watchPath e.1) e.2.filename ∧
      ConfigWatcher.isChange e.2.mask = true ∧
      (ConfigWatcher.changeType e.2.mask = .modified ∨
        ConfigWatcher.changeType e.2.mask = .created) := by
  unfold onEvents at h
  dsimp only at h
  induction events generalizing a with
  | nil => cases h
  | cons e events ih =>
    rcases List.mem_append.mp h with hfirst | hrest
    · exact ⟨e, List.mem_cons_self, call_onEvent hfirst⟩
    · obtain ⟨e', he', hcall⟩ := ih hrest
      have htable : (next (fun a e => a.onEvent e.1 e.2) a e).table = a.table := table_onEvent
      rw [htable] at hcall
      exact ⟨e', List.mem_cons_of_mem e he', hcall⟩

end Calls

section Paths

theorem fullPath_append (watchPath : String) : ∃ separator,
    ∀ name, name ≠ "" → ConfigWatcher.fullPath watchPath name = watchPath ++ (separator ++ name) := by
  unfold ConfigWatcher.fullPath
  by_cases hslash : watchPath.toList.getLast? = some '/'
  · refine ⟨"", fun name hname => ?_⟩
    rw [if_neg hname, if_pos hslash, String.empty_append]
  · refine ⟨"/", fun name hname => ?_⟩
    rw [if_neg hname, if_neg hslash, String.append_assoc]

theorem fullPath_ne {watchPath filename name : String} (hname : name ≠ "")
    (h : filename ≠ name) :
    ConfigWatcher.fullPath watchPath filename ≠ ConfigWatcher.fullPath watchPath name := by
  obtain ⟨separator, happend⟩ := fullPath_append watchPath
  rw [happend name hname]
  by_cases hempty : filename = ""
  · subst hempty
    intro heq
    have hsame : watchPath ++ "" = watchPath ++ (separator ++ name) := by
      rw [String.append_empty]
      exact heq
    have hnone := (String.append_eq_empty_iff.mp
      ((String.append_right_inj watchPath).mp hsame).symm).2
    exact hname hnone
  · rw [happend filename hempty]
    intro heq
    have hsame := (String.append_right_inj watchPath).mp heq
    exact h ((String.append_right_inj separator).mp hsame)

end Paths

section Runs

/-- The path given is the file, or its directory; with it, what `stat` finds of the path, and the
    path that the file is to be reloaded from. -/
inductive Given (place : Place) (path : String) : Option (ℕ × Bool) → String → Prop where
  | file : Given place path (some (place.inode, false)) path
  | directory : Given place path (some (place.directory, true))
      (ConfigWatcher.fullPath path place.name)

def Watching (a : AutoReloadConfig) (path : String) (watched wd : ℕ) : Prop :=
  a.table.kernel.watches = [(watched, (wd : ℤ))] ∧ a.table.watchPath wd = path

theorem watching_new (path : String) (watched : ℕ) (isDir : Bool) (wd : ℕ) :
    Watching (new path (some (watched, isDir)) (some wd)) path watched wd := by
  have hwd : ¬ (wd : ℤ) < 0 := by omega
  have hnew : (new path (some (watched, isDir)) (some wd)).table =
      { initialized := true
        watches := [⟨path, wd, isDir⟩]
        wdToIndex := Function.update (fun _ => none) (wd : ℤ) (some 0)
        kernel := ⟨[(watched, wd)]⟩
        inodeOf := Function.update (fun _ => 0) path watched } := by
    simp [new, WatchTable.addPath, InotifyKernel.addWatch, InotifyKernel.live, hwd]
  unfold Watching
  rw [hnew]
  refine ⟨rfl, ?_⟩
  simp [WatchTable.watchPath]

variable {path : String} {watched wd directory : ℕ} {name : String}
  {s : AutoReloadConfig × Place} {ops : List Happening}

structure Steady (path : String) (watched wd directory : ℕ) (name : String)
    (s : AutoReloadConfig × Place) : Prop where
  watching : Watching s.1 path watched wd
  directory : s.2.directory = directory
  name : s.2.name = name

theorem Steady.next (hs : Steady path watched wd directory name s) (h : Happening) :
    Steady path watched wd directory name (Lib.Alternation.next react s h) := by
  obtain ⟨hwatching, hdirectory, hname⟩ := hs
  refine ⟨?_, ?_, ?_⟩
  · have htable : (Lib.Alternation.next react s h).1.table = s.1.table := table_onEvents _
    unfold Watching
    rw [htable]
    exact hwatching
  · cases h <;> exact hdirectory
  · cases h <;> exact hname

theorem Steady.run (hs : Steady path watched wd directory name s) (ops : List Happening) :
    Steady path watched wd directory name (run (Lib.Alternation.next react) s ops) :=
  run_invariant _ (Steady path watched wd directory name) (fun _ h hs => hs.next h) hs ops

theorem Steady.call (hs : Steady path watched wd directory name s) {h : Happening} {call : String}
    (hcall : call ∈ (react s h).2) : ∃ e ∈ s.2.reported watched h,
      call = ConfigWatcher.fullPath path e.filename ∧
      ConfigWatcher.isChange e.mask = true ∧
      (ConfigWatcher.changeType e.mask = .modified ∨
        ConfigWatcher.changeType e.mask = .created) := by
  obtain ⟨e, he, hpath, hcall⟩ := call_onEvents hcall
  rw [hs.watching.1, List.flatMap_singleton] at he
  obtain ⟨e', he', rfl⟩ := List.mem_map.mp he
  rw [hs.watching.2] at hpath
  exact ⟨e', he', hpath, hcall⟩

theorem not_reloaded_of_reported {place : Place} {time : ℤ} {source : Option String} {inode : ℕ}
    {gone : Bool} {e : InotifyEvent}
    (he : e ∈ place.reported watched (.replaced time source inode gone))
    (hchange : ConfigWatcher.isChange e.mask = true) :
    ¬ (ConfigWatcher.changeType e.mask = .modified ∨
      ConfigWatcher.changeType e.mask = .created) := by
  have hmask : e.mask = inMovedFrom ∨ e.mask = inMovedTo ∨ e.mask = inIgnored := by
    unfold Place.reported at he
    dsimp only at he
    split_ifs at he
    · rcases List.mem_append.mp he with hfrom | hto
      · obtain ⟨name, -, rfl⟩ := List.mem_map.mp hfrom
        exact .inl rfl
      · rw [List.mem_singleton.mp hto]
        exact .inr (.inl rfl)
    · rw [List.mem_singleton.mp he]
      exact .inr (.inr rfl)
    · cases he
  revert hchange
  rcases hmask with hmask | hmask | hmask
  · rw [hmask]
    decide
  · rw [hmask]
    decide
  · rw [hmask]
    decide

theorem Steady.replaced (hs : Steady path watched wd directory name s) {h : Happening}
    (hreplaces : h.replaces = true) : (react s h).2 = [] := by
  rw [List.eq_nil_iff_forall_not_mem]
  intro call hcall
  obtain ⟨e, he, -, hchange, htype⟩ := hs.call hcall
  cases h with
  | replaced time source inode gone => exact not_reloaded_of_reported he hchange htype
  | elsewhere e => cases hreplaces

theorem Steady.emitted_replaced (hs : Steady path watched wd directory name s)
    (hops : ∀ h ∈ ops, h.replaces = true) : emitted react s ops = [] := by
  induction ops generalizing s with
  | nil => rfl
  | cons h ops ih =>
    rw [emitted, hs.replaced (hops h List.mem_cons_self), List.nil_append]
    exact ih (hs.next h) fun h' hh' => hops h' (List.mem_cons_of_mem h hh')

/-- What happens to another name never reloads the file. -/
theorem Steady.not_emitted {target : String} (hs : Steady path watched wd directory name s)
    (hname : name ≠ "")
    (htarget : watched = directory → target = ConfigWatcher.fullPath path name)
    (hops : ∀ h ∈ ops, h.Spares name) : target ∉ emitted react s ops := by
  induction ops generalizing s with
  | nil => nofun
  | cons h ops ih =>
    rw [emitted, List.mem_append, not_or]
    refine ⟨?_, ih (hs.next h) fun h' hh' => hops h' (List.mem_cons_of_mem h hh')⟩
    intro hcall
    cases h with
    | replaced time source inode gone =>
      rw [hs.replaced rfl] at hcall
      cases hcall
    | elsewhere e =>
      have hspares : e.filename ≠ name := hops _ List.mem_cons_self
      obtain ⟨e', he', hpath, -⟩ := hs.call hcall
      unfold Place.reported at he'
      dsimp only at he'
      split_ifs at he' with hwatched
      · obtain rfl := List.mem_singleton.mp he'
        rw [htarget (hwatched.trans hs.directory)] at hpath
        exact fullPath_ne hname hspares hpath.symm
      · cases he'

/-- Each replacement is followed by a reload of the file before the next one. -/
def Followed (s : AutoReloadConfig × Place) (target : String) (ops : List Happening) : Prop :=
  ∀ pre h rest, pre ++ h :: rest = ops → h.replaces = true →
    target ∈ emitted react (run (Lib.Alternation.next react) s pre)
      (h :: rest.takeWhile (fun h => !h.replaces))

theorem Given.steady {place : Place} {found : Option (ℕ × Bool)} {target : String}
    (hgiven : Given place path found target) (hinode : place.inode ≠ place.directory) (wd : ℕ) :
    ∃ watched, Steady path watched wd place.directory place.name
        (new path found (some wd), place) ∧
      (watched = place.directory → target = ConfigWatcher.fullPath path place.name) := by
  cases hgiven with
  | file =>
    exact ⟨place.inode, ⟨watching_new path place.inode false wd, rfl, rfl⟩,
      fun h => absurd h hinode⟩
  | directory =>
    exact ⟨place.directory, ⟨watching_new path place.directory true wd, rfl, rfl⟩, fun _ => rfl⟩

/-- Only a run without replacements keeps the promise, at whatever times they come, and a run of
    replacements calls the reload function for nothing at all. -/
theorem replaced_never_reloaded (place : Place) (path : String) (found : Option (ℕ × Bool))
    (target : String) (hgiven : Given place path found target) (hname : place.name ≠ "")
    (hinode : place.inode ≠ place.directory) (wd : ℕ) (ops : List Happening)
    (hops : ∀ h ∈ ops, h.Spares place.name) :
    (Followed (new path found (some wd), place) target ops ↔
      ops.any Happening.replaces = false) ∧
    ((∀ h ∈ ops, h.replaces = true) →
      emitted react (new path found (some wd), place) ops = []) := by
  obtain ⟨watched, hsteady, htarget⟩ := hgiven.steady hinode wd
  refine ⟨⟨fun hfollowed => ?_, fun hnone pre h rest hsplit hreplaces => ?_⟩,
    hsteady.emitted_replaced⟩
  · rw [List.any_eq_false]
    intro h hh hreplaces
    obtain ⟨pre, rest, rfl⟩ := List.append_of_mem hh
    have hcall := hfollowed pre h rest rfl hreplaces
    refine (hsteady.run pre).not_emitted hname htarget ?_ hcall
    intro h' hh'
    rcases List.mem_cons.mp hh' with rfl | hh'
    · exact hops h' hh
    · have hrest := (List.takeWhile_sublist _).subset hh'
      exact hops h' (List.mem_append_right pre (List.mem_cons_of_mem h hrest))
  · rw [List.any_eq_false] at hnone
    exact absurd hreplaces (hnone h (hsplit ▸ List.mem_append_right pre List.mem_cons_self))

def systemYaml : Place := ⟨1, "system.yaml", 2⟩

def savedTwice : List Happening :=
  [.replaced 0 (some "system.yaml.tmp") 3 true, .replaced 1000000000 (some "system.yaml.tmp") 4 true]

theorem replaced_never_reloaded_savedTwice :
    (Followed (new "/etc/speeduino" (some (1, true)) (some 1), systemYaml)
        "/etc/speeduino/system.yaml" savedTwice ↔ savedTwice.any Happening.replaces = false) ∧
    ((∀ h ∈ savedTwice, h.replaces = true) →
      emitted react (new "/etc/speeduino" (some (1, true)) (some 1), systemYaml) savedTwice =
        []) := by
  have hgiven : Given systemYaml "/etc/speeduino" (some (1, true)) "/etc/speeduino/system.yaml" :=
    .directory
  refine replaced_never_reloaded systemYaml "/etc/speeduino" _ _ hgiven (by decide) (by decide) 1
    savedTwice ?_
  simp [savedTwice, Happening.Spares, systemYaml]

theorem saves_not_followed :
    ¬ Followed (new "/etc/speeduino" (some (1, true)) (some 1), systemYaml)
        "/etc/speeduino/system.yaml" savedTwice ∧
    ¬ Followed (new "/etc/speeduino/system.yaml" (some (2, false)) (some 1), systemYaml)
        "/etc/speeduino/system.yaml" savedTwice := by
  constructor
  · intro hfollowed
    have hcall := hfollowed [] _ _ rfl rfl
    revert hcall
    decide +kernel
  · intro hfollowed
    have hcall := hfollowed [] _ _ rfl rfl
    revert hcall
    decide +kernel

end Runs

end AutoReloadConfig

end SpeeduinoDash
