import Mathlib.Data.Int.Notation
import Mathlib.Data.List.Nodup
import SpeeduinoDash.Lib.IndexMap
import SpeeduinoDash.Lib.Runs

set_option autoImplicit false

/-!
# The watch table

What `stat` finds and which descriptor a new kernel watch gets are arguments. The kernel keeps one
watch for an inode.
-/
namespace SpeeduinoDash
open Lib.IndexMap Lib.Runs

structure WatchEntry where
  path : String
  watchDescriptor : ℤ := -1
  isDirectory : Bool := false

structure InotifyKernel where
  watches : List (ℕ × ℤ) := []

namespace InotifyKernel

def live (k : InotifyKernel) (wd : ℤ) : Bool := k.watches.any (fun watch => watch.2 == wd)

/-- An inode that is watched has its descriptor already. A new one is not in use. -/
def addWatch (k : InotifyKernel) (inode : ℕ) (fresh : Option ℕ) : ℤ × InotifyKernel :=
  match k.watches.lookup inode with
  | some wd => (wd, k)
  | none =>
    match fresh with
    | none => (-1, k)
    | some wd => if k.live wd then (-1, k) else (wd, ⟨(inode, wd) :: k.watches⟩)

def rmWatch (k : InotifyKernel) (wd : ℤ) : InotifyKernel :=
  ⟨k.watches.filter (fun watch => watch.2 != wd)⟩

/-- An entry without a descriptor has no watch. -/
def release (k : InotifyKernel) (watch : WatchEntry) : InotifyKernel :=
  if watch.watchDescriptor ≥ 0 then k.rmWatch watch.watchDescriptor else k

end InotifyKernel

/-- `inodeOf` is for the proofs: the inode that a path had when it was added. -/
structure WatchTable where
  initialized : Bool
  watches : List WatchEntry := []
  wdToIndex : ℤ → Option ℕ := fun _ => none
  kernel : InotifyKernel := {}
  inodeOf : String → ℕ := fun _ => 0

namespace WatchTable

/-- `found` is the inode and whether it is a directory. -/
def addPath (t : WatchTable) (path : String) (found : Option (ℕ × Bool)) (fresh : Option ℕ) :
    Bool × WatchTable :=
  if t.initialized = false then (false, t)
  else if t.watches.any (fun watch => watch.path == path) then (true, t)
  else
    match found with
    | none => (false, t)
    | some (inode, isDir) =>
      let (wd, kernel) := t.kernel.addWatch inode fresh
      if wd < 0 then (false, { t with kernel := kernel })
      else
        (true,
          { t with
            kernel := kernel
            wdToIndex := Function.update t.wdToIndex wd (some t.watches.length)
            watches := t.watches ++ [⟨path, wd, isDir⟩]
            inodeOf := Function.update t.inodeOf path inode })

def indexFrom (map : ℤ → Option ℕ) (i : ℕ) : List WatchEntry → ℤ → Option ℕ
  | [] => map
  | watch :: watches =>
    indexFrom
      (if watch.watchDescriptor ≥ 0 then Function.update map watch.watchDescriptor (some i) else map)
      (i + 1) watches

/-- The map is emptied and filled again. -/
def removePath (t : WatchTable) (path : String) : Bool × WatchTable :=
  match t.watches.find? (fun watch => watch.path == path) with
  | none => (false, t)
  | some watch =>
    let watches := t.watches.eraseP (fun watch => watch.path == path)
    (true,
      { t with
        kernel := t.kernel.release watch
        watches := watches
        wdToIndex := indexFrom (fun _ => none) 0 watches })

def clearPaths (t : WatchTable) : WatchTable :=
  { t with
    kernel := t.watches.foldl InotifyKernel.release t.kernel
    watches := []
    wdToIndex := fun _ => none }

def getWatchedPaths (t : WatchTable) : List String := t.watches.map WatchEntry.path

/-- The path that an event of the descriptor is taken for; empty if it is dropped. -/
def watchPath (t : WatchTable) (wd : ℤ) : String :=
  match t.wdToIndex wd with
  | none => ""
  | some i =>
    match t.watches[i]? with
    | none => ""
    | some watch => watch.path

inductive Op where
  | addPath (path : String) (found : Option (ℕ × Bool)) (fresh : Option ℕ)
  | removePath (path : String)
  | clearPaths

def step (t : WatchTable) : Op → WatchTable
  | .addPath path found fresh => (t.addPath path found fresh).2
  | .removePath path => (t.removePath path).2
  | .clearPaths => t.clearPaths

section Invariant

/-- The map leads from the live descriptors of the entries to entries with them, and the kernel
    watches every path that is listed. -/
structure Consistent (t : WatchTable) : Prop where
  leads : ∀ wd i, t.wdToIndex wd = some i →
    ∃ watch, t.watches[i]? = some watch ∧ watch.watchDescriptor = wd
  domain : ∀ wd, t.wdToIndex wd ≠ none ↔
    (∃ watch ∈ t.watches, watch.watchDescriptor = wd) ∧ t.kernel.live wd = true
  watched : ∀ path ∈ t.getWatchedPaths, ∃ watch ∈ t.watches, watch.path = path ∧
    (t.inodeOf path, watch.watchDescriptor) ∈ t.kernel.watches

structure WellFormed (t : WatchTable) : Prop where
  paths : t.getWatchedPaths.Nodup
  indexes : Indexes WatchEntry.watchDescriptor t.wdToIndex t.watches
  descriptors : ∀ watch ∈ t.watches, 0 ≤ watch.watchDescriptor
  kernel : ∀ watch ∈ t.kernel.watches, 0 ≤ watch.2

def AllLive (t : WatchTable) : Prop :=
  ∀ watch ∈ t.watches, (t.inodeOf watch.path, watch.watchDescriptor) ∈ t.kernel.watches

variable {t : WatchTable}

theorem live_of_mem {k : InotifyKernel} {inode : ℕ} {wd : ℤ} (h : (inode, wd) ∈ k.watches) :
    k.live wd = true :=
  List.any_eq_true.mpr ⟨(inode, wd), h, beq_self_eq_true wd⟩

theorem eq_of_path (h : WellFormed t) {watch watch' : WatchEntry} (hmem : watch ∈ t.watches)
    (hmem' : watch' ∈ t.watches) (hpath : watch.path = watch'.path) : watch = watch' :=
  List.inj_on_of_nodup_map h.paths hmem hmem' hpath

theorem consistent_iff (h : WellFormed t) : Consistent t ↔ AllLive t := by
  constructor
  · intro hcon watch hwatch
    obtain ⟨watch', hwatch', hpath, hlive⟩ :=
      hcon.watched watch.path (List.mem_map_of_mem hwatch)
    rw [eq_of_path h hwatch' hwatch hpath] at hlive
    exact hlive
  · intro hlive
    refine ⟨h.indexes.leads, fun wd => ?_, fun path hpath => ?_⟩
    · rw [h.indexes.ne_none_iff wd]
      refine (and_iff_left_of_imp ?_).symm
      rintro ⟨watch, hwatch, rfl⟩
      exact live_of_mem (hlive watch hwatch)
    · obtain ⟨watch, hwatch, rfl⟩ := List.mem_map.mp hpath
      exact ⟨watch, hwatch, rfl, hlive watch hwatch⟩

end Invariant

section Steps

variable {t : WatchTable}

/-- A call that fails leaves the kernel alone; otherwise the inode has a live watch. -/
theorem addWatch_cases (k : InotifyKernel) (hkernel : ∀ watch ∈ k.watches, 0 ≤ watch.2)
    (inode : ℕ) (fresh : Option ℕ) :
    k.addWatch inode fresh = (-1, k) ∨
    ∃ wd kernel, k.addWatch inode fresh = (wd, kernel) ∧ 0 ≤ wd ∧ (inode, wd) ∈ kernel.watches ∧
      (∀ watch ∈ k.watches, watch ∈ kernel.watches) ∧ ∀ watch ∈ kernel.watches, 0 ≤ watch.2 := by
  unfold InotifyKernel.addWatch
  cases hlookup : k.watches.lookup inode with
  | some wd =>
    have hmem : (inode, wd) ∈ k.watches := by
      obtain ⟨before, after, hsplit, -⟩ := List.lookup_eq_some_iff.mp hlookup
      rw [hsplit]
      simp
    exact .inr ⟨wd, k, rfl, hkernel _ hmem, hmem, fun _ h => h, hkernel⟩
  | none =>
    cases fresh with
    | none => exact .inl rfl
    | some wd =>
      cases hlive : k.live wd with
      | true => exact .inl (if_pos hlive)
      | false =>
        have hpos : (0 : ℤ) ≤ wd := Int.natCast_nonneg wd
        refine .inr ⟨wd, ⟨(inode, wd) :: k.watches⟩, ?_, hpos, List.mem_cons_self,
          fun watch hmem => List.mem_cons_of_mem _ hmem, List.forall_mem_cons.mpr ⟨hpos, hkernel⟩⟩
        exact if_neg (by simp [hlive])

/-- What adding a path can come to: the table stays as it is, or gets an entry that is live. -/
theorem addPath_cases (t : WatchTable) (hkernel : ∀ watch ∈ t.kernel.watches, 0 ≤ watch.2)
    (path : String) (found : Option (ℕ × Bool)) (fresh : Option ℕ) :
    (t.addPath path found fresh).2 = t ∨
    (path ∉ t.getWatchedPaths ∧ ∃ inode isDir wd kernel, 0 ≤ wd ∧
      (inode, wd) ∈ kernel.watches ∧ (∀ watch ∈ t.kernel.watches, watch ∈ kernel.watches) ∧
      (∀ watch ∈ kernel.watches, 0 ≤ watch.2) ∧
      (t.addPath path found fresh).2 =
        { t with
          kernel := kernel
          wdToIndex := Function.update t.wdToIndex wd (some t.watches.length)
          watches := t.watches ++ [⟨path, wd, isDir⟩]
          inodeOf := Function.update t.inodeOf path inode }) := by
  unfold addPath
  cases hinit : t.initialized with
  | false => exact .inl rfl
  | true =>
  rw [if_neg nofun]
  cases hlisted : t.watches.any (fun watch => watch.path == path) with
  | true => exact .inl rfl
  | false =>
  rw [if_neg nofun]
  have hnew : path ∉ t.getWatchedPaths := by
    intro hmem
    obtain ⟨watch, hwatch, rfl⟩ := List.mem_map.mp hmem
    exact List.any_eq_false.mp hlisted watch hwatch (beq_self_eq_true _)
  cases found with
  | none => exact .inl rfl
  | some found =>
  obtain ⟨inode, isDir⟩ := found
  dsimp only
  obtain hfailed | ⟨wd, kernel, hadded, hpos, hrest⟩ := addWatch_cases t.kernel hkernel inode fresh
  · rw [hfailed]
    left
    rw [← hinit]
    rfl
  · rw [hadded]
    dsimp only
    rw [if_neg (by omega)]
    exact .inr ⟨hnew, inode, isDir, wd, kernel, hpos, hrest.1, hrest.2.1, hrest.2.2, rfl⟩

theorem indexFrom_indexes {map : ℤ → Option ℕ} {before : List WatchEntry}
    (h : Indexes WatchEntry.watchDescriptor map before) (watches : List WatchEntry)
    (hwatches : ∀ watch ∈ watches, 0 ≤ watch.watchDescriptor) :
    Indexes WatchEntry.watchDescriptor (indexFrom map before.length watches)
      (before ++ watches) := by
  induction watches generalizing map before with
  | nil =>
    rw [List.append_nil]
    exact h
  | cons watch watches ih =>
    obtain ⟨hfirst, hrest⟩ := List.forall_mem_cons.mp hwatches
    have hnext := ih (h.push watch) hrest
    rw [List.length_append, List.append_assoc] at hnext
    rw [indexFrom, if_pos hfirst]
    exact hnext

theorem eraseP_eq_filter {watches : List WatchEntry} (hpaths : (watches.map WatchEntry.path).Nodup)
    (path : String) : watches.eraseP (fun watch => watch.path == path) =
      watches.filter (fun watch => watch.path != path) := by
  induction watches with
  | nil => rfl
  | cons watch watches ih =>
    obtain ⟨hfirst, hrest⟩ := List.nodup_cons.mp hpaths
    by_cases hpath : watch.path = path
    · have hothers : watches.filter (fun watch => watch.path != path) = watches := by
        apply List.filter_eq_self.mpr
        intro watch' hmem
        rw [bne_iff_ne]
        intro hsame
        exact hfirst (hpath.trans hsame.symm ▸ List.mem_map_of_mem hmem)
      rw [List.eraseP_cons_of_pos (by simpa using hpath),
        List.filter_cons_of_neg (by simpa using hpath), hothers]
    · rw [List.eraseP_cons_of_neg (by simpa using hpath),
        List.filter_cons_of_pos (by simpa using hpath), ih hrest]

theorem removePath_cases (h : WellFormed t) (path : String) :
    (path ∉ t.getWatchedPaths ∧ (t.removePath path).2 = t) ∨
    ∃ watch ∈ t.watches, watch.path = path ∧
      (t.removePath path).2 =
        { t with
          kernel := t.kernel.rmWatch watch.watchDescriptor
          watches := t.watches.filter (fun watch => watch.path != path)
          wdToIndex := indexFrom (fun _ => none) 0
            (t.watches.filter (fun watch => watch.path != path)) } := by
  unfold removePath
  cases hfind : t.watches.find? (fun watch => watch.path == path) with
  | none =>
    refine .inl ⟨?_, rfl⟩
    intro hmem
    obtain ⟨watch, hwatch, rfl⟩ := List.mem_map.mp hmem
    exact List.find?_eq_none.mp hfind watch hwatch (beq_self_eq_true _)
  | some watch =>
    have hwatch := List.mem_of_find?_eq_some hfind
    have hpath := List.find?_some hfind
    refine .inr ⟨watch, hwatch, eq_of_beq hpath, ?_⟩
    dsimp only
    rw [eraseP_eq_filter h.paths, InotifyKernel.release, if_pos (h.descriptors watch hwatch)]

theorem mem_rmWatch {k : InotifyKernel} {wd : ℤ} {watch : ℕ × ℤ} :
    watch ∈ (k.rmWatch wd).watches ↔ watch ∈ k.watches ∧ watch.2 ≠ wd := by
  simp [InotifyKernel.rmWatch]

theorem mem_of_mem_clear {watches : List WatchEntry} {k : InotifyKernel} {watch : ℕ × ℤ}
    (h : watch ∈ (watches.foldl InotifyKernel.release k).watches) : watch ∈ k.watches := by
  induction watches generalizing k with
  | nil => exact h
  | cons entry watches ih =>
    have hnext := ih h
    unfold InotifyKernel.release at hnext
    split_ifs at hnext
    · exact (mem_rmWatch.mp hnext).1
    · exact hnext

theorem wellFormed_step (h : WellFormed t) (op : Op) : WellFormed (step t op) := by
  cases op with
  | addPath path found fresh =>
    obtain hsame | ⟨hnew, inode, isDir, wd, kernel, hpos, -, -, hkernel, hadded⟩ :=
      addPath_cases t h.kernel path found fresh
    · rw [step, hsame]
      exact h
    · rw [step, hadded]
      refine ⟨?_, h.indexes.push ⟨path, wd, isDir⟩, ?_, hkernel⟩
      · unfold getWatchedPaths at hnew ⊢
        rw [List.map_append]
        exact List.nodup_append.mpr ⟨h.paths, by simp, by
          intro p hp q hq
          obtain rfl := List.mem_singleton.mp hq
          exact fun heq => hnew (heq ▸ hp)⟩
      · intro watch hmem
        rcases List.mem_append.mp hmem with hmem | hmem
        · exact h.descriptors watch hmem
        · obtain rfl := List.mem_singleton.mp hmem
          exact hpos
  | removePath path =>
    obtain ⟨-, hsame⟩ | ⟨watch, -, -, hremoved⟩ := removePath_cases h path
    · rw [step, hsame]
      exact h
    · have hkept : ∀ entry ∈ t.watches.filter (fun entry => entry.path != path),
          0 ≤ entry.watchDescriptor :=
        fun entry hmem => h.descriptors entry (List.mem_of_mem_filter hmem)
      have hindexes := indexFrom_indexes (indexes_nil WatchEntry.watchDescriptor) _ hkept
      rw [step, hremoved]
      refine ⟨?_, hindexes, hkept, fun k hmem => h.kernel k (mem_rmWatch.mp hmem).1⟩
      exact h.paths.sublist (List.filter_sublist.map WatchEntry.path)
  | clearPaths =>
    refine ⟨List.nodup_nil, indexes_nil _, nofun, fun k hmem => h.kernel k (mem_of_mem_clear hmem)⟩

/-- No other path shares the descriptor of a path that is removed. -/
def Unshared (t : WatchTable) : Op → Prop
  | .removePath path => ∀ watch ∈ t.watches, watch.path = path →
      ∀ other ∈ t.watches, other.path ≠ path → other.watchDescriptor ≠ watch.watchDescriptor
  | _ => True

theorem allLive_step_iff (h : WellFormed t) (hlive : AllLive t) (op : Op) :
    AllLive (step t op) ↔ Unshared t op := by
  cases op with
  | addPath path found fresh =>
    refine iff_of_true ?_ trivial
    obtain hsame | ⟨hnew, inode, isDir, wd, kernel, -, hmem, hsub, -, hadded⟩ :=
      addPath_cases t h.kernel path found fresh
    · rw [step, hsame]
      exact hlive
    · rw [step, hadded]
      intro watch hwatch
      dsimp only at hwatch ⊢
      rcases List.mem_append.mp hwatch with hold | hadd
      · have hne : watch.path ≠ path := fun heq => hnew (heq ▸ List.mem_map_of_mem hold)
        rw [Function.update_of_ne hne]
        exact hsub _ (hlive watch hold)
      · obtain rfl := List.mem_singleton.mp hadd
        rw [Function.update_self]
        exact hmem
  | removePath path =>
    obtain ⟨hunlisted, hsame⟩ | ⟨watch, hwatch, hpath, hremoved⟩ := removePath_cases h path
    · rw [step, hsame]
      refine iff_of_true hlive (fun watch hwatch heq => ?_)
      exact absurd (heq ▸ List.mem_map_of_mem hwatch) hunlisted
    · rw [step, hremoved]
      constructor
      · intro hafter watch' hwatch' hpath' other hother hne
        obtain rfl := eq_of_path h hwatch hwatch' (hpath.trans hpath'.symm)
        have hkept := hafter other (List.mem_filter.mpr ⟨hother, by simpa using hne⟩)
        exact (mem_rmWatch.mp hkept).2
      · intro hunshared other hother
        obtain ⟨hmem, hne⟩ := List.mem_filter.mp hother
        exact mem_rmWatch.mpr ⟨hlive other hmem,
          hunshared watch hwatch hpath other hmem (by simpa using hne)⟩
  | clearPaths => exact iff_of_true nofun trivial

/-- The table is consistent throughout exactly if no path is removed while another one shares its
    descriptor. -/
theorem consistent_iff_unshared (initialized : Bool) (ops : List Op) :
    EveryState step Consistent { initialized := initialized } ops ↔
      EveryStep step Unshared { initialized := initialized } ops := by
  have hstart : WellFormed { initialized := initialized } :=
    ⟨List.nodup_nil, indexes_nil _, nofun, nofun⟩
  refine everyState_iff WellFormed (fun t op h => wellFormed_step h op) ?_ hstart
    ((consistent_iff hstart).mpr nofun) ops
  intro t op h hcon
  rw [consistent_iff (wellFormed_step h op)]
  exact allLive_step_iff h ((consistent_iff h).mp hcon) op

theorem watchPath_of_consistent (h : Consistent t) {wd : ℤ} {i : ℕ}
    (hi : t.wdToIndex wd = some i) :
    ∃ watch ∈ t.watches, watch.watchDescriptor = wd ∧ t.watchPath wd = watch.path := by
  obtain ⟨watch, hwatch, hwd⟩ := h.leads wd i hi
  refine ⟨watch, List.mem_of_getElem? hwatch, hwd, ?_⟩
  rw [watchPath, hi]
  dsimp only
  rw [hwatch]

/-- Two names of one file, of which the first is removed. -/
def aliasRemoved : List Op :=
  [.addPath "system.yaml" (some (7, false)) (some 1),
    .addPath "./system.yaml" (some (7, false)) (some 2), .removePath "system.yaml"]

theorem alias_unwatched :
    (run step { initialized := true } aliasRemoved).getWatchedPaths = ["./system.yaml"] ∧
      (run step { initialized := true } aliasRemoved).kernel.watches = [] ∧
      ¬ EveryState step Consistent { initialized := true } aliasRemoved := by
  have hpaths : (run step { initialized := true } aliasRemoved).getWatchedPaths =
      ["./system.yaml"] := by decide +kernel
  have hkernel : (run step { initialized := true } aliasRemoved).kernel.watches = [] := by
    decide +kernel
  refine ⟨hpaths, hkernel, fun hall => ?_⟩
  have hcon := hall aliasRemoved (List.prefix_refl _)
  obtain ⟨watch, -, -, hlive⟩ := hcon.watched "./system.yaml" (by simp [hpaths])
  rw [hkernel] at hlive
  cases hlive

end Steps

end WatchTable

end SpeeduinoDash
