import SpeeduinoDash.OpenAutoEmbedded

set_option autoImplicit false

/-!
# Which container has the video

The handler of a container's destruction does not know which container it was, and takes away
whichever is registered.
-/
namespace SpeeduinoDash.OpenAutoEmbedded
open Lib.Runs

def registers (s : OpenAutoEmbedded) : Op → Option ℕ
  | .setVideoContainer (some container) (some _) _ => some container
  | .windowChanged container (some _) _ => if container ∈ s.deferred then some container else none
  | _ => none

/-- OpenAuto with the container that was registered last, while that one exists. -/
structure Traced where
  embedded : OpenAutoEmbedded := {}
  newest : Option ℕ := none

namespace Traced

def next (t : Traced) (op : Op) : Traced where
  embedded := t.embedded.next op
  newest :=
    match op with
    | .containerDestroyed container => if t.newest = some container then none else t.newest
    | _ => (t.embedded.registers op).or t.newest

structure NewestRegistered (t : Traced) : Prop where
  container : t.embedded.container = t.newest
  registered : t.embedded.containerRegistered = t.newest.isSome

def registration (s : OpenAutoEmbedded) : Option ℕ × Option ℕ × Bool × Bool :=
  (s.container, s.containerWindow, s.containerRegistered, s.shown)

/-- The end of a container other than the newest changes nothing. -/
def OlderIgnored (t : Traced) (op : Op) : Prop :=
  ∀ container, op = .containerDestroyed container → t.newest ≠ some container →
    registration (t.next op).embedded = registration t.embedded

/-- No container that has been registered is destroyed while a newer one exists. -/
def NoOlderDestroyed (t : Traced) (op : Op) : Prop :=
  ∀ container, op = .containerDestroyed container → container ∈ t.embedded.connections →
    ∀ newest ∈ t.newest, newest = container

end Traced

section Step

structure Registered (s : OpenAutoEmbedded) (new : ℕ) (s' : OpenAutoEmbedded) : Prop where
  container : s'.container = some new
  registered : s'.containerRegistered = true
  connected : new ∈ s'.connections
  connections : ∀ other ∈ s.connections, other ∈ s'.connections

structure Kept (s s' : OpenAutoEmbedded) : Prop where
  container : s'.container = s.container
  containerWindow : s'.containerWindow = s.containerWindow
  registered : s'.containerRegistered = s.containerRegistered
  connections : s'.connections = s.connections
  shown : s.containerRegistered = false → s.shown = false → s'.shown = false

theorem Kept.refl (s : OpenAutoEmbedded) : Kept s s := ⟨rfl, rfl, rfl, rfl, fun _ h => h⟩

theorem register_registered (s : OpenAutoEmbedded) (container window : ℕ) (hides : Bool) :
    Registered s container (s.register container window hides) := by
  have hconnections : ∀ other, (other = container ∨ other ∈ s.connections) → other ∈
      if container ∈ s.connections then s.connections else container :: s.connections := by
    intro other hother
    split_ifs with hmem
    · rcases hother with rfl | hother
      · exact hmem
      · exact hother
    · exact List.mem_cons.mpr hother
  rw [register_eq]
  exact ⟨rfl, rfl, hconnections _ (.inl rfl), fun other hmem => hconnections other (.inr hmem)⟩

theorem setVideoVisible_kept (s : OpenAutoEmbedded) (visible : Bool) :
    Kept s (s.setVideoVisible visible) := by
  rw [setVideoVisible_eq]
  refine ⟨rfl, rfl, rfl, rfl, fun hunregistered hshown => ?_⟩
  dsimp only
  rw [hunregistered, if_neg (by simp), hshown]

theorem onProjectionActive_kept (s : OpenAutoEmbedded) (active : Bool) :
    Kept s (s.onProjectionActive active) := by
  obtain ⟨phoneName, heq⟩ := s.onProjectionActive_eq active
  rw [heq]
  refine ⟨rfl, rfl, rfl, rfl, fun hunregistered hshown => ?_⟩
  dsimp only
  rw [hunregistered, hshown, Bool.and_false, Bool.or_false, Bool.and_false]

theorem start_kept (s : OpenAutoEmbedded) (failure : Option String) : Kept s (s.start failure) := by
  obtain ⟨running, errorMessage, heq⟩ := s.start_eq failure
  rw [heq]
  exact ⟨rfl, rfl, rfl, rfl, fun _ h => h⟩

theorem stop_kept (s : OpenAutoEmbedded) : Kept s s.stop := by
  cases hrunning : s.running with
  | false =>
    have hsame : s.stop = s := if_pos hrunning
    rw [hsame]
    exact .refl s
  | true =>
    obtain ⟨phoneName, heq⟩ := s.stop_eq hrunning
    rw [heq]
    exact ⟨rfl, rfl, rfl, rfl, fun _ h => h⟩

theorem next_cases (s : OpenAutoEmbedded) {op : Op}
    (hop : ∀ container, op ≠ .containerDestroyed container) :
    (∃ new, s.registers op = some new ∧ Registered s new (s.next op)) ∨
    (s.registers op = none ∧ Kept s (s.next op)) := by
  cases op with
  | setVideoContainer container window hides =>
    cases container with
    | none => exact .inr ⟨rfl, .refl s⟩
    | some container =>
      cases window with
      | none => exact .inr ⟨rfl, rfl, rfl, rfl, rfl, fun _ h => h⟩
      | some window =>
        exact .inl ⟨container, rfl, s.register_registered container window hides⟩
  | windowChanged container window hides =>
    cases window with
    | none =>
      refine .inr ⟨rfl, ?_⟩
      unfold next windowChanged
      dsimp only
      split_ifs <;> exact .refl s
    | some window =>
      by_cases hdeferred : container ∈ s.deferred
      · have hregister : s.next (.windowChanged container (some window) hides) =
            s.register container window hides := if_pos hdeferred
        rw [hregister]
        exact .inl ⟨container, if_pos hdeferred, s.register_registered container window hides⟩
      · have hsame : s.next (.windowChanged container (some window) hides) = s := if_neg hdeferred
        rw [hsame]
        exact .inr ⟨if_neg hdeferred, .refl s⟩
  | containerDestroyed container => exact absurd rfl (hop container)
  | setVideoVisible visible => exact .inr ⟨rfl, s.setVideoVisible_kept visible⟩
  | onProjectionActive active => exact .inr ⟨rfl, s.onProjectionActive_kept active⟩
  | start failure => exact .inr ⟨rfl, s.start_kept failure⟩
  | stop => exact .inr ⟨rfl, s.stop_kept⟩

end Step

namespace Traced

structure Sound (t : Traced) : Prop where
  heard : ∀ newest ∈ t.newest, newest ∈ t.embedded.connections
  nothing : t.embedded.containerRegistered = false →
    t.embedded.containerWindow = none ∧ t.embedded.shown = false

theorem next_cases (t : Traced) {op : Op}
    (hop : ∀ container, op ≠ .containerDestroyed container) :
    (∃ new, (t.next op).newest = some new ∧
      Registered t.embedded new (t.next op).embedded) ∨
    ((t.next op).newest = t.newest ∧ Kept t.embedded (t.next op).embedded) := by
  have hnewest : (t.next op).newest = (t.embedded.registers op).or t.newest := by
    cases op with
    | containerDestroyed container => exact absurd rfl (hop container)
    | _ => rfl
  obtain ⟨new, hnew, hregistered⟩ | ⟨hnone, hkept⟩ := t.embedded.next_cases hop
  · rw [hnew, Option.some_or] at hnewest
    exact .inl ⟨new, hnewest, hregistered⟩
  · rw [hnone, Option.none_or] at hnewest
    exact .inr ⟨hnewest, hkept⟩

theorem destroyed_connections (s : OpenAutoEmbedded) (container : ℕ) :
    (s.containerDestroyed container).connections = s.connections.filter (· ≠ container) := by
  unfold containerDestroyed
  dsimp only
  by_cases hmem : container ∈ s.connections
  · rw [if_pos hmem]
    rfl
  · rw [if_neg hmem]

/-- A container that was registered takes the registration with it, whichever it is of. -/
theorem destroyed_heard {s : OpenAutoEmbedded} {container : ℕ} (h : container ∈ s.connections) :
    registration (s.containerDestroyed container) = (none, none, false, false) := by
  unfold containerDestroyed
  dsimp only
  rw [if_pos h]
  rfl

theorem destroyed_unheard {s : OpenAutoEmbedded} {container : ℕ} (h : container ∉ s.connections) :
    registration (s.containerDestroyed container) =
      (if s.container = some container then none else s.container, (registration s).2) := by
  unfold containerDestroyed
  dsimp only
  rw [if_neg h]
  rfl

theorem next_destroyed (t : Traced) (container : ℕ) :
    t.next (.containerDestroyed container) =
      { embedded := t.embedded.containerDestroyed container
        newest := if t.newest = some container then none else t.newest } := rfl

theorem sound_destroyed {t : Traced} (h : t.Sound) (container : ℕ) :
    (t.next (.containerDestroyed container)).Sound := by
  rw [next_destroyed]
  constructor
  · intro newest hnewest
    dsimp only at hnewest ⊢
    split_ifs at hnewest with hsame
    · cases hnewest
    · have hne : newest ≠ container := by
        rintro rfl
        exact hsame hnewest
      rw [destroyed_connections, List.mem_filter]
      exact ⟨h.heard newest hnewest, decide_eq_true hne⟩
  · intro hnone
    by_cases hmem : container ∈ t.embedded.connections
    · have hgone := destroyed_heard hmem
      simp only [registration, Prod.mk.injEq] at hgone
      exact ⟨hgone.2.1, hgone.2.2.2⟩
    · have hkept := destroyed_unheard hmem
      simp only [registration, Prod.mk.injEq] at hkept
      obtain ⟨-, hwindow, hregistered, hshown⟩ := hkept
      dsimp only at hnone ⊢
      rw [hwindow, hshown]
      exact h.nothing (hregistered.symm.trans hnone)

theorem sound_next (t : Traced) (op : Op) (h : t.Sound) : (t.next op).Sound := by
  by_cases hop : ∃ container, op = .containerDestroyed container
  · obtain ⟨container, rfl⟩ := hop
    exact sound_destroyed h container
  · rw [not_exists] at hop
    obtain ⟨new, hnewest, hregistered⟩ | ⟨hnewest, hkept⟩ := t.next_cases hop
    · constructor
      · intro newest hmem
        rw [hnewest, Option.mem_some_iff] at hmem
        rw [← hmem]
        exact hregistered.connected
      · intro hnone
        rw [hregistered.registered] at hnone
        cases hnone
    · constructor
      · intro newest hmem
        rw [hnewest] at hmem
        rw [hkept.connections]
        exact h.heard newest hmem
      · intro hnone
        rw [hkept.registered] at hnone
        rw [hkept.containerWindow]
        exact ⟨(h.nothing hnone).1, hkept.shown hnone (h.nothing hnone).2⟩

/-- The end of a container that was registered keeps the newest one registered if it is that one's,
    or if there is none. -/
theorem newestRegistered_heard_iff {t : Traced} {container : ℕ}
    (hmem : container ∈ t.embedded.connections) :
    (t.next (.containerDestroyed container)).NewestRegistered ↔
      ∀ newest ∈ t.newest, newest = container := by
  have hgone := destroyed_heard hmem
  simp only [registration, Prod.mk.injEq] at hgone
  rw [next_destroyed]
  constructor
  · rintro ⟨hcontainer, -⟩ newest hnewest
    dsimp only at hcontainer
    rw [hgone.1, hnewest] at hcontainer
    split_ifs at hcontainer with heq
    exact Option.some_inj.mp heq
  · intro hown
    have hnone : (if t.newest = some container then none else t.newest) = none := by
      cases hnewest : t.newest with
      | none => simp
      | some newest => rw [hown newest hnewest, if_pos rfl]
    constructor
    · dsimp only
      rw [hgone.1, hnone]
    · dsimp only
      rw [hgone.2.2.1, hnone]
      rfl

/-- The end of a container that never was registered goes unnoticed. -/
theorem newestRegistered_unheard {t : Traced} {container : ℕ}
    (hmem : container ∉ t.embedded.connections) (hsound : t.Sound) (h : t.NewestRegistered) :
    (t.next (.containerDestroyed container)).NewestRegistered := by
  have hne : t.newest ≠ some container := by
    intro hnewest
    exact hmem (hsound.heard container hnewest)
  have hkept := destroyed_unheard hmem
  rw [h.container, if_neg hne, ← h.container] at hkept
  simp only [registration, Prod.mk.injEq] at hkept
  rw [next_destroyed, if_neg hne]
  constructor
  · dsimp only
    rw [hkept.1, h.container]
  · dsimp only
    rw [hkept.2.2.1, h.registered]

/-- A step keeps the newest container registered exactly where it is not the end of an older one. -/
theorem newestRegistered_next_iff {t : Traced} (op : Op) (hsound : t.Sound)
    (h : t.NewestRegistered) : (t.next op).NewestRegistered ↔ t.NoOlderDestroyed op := by
  by_cases hop : ∃ container, op = .containerDestroyed container
  · obtain ⟨container, rfl⟩ := hop
    by_cases hmem : container ∈ t.embedded.connections
    · rw [newestRegistered_heard_iff hmem]
      constructor
      · intro hown other hother _
        injection hother with hsame
        exact hsame ▸ hown
      · intro holder
        exact holder container rfl hmem
    · refine iff_of_true (newestRegistered_unheard hmem hsound h) ?_
      intro other hother hmem'
      injection hother with hsame
      exact absurd (hsame ▸ hmem') hmem
  · rw [not_exists] at hop
    refine iff_of_true ?_ fun container heq => absurd heq (hop container)
    obtain ⟨new, hnewest, hregistered⟩ | ⟨hnewest, hkept⟩ := t.next_cases hop
    · exact ⟨hregistered.container.trans hnewest.symm, by rw [hregistered.registered, hnewest]; rfl⟩
    · exact ⟨(hkept.container.trans h.container).trans hnewest.symm,
        by rw [hkept.registered, h.registered, hnewest]⟩

theorem olderIgnored {t : Traced} {op : Op} (hsound : t.Sound) (h : t.NewestRegistered)
    (hop : t.NoOlderDestroyed op) : t.OlderIgnored op := by
  rintro container rfl hne
  change registration (t.embedded.containerDestroyed container) = _
  by_cases hmem : container ∈ t.embedded.connections
  · have hnone : t.newest = none := by
      cases hnewest : t.newest with
      | none => rfl
      | some newest =>
        rw [hop container rfl hmem newest hnewest] at hnewest
        exact absurd hnewest hne
    have hunregistered : t.embedded.containerRegistered = false := by rw [h.registered, hnone]; rfl
    obtain ⟨hwindow, hshown⟩ := hsound.nothing hunregistered
    rw [destroyed_heard hmem, registration, h.container, hnone, hwindow, hunregistered, hshown]
  · have hother : t.embedded.container ≠ some container := by
      rw [h.container]
      exact hne
    rw [destroyed_unheard hmem, if_neg hother]
    rfl

theorem run_sound (ops : List Op) : (run next {} ops).Sound := by
  apply run_invariant next Sound sound_next
  exact ⟨nofun, fun _ => ⟨rfl, rfl⟩⟩

/-- The newest container has the registration as long as it exists, and the end of another one
    changes nothing, exactly where no registered container ends while a newer one exists. -/
theorem newest_registered_iff (ops : List Op) :
    (EveryState next NewestRegistered {} ops ∧ EveryStep next OlderIgnored {} ops) ↔
      EveryStep next NoOlderDestroyed {} ops := by
  have hinitial : NewestRegistered {} := ⟨rfl, rfl⟩
  have hstates := everyState_iff (I := NewestRegistered) Sound sound_next
    (fun t op hsound h => newestRegistered_next_iff op hsound h) (run_sound []) hinitial ops
  constructor
  · rintro ⟨hregistered, -⟩
    exact hstates.mp hregistered
  · intro hsteps
    have hregistered := hstates.mpr hsteps
    refine ⟨hregistered, fun pre op hpre => ?_⟩
    exact olderIgnored (run_sound pre) (hregistered pre ((List.prefix_append pre [op]).trans hpre))
      (hsteps pre op hpre)

/-- The screen is made anew before the old one goes. -/
def recreated : List Op :=
  [.setVideoContainer (some 1) (some 1) true, .setVideoContainer (some 2) (some 1) true,
    .containerDestroyed 1]

theorem newest_lost :
    ¬ ∀ ops, EveryState next NewestRegistered {} ops ∧ EveryStep next OlderIgnored {} ops := by
  intro h
  have hregistered := ((h recreated).1 recreated List.prefix_rfl).registered
  revert hregistered
  decide

end Traced

end SpeeduinoDash.OpenAutoEmbedded
