import Mathlib.Logic.Function.Iterate

set_option autoImplicit false

/-!
# Loops that end

The body of a loop gives the next state, or the result with which the loop is left. The number of
rounds is bounded by a fuel; a measure that falls with every round tells how much is enough.
-/
namespace Lib.BoundedLoop

inductive Round (σ ρ : Type*) where
  | next (state : σ)
  | done (result : ρ)

variable {σ ρ : Type*} (body : σ → Round σ ρ)

/-- None when the fuel is used up. -/
def loop : ℕ → σ → Option ρ
  | 0, _ => none
  | fuel + 1, s =>
    match body s with
    | .next s' => loop fuel s'
    | .done r => some r

def starts : ℕ → σ → List σ
  | 0, _ => []
  | fuel + 1, s => s ::
    match body s with
    | .next s' => starts fuel s'
    | .done _ => []

variable {body} {s s' : σ} {r : ρ}

theorem loop_next (h : body s = .next s') (fuel : ℕ) :
    loop body (fuel + 1) s = loop body fuel s' := by rw [loop, h]

theorem loop_done (h : body s = .done r) (fuel : ℕ) : loop body (fuel + 1) s = some r := by
  rw [loop, h]

theorem starts_next (h : body s = .next s') (fuel : ℕ) :
    starts body (fuel + 1) s = s :: starts body fuel s' := by rw [starts, h]

theorem starts_done (h : body s = .done r) (fuel : ℕ) : starts body (fuel + 1) s = [s] := by
  rw [starts, h]

section Measure

variable {μ : σ → ℕ}

theorem length_starts_le (hfalls : ∀ s s', body s = .next s' → μ s' < μ s) (fuel : ℕ) (s : σ) :
    (starts body fuel s).length ≤ μ s + 1 := by
  induction fuel generalizing s with
  | zero => exact Nat.zero_le _
  | succ fuel ih =>
    cases hbody : body s with
    | done r => rw [starts_done hbody]; exact Nat.le_add_left 1 _
    | next s' =>
      have hstep := hfalls s s' hbody
      have hrest := ih s'
      rw [starts_next hbody, List.length_cons]
      omega

theorem loop_of_measure (hfalls : ∀ s s', body s = .next s' → μ s' < μ s) (fuel : ℕ) (s : σ)
    (hfuel : μ s < fuel) : ∃ r, loop body fuel s = some r := by
  induction fuel generalizing s with
  | zero => exact absurd hfuel (Nat.not_lt_zero _)
  | succ fuel ih =>
    cases hbody : body s with
    | done r => exact ⟨r, loop_done hbody fuel⟩
    | next s' =>
      have hstep := hfalls s s' hbody
      rw [loop_next hbody]
      exact ih s' (by omega)

end Measure

section Invariant

variable {I P : σ → Prop} {Q : ρ → Prop}

/-- `P` is what is known of every round, `I` what the rounds keep. -/
theorem invariant_starts (hnext : ∀ s s', I s → P s → body s = .next s' → I s') (fuel : ℕ)
    {s : σ} (hs : I s) (hP : ∀ t ∈ starts body fuel s, P t) : ∀ t ∈ starts body fuel s, I t := by
  induction fuel generalizing s with
  | zero => exact fun t ht => absurd ht List.not_mem_nil
  | succ fuel ih =>
    cases hbody : body s with
    | done r =>
      rw [starts_done hbody]
      intro t ht
      rw [List.mem_singleton.mp ht]
      exact hs
    | next s' =>
      rw [starts_next hbody] at hP ⊢
      have hs' := hnext s s' hs (hP s List.mem_cons_self) hbody
      intro t ht
      rcases List.mem_cons.mp ht with rfl | ht
      · exact hs
      · exact ih hs' (fun t ht => hP t (List.mem_cons_of_mem s ht)) t ht

theorem result_from_round {fuel : ℕ} (hresult : loop body fuel s = some r) :
    ∃ t ∈ starts body fuel s, body t = .done r := by
  induction fuel generalizing s with
  | zero => cases hresult
  | succ fuel ih =>
    cases hbody : body s with
    | done r' =>
      rw [loop_done hbody] at hresult
      cases hresult
      rw [starts_done hbody]
      exact ⟨s, List.mem_singleton_self s, hbody⟩
    | next s' =>
      rw [loop_next hbody] at hresult
      rw [starts_next hbody]
      obtain ⟨t, ht, hdone⟩ := ih hresult
      exact ⟨t, List.mem_cons_of_mem s ht, hdone⟩

theorem loop_result (hnext : ∀ s s', I s → P s → body s = .next s' → I s')
    (hdone : ∀ s r, I s → P s → body s = .done r → Q r) {fuel : ℕ} (hs : I s)
    (hP : ∀ t ∈ starts body fuel s, P t) (hresult : loop body fuel s = some r) : Q r := by
  obtain ⟨t, ht, hbody⟩ := result_from_round hresult
  exact hdone t r (invariant_starts hnext fuel hs hP t ht) (hP t ht) hbody

end Invariant

theorem loop_mono {fuel fuel' : ℕ} (hle : fuel ≤ fuel') (hresult : loop body fuel s = some r) :
    loop body fuel' s = some r := by
  induction fuel generalizing s fuel' with
  | zero => cases hresult
  | succ fuel ih =>
    obtain ⟨more, rfl⟩ : ∃ more, fuel' = more + 1 := ⟨fuel' - 1, by omega⟩
    cases hbody : body s with
    | done r' =>
      rw [loop_done hbody] at hresult ⊢
      exact hresult
    | next s' =>
      rw [loop_next hbody] at hresult ⊢
      exact ih (by omega) hresult

theorem counter_result {κ : Type*} (count : σ → κ) (advance : κ → κ)
    (hnext : ∀ s s', body s = .next s' → count s' = advance (count s)) {fuel : ℕ}
    (hresult : loop body fuel s = some r) :
    ∃ t ∈ starts body fuel s, body t = .done r ∧
      advance (count t) = advance^[(starts body fuel s).length] (count s) := by
  induction fuel generalizing s with
  | zero => cases hresult
  | succ fuel ih =>
    cases hbody : body s with
    | done r' =>
      rw [loop_done hbody] at hresult
      cases hresult
      rw [starts_done hbody]
      exact ⟨s, List.mem_singleton_self s, hbody, rfl⟩
    | next s' =>
      rw [loop_next hbody] at hresult
      obtain ⟨t, ht, hdone, hcount⟩ := ih hresult
      rw [starts_next hbody, List.length_cons, Function.iterate_succ_apply, ← hnext s s' hbody]
      exact ⟨t, List.mem_cons_of_mem s ht, hdone, hcount⟩

end Lib.BoundedLoop
