import Mathlib.Data.List.Basic

set_option autoImplicit false

/-!
# Waiting for an answer

A loop polls until a poll is late or brings an item that is accepted; items that are not accepted
are dropped. It returns the accepted item, or none if it was late, and the polls that are left.
-/
namespace Lib.Await

variable {π φ : Type*} (late : π → Bool) (item : π → Option φ)

/-- None when the polls run out: the loop is still waiting. -/
def await (accepts : φ → Bool) : List π → Option (Option φ × List π)
  | [] => none
  | p :: polls =>
    if late p then some (none, polls)
    else
      match item p with
      | none => await accepts polls
      | some f => if accepts f then some (some f, polls) else await accepts polls

section Cases

variable {late item} {accepts wanted : φ → Bool} {p : π} {polls : List π}

theorem await_late (h : late p = true) :
    await late item accepts (p :: polls) = some (none, polls) := by
  rw [await, if_pos h]

theorem await_skip (h : late p = false) (hitem : ∀ f, item p = some f → accepts f = false) :
    await late item accepts (p :: polls) = await late item accepts polls := by
  rw [await, if_neg (by simp [h])]
  cases hf : item p with
  | none => rfl
  | some f => exact if_neg (by simp [hitem f hf])

theorem await_take {f : φ} (h : late p = false) (hitem : item p = some f)
    (haccepts : accepts f = true) :
    await late item accepts (p :: polls) = some (some f, polls) := by
  rw [await, if_neg (by simp [h]), hitem]
  exact if_pos haccepts

theorem await_append {quiet : List π}
    (h : ∀ q ∈ quiet, late q = false ∧ ∀ f, item q = some f → accepts f = false) :
    await late item accepts (quiet ++ polls) = await late item accepts polls := by
  induction quiet with
  | nil => rfl
  | cons q quiet ih =>
    obtain ⟨hlate, hitem⟩ := h q List.mem_cons_self
    rw [List.cons_append, await_skip hlate hitem]
    exact ih (fun q' hq' => h q' (List.mem_cons_of_mem q hq'))

theorem await_accepted {f : φ} {rest : List π}
    (h : await late item accepts polls = some (some f, rest)) : accepts f = true := by
  induction polls with
  | nil => cases h
  | cons p polls ih =>
    cases hlate : late p with
    | true =>
      rw [await_late hlate] at h
      cases h
    | false =>
      cases hitem : item p with
      | none =>
        rw [await_skip hlate (by simp [hitem])] at h
        exact ih h
      | some g =>
        cases hg : accepts g with
        | true =>
          rw [await_take hlate hitem hg] at h
          cases h
          exact hg
        | false =>
          rw [await_skip hlate (by simp [hitem, hg])] at h
          exact ih h

variable (late item accepts wanted)

/-- Before the loop is late, no item that is accepted but not wanted comes ahead of the first one
    that is wanted. -/
def NoStray (polls : List π) : Prop :=
  ∀ pre p post f, polls = pre ++ p :: post → (∀ q ∈ pre, late q = false) → late p = false →
    item p = some f → accepts f = true → wanted f = false →
    ∃ q ∈ pre, ∃ g, item q = some g ∧ wanted g = true

theorem noStray_nil : NoStray late item accepts wanted [] := by
  intro pre p post f hsplit
  simp at hsplit

variable {late item accepts wanted}

theorem noStray_of_late (h : late p = true) : NoStray late item accepts wanted (p :: polls) := by
  intro pre q post f hsplit hpre hq
  cases pre with
  | nil =>
    obtain ⟨rfl, -⟩ := List.cons.inj hsplit
    rw [h] at hq
    cases hq
  | cons p' pre =>
    obtain ⟨rfl, -⟩ := List.cons.inj hsplit
    have hfirst := hpre p List.mem_cons_self
    rw [h] at hfirst
    cases hfirst

theorem noStray_of_wanted {f : φ} (hitem : item p = some f) (hwanted : wanted f = true) :
    NoStray late item accepts wanted (p :: polls) := by
  intro pre q post g hsplit _ _ hg _ hnot
  cases pre with
  | nil =>
    obtain ⟨rfl, -⟩ := List.cons.inj hsplit
    rw [hitem] at hg
    cases hg
    rw [hwanted] at hnot
    cases hnot
  | cons p' pre =>
    obtain ⟨rfl, -⟩ := List.cons.inj hsplit
    exact ⟨p, List.mem_cons_self, f, hitem, hwanted⟩

theorem not_noStray {f : φ} (h : late p = false) (hitem : item p = some f)
    (haccepts : accepts f = true) (hwanted : wanted f = false) :
    ¬ NoStray late item accepts wanted (p :: polls) := by
  intro hnone
  obtain ⟨q, hq, -⟩ := hnone [] p polls f rfl (by simp) h hitem haccepts hwanted
  cases hq

theorem noStray_cons (h : late p = false)
    (hitem : ∀ f, item p = some f → accepts f = false ∧ wanted f = false) :
    NoStray late item accepts wanted (p :: polls) ↔ NoStray late item accepts wanted polls := by
  constructor
  · intro hnone pre q post f hsplit hpre hq hf haccepts hwanted
    have hpre' : ∀ q' ∈ p :: pre, late q' = false := by
      intro q' hmem
      rcases List.mem_cons.mp hmem with rfl | hmem
      · exact h
      · exact hpre q' hmem
    obtain ⟨q', hmem, g, hg, hwanted'⟩ :=
      hnone (p :: pre) q post f (by rw [hsplit]; rfl) hpre' hq hf haccepts hwanted
    rcases List.mem_cons.mp hmem with rfl | hmem
    · rw [(hitem g hg).2] at hwanted'
      cases hwanted'
    · exact ⟨q', hmem, g, hg, hwanted'⟩
  · intro hnone pre q post f hsplit hpre hq hf haccepts hwanted
    cases pre with
    | nil =>
      obtain ⟨rfl, -⟩ := List.cons.inj hsplit
      rw [(hitem f hf).1] at haccepts
      cases haccepts
    | cons p' pre =>
      obtain ⟨rfl, htail⟩ := List.cons.inj hsplit
      obtain ⟨q', hmem, hrest⟩ := hnone pre q post f htail
        (fun q' hmem => hpre q' (List.mem_cons_of_mem p hmem)) hq hf haccepts hwanted
      exact ⟨q', List.mem_cons_of_mem p hmem, hrest⟩

/-- The loop takes the first wanted item exactly where no stray comes ahead of it. -/
theorem await_eq_iff (hwanted : ∀ f, wanted f = true → accepts f = true) (polls : List π) :
    await late item accepts polls = await late item wanted polls ↔
      NoStray late item accepts wanted polls := by
  induction polls with
  | nil => exact iff_of_true rfl (noStray_nil late item accepts wanted)
  | cons p polls ih =>
    cases hlate : late p with
    | true => exact iff_of_true (by rw [await_late hlate, await_late hlate]) (noStray_of_late hlate)
    | false =>
      cases hitem : item p with
      | none =>
        rw [await_skip hlate (by simp [hitem]), await_skip hlate (by simp [hitem]),
          noStray_cons hlate (by simp [hitem])]
        exact ih
      | some f =>
        cases hf : wanted f with
        | true =>
          refine iff_of_true ?_ (noStray_of_wanted hitem hf)
          rw [await_take hlate hitem (hwanted f hf), await_take hlate hitem hf]
        | false =>
          cases haccepts : accepts f with
          | true =>
            refine iff_of_false (fun heq => ?_) (not_noStray hlate hitem haccepts hf)
            rw [await_take hlate hitem haccepts] at heq
            have hgot := await_accepted heq.symm
            rw [hf] at hgot
            cases hgot
          | false =>
            rw [await_skip hlate (by simp [hitem, haccepts]),
              await_skip hlate (by simp [hitem, hf]),
              noStray_cons hlate (by simp [hitem, haccepts, hf])]
            exact ih

end Cases

end Lib.Await
