import Mathlib.Algebra.Order.Ring.Rat
import Mathlib.Tactic.NormNum
import SpeeduinoDash.CanWriter
import SpeeduinoDash.Lib.RateLimiter

set_option autoImplicit false

/-!
# The rate that a token bucket enforces

With exact rationals for tokens and seconds, `TokenBucket` is the bucket of the rate-limiter
library whose capacity and rate are both `rateHz`.
-/
namespace SpeeduinoDash.TokenBucket
open Lib.Runs Lib.RateLimiter

def trace {R : Type} [Add R] [Sub R] [Mul R] [Min R] [One R] [NatCast R] [LE R] [DecidableLE R]
    (b : TokenBucket R) : List R → List (R × Bool × TokenBucket R)
  | [] => []
  | t :: ts => (t, b.tryConsume t) :: trace (b.tryConsume t).2 ts

def successes (b : TokenBucket ℚ) (ts : List ℚ) : List ℚ :=
  ((b.trace ts).filter (fun e => e.2.1)).map Prod.fst

def limits (rateHz : UInt32) : Limits ℚ where
  cap := rateHz.toNat
  rate := rateHz.toNat
  cap_nonneg := by positivity
  rate_nonneg := by positivity

structure Models (rateHz : UInt32) (b : TokenBucket ℚ) (a : Bucket (limits rateHz)) : Prop where
  rate : b.rateHz = rateHz
  max : b.maxTokens = rateHz.toNat
  tokens : b.tokens = a.level
  last : b.lastRefill = a.since

def full (rateHz : UInt32) (now : ℚ) : Bucket (limits rateHz) :=
  ⟨rateHz.toNat, now, by positivity, le_refl _⟩

theorem new_models (rateHz : UInt32) (now : ℚ) :
    Models rateHz (TokenBucket.new rateHz now) (full rateHz now) := ⟨rfl, rfl, rfl, rfl⟩

theorem tryConsume_models {rateHz : UInt32} {b : TokenBucket ℚ} {a : Bucket (limits rateHz)}
    (h : Models rateHz b a) (t : ℚ) (ht : b.lastRefill ≤ t) :
    (b.tryConsume t).1 = (a.take t).2 ∧ Models rateHz (b.tryConsume t).2 (a.take t).1 := by
  obtain ⟨hrate, hmax, htokens, hlast⟩ := h
  have hlevel : min b.maxTokens (b.tokens + (t - b.lastRefill) * (b.rateHz.toNat : ℚ)) =
      a.refilled t := by
    unfold Bucket.refilled
    rw [hmax, htokens, hlast, hrate, max_eq_right (sub_nonneg.mpr (hlast ▸ ht))]
    rfl
  unfold tryConsume Bucket.take
  simp only [hlevel]
  by_cases hok : 1 ≤ a.refilled t
  · rw [if_pos hok, dif_pos hok]
    exact ⟨rfl, hrate, hmax, rfl, rfl⟩
  · rw [if_neg hok, dif_neg hok]
    exact ⟨rfl, hrate, hmax, rfl, rfl⟩

theorem tryConsume_last (b : TokenBucket ℚ) (t : ℚ) : (b.tryConsume t).2.lastRefill = t := by
  unfold tryConsume
  dsimp only
  split_ifs <;> rfl

theorem successes_eq_granted {rateHz : UInt32} {b : TokenBucket ℚ} {a : Bucket (limits rateHz)}
    (h : Models rateHz b a) (ts : List ℚ) (hts : Clocked id b.lastRefill ts) :
    b.successes ts = granted a ts := by
  induction ts generalizing b a with
  | nil => rfl
  | cons t ts ih =>
    obtain ⟨ht, htail⟩ := hts.cons
    obtain ⟨hok, hnext⟩ := tryConsume_models h t ht
    have hrec := ih hnext (by simpa [tryConsume_last] using htail)
    unfold granted
    rw [← hrec, ← hok]
    cases hb : (b.tryConsume t).1 <;> simp [successes, trace, hb]

theorem trace_tokens {rateHz : UInt32} {b : TokenBucket ℚ} {a : Bucket (limits rateHz)}
    (h : Models rateHz b a) (ts : List ℚ) (hts : Clocked id b.lastRefill ts) :
    ∀ e ∈ b.trace ts, 0 ≤ e.2.2.tokens ∧ e.2.2.tokens ≤ rateHz.toNat := by
  induction ts generalizing b a with
  | nil => simp [trace]
  | cons t ts ih =>
    obtain ⟨ht, htail⟩ := hts.cons
    have hnext := (tryConsume_models h t ht).2
    intro e he
    rcases List.mem_cons.mp he with rfl | he
    · change 0 ≤ (b.tryConsume t).2.tokens ∧ (b.tryConsume t).2.tokens ≤ rateHz.toNat
      rw [hnext.tokens]
      exact ⟨(a.take t).1.nonneg, (a.take t).1.le_cap⟩
    · exact ih hnext (by simpa [tryConsume_last] using htail) e he

theorem trace_times (b : TokenBucket ℚ) (ts : List ℚ) : (b.trace ts).map Prod.fst = ts := by
  induction ts generalizing b with
  | nil => rfl
  | cons t ts ih => simp [trace, ih]

theorem all_of_successes (b : TokenBucket ℚ) (ts : List ℚ) (h : b.successes ts = ts) :
    ∀ e ∈ b.trace ts, e.2.1 = true := by
  have hlen : ((b.trace ts).filter (fun e => e.2.1)).length = (b.trace ts).length := by
    have hs := congrArg List.length h
    have ht := congrArg List.length (b.trace_times ts)
    simp only [successes, List.length_map] at hs ht
    omega
  exact List.filter_eq_self.mp (List.filter_sublist.eq_of_length hlen)

theorem successes_conform (rateHz : UInt32) {t0 : ℚ} {ts : List ℚ} (hts : Clocked id t0 ts)
    (a : ℚ) {T : ℚ} (hT : 0 ≤ T) : (inWindow a T ((TokenBucket.new rateHz t0).successes ts) : ℚ) ≤
      rateHz.toNat + rateHz.toNat * T := by
  rw [successes_eq_granted (new_models rateHz t0) ts hts]
  exact granted_conforms (full rateHz t0) ts hts a T hT

/-- The enforced rate, for calls on a monotone clock after the construction at `t0`. -/
theorem tryConsume_rate (rateHz : UInt32) (t0 : ℚ) (ts : List ℚ) (hts : Clocked id t0 ts) :
    (∀ a T, 0 ≤ T → (inWindow a T ((TokenBucket.new rateHz t0).successes ts) : ℚ) ≤
      rateHz.toNat + rateHz.toNat * T) ∧
    (∀ e ∈ (TokenBucket.new rateHz t0).trace ts,
      0 ≤ e.2.2.tokens ∧ e.2.2.tokens ≤ rateHz.toNat) ∧
    (1 ≤ rateHz.toNat → ts.IsChain (fun s t => 1 / (rateHz.toNat : ℚ) ≤ t - s) →
      ∀ e ∈ (TokenBucket.new rateHz t0).trace ts, e.2.1 = true) := by
  have hmodels := new_models rateHz t0
  have hgranted := successes_eq_granted hmodels ts hts
  refine ⟨fun a T hT => successes_conform rateHz hts a hT, trace_tokens hmodels ts hts, ?_⟩
  · intro hr hgap
    apply all_of_successes
    rw [hgranted]
    have hpos : (0 : ℚ) < rateHz.toNat := by exact_mod_cast hr
    have hcap : 1 ≤ (limits rateHz).cap := Nat.one_le_cast.mpr hr
    apply granted_spaced (full rateHz t0) ts hts hcap
    · intro t ht
      have hstart := hts.1 t (List.mem_of_mem_head? ht)
      have := mul_nonneg (sub_nonneg.mpr hstart) hpos.le
      change (rateHz.toNat : ℚ) ≤ rateHz.toNat + (t - t0) * rateHz.toNat
      exact le_add_of_nonneg_right this
    · refine hgap.imp ?_
      intro s t hst
      exact (div_le_iff₀ hpos).mp hst

theorem tryConsume_rate_two :
    (inWindow 0 1 ((TokenBucket.new 2 0).successes [0, 1 / 2, 1]) : ℚ) ≤ 2 + 2 * 1 ∧
    ∀ e ∈ (TokenBucket.new 2 0).trace [(0 : ℚ), 1 / 2, 1], e.2.1 = true := by
  have hclock : Clocked id (0 : ℚ) [0, 1 / 2, 1] := by
    refine ⟨by simp, ?_⟩
    simp
    norm_num
  have h := tryConsume_rate 2 0 [0, 1 / 2, 1] hclock
  refine ⟨?_, h.2.2 (by decide) ?_⟩
  · simpa using h.1 0 1 (by norm_num)
  · simp
    norm_num

end SpeeduinoDash.TokenBucket
