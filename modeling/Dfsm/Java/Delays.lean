import Dfsm.Java.Policies
import Mathlib.Data.Rat.Floor
import Mathlib.Tactic.Positivity
import Mathlib.Tactic.Linarith

/-! The delays between the attempts of the Java SDK: `long` products that wrap around before
they are capped, and powers of a `double` that may be no number. -/
namespace Dfsm.Java.Policies

namespace Double

/-- `Math.pow` -/
def pow (base : Double) (exponent : Nat) : Double :=
  if exponent = 0 then .finite 1 else match base with
  | .nan => .nan
  | .infinite negative => .infinite (negative && exponent % 2 = 1)
  | .finite value => .finite (value ^ exponent)

/-- `factor * x` -/
def scaled (factor : Int64) : Double → Double
  | .nan => .nan
  | .infinite negative => if factor = 0 then .nan else .infinite (negative != decide (factor < 0))
  | .finite value => .finite (factor.toInt * value)

/-- `Math.round` -/
def round : Double → Int64
  | .nan => 0
  | .infinite true => Int64.minValue
  | .infinite false => Int64.maxValue
  | .finite value => Int64.ofInt (max (-2^63) (min (2^63 - 1) ⌊value + 1/2⌋))

end Double

def rawDelay (backoff : BackoffPolicy) (failedAttempt : Int32) : Int64 :=
  match backoff.strategy with
  | .FIXED => backoff.initialDelayMs
  | .LINEAR => backoff.initialDelayMs * (max 1 failedAttempt).toInt64
  | .EXPONENTIAL | .EXPONENTIAL_JITTER =>
    (Double.scaled backoff.initialDelayMs (backoff.multiplier.atLeastOne.pow (max 0 (failedAttempt - 1)).toInt.toNat)).round

/-- `nextDouble` is what the generator draws for this delay. -/
def computeDelayMs (backoff : BackoffPolicy) (failedAttempt : Int32) (nextDouble : {draw : ℚ // 0 ≤ draw ∧ draw < 1}) : Int64 :=
  let capped := min (max backoff.initialDelayMs backoff.maxDelayMs) (max 0 (rawDelay backoff failedAttempt))
  if backoff.strategy = .EXPONENTIAL_JITTER ∧ 0 < capped then
    (Double.scaled capped (.finite (1/2 + nextDouble.val * (1/2)))).round
  else capped

/-- What a retry policy promises of its delays. -/
structure Paced (retry : RetryPolicy) : Prop where
  bounded : ∀ attempt draw, 1 ≤ attempt.toInt → attempt.toInt ≤ retry.maxAttempts.toInt →
    0 ≤ (computeDelayMs retry.backoff attempt draw).toInt ∧
      (computeDelayMs retry.backoff attempt draw).toInt ≤ max retry.backoff.initialDelayMs.toInt retry.backoff.maxDelayMs.toInt
  rising : retry.backoff.strategy ≠ .EXPONENTIAL_JITTER → ∀ attempt later draw draw', 1 ≤ attempt.toInt →
    attempt.toInt ≤ later.toInt → later.toInt ≤ retry.maxAttempts.toInt →
    (computeDelayMs retry.backoff attempt draw).toInt ≤ (computeDelayMs retry.backoff later draw').toInt

section
variable {backoff : BackoffPolicy} {attempt : Int32}

theorem roundFinite (value : ℚ) : (Double.finite value).round.toInt = max (-2^63) (min (2^63 - 1) ⌊value + 1/2⌋) := by
  rw [Double.round,Int64.toInt_ofInt]
  refine Int.bmod_eq_of_le ?_ ?_
  · exact le_max_left (-2^63 : Int) _
  · change max (-2^63 : Int) (min (2^63 - 1) ⌊value + 1/2⌋) < 2^63
    omega

theorem roundMono {value value' : ℚ} (le : value ≤ value') : (Double.finite value).round.toInt ≤ (Double.finite value').round.toInt := by
  rw [roundFinite,roundFinite]
  have floors : ⌊value + 1/2⌋ ≤ ⌊value' + 1/2⌋ := Int.floor_le_floor (by linarith)
  omega

theorem roundSelf {n : Int64} (positive : 0 ≤ n.toInt) : (Double.finite n.toInt).round.toInt = n.toInt := by
  have floor : ⌊(n.toInt : ℚ) + 1/2⌋ = n.toInt := by
    rw [Int.floor_intCast_add]
    norm_num
  have below := Int64.toInt_lt n
  rw [roundFinite,floor]
  omega

theorem attemptExponent (one : 1 ≤ attempt.toInt) : ((max 0 (attempt - 1)).toInt.toNat : Int) = attempt.toInt - 1 := by
  have above := Int32.toInt_lt attempt
  have left : (attempt - 1).toInt = attempt.toInt - 1 := by
    rw [Int32.toInt_sub]
    refine Int.bmod_eq_of_le ?_ ?_ <;> simp <;> omega
  rw [toIntMax32,left]
  simp
  omega

theorem attemptLong (one : 1 ≤ attempt.toInt) : (max 1 attempt).toInt64.toInt = attempt.toInt := by
  rw [Int32.toInt_toInt64,toIntMax32]
  simp
  omega

theorem longFits {n : Int} (positive : 0 ≤ n) (fits : n < 2^63) : n.bmod (2^64) = n := by
  rw [Int.bmod_def]
  omega

theorem longWraps {n : Int} (beyond : 2^63 ≤ n) (once : n < 2^64) : n.bmod (2^64) = n - 2^64 := by
  rw [Int.bmod_def]
  omega

theorem attemptOf {n : Int} {most : Int32} (positive : 0 ≤ n) (below : n ≤ most.toInt) : (Int32.ofInt n).toInt = n := by
  have := Int32.toInt_lt most
  rw [Int32.toInt_ofInt]
  exact Int.bmod_eq_of_le (by simp [Int32.size]; omega) (by simp [Int32.size]; omega)

theorem linearRaw (linear : backoff.strategy = .LINEAR) (one : 1 ≤ attempt.toInt) :
    (rawDelay backoff attempt).toInt = (backoff.initialDelayMs.toInt * attempt.toInt).bmod (2 ^ 64) := by
  unfold rawDelay
  rw [linear]
  dsimp only
  rw [Int64.toInt_mul,attemptLong one]

theorem exponentialRaw (exponential : backoff.strategy = .EXPONENTIAL) (one : 1 ≤ attempt.toInt) :
    rawDelay backoff attempt =
      (Double.scaled backoff.initialDelayMs (backoff.multiplier.atLeastOne.pow (attempt.toInt - 1).toNat)).round := by
  have exponent : (max 0 (attempt - 1)).toInt.toNat = (attempt.toInt - 1).toNat := by
    have := attemptExponent one
    omega
  unfold rawDelay
  rw [exponential]
  dsimp only
  rw [exponent]

theorem plainDelay (plain : backoff.strategy ≠ .EXPONENTIAL_JITTER) (draw) : (computeDelayMs backoff attempt draw).toInt =
    min (max backoff.initialDelayMs.toInt backoff.maxDelayMs.toInt) (max 0 (rawDelay backoff attempt).toInt) := by
  unfold computeDelayMs
  dsimp only
  rw [if_neg (fun jitter => plain jitter.1),toIntMin,toIntMax,toIntMax]
  rfl

theorem delayBounded (initial : 0 ≤ backoff.initialDelayMs.toInt) (draw) : 0 ≤ (computeDelayMs backoff attempt draw).toInt ∧
    (computeDelayMs backoff attempt draw).toInt ≤ max backoff.initialDelayMs.toInt backoff.maxDelayMs.toInt := by
  by_cases jitter : backoff.strategy = .EXPONENTIAL_JITTER
  · unfold computeDelayMs
    dsimp only
    generalize here : min (max backoff.initialDelayMs backoff.maxDelayMs) (max 0 (rawDelay backoff attempt)) = capped
    have value := congrArg Int64.toInt here
    rw [toIntMin,toIntMax,toIntMax,Int64.toInt_zero] at value
    split
    · rename_i drawn
      have positive : 0 ≤ capped.toInt := by omega
      have nonneg : (0 : ℚ) ≤ capped.toInt := by exact_mod_cast positive
      obtain ⟨draw,low,high⟩ := draw
      have down : (Double.finite 0).round.toInt ≤ (Double.finite (capped.toInt * (1/2 + draw * (1/2)))).round.toInt :=
        roundMono (by positivity)
      have up : (Double.finite (capped.toInt * (1/2 + draw * (1/2)))).round.toInt ≤ (Double.finite capped.toInt).round.toInt :=
        roundMono (mul_le_of_le_one_right nonneg (by linarith))
      rw [roundSelf positive] at up
      have zero : (Double.finite 0).round.toInt = 0 := by rw [roundFinite]; norm_num
      rw [zero] at down
      exact ⟨down,by simp only [Double.scaled]; omega⟩
    · omega
  · rw [plainDelay jitter]
    omega

theorem linearRising (linear : backoff.strategy = .LINEAR) (initial : 0 ≤ backoff.initialDelayMs.toInt) {most : Int32} (one : 1 ≤ most.toInt) :
    (∀ attempt later : Int32, 1 ≤ attempt.toInt → attempt.toInt ≤ later.toInt → later.toInt ≤ most.toInt →
      min (max backoff.initialDelayMs.toInt backoff.maxDelayMs.toInt) (max 0 (rawDelay backoff attempt).toInt) ≤
        min (max backoff.initialDelayMs.toInt backoff.maxDelayMs.toInt) (max 0 (rawDelay backoff later).toInt)) ↔
      backoff.initialDelayMs.toInt * most.toInt < 2^63 := by
  have short := Int64.toInt_lt backoff.initialDelayMs
  constructor
  · intro rising
    by_contra beyond
    have some_ : ∃ n : Nat, (n : Int) ≤ most.toInt ∧ 2^63 ≤ backoff.initialDelayMs.toInt * n :=
      ⟨most.toInt.toNat,by omega,by rw [Int.toNat_of_nonneg (by omega)]; omega⟩
    obtain ⟨below,wraps⟩ := Nat.find_spec some_
    have fits (n : Nat) := @Nat.find_min _ _ some_ n
    generalize Nat.find some_ = n at below wraps fits
    rcases n with _ | _ | n
    · simp at wraps
    · simp at wraps
      omega
    have fits : ¬(((n+1 : Nat) : Int) ≤ most.toInt ∧ 2^63 ≤ backoff.initialDelayMs.toInt * (n+1 : Nat)) := fits (n+1) (by omega)
    have previous : (Int32.ofInt (n+1 : Nat)).toInt = (n+1 : Nat) := attemptOf (by omega) (by omega : _ ≤ most.toInt)
    have here : (Int32.ofInt (n+1+1 : Nat)).toInt = (n+1+1 : Nat) := attemptOf (by omega) below
    have falls := rising (Int32.ofInt (n+1 : Nat)) (Int32.ofInt (n+1+1 : Nat)) (by omega) (by omega) (by omega)
    have next : backoff.initialDelayMs.toInt * (n+1+1 : Nat) = backoff.initialDelayMs.toInt * (n+1 : Nat) + backoff.initialDelayMs.toInt := by
      push_cast
      ring
    have least : backoff.initialDelayMs.toInt ≤ backoff.initialDelayMs.toInt * (n+1 : Nat) :=
      le_mul_of_one_le_right initial (by omega)
    have before : backoff.initialDelayMs.toInt * (n+1 : Nat) < 2^63 := by omega
    rw [linearRaw linear (by omega),linearRaw linear (by omega),previous,here,longFits (by omega) before,
      longWraps wraps (by omega)] at falls
    omega
  · intro fits attempt later first le last
    have early : backoff.initialDelayMs.toInt * attempt.toInt ≤ backoff.initialDelayMs.toInt * later.toInt := mul_le_mul_of_nonneg_left le initial
    have late : backoff.initialDelayMs.toInt * later.toInt ≤ backoff.initialDelayMs.toInt * most.toInt := mul_le_mul_of_nonneg_left last initial
    have positive : 0 ≤ backoff.initialDelayMs.toInt * attempt.toInt := mul_nonneg initial (by omega)
    rw [linearRaw linear first,linearRaw linear (by omega),longFits positive (by omega),longFits (by omega) (by omega)]
    omega

theorem firstRaw (exponential : backoff.strategy = .EXPONENTIAL) (initial : 0 ≤ backoff.initialDelayMs.toInt) (first : attempt.toInt = 1) :
    (rawDelay backoff attempt).toInt = backoff.initialDelayMs.toInt := by
  rw [exponentialRaw exponential (by omega),first]
  have once : (Double.scaled backoff.initialDelayMs (backoff.multiplier.atLeastOne.pow (1 - 1 : Int).toNat)) =
      .finite (backoff.initialDelayMs.toInt * 1) := rfl
  rw [once,mul_one,roundSelf initial]

theorem finiteRaw {factor : ℚ} (finite : backoff.multiplier.atLeastOne = .finite factor) (exponential : backoff.strategy = .EXPONENTIAL)
    (one : 1 ≤ attempt.toInt) :
    (rawDelay backoff attempt).toInt = (Double.finite (backoff.initialDelayMs.toInt * factor ^ (attempt.toInt - 1).toNat)).round.toInt := by
  rw [exponentialRaw exponential one,finite]
  have power (n : Nat) : (Double.finite factor).pow n = .finite (factor ^ n) := by
    unfold Double.pow
    split
    · rename_i zero
      rw [zero,pow_zero]
    · rfl
  rw [power]
  rfl

theorem finiteRising {factor : ℚ} (finite : backoff.multiplier.atLeastOne = .finite factor) (grows : 1 ≤ factor)
    (exponential : backoff.strategy = .EXPONENTIAL) (initial : 0 ≤ backoff.initialDelayMs.toInt) {later : Int32} (one : 1 ≤ attempt.toInt)
    (le : attempt.toInt ≤ later.toInt) : (rawDelay backoff attempt).toInt ≤ (rawDelay backoff later).toInt := by
  rw [finiteRaw finite exponential one,finiteRaw finite exponential (by omega)]
  refine roundMono (mul_le_mul_of_nonneg_left ?_ (by exact_mod_cast initial))
  exact pow_le_pow_right₀ grows (by omega)

theorem laterRaw (exponential : backoff.strategy = .EXPONENTIAL) (later : 1 < attempt.toInt) :
    (backoff.multiplier = .nan → (rawDelay backoff attempt).toInt = 0) ∧
    (backoff.multiplier = .infinite false → 0 < backoff.initialDelayMs.toInt → (rawDelay backoff attempt).toInt = 2^63 - 1) ∧
    (backoff.multiplier = .infinite false → backoff.initialDelayMs.toInt = 0 → (rawDelay backoff attempt).toInt = 0) := by
  rw [exponentialRaw exponential (by omega)]
  have exponent : (attempt.toInt - 1).toNat ≠ 0 := by omega
  refine ⟨fun nan => ?_,fun infinite positive => ?_,fun infinite zero => ?_⟩
  · rw [nan,Double.atLeastOne,Double.pow,if_neg exponent]
    rfl
  · have nonzero : backoff.initialDelayMs ≠ 0 := by
      intro zero
      rw [zero] at positive
      exact absurd positive (by decide)
    have forward : ¬backoff.initialDelayMs < 0 := by
      rw [Int64.lt_iff_toInt_lt]
      simp
      omega
    rw [infinite,Double.atLeastOne,Double.pow,if_neg exponent]
    simp only [Double.scaled,nonzero,forward,Double.round,if_false,decide_false]
    rfl
  · have zero : backoff.initialDelayMs = 0 := Int64.toInt_inj.mp zero
    rw [infinite,Double.atLeastOne,Double.pow,if_neg exponent]
    simp [Double.scaled,zero,Double.round]

theorem exponentialRising (exponential : backoff.strategy = .EXPONENTIAL) (initial : 0 ≤ backoff.initialDelayMs.toInt) {most : Int32}
    (one : 1 ≤ most.toInt) :
    (∀ attempt later : Int32, 1 ≤ attempt.toInt → attempt.toInt ≤ later.toInt → later.toInt ≤ most.toInt →
      min (max backoff.initialDelayMs.toInt backoff.maxDelayMs.toInt) (max 0 (rawDelay backoff attempt).toInt) ≤
        min (max backoff.initialDelayMs.toInt backoff.maxDelayMs.toInt) (max 0 (rawDelay backoff later).toInt)) ↔
      (backoff.multiplier = .nan → backoff.initialDelayMs.toInt = 0 ∨ most.toInt = 1) := by
  constructor
  · intro rising nan
    by_contra both
    have falls := rising 1 2 (by decide) (by decide) (by simp; omega)
    rw [firstRaw exponential initial rfl,(laterRaw exponential (by decide)).1 nan] at falls
    omega
  · intro sound attempt later first le last
    have equal (same : attempt.toInt = later.toInt) : attempt = later := Int32.toInt_inj.mp same
    by_cases same : attempt.toInt = later.toInt
    · rw [equal same]
    have after : 1 < later.toInt := by omega
    have start : attempt.toInt = 1 ∨ 1 < attempt.toInt := by omega
    cases multiplier : backoff.multiplier with
    | finite value =>
      have rises := @finiteRising _ _ (max 1 value) (by rw [multiplier]; rfl) (le_max_left _ _) exponential initial _ first le
      omega
    | nan =>
      rcases sound multiplier with zero | alone
      · have waits : (rawDelay backoff attempt).toInt = 0 := by
          rcases start with start | start
          · rw [firstRaw exponential initial start,zero]
          · exact (laterRaw exponential start).1 multiplier
        have last := (laterRaw exponential after).1 multiplier
        omega
      · omega
    | infinite negative =>
      cases negative with
      | true =>
        have rises := @finiteRising _ _ 1 (by rw [multiplier]; rfl) le_rfl exponential initial _ first le
        omega
      | false =>
        by_cases zero : backoff.initialDelayMs.toInt = 0
        · have waits : (rawDelay backoff attempt).toInt = 0 := by
            rcases start with start | start
            · rw [firstRaw exponential initial start,zero]
            · exact (laterRaw exponential start).2.2 multiplier zero
          omega
        · have longest := (laterRaw exponential after).2.1 multiplier (by omega)
          have most := Int64.toInt_lt (rawDelay backoff attempt)
          omega

end

/-- Delays stay within the cap. They never fall just where the longest linear product fits into a
`long`, and where the multiplier of a power, if there is one to take, is a number. -/
theorem delaysPaced (globalDefaults machineDefaults transitionYamlPolicy decoratorPolicy : Option PartialTransitionPolicy) :
    let retry := (normalize globalDefaults machineDefaults transitionYamlPolicy decoratorPolicy).retry
    Paced retry ↔
      (retry.backoff.strategy = .LINEAR → retry.backoff.initialDelayMs.toInt * retry.maxAttempts.toInt < 2^63) ∧
      (retry.backoff.strategy = .EXPONENTIAL → retry.backoff.multiplier = .nan →
        retry.backoff.initialDelayMs.toInt = 0 ∨ retry.maxAttempts.toInt = 1) := by
  intro retry
  obtain ⟨one,initial,_,_⟩ := normalizeNormal globalDefaults machineDefaults transitionYamlPolicy decoratorPolicy
  change 1 ≤ retry.maxAttempts.toInt at one
  change 0 ≤ retry.backoff.initialDelayMs.toInt at initial
  clear_value retry
  obtain ⟨most,backoff⟩ := retry
  dsimp only at one initial ⊢
  constructor
  · intro paced
    have rising (plain : backoff.strategy ≠ .EXPONENTIAL_JITTER) (attempt later : Int32) (first : 1 ≤ attempt.toInt)
        (le : attempt.toInt ≤ later.toInt) (last : later.toInt ≤ most.toInt) := by
      have rises := paced.rising plain attempt later ⟨0,le_rfl,zero_lt_one⟩ ⟨0,le_rfl,zero_lt_one⟩ first le last
      rwa [plainDelay plain,plainDelay plain] at rises
    exact ⟨fun linear => (linearRising linear initial one).mp (rising (by rw [linear]; decide)),
      fun exponential => (exponentialRising exponential initial one).mp (rising (by rw [exponential]; decide))⟩
  · rintro ⟨fits,sound⟩
    refine ⟨fun attempt draw _ _ => delayBounded initial draw,fun plain attempt later draw draw' first le last => ?_⟩
    rw [plainDelay plain,plainDelay plain]
    cases strategy : backoff.strategy with
    | EXPONENTIAL_JITTER => exact absurd strategy plain
    | FIXED =>
      have raw (attempt : Int32) : rawDelay backoff attempt = backoff.initialDelayMs := by
        unfold rawDelay
        rw [strategy]
      rw [raw,raw]
    | LINEAR => exact (linearRising strategy initial one).mpr (fits strategy) attempt later first le last
    | EXPONENTIAL => exact (exponentialRising strategy initial one).mpr (sound strategy) attempt later first le last

/-- Half the range of a `long` at first, and after the second attempt nothing. -/
theorem delaysPacedHalf : ¬∀ globalDefaults machineDefaults transitionYamlPolicy decoratorPolicy : Option PartialTransitionPolicy,
    Paced (normalize globalDefaults machineDefaults transitionYamlPolicy decoratorPolicy).retry := by
  intro claim
  have paced := claim none none none (some (TransitionDecoratorBuilder.backoff (TransitionDecoratorBuilder.retry .EMPTY 3)
    (some .LINEAR) (2^62) (2^62) (.finite 1)))
  have falls := paced.rising (by decide) 1 2 ⟨0,le_rfl,zero_lt_one⟩ ⟨0,le_rfl,zero_lt_one⟩ (by decide) (by decide) (by decide)
  exact absurd falls (by decide +kernel)

end Dfsm.Java.Policies
