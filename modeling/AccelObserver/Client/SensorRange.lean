import AccelObserver.Client.SensorSim
import AccelObserver.Library.Binary64

/-!
# The range of the simulated samples

The numbers of `prng_f64` lie in [-1, 0], not in [-1, 1]: the word is shifted
down before it is divided by the largest such word.  So the noise only ever
takes something away, and every sample of every run stays between bounds that
the configuration gives.

The arithmetic is that of doubles, where nothing overflows and no divisor is
zero; of the sine and the cosine only their range is used.
-/

namespace AccelObserver.Client.SensorRange

open AccelObserver.Library
open AccelObserver.Library.Binary64
open AccelObserver.Library.CNumber (atof)
open AccelObserver.Client.SensorData
open AccelObserver.Client.SensorSim

/-! ## The arithmetic -/

/-- An operation rounds its result to the nearest double. -/
def Rounds (op : ℚ → ℚ → ℚ) (operation : Double → Double → Double) : Prop :=
  ∀ left right a b, HasValue left a → HasValue right b →
    |op (toNearest a) (toNearest b)| < limit →
    HasValue (operation left right)
      (toNearest (op (toNearest a) (toNearest b)))

/-- A function from numbers to [-1, 1]. -/
def Bounded (function : Double → Double) : Prop :=
  ∀ argument a, HasValue argument a →
    Between (function argument) (-1) 1

/-- The arithmetic of doubles; of a division by zero nothing is said. -/
structure IsBinary64 (arithmetic : Arithmetic) : Prop where
  add : Rounds (· + ·) arithmetic.add
  sub : Rounds (· - ·) arithmetic.sub
  mul : Rounds (· * ·) arithmetic.mul
  div :
    ∀ left right a b, HasValue left a → HasValue right b →
      toNearest b ≠ 0 → |toNearest a / toNearest b| < limit →
      HasValue (arithmetic.div left right)
        (toNearest (toNearest a / toNearest b))
  sin : Bounded arithmetic.sin
  cos : Bounded arithmetic.cos

/-- The arithmetic of doubles, with a sine and a cosine. -/
def doubles (sin cos : Double → Double) : Arithmetic where
  add := Binary64.add
  sub := Binary64.sub
  mul := Binary64.mul
  div := Binary64.div
  sin := sin
  cos := cos

theorem isBinary64_doubles
    {sin cos : Double → Double} (sinBounded : Bounded sin)
    (cosBounded : Bounded cos) : IsBinary64 (doubles sin cos) where
  add := fun _ _ _ _ left right small => hasValue_add left right small
  sub := fun _ _ _ _ left right small => hasValue_sub left right small
  mul := fun _ _ _ _ left right small => hasValue_mul left right small
  div := fun _ _ _ _ left right nonzero small =>
    hasValue_div left right nonzero small
  sin := sinBounded
  cos := cosBounded

/-- A result is rounded into whatever bounds the exact one lies between. -/
theorem between_toNearest
    {number : Double} {exact low high : ℚ}
    (isValue : HasValue number (toNearest exact)) (above : low ≤ exact)
    (below : exact ≤ high) :
    Between number (toNearest low) (toNearest high) :=
  ⟨_, isValue, toNearest_mono above, toNearest_mono below⟩

theorem Rounds.between
    {op : ℚ → ℚ → ℚ} {operation : Double → Double → Double}
    (rounds : Rounds op operation) {left right : Double} {a b low high : ℚ}
    (isLeft : HasValue left a) (isRight : HasValue right b)
    (above : low ≤ op (toNearest a) (toNearest b))
    (below : op (toNearest a) (toNearest b) ≤ high)
    (low_small : -limit < low) (high_small : high < limit) :
    Between (operation left right) (toNearest low) (toNearest high) :=
  between_toNearest
    (rounds left right a b isLeft isRight
      (abs_lt.mpr ⟨low_small.trans_le above, below.trans_lt high_small⟩))
    above below

section Operations

variable {arithmetic : Arithmetic} {left right : Double}
  {low high low' high' : ℚ}

/-- A sum lies between the sums of the bounds. -/
theorem IsBinary64.add_between
    (isBinary64 : IsBinary64 arithmetic) (isLeft : Between left low high)
    (isRight : Between right low' high')
    (low_small : -limit < toNearest low + toNearest low')
    (high_small : toNearest high + toNearest high' < limit) :
    Between (arithmetic.add left right)
      (toNearest (toNearest low + toNearest low'))
      (toNearest (toNearest high + toNearest high')) := by
  rcases isLeft with ⟨a, valueLeft, aboveLeft, belowLeft⟩
  rcases isRight with ⟨b, valueRight, aboveRight, belowRight⟩
  exact isBinary64.add.between valueLeft valueRight
    (add_le_add (toNearest_mono aboveLeft) (toNearest_mono aboveRight))
    (add_le_add (toNearest_mono belowLeft) (toNearest_mono belowRight))
    low_small high_small

/-- A number times one from [-1, 1] is at most as large. -/
theorem IsBinary64.mul_between
    (isBinary64 : IsBinary64 arithmetic) {a : ℚ} (isLeft : HasValue left a)
    (nonneg : 0 ≤ a) (isRight : Between right (-1) 1)
    (small : toNearest a < limit) :
    Between (arithmetic.mul left right) (-toNearest a) (toNearest a) := by
  rcases isRight with ⟨b, valueRight, above, below⟩
  have above' := toNearest_mono above
  have below' := toNearest_mono below
  rw [toNearest_neg, toNearest_one] at above'
  rw [toNearest_one] at below'
  have nonneg' := toNearest_nonneg nonneg
  have between :=
    isBinary64.mul.between isLeft valueRight
      (show -toNearest a ≤ toNearest a * toNearest b by nlinarith)
      (show toNearest a * toNearest b ≤ toNearest a by nlinarith)
      (neg_lt_neg small) small
  rwa [toNearest_neg, toNearest_toNearest] at between

end Operations

/-! ## The noise -/

theorem hasValue_ofWord (word : UInt32) :
    HasValue (ofWord word) word.toNat :=
  ⟨false, word.toNat, rfl, rfl⟩

theorem toNearest_word (word : UInt32) :
    toNearest word.toNat = word.toNat :=
  toNearest_natCast _ (word.toNat_lt.le.trans (by decide))

/-- A literal and its value. -/
theorem hasValue_one : HasValue (atof (ascii "1.0")) 1 :=
  ⟨false, ⟨1, by norm_num⟩, by decide +kernel, rfl⟩

/-- The generator never gives a positive number. -/
theorem prngF64_between
    {arithmetic : Arithmetic} (isBinary64 : IsBinary64 arithmetic)
    (state : UInt32) :
    Between (prngF64 arithmetic state).1 (-1) 0 := by
  let word := prngNext state >>> 1
  let most := (0xFFFFFFFF : UInt32) >>> 1
  have below : word.toNat ≤ most.toNat := by
    have := (prngNext state).toNat_lt
    simp only [word, most, UInt32.toNat_shiftRight]
    have shift : (1 : UInt32).toNat % 32 = 1 := rfl
    rw [shift, Nat.shiftRight_eq_div_pow]
    change _ ≤ 2147483647
    omega
  have positive : (0 : ℚ) < most.toNat := by
    exact_mod_cast (show 0 < most.toNat by decide)
  have below' : (word.toNat : ℚ) ≤ most.toNat := by exact_mod_cast below
  have quotient :
      Between (arithmetic.div (ofWord word) (ofWord most)) (toNearest 0)
        (toNearest 1) := by
    have nonneg : 0 ≤ toNearest word.toNat / toNearest most.toNat := by
      rw [toNearest_word, toNearest_word]
      exact div_nonneg (Nat.cast_nonneg _) positive.le
    have most_one : toNearest word.toNat / toNearest most.toNat ≤ 1 := by
      rw [toNearest_word, toNearest_word]
      exact (div_le_one positive).mpr below'
    refine between_toNearest
      (isBinary64.div _ _ _ _ (hasValue_ofWord word) (hasValue_ofWord most)
        ?_ ?_) nonneg most_one
    · rw [toNearest_word]
      exact positive.ne'
    · rw [abs_of_nonneg nonneg]
      exact most_one.trans_lt (lt_limit (by norm_num))
  rcases quotient with ⟨value, isValue, lower, upper⟩
  have lower' := toNearest_mono lower
  have upper' := toNearest_mono upper
  rw [toNearest_toNearest, toNearest_zero] at lower'
  rw [toNearest_toNearest, toNearest_one] at upper'
  have difference :=
    isBinary64.sub.between isValue hasValue_one
      (show (-1 : ℚ) ≤ toNearest value - toNearest 1 by
        rw [toNearest_one]
        linarith)
      (show toNearest value - toNearest 1 ≤ 0 by
        rw [toNearest_one]
        linarith)
      (neg_limit_lt (by norm_num)) (lt_limit (by norm_num))
  rwa [toNearest_neg, toNearest_one, toNearest_zero] at difference

/-- So the noise only takes something away. -/
theorem noise_between
    {arithmetic : Arithmetic} (isBinary64 : IsBinary64 arithmetic)
    {amplitude : Double} {a : ℚ} (isAmplitude : HasValue amplitude a)
    (nonneg : 0 ≤ a) (small : toNearest a < limit) (state : UInt32) :
    Between (arithmetic.mul (prngF64 arithmetic state).1 amplitude)
      (-toNearest a) 0 := by
  rcases prngF64_between isBinary64 state with ⟨x, isX, above, below⟩
  have above' := toNearest_mono above
  have below' := toNearest_mono below
  rw [toNearest_neg, toNearest_one] at above'
  rw [toNearest_zero] at below'
  have nonneg' := toNearest_nonneg nonneg
  have between :=
    isBinary64.mul.between isX isAmplitude
      (show -toNearest a ≤ toNearest x * toNearest a by nlinarith)
      (show toNearest x * toNearest a ≤ 0 by nlinarith)
      (neg_lt_neg small) (lt_limit (by norm_num))
  rwa [toNearest_neg, toNearest_toNearest, toNearest_zero] at between

/-! ## A reading -/

theorem hasValue_swing : HasValue (atof (ascii "0.3")) (3 / 10) :=
  ⟨false, ⟨3 / 10, by norm_num⟩, by decide +kernel, rfl⟩

theorem hasValue_slowdown : HasValue (atof (ascii "0.7")) (7 / 10) :=
  ⟨false, ⟨7 / 10, by norm_num⟩, by decide +kernel, rfl⟩

theorem hasValue_tick : HasValue (atof (ascii "0.1")) (1 / 10) :=
  ⟨false, ⟨1 / 10, by norm_num⟩, by decide +kernel, rfl⟩

theorem hasValue_turn :
    HasValue (atof (ascii "6.283185307")) (6283185307 / 10 ^ 9) :=
  ⟨false, ⟨6283185307 / 10 ^ 9, by norm_num⟩, by decide +kernel, rfl⟩

/-- The farthest that a sample can be from zero, before the last rounding. -/
def reach (amplitude gravity : ℚ) : ℚ :=
  max (toNearest (3 / 10)) |toNearest gravity| + toNearest amplitude

/-- The values of a configuration; nothing overflows with them. -/
structure Configures (config : SensorConfig) (amplitude gravity : ℚ) :
    Prop where
  isAmplitude : HasValue config.noiseAmplitude amplitude
  nonneg : 0 ≤ amplitude
  isGravity : HasValue config.gravityZ gravity
  small : reach amplitude gravity ≤ 2 ^ 100

/-- The range of the samples. -/
structure InRange (amplitude gravity : ℚ) (packet : SensorPacket) : Prop where
  x :
    Between packet.accX
      (-toNearest (toNearest (3 / 10) + toNearest amplitude))
      (toNearest (3 / 10))
  y :
    Between packet.accY
      (-toNearest (toNearest (3 / 10) + toNearest amplitude))
      (toNearest (3 / 10))
  z :
    Between packet.accZ (toNearest (toNearest gravity - toNearest amplitude))
      (toNearest gravity)

/-- What every reading finds. -/
structure Ready (config : SensorConfig) (ctx : SensorCtx) : Prop where
  config : ctx.config = config
  phase : Between ctx.phase 0 8

theorem ready_sensorInit (config : Option SensorConfig) (time pid : ℤ) :
    Ready (config.getD sensorConfigDefault) (sensorInit config time pid) where
  config := rfl
  phase := ⟨0, ⟨false, 0, rfl, rfl⟩, le_refl 0, by norm_num⟩

section Reading

variable {arithmetic : Arithmetic} {config : SensorConfig}
  {amplitude gravity : ℚ}

theorem Configures.amplitude_small
    (configures : Configures config amplitude gravity) :
    toNearest amplitude ≤ 2 ^ 100 := by
  have := configures.small
  have := (abs_nonneg (toNearest gravity)).trans
    (le_max_right (toNearest (3 / 10)) _)
  rw [reach] at *
  linarith

/-- A movement between -0.3 and 0.3, with noise. -/
theorem swing_between
    (isBinary64 : IsBinary64 arithmetic)
    (configures : Configures config amplitude gravity) {wave : Double}
    (isWave : Between wave (-1) 1) (state : UInt32) :
    Between
      (arithmetic.add (arithmetic.mul (atof (ascii "0.3")) wave)
        (arithmetic.mul (prngF64 arithmetic state).1 config.noiseAmplitude))
      (-toNearest (toNearest (3 / 10) + toNearest amplitude))
      (toNearest (3 / 10)) := by
  have most := configures.small
  have atMost := le_max_left (toNearest (3 / 10)) |toNearest gravity|
  have noiseSmall := configures.amplitude_small
  have noiseNonneg := toNearest_nonneg configures.nonneg
  have swingNonneg : 0 ≤ toNearest (3 / 10) :=
    toNearest_nonneg (by norm_num)
  rw [reach] at most
  have moved :=
    isBinary64.mul_between hasValue_swing (by norm_num) isWave
      (lt_limit (by linarith))
  have noise :=
    noise_between isBinary64 configures.isAmplitude configures.nonneg
      (lt_limit noiseSmall) state
  have sum :=
    isBinary64.add_between moved noise
      (neg_limit_lt (by
        rw [toNearest_neg, toNearest_neg, toNearest_toNearest,
          toNearest_toNearest]
        linarith))
      (lt_limit (by
        rw [toNearest_toNearest, toNearest_zero]
        linarith))
  simp only [toNearest_neg, toNearest_toNearest, toNearest_zero, add_zero,
    ← neg_add] at sum
  exact sum

/-- The slower phase has a value. -/
theorem slowed_between
    (isBinary64 : IsBinary64 arithmetic) {number : Double} {phase : ℚ}
    (isPhase : HasValue number phase) (above : 0 ≤ phase)
    (below : phase ≤ 8) :
    Between (arithmetic.mul number (atof (ascii "0.7"))) 0 8 := by
  have nonneg := toNearest_nonneg above
  have bounded := toNearest_mono below
  have factor := toNearest_mono (show (7 / 10 : ℚ) ≤ 1 by norm_num)
  have factorNonneg : 0 ≤ toNearest (7 / 10) :=
    toNearest_nonneg (by norm_num)
  have eight : toNearest 8 = 8 := by
    exact_mod_cast toNearest_natCast 8 (by decide)
  rw [toNearest_one] at factor
  rw [eight] at bounded
  have product :=
    isBinary64.mul.between isPhase hasValue_slowdown
      (show (0 : ℚ) ≤ toNearest phase * toNearest (7 / 10) from
        mul_nonneg nonneg factorNonneg)
      (show toNearest phase * toNearest (7 / 10) ≤ 8 by nlinarith)
      (neg_limit_lt (by norm_num)) (lt_limit (by norm_num))
  rwa [toNearest_zero, eight] at product

/-- A reading is in range. -/
theorem sensorRead_inRange
    (isBinary64 : IsBinary64 arithmetic)
    (configures : Configures config amplitude gravity) {ctx : SensorCtx}
    (ready : Ready config ctx) (timestampMs : UInt64) :
    InRange amplitude gravity (sensorRead arithmetic timestampMs ctx).1 := by
  obtain rfl := ready.config
  rcases ready.phase with ⟨phase, isPhase, above, below⟩
  rcases slowed_between isBinary64 isPhase above below
    with ⟨argument, isArgument, -, -⟩
  refine
    { x := swing_between isBinary64 configures
        (isBinary64.sin _ _ isPhase) _
      y := swing_between isBinary64 configures
        (isBinary64.cos _ _ isArgument) _
      z := ?_ }
  have most := configures.small
  have atMost := le_max_right (toNearest (3 / 10)) |toNearest gravity|
  have noiseSmall := configures.amplitude_small
  have noiseNonneg := toNearest_nonneg configures.nonneg
  have lower := neg_abs_le (toNearest gravity)
  have upper := le_abs_self (toNearest gravity)
  rw [reach] at most
  have noise (state : UInt32) :=
    noise_between isBinary64 configures.isAmplitude configures.nonneg
      (lt_limit noiseSmall) state
  have sum (state : UInt32) :=
    isBinary64.add_between
      ⟨gravity, configures.isGravity, le_refl _, le_refl _⟩ (noise state)
      (neg_limit_lt (by
        rw [toNearest_neg, toNearest_toNearest]
        linarith))
      (lt_limit (by
        rw [toNearest_zero]
        linarith))
  simp only [toNearest_neg, toNearest_toNearest, toNearest_zero, add_zero,
    ← sub_eq_add_neg] at sum
  exact sum _

/-- The next reading finds the same. -/
theorem Ready.sensorRead
    (isBinary64 : IsBinary64 arithmetic) {ctx : SensorCtx}
    (ready : Ready config ctx) (timestampMs : UInt64) :
    Ready config (sensorRead arithmetic timestampMs ctx).2 where
  config := ready.config
  phase := by
    have tick := toNearest_mono (show (1 / 10 : ℚ) ≤ 1 by norm_num)
    have tickNonneg : 0 ≤ toNearest (1 / 10) :=
      toNearest_nonneg (by norm_num)
    have six : toNearest 6 = 6 := by
      exact_mod_cast toNearest_natCast 6 (by decide)
    have eight : toNearest 8 = 8 := by
      exact_mod_cast toNearest_natCast 8 (by decide)
    have nine : toNearest 9 = 9 := by
      exact_mod_cast toNearest_natCast 9 (by decide)
    rw [toNearest_one] at tick
    have next :=
      isBinary64.add_between ready.phase
        ⟨1 / 10, hasValue_tick, le_refl _, le_refl _⟩
        (neg_limit_lt (by
          rw [toNearest_zero]
          linarith))
        (lt_limit (by
          rw [eight]
          linarith))
    rw [toNearest_zero, zero_add, toNearest_toNearest, eight] at next
    rcases next with ⟨value, isValue, above, below⟩
    have bounded : value ≤ 9 :=
      below.trans
        ((toNearest_mono (show 8 + toNearest (1 / 10) ≤ 9 by linarith)).trans
          nine.le)
    have positive : 0 ≤ value := tickNonneg.trans above
    change
      Between
        (if (atof (ascii "6.283185307")).lt
            (arithmetic.add ctx.phase (atof (ascii "0.1"))) then _ else _) 0 8
    split_ifs with past
    · have past' := (hasValue_turn.lt_iff isValue).mp past
      have ahead := toNearest_mono past'.le
      have turn :=
        toNearest_mono (show (6 : ℚ) ≤ 6283185307 / 10 ^ 9 by norm_num)
      have valueBounded := toNearest_mono bounded
      rw [six] at turn
      rw [nine] at valueBounded
      have difference :=
        isBinary64.sub.between isValue hasValue_turn
          (show (0 : ℚ) ≤
              toNearest value - toNearest (6283185307 / 10 ^ 9) by
            linarith)
          (show toNearest value - toNearest (6283185307 / 10 ^ 9) ≤ 8 by
            linarith)
          (neg_limit_lt (by norm_num)) (lt_limit (by norm_num))
      rwa [toNearest_zero, eight] at difference
    · have under := not_lt.mp (mt (hasValue_turn.lt_iff isValue).mpr past)
      refine ⟨value, isValue, positive, under.trans (by norm_num)⟩

/-- In both directions, no sample is farther away than the reach. -/
theorem InRange.between_reach
    {packet : SensorPacket} (inRange : InRange amplitude gravity packet)
    (nonneg : 0 ≤ amplitude) :
    Between packet.accX (-toNearest (reach amplitude gravity))
        (toNearest (reach amplitude gravity)) ∧
      Between packet.accY (-toNearest (reach amplitude gravity))
          (toNearest (reach amplitude gravity)) ∧
        Between packet.accZ (-toNearest (reach amplitude gravity))
          (toNearest (reach amplitude gravity)) := by
  have noise := toNearest_nonneg nonneg
  have swing := le_max_left (toNearest (3 / 10)) |toNearest gravity|
  have weight := le_max_right (toNearest (3 / 10)) |toNearest gravity|
  have lower := neg_abs_le (toNearest gravity)
  have upper := le_abs_self (toNearest gravity)
  have low :
      -toNearest (reach amplitude gravity) ≤
        -toNearest (toNearest (3 / 10) + toNearest amplitude) :=
    neg_le_neg (toNearest_mono (add_le_add_left swing _))
  have high :
      toNearest (3 / 10) ≤ toNearest (reach amplitude gravity) := by
    rw [← toNearest_toNearest (3 / 10), reach]
    exact toNearest_mono (by linarith)
  refine ⟨inRange.x.mono low high, inRange.y.mono low high,
    inRange.z.mono ?_ ?_⟩
  · rw [← toNearest_neg, reach]
    exact toNearest_mono (by linarith)
  · rw [← toNearest_toNearest gravity, reach]
    exact toNearest_mono (by linarith)

end Reading

end AccelObserver.Client.SensorRange
