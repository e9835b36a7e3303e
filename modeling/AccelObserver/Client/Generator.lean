import AccelObserver.Client.WsTransport
import AccelObserver.Library.XorShift

/-!
# The generator of the client

The xorshift32 step of `ws_client.c` on its own, and the word that a
connection starts from.  Three shifts added by exclusive or make a bijection,
so no number of steps leads from another state to zero.
-/

namespace AccelObserver.Client.Generator

open AccelObserver.Library
open AccelObserver.Client.WsTransport (prngNext maskOf)

/-! ## The seed -/

/-- The rounds of `prng_seed`. -/
def stir : Nat → UInt32 → UInt32
  | 0, s => s
  | rounds + 1, s =>
      let s := s ^^^ (s <<< 13)
      let s := s ^^^ (s >>> 17)
      let s := s ^^^ (s <<< 5)
      stir rounds s

/--
`prng_seed`, from `time(NULL)` and the process id; both are cut to 32 bits,
whatever their types are.
-/
def prngSeed (time pid : ℤ) : UInt32 :=
  let s := UInt32.ofInt time ^^^ (UInt32.ofInt pid * 2654435761)
  let s := stir 16 s
  if s = 0 then 0xDEADBEEF else s

/-- The seed is the mixed word, unless that is zero. -/
theorem prngSeed_ne_zero (time pid : ℤ) : prngSeed time pid ≠ 0 := by
  simp only [prngSeed]
  split
  · decide
  · assumption

/-! ## The step -/

/-- The step on bit vectors. -/
theorem prngNext_toBitVec (state : UInt32) :
    (prngNext state).toBitVec =
      XorShift.left 5 (XorShift.right 17 (XorShift.left 13 state.toBitVec)) :=
  rfl

theorem prngNext_bijective : Function.Bijective prngNext := by
  have step :
      Function.Bijective fun word : BitVec 32 =>
        XorShift.left 5 (XorShift.right 17 (XorShift.left 13 word)) :=
    (XorShift.left_bijective (by decide)).comp
      ((XorShift.right_bijective (by decide)).comp
        (XorShift.left_bijective (by decide)))
  constructor
  · intro state state' same
    have words := congrArg UInt32.toBitVec same
    rw [prngNext_toBitVec, prngNext_toBitVec] at words
    exact UInt32.toBitVec_inj.mp (step.injective words)
  · intro result
    rcases step.surjective result.toBitVec with ⟨word, reached⟩
    refine ⟨UInt32.ofBitVec word, UInt32.toBitVec_inj.mp ?_⟩
    rw [prngNext_toBitVec]
    exact reached

theorem prngNext_zero : prngNext 0 = 0 := by
  decide

@[simp]
theorem prngNext_eq_zero_iff {state : UInt32} :
    prngNext state = 0 ↔ state = 0 := by
  constructor
  · intro zero
    exact prngNext_bijective.injective (zero.trans prngNext_zero.symm)
  · rintro rfl
    exact prngNext_zero

/-- Zero is reached from zero only, in any number of steps. -/
theorem iterate_prngNext_ne_zero
    {state : UInt32} (nonzero : state ≠ 0) (count : Nat) :
    prngNext^[count] state ≠ 0 := by
  induction count generalizing state with
  | zero => exact nonzero
  | succ count induction =>
      exact induction (prngNext_eq_zero_iff.not.mpr nonzero)

/-! ## The bytes of a mask -/

/-- A mask of four zero bytes comes from the word zero only. -/
theorem maskOf_eq_zero_iff {word : UInt32} :
    (∀ place, maskOf word place = 0) ↔ word = 0 := by
  constructor
  · intro zeros
    have first := congrArg UInt8.toNat (zeros 0)
    have second := congrArg UInt8.toNat (zeros 1)
    have third := congrArg UInt8.toNat (zeros 2)
    have fourth := congrArg UInt8.toNat (zeros 3)
    simp only [maskOf, UInt32.toNat_toUInt8, UInt32.toNat_shiftRight,
      Nat.shiftRight_eq_div_pow] at first second third fourth
    apply UInt32.toNat_inj.mp
    have bounded := word.toNat_lt
    simp at first second third fourth ⊢
    omega
  · rintro rfl place
    revert place
    decide

end AccelObserver.Client.Generator
