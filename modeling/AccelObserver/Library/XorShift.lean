import Mathlib.Data.BitVec
import Mathlib.Data.Fintype.EquivFin
import Mathlib.Tactic.Common

/-!
# Exclusive or with a shift of oneself

A word with one of its shifts added by exclusive or still determines the
word: below the distance the bits are unchanged, and every further bit is
found from one that is already known.  On words of one width such a map is
therefore a bijection, and it sends only zero to zero.
-/

namespace AccelObserver.Library.XorShift

variable {width : Nat}

/-- `x ^ (x << distance)` -/
def left (distance : Nat) (x : BitVec width) : BitVec width :=
  x ^^^ (x <<< distance)

/-- `x ^ (x >> distance)` -/
def right (distance : Nat) (x : BitVec width) : BitVec width :=
  x ^^^ (x >>> distance)

/-- The bits are found from the lowest one on. -/
theorem left_injective {distance : Nat} (moved : 0 < distance) :
    Function.Injective (left distance : BitVec width → BitVec width) := by
  intro x y same
  have bits (i : Nat) (bounded : i < width) :
      x.getLsbD i = y.getLsbD i := by
    induction i using Nat.strong_induction_on with
    | _ i induction =>
        have bit := congrArg (fun word => word.getLsbD i) same
        simp only [left, BitVec.getLsbD_xor, BitVec.getLsbD_shiftLeft,
          bounded, decide_true, Bool.true_and] at bit
        by_cases low : i < distance
        · simpa [low] using bit
        · have known :=
            induction (i - distance) (by omega) (by omega)
          rw [known] at bit
          exact Bool.xor_left_inj.mp bit
  exact BitVec.eq_of_getLsbD_eq bits

/-- The bits are found from the highest one on. -/
theorem right_injective {distance : Nat} (moved : 0 < distance) :
    Function.Injective (right distance : BitVec width → BitVec width) := by
  intro x y same
  have bits (height : Nat) :
      ∀ i, width ≤ i + height → x.getLsbD i = y.getLsbD i := by
    induction height with
    | zero =>
        intro i outside
        rw [BitVec.getLsbD_of_ge x i outside, BitVec.getLsbD_of_ge y i outside]
    | succ height induction =>
        intro i near
        have bit := congrArg (fun word => word.getLsbD i) same
        simp only [right, BitVec.getLsbD_xor,
          BitVec.getLsbD_ushiftRight] at bit
        have known := induction (distance + i) (by omega)
        rw [known] at bit
        exact Bool.xor_left_inj.mp bit
  exact BitVec.eq_of_getLsbD_eq fun i _ => bits width i (by omega)

/-- There are finitely many words of one width. -/
theorem finite_word (width : Nat) : Finite (BitVec width) :=
  Finite.of_injective BitVec.toFin fun _ _ same => BitVec.toFin_inj.mp same

theorem left_bijective {distance : Nat} (moved : 0 < distance) :
    Function.Bijective (left distance : BitVec width → BitVec width) :=
  have := finite_word width
  Finite.injective_iff_bijective.mp (left_injective moved)

theorem right_bijective {distance : Nat} (moved : 0 < distance) :
    Function.Bijective (right distance : BitVec width → BitVec width) :=
  have := finite_word width
  Finite.injective_iff_bijective.mp (right_injective moved)

end AccelObserver.Library.XorShift
