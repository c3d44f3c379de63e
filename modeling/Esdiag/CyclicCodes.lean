import Mathlib.Algebra.Polynomial.Div
import Mathlib.Algebra.CharP.Two
import Mathlib.Algebra.Field.ZMod

/-!
Words of bits as polynomials over the field of two elements. A register that moves
by one place, and takes the generator off when a bit leaves it, multiplies by `X`
modulo the generator. Fed a message block by block, it holds the remainder of the
whole message.
-/
namespace Esdiag.CyclicCodes

open Polynomial

/-- A bit as an element of the field. -/
def bit (b : Bool) : ZMod 2 := if b then 1 else 0

theorem bit_xor (a b : Bool) : bit (a ^^ b) = bit a + bit b := by
  cases a <;> cases b <;> decide

theorem decide_bit (b : Bool) : decide (bit b = 1) = b := by
  cases b <;> decide

/-- The polynomial whose coefficients are the bits, the one of the highest power first. -/
noncomputable def ofBits : List Bool → (ZMod 2)[X]
  | [] => 0
  | b :: rest => C (bit b) * X ^ rest.length + ofBits rest

theorem ofBits_append (first later : List Bool) :
    ofBits (first ++ later) = X ^ later.length * ofBits first + ofBits later := by
  induction first with
  | nil => simp [ofBits]
  | cons b rest ih =>
    rw [List.cons_append, ofBits, ofBits, ih, List.length_append, pow_add]
    ring

theorem coeff_ofBits (bits : List Bool) (i : ℕ) :
    (ofBits bits).coeff i = bit (bits.reverse[i]?.getD false) := by
  induction bits with
  | nil => simp [ofBits, bit]
  | cons b rest ih =>
    rw [ofBits, coeff_add, coeff_C_mul_X_pow, ih, List.reverse_cons]
    by_cases hlt : i < rest.length
    · rw [if_neg (by omega), zero_add, List.getElem?_append_left (by simpa using hlt)]
    · have hnone : rest.reverse[i]? = none := List.getElem?_eq_none (by simpa using hlt)
      rw [hnone, List.getElem?_append_right (by simpa using hlt), List.length_reverse]
      by_cases heq : i = rest.length
      · rw [if_pos heq, heq, Nat.sub_self]
        simp [bit]
      · rw [if_neg heq, List.getElem?_eq_none (by simp; omega)]
        simp [bit]

section Words

variable {w : ℕ}

/-- The bits of a word, the highest one first. -/
def bits (word : BitVec w) : List Bool := List.ofFn word.getMsb

theorem length_bits (word : BitVec w) : (bits word).length = w := by simp [bits]

theorem reverse_bits (word : BitVec w) (i : ℕ) :
    (bits word).reverse[i]?.getD false = word.getLsbD i := by
  by_cases hlt : i < w
  · rw [List.getElem?_reverse (by simpa [bits] using hlt), length_bits, bits, List.getElem?_ofFn]
    have hback : w - 1 - i < w := by omega
    have hplace : w - 1 - (w - 1 - i) = i := by omega
    simp [hback, BitVec.getMsb, BitVec.getLsb, BitVec.getLsbD, hplace]
  · rw [List.getElem?_eq_none (by simpa [bits] using hlt), BitVec.getLsbD_of_ge word i (by omega)]
    rfl

/-- The polynomial whose coefficients are the bits of a word. -/
noncomputable def toPoly (word : BitVec w) : (ZMod 2)[X] := ofBits (bits word)

theorem coeff_toPoly (word : BitVec w) (i : ℕ) :
    (toPoly word).coeff i = bit (word.getLsbD i) := by
  rw [toPoly, coeff_ofBits, reverse_bits]

theorem degree_toPoly_lt (word : BitVec w) : (toPoly word).degree < w := by
  apply (degree_lt_iff_coeff_zero _ _).mpr
  intro i hi
  rw [coeff_toPoly, BitVec.getLsbD_of_ge word i hi]
  rfl

theorem toPoly_zero : toPoly (0#w) = 0 := by
  ext i
  rw [coeff_toPoly, BitVec.getLsbD_zero, coeff_zero]
  rfl

theorem toPoly_xor (a b : BitVec w) : toPoly (a ^^^ b) = toPoly a + toPoly b := by
  ext i
  rw [coeff_add, coeff_toPoly, coeff_toPoly, coeff_toPoly, BitVec.getLsbD_xor, bit_xor]

/-- The word whose bits are the first coefficients of a polynomial. -/
def ofPoly (w : ℕ) (p : (ZMod 2)[X]) : BitVec w :=
  (BitVec.ofBoolListLE (List.ofFn fun i : Fin w => decide (p.coeff i = 1))).setWidth w

theorem ofPoly_toPoly (word : BitVec w) : ofPoly w (toPoly word) = word := by
  apply BitVec.eq_of_getLsbD_eq
  intro i hi
  rw [ofPoly, BitVec.getLsbD_setWidth, BitVec.getLsbD_ofBoolListLE, List.getD_eq_getElem?_getD,
    List.getElem?_ofFn, dif_pos hi, Option.getD_some, coeff_toPoly, decide_bit, decide_eq_true hi,
    Bool.true_and]

/-- A word moved to the left by what its width has to spare. -/
theorem toPoly_lift {k : ℕ} (hk : k ≤ w) (block : BitVec k) :
    toPoly (block.setWidth w <<< (w - k)) = X ^ (w - k) * toPoly block := by
  ext i
  rw [coeff_toPoly, BitVec.getLsbD_shiftLeft, BitVec.getLsbD_setWidth, coeff_X_pow_mul',
    coeff_toPoly]
  by_cases hlow : i < w - k
  · rw [if_neg (by omega), decide_eq_true hlow]
    simp [bit]
  · rw [if_pos (by omega), decide_eq_false hlow]
    by_cases hhigh : i < w
    · rw [decide_eq_true hhigh, decide_eq_true (by omega)]
      simp
    · rw [decide_eq_false hhigh, BitVec.getLsbD_of_ge block _ (by omega)]
      rfl

end Words

section Registers

variable {w : ℕ} (low : BitVec w)

/-- The generator with the highest power that a word of `w` bits has no place for. -/
noncomputable def generator : (ZMod 2)[X] := X ^ w + toPoly low

theorem generator_monic : (generator low).Monic :=
  monic_X_pow_add (degree_toPoly_lt low)

theorem degree_generator : (generator low).degree = w := by
  rw [generator, degree_add_eq_left_of_degree_lt, degree_X_pow]
  rw [degree_X_pow]
  exact degree_toPoly_lt low

theorem toPoly_modByMonic (word : BitVec w) : toPoly word %ₘ generator low = toPoly word := by
  apply (modByMonic_eq_self_iff (generator_monic low)).mpr
  rw [degree_generator]
  exact degree_toPoly_lt word

/-- A remainder may be taken before a product and a sum. -/
theorem mul_modByMonic_add (factor p q : (ZMod 2)[X]) :
    (factor * (p %ₘ generator low) + q) %ₘ generator low = (factor * p + q) %ₘ generator low := by
  apply modByMonic_eq_of_dvd_sub (generator_monic low)
  have hdiff : factor * (p %ₘ generator low) + q - (factor * p + q) =
      factor * (p %ₘ generator low - p) := by ring
  rw [hdiff]
  exact (dvd_modByMonic_sub p (generator low)).mul_left factor

/-- A register moved by one place. The bit that leaves it takes the generator off. -/
def shift (register : BitVec w) : BitVec w :=
  if register.msb then (register <<< 1) ^^^ low else register <<< 1

/-- The product with `X` is the word moved by one place, and the bit that leaves it. -/
theorem X_mul_toPoly (register : BitVec w) :
    X * toPoly register = toPoly (register <<< 1) + C (bit register.msb) * X ^ w := by
  ext i
  rw [coeff_add, coeff_toPoly, BitVec.getLsbD_shiftLeft, coeff_C_mul_X_pow,
    BitVec.msb_eq_getLsbD_last]
  cases i with
  | zero =>
    rw [coeff_X_mul_zero]
    by_cases hw : 0 = w
    · rw [if_pos hw, BitVec.getLsbD_of_ge register (w - 1) (by omega)]
      simp [bit]
    · rw [if_neg hw]
      simp [bit]
  | succ i =>
    rw [coeff_X_mul, coeff_toPoly, Nat.add_sub_cancel]
    rcases lt_trichotomy (i + 1) w with hlt | heq | hgt
    · rw [if_neg (by omega), add_zero, decide_eq_true hlt]
      simp
    · have htop : w - 1 = i := by omega
      rw [if_pos heq, htop, decide_eq_false (by omega)]
      simp [bit]
    · rw [if_neg (by omega), BitVec.getLsbD_of_ge register _ (by omega)]
      simp [bit]

theorem toPoly_shift (register : BitVec w) :
    toPoly (shift low register) = (X * toPoly register) %ₘ generator low := by
  have hdivision : toPoly (shift low register) +
      generator low * C (bit register.msb) = X * toPoly register := by
    rw [X_mul_toPoly, shift, generator]
    cases register.msb with
    | false => simp [bit]
    | true =>
      have htwice : toPoly low + toPoly low = 0 := CharTwo.add_self_eq_zero _
      calc toPoly ((register <<< 1) ^^^ low) + (X ^ w + toPoly low) * C (bit true)
          = toPoly (register <<< 1) + X ^ w + (toPoly low + toPoly low) := by
            rw [toPoly_xor, bit, if_pos rfl, C_1]
            ring
        _ = toPoly (register <<< 1) + C (bit true) * X ^ w := by
            rw [htwice, bit, if_pos rfl, C_1, add_zero, one_mul]
  refine (div_modByMonic_unique _ _ (generator_monic low) ⟨hdivision, ?_⟩).2.symm
  rw [degree_generator]
  exact degree_toPoly_lt _

theorem toPoly_shift_iterate (k : ℕ) (register : BitVec w) :
    toPoly ((shift low)^[k] register) = (X ^ k * toPoly register) %ₘ generator low := by
  induction k with
  | zero => rw [Function.iterate_zero_apply, pow_zero, one_mul, toPoly_modByMonic]
  | succ k ih =>
    rw [Function.iterate_succ_apply', toPoly_shift, ih, ← add_zero (X * _), mul_modByMonic_add,
      add_zero, pow_succ', mul_assoc]

/-- A register takes in a block of bits, the highest one first. -/
def feed {k : ℕ} (register : BitVec w) (block : BitVec k) : BitVec w :=
  (shift low)^[k] (register ^^^ block.setWidth w <<< (w - k))

theorem toPoly_feed {k : ℕ} (hk : k ≤ w) (register : BitVec w) (block : BitVec k) :
    toPoly (feed low register block) =
      (X ^ k * toPoly register + X ^ w * toPoly block) %ₘ generator low := by
  have hpow : (X : (ZMod 2)[X]) ^ k * X ^ (w - k) = X ^ w := by
    rw [← pow_add, Nat.add_sub_cancel' hk]
  rw [feed, toPoly_shift_iterate, toPoly_xor, toPoly_lift hk, mul_add, ← mul_assoc, hpow]

/-- The register after a message, from the one before it. -/
theorem toPoly_foldl_feed {k : ℕ} (hk : k ≤ w) (blocks : List (BitVec k)) (register : BitVec w) :
    toPoly (blocks.foldl (feed low) register) =
      (X ^ (blocks.flatMap bits).length * toPoly register +
        X ^ w * ofBits (blocks.flatMap bits)) %ₘ generator low := by
  induction blocks generalizing register with
  | nil => simp [ofBits, toPoly_modByMonic]
  | cons block rest ih =>
    have hblock : ofBits (bits block) = toPoly block := rfl
    rw [List.foldl_cons, ih, toPoly_feed low hk, mul_modByMonic_add, List.flatMap_cons,
      ofBits_append, List.length_append, length_bits, pow_add, hblock]
    congr 1
    ring

/-- The register that begins with zeros ends with the remainder of the message. -/
theorem foldl_feed_zero {k : ℕ} (hk : k ≤ w) (blocks : List (BitVec k)) :
    blocks.foldl (feed low) 0#w =
      ofPoly w ((X ^ w * ofBits (blocks.flatMap bits)) %ₘ generator low) := by
  rw [← ofPoly_toPoly (blocks.foldl (feed low) 0#w), toPoly_foldl_feed low hk, toPoly_zero,
    mul_zero, zero_add]

end Registers

end Esdiag.CyclicCodes
