import Mathlib.Algebra.BigOperators.Group.List.Basic
import Mathlib.Algebra.Order.Group.Nat
import Mathlib.Algebra.Order.BigOperators.Group.List
import Mathlib.Tactic.Linarith

/-!
Counters of a fixed width whose addition stops at the largest value instead
of wrapping. The width is a parameter, so one development serves the 16, 32
and 64 bit counters of a program. The value of a saturating sum is the exact
sum cut off at the top, whatever the order and grouping of the additions.
-/
namespace Esdiag.SaturatingCounters

variable {w : ℕ}

def maxCount (w : ℕ) : ℕ := 2 ^ w - 1

def satAdd (a b : BitVec w) : BitVec w :=
  if a.toNat + b.toNat < 2 ^ w then a + b else BitVec.allOnes w

def satSub (a b : BitVec w) : BitVec w :=
  if b.toNat ≤ a.toNat then a - b else 0#w

/-- A left fold of saturating additions, starting from zero. -/
def satTotal (counts : List (BitVec w)) : BitVec w := counts.foldl satAdd 0#w

/-- The exact sum, in unbounded arithmetic. -/
def exactTotal (counts : List (BitVec w)) : ℕ := (counts.map BitVec.toNat).sum

theorem toNat_le_maxCount (a : BitVec w) : a.toNat ≤ maxCount w := by
  have h := a.isLt
  unfold maxCount
  omega

theorem toNat_satAdd (a b : BitVec w) :
    (satAdd a b).toNat = min (a.toNat + b.toNat) (maxCount w) := by
  unfold satAdd maxCount
  split
  · rename_i h
    rw [BitVec.toNat_add, Nat.mod_eq_of_lt h]
    omega
  · rename_i h
    rw [BitVec.toNat_allOnes]
    omega

theorem toNat_satAdd_of_lt {a b : BitVec w} (h : a.toNat + b.toNat < 2 ^ w) :
    (satAdd a b).toNat = a.toNat + b.toNat := by
  rw [toNat_satAdd]
  unfold maxCount
  omega

theorem toNat_satSub (a b : BitVec w) : (satSub a b).toNat = a.toNat - b.toNat := by
  unfold satSub
  split
  · rename_i h
    exact BitVec.toNat_sub_of_le h
  · rename_i h
    simp only [BitVec.toNat_ofNat, Nat.zero_mod]
    omega

theorem toNat_add_of_lt {a b : BitVec w} (h : a.toNat + b.toNat < 2 ^ w) :
    (a + b).toNat = a.toNat + b.toNat := by
  rw [BitVec.toNat_add, Nat.mod_eq_of_lt h]

theorem satAdd_zero (a : BitVec w) : satAdd a 0#w = a := by
  apply BitVec.eq_of_toNat_eq
  have h := toNat_le_maxCount a
  rw [toNat_satAdd]
  simp only [BitVec.toNat_ofNat, Nat.zero_mod]
  omega

theorem toNat_foldl_satAdd (counts : List (BitVec w)) (start : BitVec w) :
    (counts.foldl satAdd start).toNat = min (start.toNat + exactTotal counts) (maxCount w) := by
  induction counts generalizing start with
  | nil =>
    have h := toNat_le_maxCount start
    simp only [List.foldl_nil, exactTotal, List.map_nil, List.sum_nil]
    omega
  | cons count rest ih =>
    rw [List.foldl_cons, ih, toNat_satAdd]
    simp only [exactTotal, List.map_cons, List.sum_cons]
    omega

/-- The saturating fold is the exact sum cut off at the largest count. -/
theorem toNat_satTotal (counts : List (BitVec w)) :
    (satTotal counts).toNat = min (exactTotal counts) (maxCount w) := by
  rw [satTotal, toNat_foldl_satAdd]
  simp

theorem toNat_satTotal_of_lt {counts : List (BitVec w)} (h : exactTotal counts < 2 ^ w) :
    (satTotal counts).toNat = exactTotal counts := by
  rw [toNat_satTotal]
  unfold maxCount
  omega

@[simp] theorem exactTotal_nil : exactTotal ([] : List (BitVec w)) = 0 := rfl

@[simp] theorem exactTotal_cons (count : BitVec w) (rest : List (BitVec w)) :
    exactTotal (count :: rest) = count.toNat + exactTotal rest := by
  simp [exactTotal]

@[simp] theorem exactTotal_append (left right : List (BitVec w)) :
    exactTotal (left ++ right) = exactTotal left + exactTotal right := by
  simp [exactTotal]

end Esdiag.SaturatingCounters
