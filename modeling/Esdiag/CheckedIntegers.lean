import Esdiag.Outcomes
import Mathlib.Algebra.Ring.Nat
import Mathlib.Order.Basic

/-!
Unsigned arithmetic of a fixed width as a compiled program runs it. A build with
overflow checks stops where the exact result does not fit, any other build goes
on with the wrapped result, and a division by zero stops both. The outcome of
every operation is described by one condition over the exact values.
-/

namespace Esdiag.CheckedIntegers

/-- What stops a program in an arithmetic expression. -/
inductive Fault
  | overflow
  | divisionByZero
  deriving DecidableEq, Repr

/-- Whether the build checks for overflow. -/
structure Build where
  overflowChecks : Bool
  deriving DecidableEq, Repr

variable {w : ℕ} {build : Build}

def Build.keep (build : Build) (overflows : Bool) (r : BitVec w) : Except Fault (BitVec w) :=
  if build.overflowChecks && overflows then .error .overflow else .ok r

def add (build : Build) (x y : BitVec w) : Except Fault (BitVec w) :=
  build.keep (BitVec.uaddOverflow x y) (x + y)

def sub (build : Build) (x y : BitVec w) : Except Fault (BitVec w) :=
  build.keep (BitVec.usubOverflow x y) (x - y)

def mul (build : Build) (x y : BitVec w) : Except Fault (BitVec w) :=
  build.keep (BitVec.umulOverflow x y) (x * y)

def div (x y : BitVec w) : Except Fault (BitVec w) :=
  if y = 0#w then .error .divisionByZero else .ok (x / y)

/-- The computation ends with a value, no step of it stops the program. -/
def Succeeds {ε α : Type} (x : Except ε α) : Prop := ∃ a, x = .ok a

theorem succeeds_ok {ε α : Type} (a : α) : Succeeds (.ok a : Except ε α) := ⟨a, rfl⟩

theorem Succeeds.bind {ε α β : Type} {x : Except ε α} {f : α → Except ε β} (hx : Succeeds x)
    (hf : ∀ a, Succeeds (f a)) : Succeeds (x >>= f) := by
  obtain ⟨a, rfl⟩ := hx
  exact hf a

theorem Succeeds.map {ε α β : Type} {x : Except ε α} (f : α → β) (hx : Succeeds x) :
    Succeeds (f <$> x) := by
  obtain ⟨a, rfl⟩ := hx
  exact succeeds_ok (f a)

theorem succeeds_mapM {ε α β : Type} {f : α → Except ε β} (hf : ∀ a, Succeeds (f a))
    (l : List α) : Succeeds (l.mapM f) := by
  induction l with
  | nil => exact succeeds_ok []
  | cons a l ih =>
    rw [List.mapM_cons]
    exact (hf a).bind fun _ => ih.bind fun _ => succeeds_ok _

theorem keep_eq_ok_iff {overflows : Bool} {r s : BitVec w} :
    build.keep overflows r = .ok s ↔
      (build.overflowChecks = true → overflows = false) ∧ s = r := by
  unfold Build.keep
  cases build.overflowChecks <;> cases overflows <;> simp [eq_comm]

theorem add_eq_ok_iff {x y r : BitVec w} :
    add build x y = .ok r ↔
      (build.overflowChecks = true → x.toNat + y.toNat < 2 ^ w) ∧ r = x + y := by
  unfold add
  rw [keep_eq_ok_iff, BitVec.uaddOverflow, decide_eq_false_iff_not]
  simp only [ge_iff_le, Nat.not_le]

theorem sub_eq_ok_iff {x y r : BitVec w} :
    sub build x y = .ok r ↔
      (build.overflowChecks = true → y.toNat ≤ x.toNat) ∧ r = x - y := by
  unfold sub
  rw [keep_eq_ok_iff, BitVec.usubOverflow, decide_eq_false_iff_not]
  simp only [Nat.not_lt]

theorem mul_eq_ok_iff {x y r : BitVec w} :
    mul build x y = .ok r ↔
      (build.overflowChecks = true → x.toNat * y.toNat < 2 ^ w) ∧ r = x * y := by
  unfold mul
  rw [keep_eq_ok_iff, BitVec.umulOverflow, decide_eq_false_iff_not]
  simp only [ge_iff_le, Nat.not_le]

theorem div_eq_ok_iff {x y r : BitVec w} :
    div x y = .ok r ↔ y ≠ 0#w ∧ r = x / y := by
  unfold div
  by_cases hy : y = 0#w
  · simp only [hy, if_true, reduceCtorEq, ne_eq, not_true_eq_false, false_and]
  · simp only [hy, if_false, Except.ok.injEq, ne_eq, not_false_eq_true, true_and]
    exact eq_comm

theorem sub_of_le {x y : BitVec w} (h : y.toNat ≤ x.toNat) : sub build x y = .ok (x - y) :=
  sub_eq_ok_iff.2 ⟨fun _ => h, rfl⟩

theorem add_of_lt {x y : BitVec w} (h : x.toNat + y.toNat < 2 ^ w) :
    add build x y = .ok (x + y) :=
  add_eq_ok_iff.2 ⟨fun _ => h, rfl⟩

theorem div_of_ne_zero {x y : BitVec w} (h : y ≠ 0#w) : div x y = .ok (x / y) :=
  div_eq_ok_iff.2 ⟨h, rfl⟩

theorem succeeds_div_iff {x y : BitVec w} : Succeeds (div x y) ↔ y ≠ 0#w := by
  constructor
  · rintro ⟨r, hr⟩
    exact (div_eq_ok_iff.1 hr).1
  · intro h
    exact ⟨_, div_of_ne_zero h⟩

/-- A difference that wraps exceeds what it was taken from. -/
theorem lt_toNat_sub_of_lt {x y : BitVec w} (h : x.toNat < y.toNat) :
    x.toNat < (x - y).toNat := by
  have hx := x.isLt
  have hy := y.isLt
  rw [BitVec.toNat_sub, Nat.mod_eq_of_lt (by omega)]
  omega

/-- Part and rest add up to the whole exactly where the subtraction does not wrap. -/
theorem toNat_sub_add_eq_iff {x y : BitVec w} :
    (x - y).toNat + y.toNat = x.toNat ↔ y.toNat ≤ x.toNat := by
  constructor
  · intro h
    omega
  · intro h
    rw [BitVec.toNat_sub_of_le h]
    omega

theorem toNat_mul_le (x y : BitVec w) : (x * y).toNat ≤ x.toNat * y.toNat := by
  rw [BitVec.toNat_mul]
  exact Nat.mod_le _ _

end Esdiag.CheckedIntegers
