import Mathlib.Algebra.Order.Group.Nat

namespace Saturating

/-- Unsigned words stop at the largest one. Their subtraction stops at zero, as it does on `Nat`. -/
def saturate (width n : Nat) : Nat := min n (2 ^ width - 1)

def add (width a b : Nat) : Nat := saturate width (a + b)

def mul (width a b : Nat) : Nat := saturate width (a * b)

variable {width a b n : Nat}

theorem saturate_eq (fits : n < 2 ^ width) : saturate width n = n := min_eq_left (Nat.le_sub_one_of_lt fits)

theorem add_eq (fits : a + b < 2 ^ width) : add width a b = a + b := saturate_eq fits

theorem mul_eq (fits : a * b < 2 ^ width) : mul width a b = a * b := saturate_eq fits

end Saturating
