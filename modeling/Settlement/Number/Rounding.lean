import Settlement.Number.Basic

/-!
# Rounding to binary64

`Number.nearest` is the one place where precision is lost: it takes an exact ratio of naturals
and a sign to the nearest binary64 number, a tie going to the even significand. Integers of any
size (`Number.ofInt`), decimals (`Number.ofDecimal`) and sums (`Number.add`) all go through it.

Significands have 53 bits, no unit is finer than `2 ^ -1074`, and from `2 ^ 1024` on a
magnitude is infinite. A ratio that is an integer up to `2 ^ 53` stays exact.
-/

namespace Settlement.Number

/-- `p / q` to the nearest integer, a half going to the even neighbour. -/
def divideEven (p q : Nat) : Nat :=
  let d := p / q
  let r := p % q
  if 2 * r < q then d else if q < 2 * r then d + 1 else d + d % 2

/-- The greatest `e` with `2 ^ e ≤ p / q`, for positive `p` and `q`. -/
def leadingExponent (p q : Nat) : Int :=
  let e : Int := (p.log2 : Int) - q.log2
  if q * Nat.pow 2 e.toNat ≤ p * Nat.pow 2 (-e).toNat then e else e - 1

/-- Exponent of the unit in the last place of the binary64 numbers around `p / q`. -/
def unitExponent (p q : Nat) : Int := Max.max (leadingExponent p q - 52) (-1074)

/-- The integer of a magnitude and a sign, `-n` or `n`. -/
def signed (negative : Bool) (n : Nat) : Int := if negative then -n else n

/-- `n / 2 ^ k` in lowest terms, as `whole` or `fraction`. -/
def lowestTerms (n : Int) : Nat → Number
  | 0 => whole n
  -- a common factor two goes out of the numerator and the denominator
  | k + 1 => if h : n % 2 = 1 then .fraction n k h else lowestTerms (n / 2) k

/-- `m * 2 ^ u` with a sign, `infinite` from `2 ^ 1024` on. -/
def scaled (negative : Bool) (m : Nat) (u : Int) : Number :=
  if m = 0 then zero negative
  else if Nat.pow 2 1024 ≤ m * Nat.pow 2 u.toNat then .infinite negative
  else lowestTerms (signed negative (m * Nat.pow 2 u.toNat)) (-u).toNat

/-- The binary64 number nearest to `p / q` with a sign, ties to even. -/
def nearest (negative : Bool) (p q : Nat) : Number :=
  if p = 0 then zero negative
  else if p % q = 0 ∧ p / q ≤ Nat.pow 2 53 then whole (signed negative (p / q))
  else
    -- at most one of the two powers below is not one
    let u := unitExponent p q
    scaled negative (divideEven (p * Nat.pow 2 (-u).toNat) (q * Nat.pow 2 u.toNat)) u

/-- The number `nearest` to an integer. -/
def ofInt (n : Int) : Number := nearest (n < 0) n.natAbs 1

/-- The sum, rounded once by `nearest`. Opposite infinities have none, and only two `negativeZero`
add up to `negativeZero`. -/
def add : Number → Number → Number
  | .nan, _ | _, .nan => .nan
  | .infinite s, .infinite t => if s = t then .infinite s else .nan
  | .infinite s, _ | _, .infinite s => .infinite s
  | .negativeZero, .negativeZero => .negativeZero
  | a, b =>
    let sum := a.num * Int.pow 2 b.shift + b.num * Int.pow 2 a.shift
    nearest (sum < 0) sum.natAbs (Nat.pow 2 (a.shift + b.shift))

instance : Add Number := ⟨add⟩

/-- How many decimal digits a natural number has; `0` has one. -/
def digitCount (n : Nat) : Nat := (Nat.toDigits 10 n).length

/-- The number nearest to `m * 10 ^ e` with a sign. A value whose leading digit stands beyond
the 310th place is infinite and one before the 330th decimal place is zero, so that a long
exponent costs nothing. -/
def ofDecimal (negative : Bool) (m : Nat) (e : Int) : Number :=
  if m = 0 then zero negative
  else if 310 < e + digitCount m then .infinite negative
  else if e + digitCount m < -330 then zero negative
  else nearest negative (m * Nat.pow 10 e.toNat) (Nat.pow 10 (-e).toNat)

/-! ## Exact cases -/

/-- `signed` puts an integer together again from its sign and its magnitude. -/
theorem signed_natAbs (n : Int) : signed (n < 0) n.natAbs = n := by
  simp only [signed, decide_eq_true_eq]
  split <;> omega

/-- `nearest` leaves integers up to `2 ^ 53` as they are. -/
theorem nearest_one (n : Int) (h : n.natAbs ≤ Nat.pow 2 53) :
    nearest (n < 0) n.natAbs 1 = whole n := by
  unfold nearest
  by_cases hz : n.natAbs = 0
  · have : n = 0 := by omega
    subst this
    rfl
  · rw [if_neg hz, if_pos ⟨Nat.mod_one _, by simpa using h⟩, Nat.div_one, signed_natAbs]

/-- `ofInt` is exact up to `2 ^ 53`. -/
theorem ofInt_of_le (n : Int) (h : n.natAbs ≤ Nat.pow 2 53) : ofInt n = whole n := nearest_one n h

end Settlement.Number
