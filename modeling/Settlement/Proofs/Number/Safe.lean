import Mathlib.Tactic.NormNum
import Settlement.Block.Basic
import Settlement.Number.Rounding

/-!
# Safe integers

Numbers that are integers are compared as integers are. The sum of two safe integers may be beyond
`2 ^ 53` and is rounded then. It stays beyond every safe integer, so that comparing a safe integer
with the sum gives the same as comparing with the exact sum.

## Key results

- `le_iff_of_toInt?`, `equal_iff_of_toInt?`: comparisons on the integers
- `exists_toInt?_of_isBlockNumber`: block numbers are the safe integers from zero on
- `le_add_iff_of_toInt?`: comparing with a sum
- `nearest_of_lt`: integers beyond `2 ^ 53` are not rounded below that
- `isBlockNumber_ofInt`: which integers are block numbers once they are rounded
-/

namespace Settlement.Number

variable {x y z : Number} {a b c : Int}

/-- A safe integer has a `toInt?` of magnitude at most `maxSafe`. -/
theorem exists_toInt?_of_isSafeInteger (h : x.isSafeInteger = true) :
    ∃ n : Int, x.toInt? = some n ∧ n.natAbs ≤ maxSafe := by
  rcases isSafeInteger_iff.mp h with rfl | ⟨n, hn, rfl⟩
  · exact ⟨0, rfl, Nat.zero_le _⟩
  · exact ⟨n, rfl, hn⟩

/-- `≤` on numbers that are integers is that of the integers (`toInt?`). -/
theorem le_iff_of_toInt? (hx : x.toInt? = some a) (hy : y.toInt? = some b) : x ≤ y ↔ a ≤ b := by
  have hzero : ∀ n : Int, (.negativeZero ≤ whole n ↔ 0 ≤ n) ∧ (whole n ≤ .negativeZero ↔ n ≤ 0) :=
    fun n => ⟨le_whole (m := 0), le_whole (n := 0)⟩
  -- either number can be `negativeZero`, which is compared like zero
  rcases toInt?_eq_some_iff.mp hx with rfl | ⟨rfl, rfl⟩ <;>
    rcases toInt?_eq_some_iff.mp hy with rfl | ⟨rfl, rfl⟩
  · exact le_whole
  · exact (hzero a).2
  · exact (hzero b).1
  · exact le_whole (m := 0) (n := 0)

/-- `equal` on numbers that are integers is equality of the integers (`toInt?`). -/
theorem equal_iff_of_toInt? (hx : x.toInt? = some a) (hy : y.toInt? = some b) :
    x.equal y = true ↔ a = b := by
  have hwhole : ∀ m n : Int, (whole m).equal (whole n) = true ↔ m = n := fun m n => by simp
  -- a minus zero is compared like zero
  rcases toInt?_eq_some_iff.mp hx with rfl | ⟨rfl, rfl⟩ <;>
    rcases toInt?_eq_some_iff.mp hy with rfl | ⟨rfl, rfl⟩
  · exact hwhole a b
  · exact hwhole a 0
  · exact hwhole 0 b
  · exact hwhole 0 0

/-- A number that is an integer equals `0` if that is the integer. -/
theorem equal_zero_iff_of_toInt? (hx : x.toInt? = some a) : x.equal 0 = true ↔ a = 0 :=
  equal_iff_of_toInt? hx rfl

/-- A number with `isBlockNumber` is a safe integer from zero on. -/
theorem exists_toInt?_of_isBlockNumber (h : x.isBlockNumber = true) :
    ∃ n : Int, x.toInt? = some n ∧ 0 ≤ n ∧ n ≤ maxSafe := by
  simp only [isBlockNumber, Bool.and_eq_true, decide_eq_true_eq] at h
  obtain ⟨n, hn, hsafe⟩ := exists_toInt?_of_isSafeInteger h.1
  have hzero : 0 ≤ n := (le_iff_of_toInt? (x := 0) rfl hn).mp h.2
  exact ⟨n, hn, hzero, by omega⟩

/-! ## Beyond what is exact -/

/-- `divideEven` rounds a ratio down, or up by less than one. -/
private theorem divideEven_bounds (p q : Nat) :
    p / q ≤ divideEven p q ∧ divideEven p q ≤ p / q + 1 := by
  unfold divideEven
  dsimp only
  split
  · omega
  · split <;> omega

/-- `leadingExponent` of a positive integer is its binary logarithm. -/
private theorem leadingExponent_one {p : Nat} (h : p ≠ 0) :
    leadingExponent p 1 = (p.log2 : Int) := by
  have hone : Nat.log2 1 = 0 := by decide
  have hup : ((p.log2 : Int) - ((0 : Nat) : Int)).toNat = p.log2 := by omega
  have hdown : (-((p.log2 : Int) - ((0 : Nat) : Int))).toNat = 0 := by omega
  -- the logarithm needs no correction, since the denominator is one
  have hle : 1 * Nat.pow 2 p.log2 ≤ p * Nat.pow 2 0 := by
    show 1 * 2 ^ p.log2 ≤ p * 1
    rw [Nat.one_mul, Nat.mul_one]
    exact Nat.log2_self_le h
  unfold leadingExponent
  simp only [hone, hup, hdown, if_pos hle]
  omega

/-- `scaled` by a positive power of two is a `whole` number, unless it is `infinite`. -/
private theorem scaled_natCast {m : Nat} (hm : m ≠ 0) (negative : Bool) (k : Nat) :
    scaled negative m (k : Int)
      = if Nat.pow 2 1024 ≤ m * 2 ^ k then .infinite negative
        else whole (signed negative (m * 2 ^ k)) := by
  have hshift : (-(k : Int)).toNat = 0 := by omega
  unfold scaled
  rw [if_neg hm, hshift, Int.toNat_natCast]
  rfl

/-- `nearest` rounds an integer beyond `2 ^ 53` to a multiple of its unit in the last place, which
is two at least. -/
private theorem nearest_of_log2 {p k : Nat} (h : 2 ^ 53 < p) (hk : p.log2 = k + 53)
    (negative : Bool) :
    nearest negative p 1
      = scaled negative (divideEven p (2 ^ (k + 1))) ((k + 1 : Nat) : Int) := by
  have hunit : unitExponent p 1 = ((k + 1 : Nat) : Int) := by
    unfold unitExponent
    rw [leadingExponent_one (by omega), hk]
    omega
  -- too large for the branch that is exact
  have hcut : ¬(p % 1 = 0 ∧ p / 1 ≤ Nat.pow 2 53) := by
    show ¬(p % 1 = 0 ∧ p / 1 ≤ 2 ^ 53)
    omega
  have hdown : (-((k + 1 : Nat) : Int)).toNat = 0 := by omega
  unfold nearest
  rw [if_neg (by omega), if_neg hcut]
  simp only [hunit, hdown, Int.toNat_natCast]
  show scaled negative (divideEven (p * 1) (1 * 2 ^ (k + 1))) _ = _
  rw [Nat.mul_one, Nat.one_mul]

/-! ## Sums -/

/-- `nearest` rounds integers between `2 ^ 53` and `2 ^ 54` to even ones. -/
private theorem nearest_beyond {p : Nat} (hlow : 2 ^ 53 < p) (hhigh : p < 2 ^ 54) :
    nearest false p 1 = whole ((divideEven p 2 * 2 : Nat) : Int) := by
  have hlog : p.log2 = 0 + 53 := (Nat.log2_eq_iff (by omega)).mpr ⟨hlow.le, hhigh⟩
  have hbounds := divideEven_bounds p 2
  -- far below `2 ^ 1024`, where the infinities begin
  have hfinite : ∀ n, 55 ≤ n → ¬Nat.pow 2 n ≤ divideEven p 2 * 2 := fun n hn =>
    Nat.not_le_of_lt (Nat.lt_of_lt_of_le (by omega) (Nat.pow_le_pow_right (by decide) hn))
  rw [nearest_of_log2 hlow hlog]
  show scaled false (divideEven p 2) ((1 : Nat) : Int) = _
  rw [scaled_natCast (by omega), Nat.pow_one, if_neg (hfinite 1024 (by decide))]
  rfl

/-- A sum of integers is the exact sum, rounded by `nearest`. -/
private theorem add_of_toInt? (hx : x.toInt? = some a) (hy : y.toInt? = some b) :
    (x + y).toInt? = (nearest (a + b < 0) (a + b).natAbs 1).toInt? := by
  have hwhole : ∀ m n : Int, nearest (m * 1 + n * 1 < 0) (m * 1 + n * 1).natAbs 1
      = nearest (m + n < 0) (m + n).natAbs 1 := fun m n => by rw [Int.mul_one, Int.mul_one]
  -- only two `negativeZero` do not add up as integers
  rcases toInt?_eq_some_iff.mp hx with rfl | ⟨rfl, rfl⟩ <;>
    rcases toInt?_eq_some_iff.mp hy with rfl | ⟨rfl, rfl⟩
  · exact congrArg toInt? (hwhole a b)
  · exact congrArg toInt? (hwhole a 0)
  · exact congrArg toInt? (hwhole 0 b)
  · rfl

/-- A safe integer is `≤` the sum of two safe integers if it is so for the exact sum. -/
theorem le_add_iff_of_toInt? (hx : x.toInt? = some a) (hy : y.toInt? = some b)
    (hz : z.toInt? = some c) (ha : a.natAbs ≤ maxSafe) (hb : b.natAbs ≤ maxSafe)
    (hc : c.natAbs ≤ maxSafe) (hnonneg : 0 ≤ c) : x ≤ y + z ↔ a ≤ b + c := by
  have hmax : maxSafe = 2 ^ 53 - 1 := rfl
  rw [hmax] at ha hb hc
  have hsum := add_of_toInt? hy hz
  by_cases hexact : (b + c).natAbs ≤ 2 ^ 53
  · rw [nearest_one _ hexact] at hsum
    exact le_iff_of_toInt? hx hsum
  · -- the sum is rounded, and both it and the exact one are beyond all safe integers
    have hneg : decide (b + c < 0) = false := decide_eq_false (by omega)
    rw [hneg, nearest_beyond (by omega) (by omega)] at hsum
    rw [le_iff_of_toInt? hx hsum]
    have hrounded := (divideEven_bounds (b + c).natAbs 2).1
    constructor
    · omega
    · omega

/-! ## Integers beyond the safe ones -/

/-- `nearest` rounds an integer beyond `2 ^ 53` to an integer that is not below that, or to
infinity. -/
theorem nearest_of_lt {p : Nat} (h : 2 ^ 53 < p) (negative : Bool) :
    nearest negative p 1 = .infinite negative ∨
    ∃ m : Nat, 2 ^ 53 ≤ m ∧ nearest negative p 1 = whole (signed negative m) := by
  obtain ⟨k, hk⟩ : ∃ k, p.log2 = k + 53 :=
    Nat.exists_eq_add_of_le' ((Nat.le_log2 (by omega)).mpr h.le)
  have hlow : 2 ^ (k + 53) ≤ p := hk ▸ Nat.log2_self_le (by omega)
  -- there are `2 ^ 52` units at least
  have hunits : 2 ^ 52 ≤ divideEven p (2 ^ (k + 1)) := by
    refine Nat.le_trans ?_ (divideEven_bounds _ _).1
    rw [Nat.le_div_iff_mul_le (Nat.two_pow_pos _)]
    calc 2 ^ 52 * 2 ^ (k + 1) = 2 ^ (k + 53) := by rw [← Nat.pow_add]; congr 1; omega
      _ ≤ p := hlow
  have hbig : 2 ^ 53 ≤ divideEven p (2 ^ (k + 1)) * 2 ^ (k + 1) := by
    have htwo : 2 ^ 1 ≤ 2 ^ (k + 1) := Nat.pow_le_pow_right (by decide) (by omega)
    calc 2 ^ 53 = 2 ^ 52 * 2 ^ 1 := by norm_num
      _ ≤ divideEven p (2 ^ (k + 1)) * 2 ^ (k + 1) := Nat.mul_le_mul hunits htwo
  -- so many units of `2 ^ (k + 1)` each
  rw [nearest_of_log2 h hk, scaled_natCast (by omega)]
  split
  · exact .inl rfl
  · exact .inr ⟨_, hbig, rfl⟩

/-- `nearest` makes nothing safe of an integer beyond `2 ^ 53`. -/
private theorem isSafeInteger_nearest {p : Nat} (h : 2 ^ 53 < p) (negative : Bool) :
    (nearest negative p 1).isSafeInteger = false := by
  rcases nearest_of_lt h negative with heq | ⟨m, hm, heq⟩
  · rw [heq]
    rfl
  · have habs : (signed negative m).natAbs = m := by
      unfold signed
      split <;> omega
    have hmax : maxSafe = 2 ^ 53 - 1 := rfl
    rw [heq, isSafeInteger_whole, habs, hmax]
    exact decide_eq_false (by omega)

/-- `ofInt n` has `isBlockNumber` exactly for the safe integers `n` from zero on. -/
theorem isBlockNumber_ofInt (n : Int) :
    (ofInt n).isBlockNumber = true ↔ 0 ≤ n ∧ n ≤ maxSafe := by
  have hmax : maxSafe = 2 ^ 53 - 1 := rfl
  unfold isBlockNumber
  rw [Bool.and_eq_true, decide_eq_true_iff]
  -- up to `2 ^ 53` nothing is rounded, and beyond it nothing is safe
  by_cases h : n.natAbs ≤ 2 ^ 53
  · have hzero : (0 : Number) ≤ whole n ↔ 0 ≤ n := le_whole (m := 0)
    rw [ofInt_of_le n h, isSafeInteger_whole, decide_eq_true_iff, hzero]
    omega
  · rw [ofInt, isSafeInteger_nearest (by omega)]
    refine iff_of_false (fun hsafe => nomatch hsafe.1) ?_
    omega

end Settlement.Number
