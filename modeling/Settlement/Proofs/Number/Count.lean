import Settlement.Proofs.Number.Order
import Settlement.Proofs.Number.Safe

/-!
# Counting with numbers

Sums of integers are exact up to `2 ^ 53`. Beyond that they are rounded, or become infinite, but
they stay beyond. A number therefore counts faithfully as long as one stops looking there: seen up
to that limit (`Number.count?`), numbers are added and compared like naturals, however large they
are and however often their sums were rounded.

## Key results

- `Counts.add`, `Counts.max`: numbers are added and compared like what they count
- `Counts.eq_whole`: a number that counts something below the limit is just that
-/

namespace Settlement.Number

/-- From here on integers are rounded, so that a count can no longer be told (`count?`). -/
def countLimit : Nat := 2 ^ 53

/-- What a number counts, up to `countLimit`: an integer from zero on, or infinitely much. -/
def count? : Number → Option Nat
  | .infinite false => some countLimit
  | .negativeZero => some 0
  | .whole n => if 0 ≤ n then some (min n.toNat countLimit) else none
  | _ => none

/-- `Counts x n`: the number `x` counts `n` things, as far as that can be told below
`countLimit`. -/
def Counts (x : Number) (n : Nat) : Prop := x.count? = some (min n countLimit)

variable {x y : Number} {a b n : Nat}

/-- `count?` of a `whole` number is that integer, cut off at `countLimit`. -/
theorem count?_whole (n : Int) :
    (whole n).count? = if 0 ≤ n then some (min n.toNat countLimit) else none := rfl

/-- `whole n` counts `n`. -/
theorem counts_whole (n : Nat) : Counts (whole n) n := by
  rw [Counts, count?_whole, if_pos (Int.natCast_nonneg n), Int.toNat_natCast]

/-- A number with `toInt?` from zero on counts that integer. -/
theorem counts_of_toInt? (h : x.toInt? = some (n : Int)) : Counts x n := by
  rcases toInt?_eq_some_iff.mp h with rfl | ⟨rfl, hn⟩
  · exact counts_whole n
  · obtain rfl : n = 0 := by omega
    rfl

/-- A number that `Counts` something is `negativeZero`, a `whole` number with the same count, or
`infinite`. -/
theorem Counts.cases (h : Counts x n) :
    x = .negativeZero ∧ n = 0 ∨ (∃ m : Nat, x = whole m ∧ min m countLimit = min n countLimit) ∨
      x = .infinite false ∧ countLimit ≤ n := by
  unfold Counts at h
  cases x with
  | negativeZero =>
    have hcount : 0 = min n countLimit := Option.some.inj h
    have hlimit : 0 < countLimit := by decide
    exact .inl ⟨rfl, by omega⟩
  | infinite negative =>
    cases negative with
    | false =>
      have hcount : countLimit = min n countLimit := Option.some.inj h
      exact .inr (.inr ⟨rfl, by omega⟩)
    | true => exact nomatch h
  | whole m =>
    -- an integer from zero on, which may itself be beyond the limit
    rw [count?_whole] at h
    split at h
    · rename_i hm
      refine .inr (.inl ⟨m.toNat, ?_, Option.some.inj h⟩)
      rw [Int.toNat_of_nonneg hm]
    · exact nomatch h
  | nan => exact nomatch h
  | fraction num shift odd => exact nomatch h

/-- Below `countLimit` a number that counts a positive `n` is `whole n`. -/
theorem Counts.eq_whole (h : Counts x n) (hpos : 0 < n) (hlt : n < countLimit) : x = whole n := by
  rcases h.cases with ⟨-, hzero⟩ | ⟨m, rfl, hm⟩ | ⟨-, hle⟩
  · omega
  · obtain rfl : m = n := by omega
    rfl
  · omega

/-- A number that counts `n` and is an integer is `n` below `countLimit`, and no less than that
beyond it. -/
theorem Counts.of_toInt? (h : Counts x n) {k : Int} (hk : x.toInt? = some k) :
    0 ≤ k ∧ min k.toNat countLimit = min n countLimit := by
  rcases h.cases with ⟨rfl, rfl⟩ | ⟨m, rfl, hm⟩ | ⟨rfl, -⟩
  · obtain rfl : 0 = k := Option.some.inj hk
    exact ⟨le_rfl, rfl⟩
  · obtain rfl : (m : Int) = k := Option.some.inj hk
    exact ⟨Int.natCast_nonneg m, by rwa [Int.toNat_natCast]⟩
  · exact nomatch hk

/-! ## Sums -/

/-- `nearest` loses nothing below `countLimit`. -/
private theorem counts_nearest (n : Nat) : Counts (nearest false n 1) n := by
  by_cases h : n ≤ 2 ^ 53
  · have hexact := nearest_one (n : Int) (by simpa using h)
    have hsign : decide ((n : Int) < 0) = false := by simp
    rw [hsign, Int.natAbs_natCast] at hexact
    rw [hexact]
    exact counts_whole n
  · have hlimit : countLimit = 2 ^ 53 := rfl
    -- rounded to infinity, or to an integer that is still beyond the limit
    rcases nearest_of_lt (Nat.lt_of_not_le h) false with heq | ⟨m, hm, heq⟩
    · rw [heq]
      show some countLimit = some (min n countLimit)
      rw [Nat.min_eq_right (by omega)]
    · have hcounts : Counts (nearest false n 1) m := heq ▸ counts_whole m
      unfold Counts at hcounts ⊢
      rw [hcounts, Nat.min_eq_right (by omega), Nat.min_eq_right (by omega)]

/-- The sum of `whole m` and `whole n` counts `m + n`, whether it is rounded or not. -/
private theorem counts_add_whole (m n : Nat) : Counts (whole m + whole n) (m + n) := by
  have hadd : whole (m : Int) + whole n
      = nearest ((m : Int) * 1 + n * 1 < 0) ((m : Int) * 1 + n * 1).natAbs 1 := rfl
  have hsign : decide ((m : Int) * 1 + n * 1 < 0) = false := decide_eq_false (by omega)
  have habs : ((m : Int) * 1 + n * 1).natAbs = m + n := by omega
  rw [hadd, hsign, habs]
  exact counts_nearest (m + n)

/-- `Counts` looks no further than `countLimit`. -/
private theorem counts_congr (h : Counts x a) (heq : min a countLimit = min b countLimit) :
    Counts x b := by
  unfold Counts at h ⊢
  rw [h, heq]

/-- Numbers are added like what they count (`Counts`). -/
theorem Counts.add (hx : Counts x a) (hy : Counts y b) : Counts (x + y) (a + b) := by
  rcases hx.cases with ⟨rfl, rfl⟩ | ⟨m, rfl, hm⟩ | ⟨rfl, ha⟩ <;>
    rcases hy.cases with ⟨rfl, rfl⟩ | ⟨n, rfl, hn⟩ | ⟨rfl, hb⟩
  · rfl
  · -- minus zero adds up like zero
    exact counts_congr (counts_add_whole 0 n) (by omega)
  · exact counts_congr (a := countLimit) rfl (by omega)
  · exact counts_congr (counts_add_whole m 0) (by omega)
  · exact counts_congr (counts_add_whole m n) (by omega)
  · exact counts_congr (a := countLimit) rfl (by omega)
  · exact counts_congr (a := countLimit) rfl (by omega)
  · exact counts_congr (a := countLimit) rfl (by omega)
  · exact counts_congr (a := countLimit) rfl (by omega)

/-! ## The greater of two numbers -/

/-- `nan` counts nothing. -/
theorem Counts.ne_nan (h : Counts x n) : x ≠ .nan := by
  rintro rfl
  exact nomatch h

/-- Numbers are compared like what they count, up to `countLimit`. -/
theorem Counts.le_of_not_lt (hx : Counts x a) (hy : Counts y b) (h : ¬x < y) :
    min b countLimit ≤ min a countLimit := by
  -- zero, an integer, or infinitely much, on either side
  rcases hx.cases with ⟨rfl, rfl⟩ | ⟨m, rfl, hm⟩ | ⟨rfl, ha⟩
  · rcases hy.cases with ⟨rfl, rfl⟩ | ⟨n, rfl, hn⟩ | ⟨rfl, hb⟩
    · exact le_rfl
    · have hlt : ¬whole 0 < whole n := h
      rw [lt_whole] at hlt
      omega
    · exact absurd rfl h
  · rcases hy.cases with ⟨rfl, rfl⟩ | ⟨n, rfl, hn⟩ | ⟨rfl, hb⟩
    · omega
    · rw [lt_whole] at h
      omega
    · exact absurd rfl h
  · omega

/-- `Number.max` counts the greater of what two numbers count. -/
theorem Counts.max (hx : Counts x a) (hy : Counts y b) : Counts (x.max y) (Max.max a b) := by
  have hnan : ¬(x = .nan ∨ y = .nan) := fun h => h.elim hx.ne_nan hy.ne_nan
  unfold Number.max
  rw [if_neg hnan]
  split
  · rename_i hlt
    -- no number is on both sides of another
    have hle := hy.le_of_not_lt hx fun hgt => lt_irrefl x (lt_trans hlt hgt)
    exact counts_congr hy (by omega)
  · rename_i hlt
    have hle := hx.le_of_not_lt hy hlt
    split
    · exact counts_congr hx (by omega)
    · rename_i hgt
      have hge := hy.le_of_not_lt hx hgt
      split
      · exact counts_congr hy (by omega)
      · exact counts_congr hx (by omega)

end Settlement.Number
