import Mathlib.Algebra.Order.Field.Basic
import Mathlib.Algebra.Order.Field.Rat
import Mathlib.Data.Nat.Cast.Order.Ring
import Mathlib.Order.WithBot
import Mathlib.Tactic.NormNum
import Mathlib.Tactic.Positivity
import Settlement.Number.Basic

/-!
# The order of numbers

Every number but NaN has a place on the rational line with two ends added (`Number.place?`), and
the comparisons of numbers are those of their places. What holds of a linear order therefore
holds of numbers, as long as NaN is kept out.

## Key results

- `lt_iff`, `equal_iff`, `le_iff`: the three comparisons on places
- `lt_trans`, `lt_irrefl`: the strict order, for all numbers
- `equal_of_le_of_not_lt`: two numbers that are in order and not strictly are equal
- `lt_of_not_le`: two numbers that are not NaN are in order one way or the other
-/

namespace Settlement.Number

/-- The rational line with both ends. -/
abbrev Line := WithBot (WithTop ℚ)

/-- The place of a number on the line. `nan` has none, and both zeros have the same. -/
def place? : Number → Option Line
  | .nan => none
  | .infinite true => some ⊥
  | .infinite false => some ⊤
  | x => some (((x.num / 2 ^ x.shift : ℚ) : WithTop ℚ) : Line)

/-- A rational lies below the upper end `⊤`. -/
private theorem coe_lt_upper (r : ℚ) : ((r : WithTop ℚ) : Line) < ⊤ :=
  WithBot.coe_lt_coe.mpr (WithTop.coe_lt_top r)

/-- Comparing two finite numbers by cross-multiplication is comparing their values. -/
private theorem cross_lt (m n : Int) (j k : Nat) :
    m * 2 ^ k < n * 2 ^ j ↔ (m / 2 ^ j : ℚ) < n / 2 ^ k := by
  have hj : (0 : ℚ) < 2 ^ j := by positivity
  have hk : (0 : ℚ) < 2 ^ k := by positivity
  rw [div_lt_div_iff₀ hj hk]
  exact_mod_cast Iff.rfl

/-- Two finite numbers are equal by cross-multiplication if their values are. -/
private theorem cross_eq (m n : Int) (j k : Nat) :
    m * 2 ^ k = n * 2 ^ j ↔ (n / 2 ^ k : ℚ) = m / 2 ^ j := by
  have hj : (2 ^ j : ℚ) ≠ 0 := by positivity
  have hk : (2 ^ k : ℚ) ≠ 0 := by positivity
  rw [eq_comm, div_eq_div_iff hk hj]
  exact_mod_cast Iff.rfl

/-- `Number.lt` decides the order of the places. -/
private theorem lt_eq_true_iff {a b : Number} :
    a.lt b = true ↔ ∃ p q, a.place? = some p ∧ b.place? = some q ∧ p < q := by
  -- NaN, the two infinities, and three kinds of finite numbers, on either side
  rcases a with _ | (_ | _) | _ | _ | _ <;> rcases b with _ | (_ | _) | _ | _ | _ <;>
    simp [lt, place?, cross_lt, coe_lt_upper]

/-- `a < b` is the order of the places (`place?`). -/
theorem lt_iff {a b : Number} :
    a < b ↔ ∃ p q, a.place? = some p ∧ b.place? = some q ∧ p < q := lt_eq_true_iff

/-- `equal` is having the same place (`place?`). -/
theorem equal_iff {a b : Number} :
    a.equal b = true ↔ ∃ p, a.place? = some p ∧ b.place? = some p := by
  rcases a with _ | (_ | _) | _ | _ | _ <;> rcases b with _ | (_ | _) | _ | _ | _ <;>
    simp [equal, place?, cross_eq]

/-- `a ≤ b` is the order of the places (`place?`). -/
theorem le_iff {a b : Number} :
    a ≤ b ↔ ∃ p q, a.place? = some p ∧ b.place? = some q ∧ p ≤ q := by
  have split : a ≤ b ↔ a < b ∨ a.equal b = true := by
    change (a.lt b || a.equal b) = true ↔ a.lt b = true ∨ _
    rw [Bool.or_eq_true]
  rw [split, lt_iff, equal_iff]
  constructor
  -- in order by `lt` or by `equal`, and so at two places or at one
  · rintro (⟨p, q, hp, hq, h⟩ | ⟨p, hp, hq⟩)
    · exact ⟨p, q, hp, hq, h.le⟩
    · exact ⟨p, p, hp, hq, le_rfl⟩
  · rintro ⟨p, q, hp, hq, h⟩
    rcases h.lt_or_eq with h | h
    · exact .inl ⟨p, q, hp, hq, h⟩
    · exact .inr ⟨p, hp, h ▸ hq⟩

/-- `<` is transitive on all numbers, `nan` included, which is below nothing. -/
theorem lt_trans {a b c : Number} (hab : a < b) (hbc : b < c) : a < c := by
  obtain ⟨p, q, hp, hq, hpq⟩ := lt_iff.mp hab
  obtain ⟨q', r, hq', hr, hqr⟩ := lt_iff.mp hbc
  obtain rfl : q = q' := Option.some.inj (hq.symm.trans hq')
  exact lt_iff.mpr ⟨p, r, hp, hr, hpq.trans hqr⟩

/-- `≤` and `<` compose to `<`. -/
theorem lt_of_le_of_lt {a b c : Number} (hab : a ≤ b) (hbc : b < c) : a < c := by
  obtain ⟨p, q, hp, hq, hpq⟩ := le_iff.mp hab
  obtain ⟨q', r, hq', hr, hqr⟩ := lt_iff.mp hbc
  obtain rfl : q = q' := Option.some.inj (hq.symm.trans hq')
  exact lt_iff.mpr ⟨p, r, hp, hr, hpq.trans_lt hqr⟩

/-- `<` is contained in `≤`. -/
theorem le_of_lt {a b : Number} (h : a < b) : a ≤ b := by
  obtain ⟨p, q, hp, hq, hpq⟩ := lt_iff.mp h
  exact le_iff.mpr ⟨p, q, hp, hq, hpq.le⟩

/-- No number is below itself, `nan` included. -/
theorem lt_irrefl (a : Number) : ¬a < a := by
  intro h
  obtain ⟨p, q, hp, hq, hpq⟩ := lt_iff.mp h
  obtain rfl : p = q := Option.some.inj (hp.symm.trans hq)
  exact hpq.false

/-- `place?` is defined on all numbers but `nan`. -/
theorem exists_place {a : Number} (h : a ≠ .nan) : ∃ p, a.place? = some p := by
  rcases a with _ | (_ | _) | _ | _ | _ <;> simp [place?] at h ⊢

/-- `nan` is below nothing, and nothing is below `nan`. -/
theorem ne_nan_of_lt {a b : Number} (h : a < b) : a ≠ .nan ∧ b ≠ .nan := by
  obtain ⟨p, q, hp, hq, -⟩ := lt_iff.mp h
  constructor
  · rintro rfl
    simp [place?] at hp
  · rintro rfl
    simp [place?] at hq

/-- `nan` is not in order with anything, itself included. -/
theorem ne_nan_of_le {a b : Number} (h : a ≤ b) : a ≠ .nan ∧ b ≠ .nan := by
  obtain ⟨p, q, hp, hq, -⟩ := le_iff.mp h
  constructor
  · rintro rfl
    simp [place?] at hp
  · rintro rfl
    simp [place?] at hq

/-- Of two numbers that are not `nan`, one is below the other if that is not `≤` the first. -/
theorem lt_of_not_le {a b : Number} (ha : a ≠ .nan) (hb : b ≠ .nan) (h : ¬b ≤ a) : a < b := by
  obtain ⟨p, hp⟩ := exists_place ha
  obtain ⟨q, hq⟩ := exists_place hb
  have hqp : ¬q ≤ p := fun hle => h (le_iff.mpr ⟨q, p, hq, hp, hle⟩)
  exact lt_iff.mpr ⟨p, q, hp, hq, lt_of_not_ge hqp⟩

/-- `<` excludes `≤` the other way round. -/
theorem not_le_of_lt {a b : Number} (h : a < b) : ¬b ≤ a := by
  intro hle
  obtain ⟨p, q, hp, hq, hpq⟩ := lt_iff.mp h
  obtain ⟨q', p', hq', hp', hqp⟩ := le_iff.mp hle
  obtain rfl : p = p' := Option.some.inj (hp.symm.trans hp')
  obtain rfl : q = q' := Option.some.inj (hq.symm.trans hq')
  exact absurd hpq (not_lt_of_ge hqp)

/-- Numbers with `≤` but not `<` are `equal`. -/
theorem equal_of_le_of_not_lt {a b : Number} (hle : a ≤ b) (hlt : ¬a < b) :
    a.equal b = true := by
  obtain ⟨p, q, hp, hq, hpq⟩ := le_iff.mp hle
  rcases hpq.lt_or_eq with h | h
  · exact absurd (lt_iff.mpr ⟨p, q, hp, hq, h⟩) hlt
  · exact equal_iff.mpr ⟨p, hp, h ▸ hq⟩

theorem le_refl {a : Number} (ha : a ≠ .nan) : a ≤ a := by
  obtain ⟨p, hp⟩ := exists_place ha
  exact le_iff.mpr ⟨p, p, hp, hp, le_rfl⟩

/-- `≤` is transitive on all numbers. -/
theorem le_trans {a b c : Number} (hab : a ≤ b) (hbc : b ≤ c) : a ≤ c := by
  obtain ⟨p, q, hp, hq, hpq⟩ := le_iff.mp hab
  obtain ⟨q', r, hq', hr, hqr⟩ := le_iff.mp hbc
  obtain rfl : q = q' := Option.some.inj (hq.symm.trans hq')
  exact le_iff.mpr ⟨p, r, hp, hr, hpq.trans hqr⟩

/-- Of two numbers that are not `nan`, the second is `≤` the first if the first is not below it. -/
theorem le_of_not_lt {a b : Number} (ha : a ≠ .nan) (hb : b ≠ .nan) (h : ¬a < b) : b ≤ a := by
  obtain ⟨p, hp⟩ := exists_place ha
  obtain ⟨q, hq⟩ := exists_place hb
  have hpq : ¬p < q := fun hlt => h (lt_iff.mpr ⟨p, q, hp, hq, hlt⟩)
  exact le_iff.mpr ⟨q, p, hq, hp, le_of_not_gt hpq⟩

/-- `equal` numbers are `≤` the same numbers. -/
theorem le_of_equal_of_le {a b c : Number} (hab : a.equal b = true) (hac : a ≤ c) : b ≤ c := by
  obtain ⟨p, hp, hq⟩ := equal_iff.mp hab
  obtain ⟨p', r, hp', hr, hpr⟩ := le_iff.mp hac
  obtain rfl : p = p' := Option.some.inj (hp.symm.trans hp')
  exact le_iff.mpr ⟨p, r, hq, hr, hpr⟩

/-- The same numbers are `≤` numbers that are `equal`. -/
theorem le_of_le_of_equal {a b c : Number} (hab : a ≤ b) (hbc : b.equal c = true) : a ≤ c := by
  obtain ⟨p, q, hp, hq, hpq⟩ := le_iff.mp hab
  obtain ⟨q', hq', hr⟩ := equal_iff.mp hbc
  obtain rfl : q = q' := Option.some.inj (hq.symm.trans hq')
  exact le_iff.mpr ⟨p, q, hp, hr, hpq⟩

/-- A number that is `≤` anything is `equal` to itself: it is not `nan`. -/
theorem equal_self_of_le {a b : Number} (h : a ≤ b) : a.equal a = true := by
  obtain ⟨p, q, hp, hq, hpq⟩ := le_iff.mp h
  exact equal_iff.mpr ⟨p, hp, hp⟩

/-- The same numbers are below two numbers with `sameKey`. -/
theorem lt_congr_right {a b c : Number} (h : b.sameKey c = true) : a < b ↔ a < c := by
  simp only [sameKey, Bool.or_eq_true, Bool.and_eq_true, beq_iff_eq] at h
  rcases h with h | ⟨rfl, rfl⟩
  · obtain ⟨p, hb, hc⟩ := equal_iff.mp h
    rw [lt_iff, lt_iff, hb, hc]
  · exact Iff.rfl

/-- `sameKey` is reflexive, on `nan` too. -/
theorem sameKey_refl (a : Number) : a.sameKey a = true := by
  by_cases ha : a = .nan
  · simp [sameKey, ha]
  · simp [sameKey, equal_self_of_le (le_refl ha)]

theorem equal_comm (a b : Number) : a.equal b = b.equal a := by
  rw [Bool.eq_iff_iff, equal_iff, equal_iff]
  exact exists_congr fun p => and_comm

/-- `equal` is transitive. -/
theorem equal_trans {a b c : Number} (hab : a.equal b = true) (hbc : b.equal c = true) :
    a.equal c = true := by
  obtain ⟨p, ha, hb⟩ := equal_iff.mp hab
  obtain ⟨q, hb', hc⟩ := equal_iff.mp hbc
  obtain rfl : p = q := Option.some.inj (hb.symm.trans hb')
  exact equal_iff.mpr ⟨p, ha, hc⟩

/-- `equal` is contained in `≤`. -/
theorem le_of_equal {a b : Number} (h : a.equal b = true) : a ≤ b := by
  obtain ⟨p, ha, hb⟩ := equal_iff.mp h
  exact le_iff.mpr ⟨p, p, ha, hb, le_rfl⟩

end Settlement.Number
