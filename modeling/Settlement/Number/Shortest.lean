import Settlement.Number.Rounding

/-!
# The text of a number

A number is written with the fewest decimal digits that read back as it; among those the nearest
to it, and of two equally near ones the even. `Number.shortest` finds them by testing, for one
digit, two digits and so on, the two decimals around the value. `Number.text` lays them out:
positional notation while the point stands between six places before the first digit and
twenty-one after it, an exponent otherwise.

Safe integers are their own decimal digits (`text_whole`).
-/

namespace Settlement.Number

/-- A decimal `digits * 10 ^ exponent`. -/
structure Decimal where
  digits : Nat
  exponent : Int
  deriving DecidableEq, Repr

/-- The number of places before the decimal point of `p / q`: the least `n` with
`p / q < 10 ^ n`, for positive `p` and `q`. -/
def pointPlace (p q : Nat) : Int :=
  if q ≤ p then digitCount (p / q) else 1 - (digitCount ((q - 1) / p) : Int)

/-- The decimals of `k` digits next to `p / q` that read back as `p / q`, nearest first and the
even one first if they are equally near. -/
def candidates (p q k : Nat) : List Decimal :=
  let e : Int := pointPlace p q - k
  let scaledNum := p * Nat.pow 10 (-e).toNat
  let scaledDen := q * Nat.pow 10 e.toNat
  let low := scaledNum / scaledDen
  let rest := scaledNum % scaledDen
  let lowFirst := 2 * rest < scaledDen ∨ (2 * rest = scaledDen ∧ low % 2 = 0)
  let pair := if lowFirst then [low, low + 1] else [low + 1, low]
  let exact := nearest false p q
  (pair.map fun d => ⟨d, e⟩).filter fun c => ofDecimal false c.digits c.exponent == exact

/-- The shortest decimal that reads back as `p / q`. Seventeen digits always do. -/
def shortest (p q : Nat) : Decimal :=
  ((List.range' 1 17).flatMap (candidates p q)).headD ⟨0, 0⟩

/-- Positional notation reaches this many places before the point: from `1e21` on a number is
written with an exponent. -/
def positionalPlaces : Int := 21

/-- Positional notation reaches this many zeros after the point: below `1e-6` a number is written
with an exponent. -/
def positionalZeros : Int := 6

/-- Decimal digits laid out for reading, in positional notation (`positionalPlaces`,
`positionalZeros`) or with an exponent. -/
def Decimal.text (d : Decimal) : String :=
  let digits := (toString d.digits).dropEndWhile '0' |>.toString
  let count : Int := digits.length
  let point : Int := (toString d.digits).length + d.exponent
  let zeros (n : Int) := String.ofList (List.replicate n.toNat '0')
  -- all digits stand before the point
  if count ≤ point ∧ point ≤ positionalPlaces then digits ++ zeros (point - count)
  -- the point stands among the digits
  else if 0 < point ∧ point ≤ positionalPlaces then
    (digits.take point.toNat).toString ++ "." ++ (digits.drop point.toNat).toString
  -- zeros stand between the point and the digits
  else if -positionalZeros < point ∧ point ≤ 0 then "0." ++ zeros (-point) ++ digits
  else
    let e := point - 1
    let mantissa := if count = 1 then digits
      else (digits.take 1).toString ++ "." ++ (digits.drop 1).toString
    mantissa ++ "e" ++ (if 0 ≤ e then "+" else "-") ++ toString e.natAbs

/-- The text of the `shortest` decimal of a finite number, with its sign. -/
def shortestText (x : Number) : String :=
  (if x.num < 0 then "-" else "") ++ (shortest x.num.natAbs (Nat.pow 2 x.shift)).text

/-- The text of a number. Both zeros are written `0`, and NaN and the infinities by their names. -/
def text (x : Number) : String :=
  match x with
  | .nan => "NaN"
  | .infinite negative => if negative then "-Infinity" else "Infinity"
  | _ =>
    match x.toInt? with
    | some n => if n.natAbs ≤ maxSafe then toString n else x.shortestText
    | none => x.shortestText

/-- `text` writes a safe integer with its decimal digits. -/
theorem text_whole (n : Int) (h : n.natAbs ≤ maxSafe) : (whole n).text = toString n := by
  change (match (whole n).toInt? with
    | some m => if m.natAbs ≤ maxSafe then toString m else (whole n).shortestText
    | none => (whole n).shortestText) = _
  simp [h]

/-- `text` writes the decimal digits of any number that is a safe integer; `negativeZero` has no
sign in it. -/
theorem text_of_toInt? {x : Number} {n : Int} (h : x.toInt? = some n)
    (hsafe : n.natAbs ≤ maxSafe) : x.text = toString n := by
  rcases toInt?_eq_some_iff.mp h with rfl | ⟨rfl, rfl⟩
  · exact text_whole n hsafe
  · rfl

end Settlement.Number
