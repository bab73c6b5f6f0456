import Settlement.Number.Rounding

/-!
# Lookback

How many provenance links are kept, one for each L1 block. L1 never finalizes further behind its
head than the default lookback. Where commitments to data can be challenged, the challenge
window and the resolve window have to pass as well, on top of the block itself.

A lookback that is too small finalizes nothing wrongly: finality only lags.
-/

namespace Settlement

/-- Four epochs of 32 slots, and one slot, so that `Ring.append` has room before it drops the oldest
link. -/
def defaultLookback : Nat := 4 * 32 + 1

/-- How many L1 blocks pass between two passes at a derivation boundary, by default
(`Sizing.delay`). -/
def defaultDelay : Nat := 64

/-- The windows of an alternative data availability layer, in L1 blocks. -/
structure Windows where
  challenge : Number
  resolve : Number
  deriving DecidableEq, Repr

/-- What the size of the buffer and the throttle depend on. -/
structure Sizing where
  /-- The lookback where no window asks for more. -/
  lookback? : Option Number := none
  /-- Given only where commitments to data can be challenged. -/
  windows? : Option Windows := none
  /-- L1 blocks between two passes at a derivation boundary. -/
  delay? : Option Number := none
  deriving DecidableEq, Repr

namespace Sizing

/-- The number of links to keep: the lookback given or `defaultLookback`, or the sum of the windows
and one if that is greater. The sum is taken from left to right. -/
def lookback (s : Sizing) : Number :=
  let least := s.lookback?.getD (.whole defaultLookback)
  match s.windows? with
  | none => least
  | some w => least.max (w.challenge + w.resolve + 1)

/-- The delay given, or `defaultDelay`. -/
def delay (s : Sizing) : Number := s.delay?.getD (.whole defaultDelay)

end Sizing

end Settlement
