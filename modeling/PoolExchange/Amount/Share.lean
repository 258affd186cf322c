import PoolExchange.Amount

/-!
# Amount — proportional shares

A *share* of an allocation is `part * allocation / total`, rounded down.  `share` takes `part` as
it is; `cappedShare` takes at most `total`, so that the result never exceeds the allocation.  Both
are zero when nothing is shared or there is nothing to share among.
-/

namespace PoolExchange.Amount

/-- `part * allocation / total`. -/
def share (part total allocation : Amount) : Amount :=
  if total.isZero || part.isZero || allocation.isZero then 0 else part * allocation / total

/-- `share` with `part` cut to `total`. -/
def cappedShare (part total allocation : Amount) : Amount :=
  if total.isZero || part.isZero then 0 else share (min part total) total allocation

end PoolExchange.Amount
