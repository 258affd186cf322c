/-!
# Scale — the units of rates and amounts
-/

namespace PoolExchange

/-- One hundred percent, in basis points. -/
def fullBasisPoints : Nat := 10000

/-- One whole coin, in the smallest unit of amounts. -/
def wholeCoin : Nat := 100000000

end PoolExchange
