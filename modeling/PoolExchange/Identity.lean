import PoolExchange.Asset

/-!
# Identity — transactions, owners and coins

A `TxId` names the transaction that carried a request: 64 hex digits, kept in upper case.  An
`Address` names an account; `read?` refuses a blank one, but an address that comes with stored
data is taken as it is.  A `Coin` is an amount of one asset.
-/

namespace PoolExchange

/-! ### Transactions -/

@[ext]
structure TxId where
  text : String
deriving DecidableEq, Repr

namespace TxId

def length : Nat := 64

def isHexDigit (c : Char) : Bool :=
  c.isDigit || ('a' ≤ c && c ≤ 'f') || ('A' ≤ c && c ≤ 'F')

def read? (s : String) : Except InputError TxId :=
  if s.toList.length = length && s.toList.all isHexDigit then .ok ⟨Text.upper s⟩
  else .error (.invalidTxId s)

/-- The id with the given bytes, two digits each. -/
def ofBytes (bytes : List UInt8) : TxId :=
  ⟨String.ofList (bytes.flatMap fun b =>
    [(b.toNat / 16).digitChar.toUpper, (b.toNat % 16).digitChar.toUpper])⟩

instance : ToString TxId := ⟨text⟩
instance : Ord TxId := ⟨compareOn text⟩
instance : Std.TransOrd TxId := inferInstanceAs (Std.TransCmp (compareOn text))
instance : Std.LawfulEqOrd TxId where
  eq_of_compare h := TxId.ext (Std.LawfulEqOrd.eq_of_compare (α := String) h)

end TxId

/-! ### Accounts -/

@[ext]
structure Address where
  text : String
deriving DecidableEq, Repr

namespace Address

def read? (s : String) : Except InputError Address :=
  if Text.isBlankText s then .error .emptyAddress else .ok ⟨s⟩

instance : ToString Address := ⟨text⟩
instance : Ord Address := ⟨compareOn text⟩
instance : Std.TransOrd Address := inferInstanceAs (Std.TransCmp (compareOn text))
instance : Std.LawfulEqOrd Address where
  eq_of_compare h := Address.ext (Std.LawfulEqOrd.eq_of_compare (α := String) h)

end Address

/-! ### Coins -/

/-- An amount of one asset. -/
@[ext]
structure Coin where
  asset : Asset
  amount : Amount
deriving DecidableEq, Repr

namespace Coin

def isEmpty (c : Coin) : Bool := c.amount.isZero

def text (c : Coin) : String := c.amount.text ++ " " ++ c.asset.text

instance : ToString Coin := ⟨text⟩

end Coin

end PoolExchange
