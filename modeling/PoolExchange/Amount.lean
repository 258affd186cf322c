import PoolExchange.Text.Blank
import PoolExchange.Text.Numeral
import PoolExchange.Word

/-!
# Amount — 256-bit quantities

An `Amount` is a natural number of 256 bits; `toNat` is its view, and two amounts with the
same view are equal.  Arithmetic never wraps: `+` and `*` stop at the largest amount, `-` stops
at zero, and `/` by zero is zero.  The operations with a question mark report instead of
stopping: `add?`, `mul?`, `quo?` and `rem?` fail with an `AmountError` when the exact result does
not exist.

An amount is written in decimal without leading zeros.  `read?` accepts surrounding blanks, one
plus sign and leading zeros, and refuses every value that does not fit.
-/

namespace PoolExchange

/-- The operations that can fail. -/
inductive Amount.Operation
  | add | mul | quo | rem
deriving DecidableEq, Repr

/-- Why an amount could not be computed or read. -/
inductive AmountError
  | overflow (operation : Amount.Operation)
  | divisionByZero (operation : Amount.Operation)
  | invalidNumber (text : String)
deriving DecidableEq, Repr

def Amount.Operation.name : Amount.Operation → String
  | .add => "add"
  | .mul => "mul"
  | .quo => "quo"
  | .rem => "rem"

def AmountError.message : AmountError → String
  | .overflow op => "arithmetic overflow in " ++ op.name
  | .divisionByZero op => "division by zero in " ++ op.name
  | .invalidNumber text => "invalid number '" ++ text ++ "'"

/-- A short fixed name of the cause, for programs that tell causes apart. -/
def AmountError.code : AmountError → String
  | .overflow _ => "Overflow"
  | .divisionByZero _ => "DivisionByZero"
  | .invalidNumber _ => "InvalidNumber"

/-- The number of amounts. -/
def Amount.bound : Nat := wordBound 256

/-- A quantity of 256 bits. -/
@[ext]
structure Amount where
  toNat : Nat
  toNat_lt : toNat < Amount.bound
deriving DecidableEq

namespace Amount

instance : Repr Amount := ⟨fun a n => reprPrec a.toNat n⟩

theorem bound_pos : 0 < bound := wordBound_pos 256

/-- The largest amount. -/
def largest : Amount := ⟨bound - 1, Nat.sub_lt bound_pos Nat.one_pos⟩

/-- The amount nearest to `n` from below. -/
def clamp (n : Nat) : Amount :=
  ⟨min n (bound - 1), by have := bound_pos; omega⟩

instance {n : Nat} : OfNat Amount n := ⟨clamp n⟩
instance : Inhabited Amount := ⟨0⟩
instance : LE Amount := ⟨fun a b => a.toNat ≤ b.toNat⟩
instance : LT Amount := ⟨fun a b => a.toNat < b.toNat⟩
instance (a b : Amount) : Decidable (a ≤ b) := inferInstanceAs (Decidable (a.toNat ≤ b.toNat))
instance (a b : Amount) : Decidable (a < b) := inferInstanceAs (Decidable (a.toNat < b.toNat))
instance : Ord Amount := ⟨compareOn toNat⟩
instance : Min Amount := ⟨fun a b => if a ≤ b then a else b⟩
instance : Max Amount := ⟨fun a b => if a ≤ b then b else a⟩
instance : Add Amount := ⟨fun a b => clamp (a.toNat + b.toNat)⟩
instance : Mul Amount := ⟨fun a b => clamp (a.toNat * b.toNat)⟩
instance : Sub Amount := ⟨fun a b => clamp (a.toNat - b.toNat)⟩
instance : Div Amount := ⟨fun a b => clamp (a.toNat / b.toNat)⟩

/-! ### The view -/

theorem le_def {a b : Amount} : a ≤ b ↔ a.toNat ≤ b.toNat := Iff.rfl

theorem lt_def {a b : Amount} : a < b ↔ a.toNat < b.toNat := Iff.rfl

theorem toNat_clamp (n : Nat) : (clamp n).toNat = min n (bound - 1) := rfl

theorem toNat_clamp_of_lt {n : Nat} (h : n < bound) : (clamp n).toNat = n := by
  rw [toNat_clamp]; omega

@[simp] theorem toNat_zero : (0 : Amount).toNat = 0 := rfl

theorem toNat_ofNat (n : Nat) : (OfNat.ofNat n : Amount).toNat = min n (bound - 1) := rfl

theorem toNat_add (a b : Amount) : (a + b).toNat = min (a.toNat + b.toNat) (bound - 1) := rfl

theorem toNat_mul (a b : Amount) : (a * b).toNat = min (a.toNat * b.toNat) (bound - 1) := rfl

@[simp] theorem toNat_sub (a b : Amount) : (a - b).toNat = a.toNat - b.toNat := by
  show min (a.toNat - b.toNat) (bound - 1) = a.toNat - b.toNat
  have := a.toNat_lt
  omega

@[simp] theorem toNat_div (a b : Amount) : (a / b).toNat = a.toNat / b.toNat := by
  show min (a.toNat / b.toNat) (bound - 1) = a.toNat / b.toNat
  have := a.toNat_lt
  have := Nat.div_le_self a.toNat b.toNat
  omega

theorem toNat_min (a b : Amount) : (Min.min a b).toNat = Min.min a.toNat b.toNat := by
  show (if a.toNat ≤ b.toNat then a else b).toNat = _
  split <;> omega

theorem toNat_max (a b : Amount) : (Max.max a b).toNat = Max.max a.toNat b.toNat := by
  show (if a.toNat ≤ b.toNat then b else a).toNat = _
  split <;> omega

theorem eq_zero_iff {a : Amount} : a = 0 ↔ a.toNat = 0 :=
  ⟨fun h => h ▸ rfl, fun h => Amount.ext h⟩

theorem toNat_add_of_lt {a b : Amount} (h : a.toNat + b.toNat < bound) :
    (a + b).toNat = a.toNat + b.toNat := toNat_clamp_of_lt h

theorem toNat_mul_of_lt {a b : Amount} (h : a.toNat * b.toNat < bound) :
    (a * b).toNat = a.toNat * b.toNat := toNat_clamp_of_lt h

/-! ### Operations that report -/

def isZero (a : Amount) : Bool := a.toNat == 0

/-- The amount `n`, if it fits. -/
def ofNat? (n : Nat) : Option Amount :=
  if h : n < bound then some ⟨n, h⟩ else none

def add? (a b : Amount) : Except AmountError Amount :=
  match ofNat? (a.toNat + b.toNat) with
  | some c => .ok c
  | none => .error (.overflow .add)

def mul? (a b : Amount) : Except AmountError Amount :=
  match ofNat? (a.toNat * b.toNat) with
  | some c => .ok c
  | none => .error (.overflow .mul)

/-- The quotient without its remainder. -/
def quo? (a b : Amount) : Except AmountError Amount :=
  if b.isZero then .error (.divisionByZero .quo) else .ok (a / b)

def rem? (a b : Amount) : Except AmountError Amount :=
  if b.isZero then .error (.divisionByZero .rem) else .ok (clamp (a.toNat % b.toNat))

@[simp] theorem isZero_iff {a : Amount} : a.isZero = true ↔ a.toNat = 0 := by
  simp [isZero]

/-- The sum of a list, stopping at the largest amount. -/
def sum (xs : List Amount) : Amount :=
  xs.foldl (· + ·) 0

/-- The value, if it is below `wordBound bits`. -/
def toWord? (bits : Nat) (a : Amount) : Option Nat :=
  if a.toNat < wordBound bits then some a.toNat else none

/-! ### Text -/

def text (a : Amount) : String := toString a.toNat

instance : ToString Amount := ⟨text⟩

/-- Drops one plus sign in front. -/
def unsigned : List Char → List Char
  | '+' :: cs => cs
  | cs => cs

/-- Reads a decimal amount; blanks around it, a plus sign and leading zeros are allowed. -/
def read? (s : String) : Except AmountError Amount :=
  match (Text.numeral? (unsigned (Text.trim s.toList))).bind ofNat? with
  | some a => .ok a
  | none => .error (.invalidNumber s)

end Amount

end PoolExchange
