import Mathlib.Algebra.Order.Ring.Rat
import DroneParking.Library.Framing

/-! JavaScript values and exceptions as the drone node meets them. -/
namespace DroneParking

abbrev JsString := List Char

/-- A JavaScript number; `finite 0` is the positive zero. -/
inductive JsNumber where
  | nan
  | negInfinity
  | posInfinity
  | negZero
  | finite (q : ℚ)
  deriving DecidableEq, Repr

namespace JsNumber

def isNaN : JsNumber → Bool
  | nan => true
  | _ => false

def neg : JsNumber → JsNumber
  | nan => nan
  | negInfinity => posInfinity
  | posInfinity => negInfinity
  | negZero => finite 0
  | finite q => if q = 0 then negZero else finite (-q)

/-- With one zero, as comparisons and texts have it. -/
def plusZero : JsNumber → JsNumber
  | negZero => finite 0
  | x => x

/-- The number that is stood for. -/
def rational? : JsNumber → Option ℚ
  | nan | negInfinity | posInfinity => none
  | negZero => some 0
  | finite q => some q

/-- `x >= q`, false for `NaN`. -/
def ge : JsNumber → ℚ → Bool
  | nan, _ | negInfinity, _ => false
  | posInfinity, _ => true
  | negZero, q => decide (q ≤ 0)
  | finite x, q => decide (q ≤ x)

def le : JsNumber → ℚ → Bool
  | nan, _ | posInfinity, _ => false
  | negInfinity, _ => true
  | negZero, q => decide (0 ≤ q)
  | finite x, q => decide (x ≤ q)

/-- `x === y` on numbers: `NaN` equals nothing. -/
def same (x y : JsNumber) : Bool := !x.isNaN && decide (x.plusZero = y.plusZero)

end JsNumber

/-- What an uncaught exception was about. -/
inductive JsError where
  | referenceError (name : String)
  | typeError (property : String)
  | assertionError
  deriving DecidableEq, Repr

/-- The text of a natural number. -/
def decimal (n : ℕ) : JsString := Nat.toDigits 10 n

/-- The white space and line terminators that `String.prototype.trim` removes. -/
def isTrimmed (c : Char) : Bool :=
  [0x09, 0x0A, 0x0B, 0x0C, 0x0D, 0x20, 0xA0, 0x1680, 0x2028, 0x2029, 0x202F, 0x205F,
    0x3000, 0xFEFF].contains c.toNat || (0x2000 ≤ c.toNat && c.toNat ≤ 0x200A)

def JsString.trim (s : JsString) : JsString := Library.trim isTrimmed s

end DroneParking
