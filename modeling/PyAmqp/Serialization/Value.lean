import Mathlib.Data.Nat.Digits.Defs
import Mathlib.Data.Rat.Defs
import Mathlib.Algebra.Order.Ring.Rat
import Mathlib.Tactic.Ring
import PyAmqp.Exceptions
import PyAmqp.Base.BigEndian
import PyAmqp.Base.Ieee754

/-!
The Python objects the codec handles. Text is a list of code points, a float its
64 bits, a `dict` its items in insertion order.
-/

namespace PyAmqp

abbrev Octets := List UInt8

/-- `decimal.Decimal`: a finite number is a sign, a coefficient and an exponent. -/
inductive Decimal where
  | finite (negative : Bool) (coefficient : Nat) (exponent : Int)
  | infinite (negative : Bool)
  | nan (negative signaling : Bool) (payload : Nat)
  deriving DecidableEq, Repr

namespace Decimal

def digits (n : Nat) : List Nat := if n = 0 then [0] else (Nat.digits 10 n).reverse

/-- The digits stand for the number. -/
theorem foldl_digits (n : Nat) :
    (digits n).foldl (fun v digit => v * 10 + digit) 0 = n := by
  unfold digits
  by_cases hn : n = 0
  · simp [hn]
  · rw [if_neg hn, List.foldl_reverse]
    have hfold : ∀ l : List Nat,
        l.foldr (fun digit v => v * 10 + digit) 0 = Nat.ofDigits 10 l := by
      intro l
      induction l with
      | nil => rfl
      | cons digit l ih => simp [Nat.ofDigits_cons, ih]; ring
    rw [hfold, Nat.ofDigits_digits]

/-- `as_tuple()`; the exponent of a special value is a letter, here `none`. -/
def asTuple : Decimal → Bool × List Nat × Option Int
  | finite negative coefficient exponent => (negative, digits coefficient, some exponent)
  | infinite negative => (negative, [0], none)
  | nan negative _ payload => (negative, if payload = 0 then [] else digits payload, none)

def isZero : Decimal → Bool
  | finite _ coefficient _ => coefficient = 0
  | _ => false

def signed (negative : Bool) (n : Nat) : Int := if negative then -n else n

/-- `float(d)`, which a signaling NaN does not have. -/
def toFloat : Decimal → Option UInt64
  | finite negative coefficient exponent =>
      some ((Ieee754.ofRat negative (coefficient * 10 ^ exponent)).getD
        (Ieee754.infinity negative))
  | infinite negative => some (Ieee754.infinity negative)
  | nan negative signaling _ =>
      if signaling then none else some (Ieee754.quietNaN negative)

/-- The number a finite `Decimal` stands for. -/
def value : Decimal → Option ℚ
  | finite negative coefficient exponent =>
      some ((signed negative coefficient : ℚ) * (10 : ℚ) ^ exponent)
  | _ => none

/-- Trailing zeros leave the coefficient while the exponent is below zero. -/
def shed : Nat → Nat → Nat × Nat
  | coefficient, 0 => (coefficient, 0)
  | coefficient, places + 1 =>
      if coefficient % 10 = 0 then shed (coefficient / 10) places
      else (coefficient, places + 1)

/-- `Decimal(n) / Decimal(10 ** places)`: the quotient is exact, and division takes
the exponent as close to zero as exactness allows. -/
def divPow10 (n : Int) (places : Nat) : Decimal :=
  let (coefficient, places) := shed n.natAbs places
  finite (n < 0) coefficient (-places)

end Decimal

/-- `datetime.datetime`: microseconds of its own clock since 1970-01-01, within the
years 1 to 9999, and the offset of that clock from UTC when it is aware. -/
structure DateTime where
  micros : Int
  utcoffset : Option Int
  low : -62135596800000000 ≤ micros
  high : micros < 253402300800000000
  deriving DecidableEq

namespace DateTime

def utcMicros (t : DateTime) : Int := t.micros - t.utcoffset.getD 0

/-- `calendar.timegm(t.utctimetuple())` -/
def timegm (t : DateTime) : Except PyError Int :=
  if -62135596800000000 ≤ t.utcMicros ∧ t.utcMicros < 253402300800000000 then
    .ok (t.utcMicros / 1000000)
  else .error .overflowError

/-- `datetime.fromtimestamp(seconds, tz=timezone.utc).replace(tzinfo=None)`. Past
the year 9999 the C library is asked for a calendar date first. -/
def fromtimestamp (seconds : Nat) : Except PyError DateTime :=
  if h : seconds < 253402300800 then
    .ok { micros := seconds * 1000000, utcoffset := none, low := by omega, high := by omega }
  else if seconds < 67768036191676800 then .error .valueError
  else if seconds < 2 ^ 63 then .error (.osError none)
  else .error .overflowError

end DateTime

inductive Value where
  | none
  | bool (b : Bool)
  | int (i : Int)
  | float (bits : UInt64)
  | str (text : PyStr)
  | bytes (octets : Octets)
  | decimal (d : Decimal)
  | datetime (t : DateTime)
  | dict (entries : List (PyStr × Value))
  | list (items : List Value)
  | tuple (items : List Value)
  /-- An object of a class the codec does not know, and what its `repr` returns or raises. -/
  | other (cls : String) (repr : Except PyError PyStr)

namespace Value

/-- `type(v)` -/
def typeName : Value → String
  | none => "NoneType"
  | bool _ => "bool"
  | int _ => "int"
  | float _ => "float"
  | str _ => "str"
  | bytes _ => "bytes"
  | decimal _ => "decimal.Decimal"
  | datetime _ => "datetime.datetime"
  | dict _ => "dict"
  | list _ => "list"
  | tuple _ => "tuple"
  | other cls _ => cls

mutual

/-- `repr(v)`: a container asks what is in it, in order. The text is kept of objects of unknown
classes only, as no error names any other. -/
def repr : Value → Except PyError PyStr
  | other _ repr => repr
  | dict entries => reprEntries entries
  | list items => reprItems items
  | tuple items => reprItems items
  | _ => .ok []

def reprEntries : List (PyStr × Value) → Except PyError PyStr
  | [] => .ok []
  | (_, value) :: rest => do
      let _ ← value.repr
      reprEntries rest

def reprItems : List Value → Except PyError PyStr
  | [] => .ok []
  | value :: rest => do
      let _ ← value.repr
      reprItems rest

end

/-- `bool(v)` -/
def truthy : Value → Bool
  | none => false
  | bool b => b
  | int i => i ≠ 0
  | float bits => !Ieee754.isZero bits
  | str text => !text.isEmpty
  | bytes octets => !octets.isEmpty
  | decimal d => !d.isZero
  | datetime _ => true
  | dict entries => !entries.isEmpty
  | list items => !items.isEmpty
  | tuple items => !items.isEmpty
  | other _ _ => true

/-- `v or default` -/
def orElse (v default : Value) : Value := if v.truthy then v else default

/-- `len(v)` -/
def len : Value → Except PyError Nat
  | str text => .ok text.length
  | bytes octets => .ok octets.length
  | dict entries => .ok entries.length
  | list items => .ok items.length
  | tuple items => .ok items.length
  | _ => .error .typeError

/-- What `out.write(v)` writes. -/
def octets : Value → Except PyError Octets
  | bytes octets => .ok octets
  | _ => .error .typeError

/-- `v.encode('utf-8', 'surrogatepass')` where `v` is text, `v` itself otherwise. -/
def strToBytes : Value → Value
  | str text => bytes (Utf8.encode text)
  | v => v

/-- The integer `struct.pack` takes `v` for. -/
def index : Value → Except PyError Int
  | int i => .ok i
  | bool b => .ok (if b then 1 else 0)
  | _ => .error .structError

/-- The objects `for x in v` binds. -/
def iterate : Value → Except PyError (List Value)
  | list items => .ok items
  | tuple items => .ok items
  | str text => .ok (text.map fun c => str [c])
  | bytes octets => .ok (octets.map fun octet => int octet.toNat)
  | dict entries => .ok (entries.map fun entry => str entry.1)
  | _ => .error .typeError

/-- Decimal digits, single underscores allowed between them. -/
def parseDigits : List Nat → Nat → Bool → Option Nat
  | [], n, afterDigit => if afterDigit then some n else Option.none
  | c :: rest, n, afterDigit =>
      if 48 ≤ c ∧ c ≤ 57 then parseDigits rest (n * 10 + (c - 48)) true
      else if c = 95 ∧ afterDigit then parseDigits rest n false
      else Option.none

/-- `int(text)` for octets, or for text with its digits and white space as those of ASCII. -/
def parseInt (text : List Nat) : Except PyError Int :=
  let blank := fun c => c = 32 ∨ (9 ≤ c ∧ c ≤ 13)
  let core := ((text.dropWhile blank).reverse.dropWhile blank).reverse
  let parsed : Option Int :=
    match core with
    | 43 :: rest => (parseDigits rest 0 false).map Int.ofNat
    | 45 :: rest => (parseDigits rest 0 false).map fun n => -Int.ofNat n
    | rest => (parseDigits rest 0 false).map Int.ofNat
  match parsed with
  | some i => .ok i
  | Option.none => .error .valueError

/-- `int(v)` -/
def toInt : Value → Except PyError Int
  | int i => .ok i
  | bool b => .ok (if b then 1 else 0)
  | float bits =>
      match Ieee754.truncate bits with
      | some i => .ok i
      | Option.none => .error (if Ieee754.isNaN bits then .valueError else .overflowError)
  | decimal (.finite negative coefficient exponent) =>
      .ok (Decimal.signed negative
        (coefficient * 10 ^ exponent.toNat / 10 ^ (-exponent).toNat))
  | decimal (.infinite _) => .error .overflowError
  | decimal (.nan _ _ _) => .error .valueError
  | str text => parseInt (text.map fun c => Utf8.toAscii c.val)
  | bytes octets => parseInt (octets.map UInt8.toNat)
  | _ => .error .typeError

/-- The objects a container holds directly. -/
def children : Value → List Value
  | dict entries => entries.map Prod.snd
  | list items => items
  | tuple items => items
  | _ => []

theorem sizeOf_children {u v : Value} (hu : u ∈ v.children) : sizeOf u < sizeOf v := by
  cases v with
  | dict entries =>
      obtain ⟨entry, hentry, rfl⟩ := List.mem_map.mp hu
      have h1 := List.sizeOf_lt_of_mem hentry
      have h2 : sizeOf entry.2 < sizeOf entry := by cases entry; simp
      simp only [dict.sizeOf_spec]
      omega
  | list items =>
      have h : sizeOf u < sizeOf items := List.sizeOf_lt_of_mem hu
      simp only [list.sizeOf_spec]
      omega
  | tuple items =>
      have h : sizeOf u < sizeOf items := List.sizeOf_lt_of_mem hu
      simp only [tuple.sizeOf_spec]
      omega
  | _ => simp [children] at hu

/-- Induction over nesting: a property of a value may be proved from the same
property of what the value holds. -/
theorem inductionOn {P : Value → Prop} (h : ∀ v, (∀ u ∈ v.children, P u) → P v) (v : Value) :
    P v :=
  h v fun u _ => inductionOn h u
termination_by sizeOf v
decreasing_by exact sizeOf_children (by assumption)

end Value

end PyAmqp
