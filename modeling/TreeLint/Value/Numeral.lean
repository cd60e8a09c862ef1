import TreeLint.Value.Basic

/-!
# Numbers to compare

Integers, truth values and floating-point numbers are compared by the exact number that each stands
for; true is one and false is zero. NaN stands for none.
-/

set_option autoImplicit false

namespace TreeLint

/-- A place on the line of numbers, the two ends of the line included. -/
inductive Amount where
  | least
  | exact (number : Rat)
  | greatest
  deriving DecidableEq

namespace Amount

def side : Amount → Int
  | least => -1
  | exact _ => 0
  | greatest => 1

/-- The number at the place, and zero at the ends. -/
def number : Amount → Rat
  | exact number => number
  | _ => 0

instance : Ord Amount where
  compare left right :=
    (compare left.side right.side).then (compareOfLessAndEq left.number right.number)

instance : LE Amount where
  le left right := (compare left right).isLE = true

instance (left right : Amount) : Decidable (left ≤ right) :=
  inferInstanceAs (Decidable (_ = true))

def ofInt (value : Int) : Amount := exact value

/-! ### The order of amounts -/

theorem transCmp_number :
    Std.TransCmp fun left right : Amount => compareOfLessAndEq left.number right.number := by
  have rational : Std.TransCmp fun left right : Rat => compareOfLessAndEq left right :=
    Std.TransOrd.compareOfLessAndEq_of_antisymm_of_trans_of_total_of_not_le Rat.le_antisymm
      Rat.le_trans (fun _ _ => Rat.le_total) Rat.not_le
  exact { eq_swap := rational.eq_swap, isLE_trans := rational.isLE_trans }

instance : Std.TransOrd Amount :=
  have := transCmp_number
  inferInstanceAs (Std.TransCmp (compareLex (compareOn side)
    fun left right : Amount => compareOfLessAndEq left.number right.number))

instance : Std.LawfulEqOrd Amount where
  eq_of_compare {left right} tie := by
    obtain ⟨sides, numbers⟩ := Ordering.then_eq_eq.mp tie
    have level : left.side = right.side := Std.LawfulEqOrd.eq_of_compare sides
    have same : left.number = right.number :=
      (compareOfLessAndEq_eq_eq (fun _ => Rat.le_refl) Rat.not_le).mp numbers
    clear tie sides numbers
    cases left <;> cases right <;> simp_all [side, number]

theorem ofInt_le_ofInt {left right : Int} : ofInt left ≤ ofInt right ↔ left ≤ right := by
  change (compareOfLessAndEq (left : Rat) (right : Rat)).isLE = true ↔ left ≤ right
  rw [isLE_compareOfLessAndEq Rat.le_antisymm Rat.not_le fun _ _ => Rat.le_total,
    Rat.intCast_le_intCast]

end Amount

inductive Numeral where
  | bool (value : Bool)
  | integer (value : Int)
  | finite (negative : Bool) (mantissa : Nat) (exponent : Int)
  | infinite (negative : Bool)
  deriving DecidableEq, Repr

namespace Numeral

def amount : Numeral → Amount
  | bool value => .ofInt (if value then 1 else 0)
  | integer value => .ofInt value
  | finite negative mantissa exponent =>
      .exact ((if negative then -(mantissa : Rat) else mantissa) * 2 ^ exponent)
  | infinite negative => if negative then .least else .greatest

def toValue : Numeral → Value
  | bool value => .bool value
  | integer value => .integer value
  | finite negative mantissa exponent => .real (.finite negative mantissa exponent)
  | infinite negative => .real (.infinite negative)

end Numeral

namespace Value

def numeral? : Value → Option Numeral
  | bool value => some (.bool value)
  | integer value => some (.integer value)
  | real (.finite negative mantissa exponent) => some (.finite negative mantissa exponent)
  | real (.infinite negative) => some (.infinite negative)
  | _ => none

/-- Whether a value is of a type of numbers, NaN included. -/
def isNumeric : Value → Bool
  | bool _ => true
  | integer _ => true
  | real _ => true
  | _ => false

theorem isNumeric_of_numeral? {value : Value} {numeral : Numeral}
    (stands : value.numeral? = some numeral) : value.isNumeric = true := by
  cases value with
  | bool | integer | real => rfl
  | null | text | list | object => cases stands

end Value

end TreeLint
