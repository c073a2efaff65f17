import Mathlib.Algebra.Order.Ring.Int
import Mathlib.Tactic.Common

/-! # JSON values

The value type of a JSON library and its accessors. A number is a decimal, `mantissa` times ten to
the minus `scale`; nothing here rounds. Objects keep the order they were written in. -/

namespace AiManager.Lib

inductive Json where
  | null
  | bool (b : Bool)
  | num (mantissa : Int) (scale : Nat)
  | str (s : String)
  | arr (items : List Json)
  | obj (fields : List (String × Json))
  deriving Repr, BEq, Inhabited

namespace Json

/-- `value.get(field)`. -/
def get (j : Json) (field : String) : Option Json :=
  match j with
  | .obj fields => fields.lookup field
  | _ => none

def asStr : Json → Option String
  | .str s => some s
  | _ => none

def asArray : Json → Option (List Json)
  | .arr items => some items
  | _ => none

def asBool : Json → Option Bool
  | .bool b => some b
  | _ => none

/-- A nonnegative integer. -/
def asU64 : Json → Option Nat
  | .num (.ofNat n) 0 => some n
  | _ => none

/-- A 64-bit signed integer. -/
def asI64 : Json → Option Int
  | .num n 0 => if -2 ^ 63 ≤ n ∧ n < 2 ^ 63 then some n else none
  | _ => none

def isObject : Json → Bool
  | .obj _ => true
  | _ => false

/-- A string field: `value.get(field).and_then(|v| v.as_str())`. -/
def getStr (j : Json) (field : String) : Option String := (j.get field).bind asStr

/-- The value at a path of fields. -/
def nested (j : Json) : List String → Option Json
  | [] => some j
  | field :: fields => (j.get field).bind fun v => v.nested fields

def nestedStr (j : Json) (fields : List String) : Option String := (j.nested fields).bind asStr

/-- Replace the field of an object, or add it at the end. -/
def insertField (field : String) (value : Json) : List (String × Json) → List (String × Json)
  | [] => [(field, value)]
  | (k, v) :: rest =>
    if k = field then (field, value) :: rest else (k, v) :: insertField field value rest

/-- `object.insert(field, value)`; anything but an object stays as it is. -/
def insert (j : Json) (field : String) (value : Json) : Json :=
  match j with
  | .obj fields => .obj (insertField field value fields)
  | _ => j

theorem lookup_insertField_ne {field key : String} (h : key ≠ field) (value : Json)
    (fields : List (String × Json)) :
    (insertField field value fields).lookup key = fields.lookup key := by
  have hne : (key == field) = false := beq_eq_false_iff_ne.mpr h
  induction fields with
  | nil => rw [insertField, List.lookup_cons, hne]
  | cons e rest ih =>
    obtain ⟨k, v⟩ := e
    unfold insertField
    split_ifs with hk
    · rw [hk, List.lookup_cons, List.lookup_cons, hne]
    · rw [List.lookup_cons, List.lookup_cons, ih]

/-- An insert leaves the other fields as they are. -/
theorem get_insert_ne (j : Json) {field key : String} (h : key ≠ field) (value : Json) :
    (j.insert field value).get key = j.get key := by
  cases j with
  | obj fields => exact lookup_insertField_ne h value fields
  | _ => rfl

theorem lookup_insertField_self (field : String) (value : Json) (fields : List (String × Json)) :
    (insertField field value fields).lookup field = some value := by
  induction fields with
  | nil => simp [insertField]
  | cons e rest ih =>
    obtain ⟨k, v⟩ := e
    unfold insertField
    split_ifs with hk
    · rw [List.lookup_cons_self]
    · have hne : (field == k) = false := beq_eq_false_iff_ne.mpr (Ne.symm hk)
      rw [List.lookup_cons, hne, ih]

theorem get_insert_self {j : Json} (h : j.isObject = true) (field : String) (value : Json) :
    (j.insert field value).get field = some value := by
  cases j with
  | obj fields => exact lookup_insertField_self field value fields
  | _ => cases h

theorem isObject_insert (j : Json) (field : String) (value : Json) :
    (j.insert field value).isObject = j.isObject := by
  cases j <;> rfl

/-- A list of strings as a JSON array. -/
def ofStrings (xs : List String) : Json := .arr (xs.map .str)

end Json

end AiManager.Lib
