import HttpServerDemo.Library.Decimal

/-!
# JSON documents that convert to strings

`JsonCpp.Value` is the document tree of a JSON library whose `asString` converts: null is the
empty string, a scalar is its text, and an array or an object throws. How a number is printed is
left to the library, but it prints something. `as_string_empty_iff` says which documents are the
empty string.
-/

namespace JsonCpp

/-- A `Json::Value`. -/
inductive Value (Number : Type) where
  | null
  | number (n : Number)
  | string (s : Text)
  | boolean (b : Bool)
  | array (elements : List (Value Number))
  | object (members : List (Text × Value Number))

/-- The text of a number, which is never empty. -/
structure NumberText (Number : Type) where
  text : Number → Text
  text_ne_nil : ∀ n, (text n).bytes ≠ []

/-- Integers in decimal. -/
def NumberText.decimal : NumberText Int where
  text := Decimal.text
  text_ne_nil n := by
    intro h
    have hzero : Decimal.ofInt n = [] := h
    cases n with
    | ofNat n => exact Decimal.ofNat_ne_nil n hzero
    | negSucc n => cases hzero

namespace Value

variable {Number : Type}

/-- `isObject()`. -/
def isObject : Value Number → Bool
  | .object _ => true
  | _ => false

/-- The member with this key, the first of several; only an object has members. -/
def find (v : Value Number) (key : Text) : Option (Value Number) :=
  match v with
  | .object members => (members.find? fun member => member.1 = key).map Prod.snd
  | _ => none

/-- `isMember(key)`. -/
def isMember (v : Value Number) (key : Text) : Bool :=
  (v.find key).isSome

/-- `v[key]`. A member that is missing is inserted as null. -/
def subscript (v : Value Number) (key : Text) : Value Number :=
  (v.find key).getD .null

/-- `asString()`; `none` where it throws. -/
def asString (numbers : NumberText Number) : Value Number → Option Text
  | .null => some .empty
  | .number n => some (numbers.text n)
  | .string s => some s
  | .boolean true => some (.ascii "true")
  | .boolean false => some (.ascii "false")
  | .array _ => none
  | .object _ => none

/-- Neither an array nor an object. -/
def isScalar : Value Number → Bool
  | .array _ | .object _ => false
  | _ => true

/-- Null, or the empty string. -/
def isBlank : Value Number → Bool
  | .null => true
  | .string s => s.bytes.isEmpty
  | _ => false

variable {numbers : NumberText Number} {v : Value Number} {key s : Text}

/-- Only an array and an object throw. -/
theorem as_string_isSome (numbers : NumberText Number) (v : Value Number) :
    (v.asString numbers).isSome = v.isScalar := by
  cases v with
  | boolean b => cases b <;> rfl
  | null | number | string | array | object => rfl

/-- The empty string is the text of null and of itself. -/
theorem as_string_empty_iff (h : v.asString numbers = some s) :
    s.bytes = [] ↔ v.isBlank = true := by
  cases v with
  | null =>
      cases h
      exact iff_of_true rfl rfl
  | string s' =>
      cases h
      exact List.isEmpty_iff.symm
  | number n =>
      cases h
      exact iff_of_false (numbers.text_ne_nil n) nofun
  | boolean b =>
      cases b <;> cases h <;> exact iff_of_false (by decide) nofun
  | array | object => cases h

/-- Only an object has members. -/
theorem isObject_of_find {member : Value Number} (h : v.find key = some member) :
    v.isObject = true := by
  cases v with
  | object => rfl
  | null | number | string | boolean | array => cases h

end Value

end JsonCpp
