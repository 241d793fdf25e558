import SourceEvolution.Json.Value

/-!
# Values that are held back

A record whose meaning depends on one of its fields is held back as a whole until that field is
known, and read afterwards. Nothing of it is passed over, so every part of it has to have a value,
and every number has to be finite. What is held back also leaves it open whether a case without
contents was written with `null` or with an empty object.

* `Json.isSound`: every part has a value.
* `Json.settled`: the contents of a case, if they are an empty object, are `null`.
* `Json.held?`: both.
-/

namespace SourceEvolution

namespace Json

mutual

/-- Whether every part of a value has a value itself, and every number is finite. -/
def isSound : Json → Bool
  | null | bool _ | string _ => true
  | natural value => Numeral.isInRange (Decimal.digits value)
  | number literal => Numeral.isInRange literal.toList
  | array items => areSound items
  | object fields => areSoundFields fields
  | broken => false

/-- Whether all items of an array are sound. -/
def areSound : List Json → Bool
  | [] => true
  | item :: rest => item.isSound && areSound rest

/-- Whether all fields of an object are sound. -/
def areSoundFields : List (String × Json) → Bool
  | [] => true
  | (_, value) :: rest => value.isSound && areSoundFields rest

end

mutual

/-- A value in which the only field of an object, if it is an empty object, is replaced by `null`.
-/
def settled : Json → Json
  | object [(name, object [])] => object [(name, null)]
  | object fields => object (settledFields fields)
  | array items => array (settledItems items)
  | value => value

/-- The items of an array, each settled. -/
def settledItems : List Json → List Json
  | [] => []
  | item :: rest => item.settled :: settledItems rest

/-- The fields of an object, each settled. -/
def settledFields : List (String × Json) → List (String × Json)
  | [] => []
  | (name, value) :: rest => (name, value.settled) :: settledFields rest

end

/-- A value after it has been held back. -/
def held? (json : Json) : Option Json :=
  if json.isSound then some json.settled else none

end Json

end SourceEvolution
