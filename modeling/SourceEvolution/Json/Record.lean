import SourceEvolution.Json.Value

/-!
# Records in JSON

A record is written as an object, or as the array of its fields in their fixed order. Fields that a
record does not have are passed over; a field that it has may be given once.

* `Json.record?`: the values given for the named fields, in the order of the names.
* `Json.string?`, `Json.array?`, `Json.word?`, `Json.word32?`, `Json.unitName?`: the plain values.
-/

namespace SourceEvolution

namespace Json

/-- The value given for a field: none if it is not given, a failure if it is given twice. -/
def field? (fields : List (String × Json)) (name : String) : Option (Option Json) :=
  match fields.filter fun field => field.1 == name with
  | [] => some none
  | [field] => some (some field.2)
  | _ => none

/-- The values given for the fields of a record. -/
def record? (names : List String) : Json → Option (List (Option Json))
  | object fields => names.mapM (field? fields)
  | array items =>
    if items.length ≤ names.length then
      some (items.map some ++ List.replicate (names.length - items.length) none)
    else none
  | _ => none

/-- The text of a string. -/
def string? : Json → Option String
  | string value => some value
  | _ => none

/-- The items of an array. -/
def array? : Json → Option (List Json)
  | array items => some items
  | _ => none

/-- A number of at most 64 bits. -/
def word? : Json → Option Nat
  | natural value => if value < Decimal.wordBound then some value else none
  | _ => none

/-- A number of at most 32 bits. -/
def word32? : Json → Option UInt32
  | natural value => if value < UInt32.size then some (UInt32.ofNat value) else none
  | _ => none

/-- A value that may be `null`. -/
def nullable? {α : Type} (read : Json → Option α) : Json → Option (Option α)
  | null => some none
  | value => (read value).map some

/-- A field that may be left out or `null`. -/
def optional? {α : Type} (read : Json → Option α) : Option Json → Option (Option α)
  | none => some none
  | some value => nullable? read value

/-- The name of a case without contents, written as a string or as an object with one `null`
field. -/
def unitName? : Json → Option String
  | string name => some name
  | object [(name, null)] => some name
  | _ => none

end Json

end SourceEvolution
