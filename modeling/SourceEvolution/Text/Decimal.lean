/-!
# Decimal numerals

Natural numbers as runs of ASCII digits.

* `Decimal.digits`: the numeral of a number, without leading zeros.
* `Decimal.value`: the number that a run of digits stands for; `Decimal.value_digits` says that it
  undoes `digits`.
* `Decimal.parse?` and `Decimal.parseWord?`: strict readers, the second with an optional `+` and a
  bound of 64 bits.
-/

namespace SourceEvolution

namespace Decimal

/-- The digit of a number below ten. -/
def digitChar (d : Nat) : Char :=
  Char.ofNat (48 + d)

/-- The decimal numeral of a number, most significant digit first. -/
def digits (n : Nat) : List Char :=
  if n < 10 then [digitChar n] else digits (n / 10) ++ [digitChar (n % 10)]
termination_by n

/-- The number that a digit stands for. -/
def digitValue (c : Char) : Nat :=
  c.toNat - 48

/-- The number that a run of digits stands for. -/
def value (cs : List Char) : Nat :=
  cs.foldl (fun v c => 10 * v + digitValue c) 0

/-- The numeral of a number as a text. -/
def render (n : Nat) : String :=
  String.ofList (digits n)

/-- Reads a non-empty run of digits, leading zeros included. -/
def parse? (cs : List Char) : Option Nat :=
  if cs ≠ [] ∧ cs.all Char.isDigit then some (value cs) else none

/-- The first number that does not fit into 64 bits. -/
def wordBound : Nat := UInt64.size

/-- Reads a number of at most 64 bits, which may be written with a leading `+`. -/
def parseWord? (cs : List Char) : Option Nat :=
  let unsigned := match cs with
    | '+' :: rest => rest
    | _ => cs
  (parse? unsigned).filter (· < wordBound)

/-! ## Laws -/

/-- A digit stands for the number it was made from. -/
theorem digitValue_digitChar {d : Nat} (h : d < 10) : digitValue (digitChar d) = d := by
  match d, h with
  | 0, _ | 1, _ | 2, _ | 3, _ | 4, _ | 5, _ | 6, _ | 7, _ | 8, _ | 9, _ => rfl

/-- The digit of a number below ten is a digit. -/
theorem isDigit_digitChar {d : Nat} (h : d < 10) : (digitChar d).isDigit = true := by
  match d, h with
  | 0, _ | 1, _ | 2, _ | 3, _ | 4, _ | 5, _ | 6, _ | 7, _ | 8, _ | 9, _ => rfl

/-- A run of digits followed by one more digit. -/
theorem value_concat (cs : List Char) (c : Char) :
    value (cs ++ [c]) = 10 * value cs + digitValue c := by
  simp [value, List.foldl_append]

/-- A numeral stands for the number it was made from. -/
theorem value_digits (n : Nat) : value (digits n) = n := by
  fun_induction digits n with
  | case1 n h => simp [value, digitValue_digitChar h]
  | case2 n h ih => rw [value_concat, ih, digitValue_digitChar (by omega)]; omega

/-- A numeral consists of digits. -/
theorem all_isDigit_digits (n : Nat) : (digits n).all Char.isDigit = true := by
  fun_induction digits n with
  | case1 n h => simp [isDigit_digitChar h]
  | case2 n h ih => simp only [List.all_append, ih, List.all_cons, List.all_nil, Bool.and_true,
      isDigit_digitChar (show n % 10 < 10 by omega)]

/-- A numeral has at least one digit. -/
theorem digits_ne_nil (n : Nat) : digits n ≠ [] := by
  rw [digits]
  split <;> simp

/-- Reading a numeral gives the number back. -/
theorem parse?_digits (n : Nat) : parse? (digits n) = some n := by
  rw [parse?, if_pos ⟨digits_ne_nil n, all_isDigit_digits n⟩, value_digits]

end Decimal

end SourceEvolution
