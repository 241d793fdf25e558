/-!
# Hexadecimal numerals

* `Hexadecimal.digitChar`: the digit of a number below sixteen, in lower case.
* `Hexadecimal.digit?`: the number that a digit of either case stands for;
  `Hexadecimal.digit?_digitChar` says that it undoes `digitChar`.
* `Hexadecimal.value?`: the number that a run of digits stands for.
-/

namespace SourceEvolution

namespace Hexadecimal

/-- The digit of a number below sixteen, in lower case. -/
def digitChar (n : Nat) : Char :=
  if n < 10 then Char.ofNat (48 + n) else Char.ofNat (87 + n)

/-- The number that a digit of either case stands for. -/
def digit? (c : Char) : Option Nat :=
  if '0' ≤ c ∧ c ≤ '9' then some (c.toNat - 48)
  else if 'a' ≤ c ∧ c ≤ 'f' then some (c.toNat - 87)
  else if 'A' ≤ c ∧ c ≤ 'F' then some (c.toNat - 55)
  else none

/-- The number that a run of digits stands for. -/
def value? (cs : List Char) : Option Nat :=
  cs.foldlM (fun n c => (digit? c).map (16 * n + ·)) 0

/-- A digit stands for the number it was made from. -/
theorem digit?_digitChar : ∀ n < 16, digit? (digitChar n) = some n := by
  decide

end Hexadecimal

end SourceEvolution
