import Mathlib.Computability.Language
import Mathlib.Data.List.Find
import Mathlib.Data.List.Pairwise
import Mathlib.Data.List.TakeWhile
import SourceEvolution.Proofs.Typing.Quotation

/-!
# The grammar of literals

Numbers and truth values are told from other expressions by looking at their characters one by one.
This module says which texts are taken for them, as languages that are put together from characters
by union, concatenation and repetition.

* **Building blocks** (`Literal.oneOf`, `Literal.group`): one character of a class, and a digit with
  digits and underscores behind it.
* **Languages** (`Literal.integers`, `Literal.floatings`, `Literal.booleans`,
  `Literal.quotations`).
* **Recognition** (`Literal.isInteger_iff`, `Literal.isFloating_iff`, ...): a text is recognised
  exactly if it is in the language.
* **Order** (`Literal.pairwise_languages`, `Literal.literalType?_grammar`): the languages have no
  text in common, so a text is of the same type in whichever order they are tried.
-/

namespace SourceEvolution

open scoped Computability

namespace Literal

/-! ## Building blocks -/

/-- The texts that are one character with a property. -/
def oneOf (p : Char → Prop) : Language Char :=
  {cs | ∃ c, cs = [c] ∧ p c}

/-- The text that is one character. -/
def mark (m : Char) : Language Char :=
  oneOf fun c => c = m

/-- The texts that are one character of a range. -/
def range (first last : Char) : Language Char :=
  oneOf fun c => first ≤ c ∧ c ≤ last

/-- A digit, and then any digits and underscores. -/
def group (digit : Language Char) : Language Char :=
  digit * (digit + mark '_')∗

/-- Perhaps a minus sign. -/
def minus : Language Char :=
  1 + mark '-'

variable {p q : Char → Prop} {cs rest : List Char} {c : Char} {l : Language Char}

theorem mem_oneOf_mul :
    cs ∈ oneOf p * l ↔ ∃ c rest, cs = c :: rest ∧ p c ∧ rest ∈ l := by
  rw [Language.mem_mul]
  constructor
  · rintro ⟨_, ⟨c, rfl, hc⟩, rest, hrest, rfl⟩
    exact ⟨c, rest, rfl, hc, hrest⟩
  · rintro ⟨c, rest, rfl, hc, hrest⟩
    exact ⟨[c], ⟨c, rfl, hc⟩, rest, hrest, rfl⟩

theorem cons_mem_oneOf_mul : c :: rest ∈ oneOf p * l ↔ p c ∧ rest ∈ l := by
  rw [mem_oneOf_mul]
  constructor
  · rintro ⟨d, more, heq, hd, hmore⟩
    obtain ⟨rfl, rfl⟩ := List.cons.inj heq
    exact ⟨hd, hmore⟩
  · rintro ⟨hc, hrest⟩
    exact ⟨c, rest, rfl, hc, hrest⟩

theorem nil_notMem_oneOf_mul : [] ∉ oneOf p * l := by
  rw [mem_oneOf_mul]
  rintro ⟨c, rest, heq, -⟩
  cases heq

theorem mem_mark_mul {m : Char} : cs ∈ mark m * l ↔ ∃ rest, cs = m :: rest ∧ rest ∈ l := by
  unfold mark
  rw [mem_oneOf_mul]
  constructor
  · rintro ⟨c, rest, rfl, rfl, hrest⟩
    exact ⟨rest, rfl, hrest⟩
  · rintro ⟨rest, rfl, hrest⟩
    exact ⟨m, rest, rfl, rfl, hrest⟩

theorem mem_mark_mark_mul {m n : Char} :
    cs ∈ mark m * (mark n * l) ↔ ∃ rest, cs = m :: n :: rest ∧ rest ∈ l := by
  simp only [mem_mark_mul]
  constructor
  · rintro ⟨_, rfl, rest, rfl, hrest⟩
    exact ⟨rest, rfl, hrest⟩
  · rintro ⟨rest, rfl, hrest⟩
    exact ⟨_, rfl, rest, rfl, hrest⟩

theorem cons_mem_mark_mul {m : Char} : c :: rest ∈ mark m * l ↔ c = m ∧ rest ∈ l :=
  cons_mem_oneOf_mul

theorem oneOf_add : oneOf p + oneOf q = oneOf fun c => p c ∨ q c := by
  ext cs
  rw [Language.mem_add]
  constructor
  · rintro (⟨c, rfl, hc⟩ | ⟨c, rfl, hc⟩)
    · exact ⟨c, rfl, .inl hc⟩
    · exact ⟨c, rfl, .inr hc⟩
  · rintro ⟨c, rfl, hc | hc⟩
    · exact .inl ⟨c, rfl, hc⟩
    · exact .inr ⟨c, rfl, hc⟩

/-- A text is made of characters with a property if all its characters have it. -/
theorem mem_kstar_oneOf : cs ∈ (oneOf p)∗ ↔ ∀ c ∈ cs, p c := by
  rw [Language.mem_kstar]
  constructor
  · rintro ⟨parts, rfl, hparts⟩ c hc
    obtain ⟨part, hpart, hc⟩ := List.mem_flatten.mp hc
    obtain ⟨d, rfl, hd⟩ := hparts part hpart
    obtain rfl := List.mem_singleton.mp hc
    exact hd
  · intro h
    refine ⟨cs.map fun c => [c], by rw [← List.flatMap_def, List.flatMap_singleton'], ?_⟩
    intro part hpart
    obtain ⟨c, hc, rfl⟩ := List.mem_map.mp hpart
    exact ⟨c, rfl, h c hc⟩

theorem cons_mem_group :
    c :: rest ∈ group (oneOf p) ↔ p c ∧ ∀ d ∈ rest, p d ∨ d = '_' := by
  unfold group mark
  rw [oneOf_add, cons_mem_oneOf_mul, mem_kstar_oneOf]

theorem isGroup_iff {digit : Char → Bool} :
    isGroup digit cs = true ↔ cs ∈ group (oneOf fun c => digit c = true) := by
  cases cs with
  | nil => simp [isGroup, group, nil_notMem_oneOf_mul]
  | cons c rest => simp [isGroup, cons_mem_group]

/-- A sign in front of a language that has no text with a sign may be taken off. -/
theorem mem_minus_mul (hsign : ∀ rest, '-' :: rest ∉ l) : cs ∈ minus * l ↔ unsigned cs ∈ l := by
  unfold minus mark
  rw [add_mul, one_mul, Language.mem_add, mem_oneOf_mul]
  unfold unsigned
  split
  · simp [hsign]
  · rename_i hother
    constructor
    · rintro (h | ⟨_, rest, rfl, rfl, -⟩)
      · exact h
      · exact absurd rfl (hother rest)
    · exact .inl

/-! ## Languages -/

/-- A decimal digit. -/
def decimal : Language Char :=
  range '0' '9'

/-- A hexadecimal digit of either case. -/
def hexadecimal : Language Char :=
  range '0' '9' + range 'a' 'f' + range 'A' 'F'

/-- An integer without a sign: hexadecimal, octal, binary or decimal. -/
def magnitudes : Language Char :=
  mark '0' * (mark 'x' * group hexadecimal) + mark '0' * (mark 'o' * group (range '0' '7')) +
    mark '0' * (mark 'b' * group (range '0' '1')) + group decimal

/-- Integer literals. -/
def integers : Language Char :=
  minus * magnitudes

/-- An exponent: its mark, perhaps a sign, and at least one digit. -/
def exponents : Language Char :=
  (mark 'e' + mark 'E') * ((1 + (mark '+' + mark '-')) * (decimal * decimal∗))

/-- What makes digits a floating-point literal: a fraction, perhaps with an exponent, or an
exponent. -/
def tails : Language Char :=
  mark '.' * (group decimal * (1 + exponents)) + exponents

/-- Floating-point literals. -/
def floatings : Language Char :=
  minus * (group decimal * tails)

/-- Truth values. -/
def booleans : Language Char :=
  {"true".toList} + {"false".toList}

/-- The texts between two quotation marks. -/
def quotations : Language Char :=
  mark '\x22' * (⊤ * mark '\x22')

/-! ## Recognition -/

theorem decimal_eq : decimal = oneOf fun c => c.isDigit = true := by
  unfold decimal range
  congr
  funext c
  simp [Char.isDigit, Char.le_def]

theorem hexadecimal_eq : hexadecimal = oneOf fun c => isHexDigit c = true := by
  unfold hexadecimal range
  rw [oneOf_add, oneOf_add]
  congr
  funext c
  simp [isHexDigit, Char.isDigit, Char.le_def]

theorem octal_eq : range '0' '7' = oneOf fun c => isOctalDigit c = true := by
  unfold range
  congr
  funext c
  simp [isOctalDigit]

theorem binary_eq : range '0' '1' = oneOf fun c => isBinaryDigit c = true := by
  unfold range
  congr
  funext c
  simp [isBinaryDigit, Char.le_def, UInt32.le_iff_toNat_le, ← Char.toNat_inj]
  omega

theorem isMagnitude_iff : isMagnitude cs = true ↔ cs ∈ magnitudes := by
  unfold magnitudes
  rw [decimal_eq, hexadecimal_eq, octal_eq, binary_eq]
  simp only [Language.mem_add]
  unfold isMagnitude
  split
  · simp [cons_mem_mark_mul, cons_mem_group, isGroup_iff]
  · simp [cons_mem_mark_mul, cons_mem_group, isGroup_iff]
  · simp [cons_mem_mark_mul, cons_mem_group, isGroup_iff]
  · rename_i hhex hoctal hbinary
    rw [isGroup_iff]
    constructor
    · exact .inr
    · -- a text of one of the first three forms would have been found before
      rintro (((h | h) | h) | h)
      · obtain ⟨rest, rfl, -⟩ := mem_mark_mark_mul.mp h
        exact absurd rfl (hhex rest)
      · obtain ⟨rest, rfl, -⟩ := mem_mark_mark_mul.mp h
        exact absurd rfl (hoctal rest)
      · obtain ⟨rest, rfl, -⟩ := mem_mark_mark_mul.mp h
        exact absurd rfl (hbinary rest)
      · exact h

theorem minus_notMem_magnitudes (rest : List Char) : '-' :: rest ∉ magnitudes := by
  rw [← isMagnitude_iff]
  simp [isMagnitude, isGroup]

theorem isInteger_iff : isInteger cs = true ↔ cs ∈ integers := by
  unfold integers isInteger
  rw [mem_minus_mul minus_notMem_magnitudes, isMagnitude_iff]

theorem mem_digits_iff :
    cs ∈ decimal * decimal∗ ↔ (!cs.isEmpty && cs.all Char.isDigit) = true := by
  rw [decimal_eq]
  cases cs with
  | nil => simp [nil_notMem_oneOf_mul]
  | cons c rest => simp [cons_mem_oneOf_mul, mem_kstar_oneOf]

theorem isExponent_iff : isExponent cs = true ↔ cs ∈ exponents := by
  unfold exponents mark
  rw [oneOf_add, oneOf_add]
  cases cs with
  | nil => simp [isExponent, nil_notMem_oneOf_mul]
  | cons c rest =>
    rw [cons_mem_oneOf_mul, add_mul, one_mul, Language.mem_add]
    unfold isExponent
    rw [Bool.and_eq_true]
    refine and_congr (by simp) ?_
    simp only
    split
    · simp [mem_digits_iff, cons_mem_oneOf_mul]
    · simp [mem_digits_iff, cons_mem_oneOf_mul]
    · rename_i hplus hminus
      rw [← mem_digits_iff]
      constructor
      · exact .inl
      · rintro (h | h)
        · exact h
        · obtain ⟨_, digits, rfl, rfl | rfl, -⟩ := mem_oneOf_mul.mp h
          · exact absurd rfl (hplus digits)
          · exact absurd rfl (hminus digits)

theorem isGroupChar_of_mem (h : cs ∈ group decimal) : ∀ c ∈ cs, isGroupChar c = true := by
  rw [decimal_eq] at h
  cases cs with
  | nil => simp
  | cons c rest =>
    obtain ⟨hc, hrest⟩ := cons_mem_group.mp h
    simpa [isGroupChar, hc] using hrest

/-- Where digits end is seen from what follows, if that does not begin like more of them. -/
theorem mem_group_mul (hbegin : ∀ c rest, isGroupChar c = true → c :: rest ∉ l) :
    cs ∈ group decimal * l ↔
      cs.takeWhile isGroupChar ∈ group decimal ∧ cs.dropWhile isGroupChar ∈ l := by
  rw [Language.mem_mul]
  constructor
  · rintro ⟨digits, hdigits, rest, hrest, rfl⟩
    have hall := isGroupChar_of_mem hdigits
    rw [List.takeWhile_append_of_pos hall, List.dropWhile_append_of_pos hall]
    cases rest with
    | nil => simpa using ⟨hdigits, hrest⟩
    | cons c rest =>
      have hc : ¬ isGroupChar c = true := fun hc => hbegin c rest hc hrest
      rw [List.takeWhile_cons_of_neg hc, List.dropWhile_cons_of_neg hc, List.append_nil]
      exact ⟨hdigits, hrest⟩
  · rintro ⟨hdigits, hrest⟩
    exact ⟨_, hdigits, _, hrest, List.takeWhile_append_dropWhile⟩

/-- Neither an exponent nor a fraction begins like more digits. -/
theorem exists_of_mem_exponents (h : cs ∈ exponents) :
    ∃ c rest, cs = c :: rest ∧ (c = 'e' ∨ c = 'E') := by
  unfold exponents mark at h
  rw [oneOf_add] at h
  obtain ⟨c, rest, heq, hc, -⟩ := mem_oneOf_mul.mp h
  exact ⟨c, rest, heq, hc⟩

theorem exists_of_mem_tails (h : cs ∈ tails) :
    ∃ c rest, cs = c :: rest ∧ (c = '.' ∨ c = 'e' ∨ c = 'E') := by
  rcases (Language.mem_add _ _ _).mp h with h | h
  · obtain ⟨rest, rfl, -⟩ := mem_mark_mul.mp h
    exact ⟨'.', rest, rfl, .inl rfl⟩
  · obtain ⟨c, rest, heq, hc⟩ := exists_of_mem_exponents h
    exact ⟨c, rest, heq, .inr hc⟩

theorem notMem_tails (hc : isGroupChar c = true) : c :: rest ∉ tails := by
  intro h
  obtain ⟨d, more, heq, hd⟩ := exists_of_mem_tails h
  obtain ⟨rfl, rfl⟩ := List.cons.inj heq
  rcases hd with rfl | rfl | rfl <;> cases hc

theorem notMem_one_add_exponents (hc : isGroupChar c = true) : c :: rest ∉ 1 + exponents := by
  intro h
  rcases (Language.mem_add _ _ _).mp h with h | h
  · cases h
  · exact notMem_tails hc (.inr h)

theorem isTail_iff : isTail cs = true ↔ cs ∈ tails := by
  unfold tails
  rw [Language.mem_add]
  unfold isTail
  split
  · rename_i digits
    rw [cons_mem_mark_mul, mem_group_mul fun c rest hc => notMem_one_add_exponents hc,
      Language.mem_add, Language.mem_one, ← isExponent_iff, ← isExponent_iff]
    rw [decimal_eq, ← isGroup_iff]
    simp [isExponent]
  · rename_i hother
    rw [isExponent_iff]
    constructor
    · exact .inr
    · rintro (h | h)
      · obtain ⟨digits, rfl, -⟩ := mem_mark_mul.mp h
        exact absurd rfl (hother digits)
      · exact h

theorem minus_notMem_group_mul (rest : List Char) : '-' :: rest ∉ group decimal * l := by
  unfold group
  rw [decimal_eq, mul_assoc, cons_mem_oneOf_mul]
  rintro ⟨hdigit, -⟩
  cases hdigit

theorem isFloating_iff : isFloating cs = true ↔ cs ∈ floatings := by
  unfold floatings isFloating
  rw [mem_minus_mul minus_notMem_group_mul, mem_group_mul fun c rest hc => notMem_tails hc,
    ← isTail_iff]
  simp only [Bool.and_eq_true, isGroup_iff, decimal_eq]

theorem isBoolean_iff : isBoolean cs = true ↔ cs ∈ booleans := by
  unfold isBoolean booleans
  rw [Bool.or_eq_true, beq_iff_eq, beq_iff_eq]
  rfl

theorem isQuoted_iff_mem : isQuoted cs = true ↔ cs ∈ quotations := by
  unfold quotations
  rw [isQuoted_iff_getLast?, mem_mark_mul]
  refine exists_congr fun rest => and_congr_right fun _ => ?_
  rw [List.getLast?_eq_some_iff, Language.mem_mul]
  constructor
  · rintro ⟨body, rfl⟩
    exact ⟨body, trivial, ['\x22'], ⟨'\x22', rfl, rfl⟩, rfl⟩
  · rintro ⟨body, -, _, ⟨_, rfl, rfl⟩, rfl⟩
    exact ⟨body, rfl⟩

/-! ## Order -/

/-- The recognisers in the order in which they are tried, each with the name of its type. -/
def recognisers : List ((List Char → Bool) × String) :=
  [(isInteger, "Int"), (isFloating, "Double"), (isQuoted, "String"), (isBoolean, "Bool")]

theorem typeName?_eq_find? (cs : List Char) :
    typeName? cs = (recognisers.find? fun entry => entry.1 cs).map Prod.snd := by
  unfold typeName? recognisers
  simp only [List.find?_cons]
  cases isInteger cs <;> cases isFloating cs <;> cases isQuoted cs <;> cases isBoolean cs <;> rfl

/-- An integer without a sign is a decimal one, or begins with a zero and the mark of its base. -/
theorem exists_of_mem_magnitudes (h : cs ∈ magnitudes) :
    cs ∈ group decimal ∨ ∃ c rest, cs = '0' :: c :: rest ∧ (c = 'x' ∨ c = 'o' ∨ c = 'b') := by
  unfold magnitudes at h
  simp only [Language.mem_add] at h
  rcases h with ((h | h) | h) | h
  · obtain ⟨digits, heq, -⟩ := mem_mark_mark_mul.mp h
    exact .inr ⟨'x', digits, heq, .inl rfl⟩
  · obtain ⟨digits, heq, -⟩ := mem_mark_mark_mul.mp h
    exact .inr ⟨'o', digits, heq, .inr (.inl rfl)⟩
  · obtain ⟨digits, heq, -⟩ := mem_mark_mark_mul.mp h
    exact .inr ⟨'b', digits, heq, .inr (.inr rfl)⟩
  · exact .inl h

/-- What follows the leading digits of an integer without a sign is not what makes digits a
floating-point literal. -/
theorem dropWhile_notMem_tails (h : cs ∈ magnitudes) : cs.dropWhile isGroupChar ∉ tails := by
  intro htail
  obtain ⟨d, more, heq, hd⟩ := exists_of_mem_tails htail
  rcases exists_of_mem_magnitudes h with hdecimal | ⟨c, rest, rfl, hc⟩
  · have hall := isGroupChar_of_mem hdecimal
    rw [List.dropWhile_eq_nil_iff.mpr hall] at heq
    cases heq
  · -- the mark of the base is no digit, so it comes first
    have hdrop : List.dropWhile isGroupChar ('0' :: c :: rest) = c :: rest := by
      rcases hc with rfl | rfl | rfl <;> rfl
    obtain ⟨rfl, -⟩ := List.cons.inj (hdrop.symm.trans heq)
    rcases hc with rfl | rfl | rfl <;> simp at hd

theorem isFloating_of_isInteger (h : isInteger cs = true) : ¬ isFloating cs = true := by
  intro hfloating
  have hmagnitude := (mem_minus_mul minus_notMem_magnitudes).mp (isInteger_iff.mp h)
  have htail := (mem_minus_mul minus_notMem_group_mul).mp (isFloating_iff.mp hfloating)
  rw [mem_group_mul fun c rest hc => notMem_tails hc] at htail
  exact dropWhile_notMem_tails hmagnitude htail.2

/-- A text between quotation marks is no number. -/
theorem notNumber_of_isQuoted (h : isQuoted cs = true) :
    ¬ isInteger cs = true ∧ ¬ isFloating cs = true := by
  obtain ⟨rest, rfl, -⟩ := isQuoted_iff_getLast?.mp h
  rw [isInteger_quotation, isFloating_quotation]
  exact ⟨Bool.false_ne_true, Bool.false_ne_true⟩

/-- A truth value is no number, and does not stand between quotation marks. -/
theorem notOther_of_isBoolean (h : isBoolean cs = true) :
    ¬ isInteger cs = true ∧ ¬ isFloating cs = true ∧ ¬ isQuoted cs = true := by
  unfold isBoolean at h
  rw [Bool.or_eq_true, beq_iff_eq, beq_iff_eq] at h
  rcases h with rfl | rfl
  · decide +kernel
  · decide +kernel

/-- No two of the recognisers recognise the same text. -/
theorem pairwise_recognisers :
    recognisers.Pairwise fun first second => ∀ cs, first.1 cs = true → ¬ second.1 cs = true := by
  unfold recognisers
  simp only [List.pairwise_cons, List.forall_mem_cons, List.Pairwise.nil, and_true]
  refine ⟨⟨fun cs => isFloating_of_isInteger, ?_, ?_, by simp⟩, ⟨?_, ?_, by simp⟩, ⟨?_, by simp⟩,
    by simp⟩
  · exact fun cs hinteger hquoted => (notNumber_of_isQuoted hquoted).1 hinteger
  · exact fun cs hinteger hboolean => (notOther_of_isBoolean hboolean).1 hinteger
  · exact fun cs hfloating hquoted => (notNumber_of_isQuoted hquoted).2 hfloating
  · exact fun cs hfloating hboolean => (notOther_of_isBoolean hboolean).2.1 hfloating
  · exact fun cs hquoted hboolean => (notOther_of_isBoolean hboolean).2.2 hquoted

theorem subsingleton_recognisers (cs : List Char) :
    {entry ∈ recognisers | entry.1 cs}.Subsingleton := by
  have hsymm : Std.Symm fun first second : (List Char → Bool) × String =>
      ¬ (first.1 cs = true ∧ second.1 cs = true) := ⟨fun _ _ h hboth => h hboth.symm⟩
  have hpairwise : recognisers.Pairwise fun first second =>
      ¬ (first.1 cs = true ∧ second.1 cs = true) :=
    pairwise_recognisers.imp fun h hboth => h cs hboth.1 hboth.2
  rintro first ⟨hfirst, hcs⟩ second ⟨hsecond, hcs'⟩
  by_contra hne
  exact hpairwise.forall hfirst hsecond hne ⟨hcs, hcs'⟩

/-- A text is of the type of the recogniser that recognises it. -/
theorem typeName?_eq_some_iff {name : String} :
    typeName? cs = some name ↔
      ∃ recognise, (recognise, name) ∈ recognisers ∧ recognise cs = true := by
  rw [typeName?_eq_find?, Option.map_eq_some_iff]
  constructor
  · rintro ⟨⟨recognise, found⟩, hfind, rfl⟩
    have hcs := List.find?_some hfind
    exact ⟨recognise, List.mem_of_find?_eq_some hfind, hcs⟩
  · rintro ⟨recognise, hmem, hcs⟩
    have hsome : (recognisers.find? fun entry => entry.1 cs).isSome = true :=
      List.find?_isSome.mpr ⟨_, hmem, hcs⟩
    obtain ⟨entry, hentry⟩ := Option.isSome_iff_exists.mp hsome
    have hfound := List.find?_some hentry
    -- no other one than this one is found
    obtain rfl : entry = (recognise, name) := subsingleton_recognisers cs
      ⟨List.mem_of_find?_eq_some hentry, hfound⟩ ⟨hmem, hcs⟩
    exact ⟨_, hentry, rfl⟩

/-- In whichever order the recognisers are tried, a text is of the same type. -/
theorem typeName?_eq_find?_of_perm {order : List ((List Char → Bool) × String)}
    (h : order.Perm recognisers) (cs : List Char) :
    typeName? cs = (order.find? fun entry => entry.1 cs).map Prod.snd := by
  rw [typeName?_eq_find?, List.find?_eq_find?_of_perm h.symm (subsingleton_recognisers cs)]

/-- The languages have no text in common. -/
theorem pairwise_languages :
    [integers, floatings, quotations, booleans].Pairwise fun first second =>
      ∀ cs, cs ∈ first → cs ∉ second := by
  have h := pairwise_recognisers
  unfold recognisers at h
  simpa [-Bool.not_eq_true, isInteger_iff, isFloating_iff, isQuoted_iff_mem, isBoolean_iff] using h

end Literal

/-- A node is an expression whose text, without the blanks at its ends, is in a language. -/
def Node.Spells (node : Node) (language : Language Char) : Prop :=
  ∃ text, node.kind = .expr ∧ node.text = some text ∧ Text.trim text.toList ∈ language

/-- The type of a literal follows the grammar. An expression is an integer, a floating-point number,
a text or a truth value exactly if its text is in the language of these; no text is in two of the
languages; and in whichever order the recognisers are tried, the outcome is the same. -/
theorem Literal.literalType?_grammar (node : Node) :
    (node.literalType? = some (Build.simpleType "Int") ↔ node.Spells integers) ∧
    (node.literalType? = some (Build.simpleType "Double") ↔ node.Spells floatings) ∧
    (node.literalType? = some (Build.simpleType "String") ↔ node.Spells quotations) ∧
    (node.literalType? = some (Build.simpleType "Bool") ↔ node.Spells booleans) ∧
    ([integers, floatings, quotations, booleans].Pairwise fun first second =>
      ∀ cs, cs ∈ first → cs ∉ second) ∧
    ∀ order : List ((List Char → Bool) × String), order.Perm recognisers → ∀ cs,
      typeName? cs = (order.find? fun entry => entry.1 cs).map Prod.snd := by
  refine ⟨?_, ?_, ?_, ?_, pairwise_languages, fun order h cs => typeName?_eq_find?_of_perm h cs⟩
  · rw [literalType?_eq_some_iff]
    simp [Node.Spells, typeName?_eq_some_iff, recognisers, isInteger_iff]
  · rw [literalType?_eq_some_iff]
    simp [Node.Spells, typeName?_eq_some_iff, recognisers, isFloating_iff]
  · rw [literalType?_eq_some_iff]
    simp [Node.Spells, typeName?_eq_some_iff, recognisers, isQuoted_iff_mem]
  · rw [literalType?_eq_some_iff]
    simp [Node.Spells, typeName?_eq_some_iff, recognisers, isBoolean_iff]

example : ∀ text ∈ ["0x", "0x_1", "0b12", "_1", "--1", "1.", "1._5", ".5", "1e", "1e+_2", "tru e"],
    (Build.expr text).literalType? = none := by
  decide +kernel

/-- A hexadecimal integer with an `e` among its digits, and blanks around it. -/
def Sample.numeral : String :=
  " -0x1e_2\n"

/-- It is an integer, also in the other order of the recognisers, and no floating-point number. -/
theorem Literal.literalType?_grammar_numeral :
    (Build.expr Sample.numeral).literalType? = some (Build.simpleType "Int") ∧
      (Build.expr Sample.numeral).Spells integers ∧
      ¬ (Build.expr Sample.numeral).Spells floatings ∧
      recognisers.reverse.Perm recognisers ∧
      typeName? (Text.trim Sample.numeral.toList) =
        (recognisers.reverse.find? fun entry =>
          entry.1 (Text.trim Sample.numeral.toList)).map Prod.snd := by
  obtain ⟨hinteger, hfloating, -, -, -, horder⟩ := literalType?_grammar (Build.expr Sample.numeral)
  have htype : (Build.expr Sample.numeral).literalType? = some (Build.simpleType "Int") := by
    decide +kernel
  have hreverse : recognisers.reverse.Perm recognisers := List.reverse_perm recognisers
  refine ⟨htype, hinteger.mp htype, ?_, hreverse, horder _ hreverse _⟩
  intro hspells
  have hdouble := htype.symm.trans (hfloating.mpr hspells)
  exact absurd hdouble (by decide +kernel)

end SourceEvolution
