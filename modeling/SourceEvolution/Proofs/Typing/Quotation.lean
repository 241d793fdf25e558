import Mathlib.Data.List.Infix
import SourceEvolution.Typing.Literal

/-!
# What is taken for a string

A string literal begins with a quotation mark and ends with the next one that no backslash escapes.
The type of a literal is found without looking for that one: a text is taken for a string if it
begins with a quotation mark and ends with another one. This module says which texts that are, and
so how far a text that is taken for a string is a string literal.

* **Bodies** (`Literal.IsBody`): what can stand between the quotation marks of a literal. Every text
  begins with such a body, up to a quotation mark or its end (`Literal.exists_body`), and with one
  only (`Literal.IsBody.eq_of_append`).
* **Literals** (`Literal.IsSingle`, `Literal.ClosesEarly`, `Literal.IsUnclosed`): one string
  literal, and the other two kinds of text between quotation marks.
* **Types** (`Literal.isQuoted_iff`, `Literal.literalType?_string`): all three are taken for
  strings.
-/

namespace SourceEvolution

namespace Literal

/-! ## Bodies -/

/-- What can stand between the quotation marks of a string literal. A backslash escapes the
character behind it, and there is no quotation mark that is not escaped. -/
inductive IsBody : List Char → Prop
  /-- There may be nothing. -/
  | nil : IsBody []
  /-- A character that stands for itself. -/
  | plain {c : Char} {cs : List Char} (notQuote : c ≠ '\x22') (notEscape : c ≠ '\\')
      (rest : IsBody cs) : IsBody (c :: cs)
  /-- A character with a backslash in front. -/
  | escaped (c : Char) {cs : List Char} (rest : IsBody cs) : IsBody ('\\' :: c :: cs)

variable {body other more cs : List Char}

theorem isBody_cons_iff {c : Char} (hescape : c ≠ '\\') :
    IsBody (c :: cs) ↔ c ≠ '\x22' ∧ IsBody cs := by
  constructor
  · intro h
    cases h with
    | plain notQuote _ rest => exact ⟨notQuote, rest⟩
    | escaped => exact absurd rfl hescape
  · rintro ⟨notQuote, rest⟩
    exact .plain notQuote hescape rest

theorem isBody_escaped_iff {c : Char} : IsBody ('\\' :: c :: cs) ↔ IsBody cs := by
  constructor
  · intro h
    cases h with
    | plain _ notEscape => exact absurd rfl notEscape
    | escaped _ rest => exact rest
  · exact .escaped c

/-- There is no quotation mark in a body that is not escaped. -/
theorem IsBody.not_isBody_append (h : IsBody body) (more : List Char) :
    ¬ IsBody (body ++ '\x22' :: more) := by
  induction h with
  | nil =>
    intro h
    exact ((isBody_cons_iff (by decide)).mp h).1 rfl
  | plain notQuote notEscape rest ih =>
    intro h
    exact ih ((isBody_cons_iff notEscape).mp h).2
  | escaped c rest ih =>
    intro h
    exact ih (isBody_escaped_iff.mp h)

/-- The first quotation mark that is not escaped is at one place only. -/
theorem IsBody.eq_of_append {rest : List Char} (h : IsBody body) (h' : IsBody other)
    (heq : body ++ '\x22' :: more = other ++ '\x22' :: rest) : more = rest := by
  rcases List.append_eq_append_iff.mp heq with ⟨between, hother, hmore⟩ | ⟨between, hbody, hrest⟩
  · cases between with
    | nil => exact (List.cons.inj hmore).2
    | cons c between =>
      obtain ⟨rfl, -⟩ := List.cons.inj hmore
      exact absurd (hother ▸ h') (h.not_isBody_append between)
  · cases between with
    | nil => exact (List.cons.inj hrest).2.symm
    | cons c between =>
      obtain ⟨rfl, -⟩ := List.cons.inj hrest
      exact absurd (hbody ▸ h) (h'.not_isBody_append between)

/-- Every text begins with a body. It goes up to the first quotation mark that is not escaped, or is
all of the text, perhaps but for a backslash at the end that escapes nothing. -/
theorem exists_body : (cs : List Char) →
    (∃ body more, IsBody body ∧ cs = body ++ '\x22' :: more) ∨ IsBody cs ∨
      ∃ body, IsBody body ∧ cs = body ++ ['\\']
  | [] => .inr (.inl .nil)
  | [c] => by
    by_cases hquote : c = '\x22'
    · subst hquote
      exact .inl ⟨[], [], .nil, rfl⟩
    · by_cases hescape : c = '\\'
      · subst hescape
        exact .inr (.inr ⟨[], .nil, rfl⟩)
      · exact .inr (.inl (.plain hquote hescape .nil))
  | c :: d :: cs => by
    by_cases hquote : c = '\x22'
    · subst hquote
      exact .inl ⟨[], d :: cs, .nil, rfl⟩
    · by_cases hescape : c = '\\'
      · -- the next character is escaped, whatever it is
        subst hescape
        rcases exists_body cs with ⟨body, more, h, rfl⟩ | h | ⟨body, h, rfl⟩
        · exact .inl ⟨'\\' :: d :: body, more, .escaped d h, rfl⟩
        · exact .inr (.inl (.escaped d h))
        · exact .inr (.inr ⟨'\\' :: d :: body, .escaped d h, rfl⟩)
      · rcases exists_body (d :: cs) with ⟨body, more, h, heq⟩ | h | ⟨body, h, heq⟩
        · exact .inl ⟨c :: body, more, .plain hquote hescape h, congrArg (c :: ·) heq⟩
        · exact .inr (.inl (.plain hquote hescape h))
        · exact .inr (.inr ⟨c :: body, .plain hquote hescape h, congrArg (c :: ·) heq⟩)

/-! ## Literals -/

/-- A text is one string literal: it begins with a quotation mark, and its last character is the
next one that is not escaped. -/
def IsSingle (cs : List Char) : Prop :=
  ∃ body, IsBody body ∧ cs = '\x22' :: (body ++ ['\x22'])

/-- A text begins with a string literal, but that is not all of it; it ends with another quotation
mark. -/
def ClosesEarly (cs : List Char) : Prop :=
  ∃ body more, IsBody body ∧ cs = '\x22' :: (body ++ '\x22' :: more) ∧
    more.getLast? = some '\x22'

/-- A text begins with a quotation mark, but every other one in it is escaped, also the one at its
end. -/
def IsUnclosed (cs : List Char) : Prop :=
  ∃ body, IsBody body ∧ cs = '\x22' :: body ∧ body.getLast? = some '\x22'

theorem IsSingle.not_closesEarly (h : IsSingle cs) : ¬ ClosesEarly cs := by
  obtain ⟨body, hbody, rfl⟩ := h
  rintro ⟨other, more, hother, heq, hlast⟩
  obtain rfl := hbody.eq_of_append hother (List.cons.inj heq).2
  cases hlast

theorem IsSingle.not_isUnclosed (h : IsSingle cs) : ¬ IsUnclosed cs := by
  obtain ⟨body, hbody, rfl⟩ := h
  rintro ⟨other, hother, heq, -⟩
  obtain rfl := (List.cons.inj heq).2
  exact hbody.not_isBody_append [] hother

/-! ## Types -/

theorem isQuoted_iff_getLast? :
    isQuoted cs = true ↔ ∃ rest, cs = '\x22' :: rest ∧ rest.getLast? = some '\x22' := by
  unfold isQuoted
  split
  · simp
  · rename_i hother
    constructor
    · intro h
      cases h
    · rintro ⟨rest, rfl, -⟩
      exact absurd rfl (hother rest)

/-- The texts that begin with a quotation mark and end with another one are of three kinds. -/
theorem isQuoted_iff : isQuoted cs = true ↔ IsSingle cs ∨ ClosesEarly cs ∨ IsUnclosed cs := by
  rw [isQuoted_iff_getLast?]
  constructor
  · rintro ⟨rest, rfl, hlast⟩
    rcases exists_body rest with ⟨body, more, hbody, rfl⟩ | hbody | ⟨body, -, rfl⟩
    · cases more with
      | nil => exact .inl ⟨body, hbody, rfl⟩
      | cons c more =>
        refine .inr (.inl ⟨body, c :: more, hbody, rfl, ?_⟩)
        simpa [List.getLast?_append, List.getLast?_cons] using hlast
    · exact .inr (.inr ⟨rest, hbody, rfl, hlast⟩)
    · -- the last character is no quotation mark here
      simp at hlast
  · rintro (⟨body, -, rfl⟩ | ⟨body, more, -, rfl, hlast⟩ | ⟨body, -, rfl, hlast⟩)
    · exact ⟨_, rfl, by simp⟩
    · exact ⟨_, rfl, by simp [List.getLast?_append, List.getLast?_cons, hlast]⟩
    · exact ⟨body, rfl, hlast⟩

/-- A text that begins with a quotation mark is no number. -/
theorem isInteger_quotation (cs : List Char) : isInteger ('\x22' :: cs) = false :=
  rfl

theorem isFloating_quotation (cs : List Char) : isFloating ('\x22' :: cs) = false :=
  rfl

theorem typeName?_eq_string_iff : typeName? cs = some "String" ↔ isQuoted cs = true := by
  constructor
  · intro h
    unfold typeName? at h
    split_ifs at h with hinteger hfloating hquoted hboolean
    · simp at h
    · simp at h
    · exact hquoted
    · simp at h
  · intro h
    obtain ⟨rest, rfl, -⟩ := isQuoted_iff_getLast?.mp h
    unfold typeName?
    rw [isInteger_quotation, isFloating_quotation, h]
    rfl

/-- The expressions that are taken for literals of a type. -/
theorem literalType?_eq_some_iff {node : Node} {name : String} :
    node.literalType? = some (Build.simpleType name) ↔
      ∃ text, node.kind = .expr ∧ node.text = some text ∧
        typeName? (Text.trim text.toList) = some name := by
  have hname : ∀ other, Build.simpleType other = Build.simpleType name ↔ other = name := by
    simp [Build.simpleType, Node.leaf]
  unfold Node.literalType?
  split
  · rename_i text hkind htext
    rw [Option.map_eq_some_iff]
    simp only [hname, exists_eq_right, hkind, htext]
    simp
  · rename_i hother
    constructor
    · intro h
      cases h
    · rintro ⟨text, hkind, htext, -⟩
      exact absurd htext (hother text hkind)

/-- Which expressions are taken for strings, and when rightly. For every node, the type that is
found is that of strings exactly if the node is an expression and its text, without the blanks at
its ends, is one string literal, or begins with a string literal and ends with another quotation
mark, or has no quotation mark behind the first but escaped ones, with such a one at its end. So
only a string literal is taken for a string, exactly unless the text of the expression is of one of
the other two kinds. -/
theorem literalType?_string (node : Node) :
    (node.literalType? = some (Build.simpleType "String") ↔
      ∃ text, node.kind = .expr ∧ node.text = some text ∧
        (IsSingle (Text.trim text.toList) ∨ ClosesEarly (Text.trim text.toList) ∨
          IsUnclosed (Text.trim text.toList))) ∧
    ((node.literalType? = some (Build.simpleType "String") →
        ∃ text, node.text = some text ∧ IsSingle (Text.trim text.toList)) ↔
      ∀ text, node.kind = .expr → node.text = some text →
        ¬ ClosesEarly (Text.trim text.toList) ∧ ¬ IsUnclosed (Text.trim text.toList)) := by
  simp only [literalType?_eq_some_iff, typeName?_eq_string_iff, isQuoted_iff, true_and]
  constructor
  · intro honly text hkind htext
    constructor
    · intro hearly
      obtain ⟨other, hother, hsingle⟩ := honly ⟨text, hkind, htext, .inr (.inl hearly)⟩
      obtain rfl := Option.some.inj (htext.symm.trans hother)
      exact hsingle.not_closesEarly hearly
    · intro hunclosed
      obtain ⟨other, hother, hsingle⟩ := honly ⟨text, hkind, htext, .inr (.inr hunclosed)⟩
      obtain rfl := Option.some.inj (htext.symm.trans hother)
      exact hsingle.not_isUnclosed hunclosed
  · rintro hnone ⟨text, hkind, htext, hsingle | hearly | hunclosed⟩
    · exact ⟨text, htext, hsingle⟩
    · exact absurd hearly (hnone text hkind htext).1
    · exact absurd hunclosed (hnone text hkind htext).2

end Literal

/-- A comparison of two strings. -/
def Sample.comparison : String :=
  "\"a\" == \"b\""

/-- It is taken for a string, although it is not one literal. Nothing is inserted in it, and it does
not begin like a literal of several lines. -/
theorem Literal.literalType?_comparison :
    (Build.expr Sample.comparison).literalType? = some (Build.simpleType "String") ∧
    ¬ ['\\', '('] <:+: Sample.comparison.toList ∧
    ¬ ['\x22', '\x22', '\x22'] <+: Text.trim Sample.comparison.toList ∧
    ¬ IsSingle (Text.trim Sample.comparison.toList) := by
  have hearly : ClosesEarly (Text.trim Sample.comparison.toList) := by
    refine ⟨['a'], " == \"b\"".toList, .plain (by decide) (by decide) .nil, ?_, ?_⟩
    · decide +kernel
    · decide +kernel
  refine ⟨by decide +kernel, by decide +kernel, by decide +kernel, ?_⟩
  intro hsingle
  exact hsingle.not_closesEarly hearly

end SourceEvolution
