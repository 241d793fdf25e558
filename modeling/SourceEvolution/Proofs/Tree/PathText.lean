import Mathlib.Data.List.Forall2
import Mathlib.Data.List.Induction
import Mathlib.Data.Nat.Digits.Defs
import SourceEvolution.Proofs.Passes
import SourceEvolution.Tree.Path

/-!
# Paths as texts

A path is written as its indices with dots between them, and the root as a single dot. Reading takes
more than what is written: an index may have a plus sign and zeros in front, and the empty text is
the root as well. This module says what exactly is read, as what, and what is reported about any
other text.

* **Pieces** (`Text.pieces_eq_splitOn`): the pieces of a text are the only way to cut it at the
  mark.
* **Segments** (`Path.Denotes`, `Path.IsFaulty`): what a segment stands for, and what is reported
  about one that stands for nothing.
* **Paths** (`Path.parse_eq_ok_iff`, `Path.parse_eq_error_iff`, `Path.parse_render`,
  `Path.parse_exact`).
-/

namespace SourceEvolution

/-! ## Pieces -/

namespace Text

theorem pieces_eq_splitOn (mark : Char) (cs : List Char) : pieces mark cs = cs.splitOn mark := by
  induction cs with
  | nil => rfl
  | cons c cs ih =>
    unfold pieces List.splitOn
    rw [List.splitOnP_cons_eq_if_modifyHead, ih]
    unfold List.splitOn
    rcases hrest : cs.splitOnP (· == mark) with _ | ⟨piece, rest⟩
    · exact absurd hrest (List.splitOnP_ne_nil _ _)
    · simp

/-- Segments without the mark are the pieces of the text that they are joined to. -/
theorem pieces_intercalate {mark : Char} {segments : List (List Char)} (hne : segments ≠ [])
    (hmark : ∀ segment ∈ segments, mark ∉ segment) :
    pieces mark (List.intercalate [mark] segments) = segments := by
  rw [pieces_eq_splitOn, List.splitOn_intercalate mark hmark hne]

/-- No piece contains the mark. -/
theorem not_mem_of_mem_pieces {mark : Char} {cs piece : List Char} (h : piece ∈ pieces mark cs) :
    mark ∉ piece := by
  induction cs generalizing piece with
  | nil =>
    obtain rfl := List.mem_singleton.mp h
    exact List.not_mem_nil
  | cons c cs ih =>
    unfold pieces at h
    split_ifs at h with hc
    · rcases List.mem_cons.mp h with rfl | h
      · exact List.not_mem_nil
      · exact ih h
    · obtain ⟨first, rest, hpieces⟩ := List.exists_cons_of_ne_nil (pieces_ne_nil mark cs)
      rw [hpieces] at h ih
      rcases List.mem_cons.mp h with rfl | h
      · rw [List.mem_cons, not_or]
        exact ⟨Ne.symm hc, ih List.mem_cons_self⟩
      · exact ih (List.mem_cons_of_mem first h)

end Text

/-! ## Segments -/

/-- The value of a run of digits is that of its digits in base ten. -/
theorem Decimal.value_eq_ofDigits (cs : List Char) :
    value cs = Nat.ofDigits 10 (cs.map digitValue).reverse := by
  induction cs using List.reverseRecOn with
  | nil => rfl
  | append_singleton cs c ih =>
    rw [value_concat, ih]
    simp [Nat.ofDigits_cons]
    omega

/-- A run of digits is read as a number if there are any. -/
theorem Decimal.parse?_eq_some_iff {cs : List Char} {n : Nat} :
    parse? cs = some n ↔
      cs ≠ [] ∧ (∀ c ∈ cs, c.isDigit = true) ∧ n = Nat.ofDigits 10 (cs.map digitValue).reverse := by
  unfold parse?
  rw [value_eq_ofDigits, Option.ite_none_right_eq_some, List.all_eq_true, Option.some.injEq,
    and_assoc, eq_comm (a := n)]

namespace Path

/-- A segment stands for an index: a plus sign or none, and then at least one digit, all of which
together make up a number of 64 bits. -/
def Denotes (segment : List Char) (index : Nat) : Prop :=
  ∃ digits, (segment = digits ∨ segment = '+' :: digits) ∧ digits ≠ [] ∧
    (∀ c ∈ digits, c.isDigit = true) ∧
    index = Nat.ofDigits 10 (digits.map Decimal.digitValue).reverse ∧ index < 2 ^ 64

/-- What is reported about a segment that stands for no index. -/
inductive IsFaulty : List Char → PathError → Prop
  /-- There is no text at all. -/
  | empty : IsFaulty [] .emptySegment
  /-- The text is that of no index. -/
  | invalid {segment : List Char} (nonempty : segment ≠ [])
      (meaningless : ∀ index, ¬ Denotes segment index) :
      IsFaulty segment (.invalidSegment (String.ofList segment))

variable {segment : List Char} {index : Nat} {error : PathError}

theorem denotes_iff_parse? :
    Denotes segment index ↔ ∃ digits, (segment = digits ∨ segment = '+' :: digits) ∧
      Decimal.parse? digits = some index ∧ index < 2 ^ 64 := by
  simp only [Denotes, Decimal.parse?_eq_some_iff, and_assoc]

theorem parseWord?_eq_some_iff :
    Decimal.parseWord? segment = some index ↔ Denotes segment index := by
  have hbound : Decimal.wordBound = 2 ^ 64 := rfl
  rw [denotes_iff_parse?]
  unfold Decimal.parseWord?
  rw [hbound, Option.filter_eq_some_iff, decide_eq_true_eq]
  split
  · rename_i rest
    constructor
    · intro h
      exact ⟨rest, .inr rfl, h⟩
    · rintro ⟨digits, rfl | heq, h⟩
      · -- a plus sign is no digit
        have hdigit := (Decimal.parse?_eq_some_iff.mp h.1).2.1 '+' List.mem_cons_self
        cases hdigit
      · obtain ⟨-, rfl⟩ := List.cons.inj heq
        exact h
  · rename_i hplus
    constructor
    · intro h
      exact ⟨segment, .inl rfl, h⟩
    · rintro ⟨digits, rfl | rfl, h⟩
      · exact h
      · exact absurd rfl (hplus digits)

theorem Denotes.ne_nil (h : Denotes segment index) : segment ≠ [] := by
  obtain ⟨digits, rfl | rfl, hne, -⟩ := h
  · exact hne
  · exact List.cons_ne_nil _ _

theorem Denotes.lt (h : Denotes segment index) : index < 2 ^ 64 := by
  obtain ⟨_, _, _, _, _, hlt⟩ := h
  exact hlt

/-- There is no dot in what stands for an index. -/
theorem Denotes.dot_not_mem (h : Denotes segment index) : '.' ∉ segment := by
  obtain ⟨digits, hsegment, -, hdigits, -⟩ := h
  have hdot : '.' ∉ digits := by
    intro hmem
    cases hdigits '.' hmem
  rcases hsegment with rfl | rfl
  · exact hdot
  · simpa using hdot

/-- The numeral of an index stands for it. -/
theorem denotes_digits (h : index < 2 ^ 64) : Denotes (Decimal.digits index) index := by
  have hread : Decimal.parse? (Decimal.digits index) = some index := Decimal.parse?_digits index
  exact denotes_iff_parse?.mpr ⟨Decimal.digits index, .inl rfl, hread, h⟩

/-- A segment is read as the index that it stands for. -/
theorem parseSegment_eq_ok_iff : parseSegment segment = .ok index ↔ Denotes segment index := by
  unfold parseSegment
  split_ifs with hnil
  · constructor
    · intro h
      cases h
    · intro h
      exact absurd hnil h.ne_nil
  · rw [← parseWord?_eq_some_iff]
    rcases Decimal.parseWord? segment with _ | found <;> simp

/-- What is reported about a segment. -/
theorem parseSegment_eq_error_iff :
    parseSegment segment = .error error ↔ IsFaulty segment error := by
  constructor
  · intro h
    have hnone : ∀ index, ¬ Denotes segment index := by
      intro index hindex
      rw [parseSegment_eq_ok_iff.mpr hindex] at h
      cases h
    unfold parseSegment at h
    split_ifs at h with hnil
    · cases h
      exact hnil ▸ .empty
    · split at h
      · cases h
      · cases h
        exact .invalid hnil hnone
  · intro h
    cases h with
    | empty => rfl
    | invalid hne hnone =>
      unfold parseSegment
      rw [if_neg hne]
      split
      · rename_i index hindex
        exact absurd (parseWord?_eq_some_iff.mp hindex) (hnone index)
      · rfl

/-! ## Paths -/

variable {text : String} {path : Path}

theorem parse_of_root (h : text = "" ∨ text = ".") : parse text = .ok [] := by
  rcases h with rfl | rfl <;> rfl

/-- Every text but those of the root is read piece by piece. -/
theorem parse_of_not_root (h : ¬ (text = "" ∨ text = ".")) :
    parse text = (Text.pieces '.' text.toList).mapM parseSegment := by
  have hroot : ¬ (text.toList = [] ∨ text.toList = ['.']) := by
    rintro (hnil | hdot)
    · exact h (.inl (String.toList_eq_nil_iff.mp hnil))
    · exact h (.inr (String.ext hdot))
  exact if_neg hroot

/-- Segments that stand for indices are the pieces of the text that they are joined to. -/
theorem pieces_of_denotes {segments : List (List Char)} (hne : segments ≠ [])
    (htext : text.toList = List.intercalate ['.'] segments)
    (h : List.Forall₂ Denotes segments path) : Text.pieces '.' text.toList = segments := by
  have hdots : ∀ segment ∈ segments, '.' ∉ segment :=
    ((List.forall₂_and_left segments path).mp (h.imp fun _ _ hd => ⟨hd.dot_not_mem, hd⟩)).1
  rw [htext, Text.pieces_intercalate hne hdots]

/-- What is read as a path. -/
theorem parse_eq_ok_iff :
    parse text = .ok path ↔
      (text = "" ∨ text = ".") ∧ path = [] ∨
        ∃ segments, segments ≠ [] ∧ text.toList = List.intercalate ['.'] segments ∧
          List.Forall₂ Denotes segments path := by
  by_cases hroot : text = "" ∨ text = "."
  · rw [parse_of_root hroot]
    constructor
    · intro h
      exact .inl ⟨hroot, (Except.ok.inj h).symm⟩
    · rintro (⟨-, rfl⟩ | ⟨segments, hne, htext, h⟩)
      · rfl
      · -- the text of the root has an empty piece, which stands for no index
        have hnonempty : ∀ segment ∈ segments, segment ≠ [] :=
          ((List.forall₂_and_left segments path).mp (h.imp fun _ _ hd => ⟨hd.ne_nil, hd⟩)).1
        have hpieces := pieces_of_denotes hne htext h
        have hempty : [] ∈ Text.pieces '.' text.toList := by
          rcases hroot with rfl | rfl <;> decide
        rw [hpieces] at hempty
        exact absurd rfl (hnonempty [] hempty)
  · rw [parse_of_not_root hroot, mapM_eq_ok_iff]
    simp only [parseSegment_eq_ok_iff]
    constructor
    · intro h
      exact .inr ⟨_, Text.pieces_ne_nil _ _, (Text.intercalate_pieces _ _).symm, h⟩
    · rintro (⟨h, -⟩ | ⟨segments, hne, htext, h⟩)
      · exact absurd h hroot
      · rw [pieces_of_denotes hne htext h]
        exact h

/-- What is reported about any other text: the first of its pieces that stands for nothing. -/
theorem parse_eq_error_iff :
    parse text = .error error ↔
      text ≠ "" ∧ text ≠ "." ∧
        ∃ before bad after, text.toList = List.intercalate ['.'] (before ++ bad :: after) ∧
          (∀ segment ∈ before ++ bad :: after, '.' ∉ segment) ∧
          (∀ segment ∈ before, ∃ index, Denotes segment index) ∧ IsFaulty bad error := by
  by_cases hroot : text = "" ∨ text = "."
  · rw [parse_of_root hroot]
    constructor
    · intro h
      cases h
    · rintro ⟨hempty, hdot, -⟩
      exact absurd hroot (not_or.mpr ⟨hempty, hdot⟩)
  · rw [parse_of_not_root hroot, mapM_eq_error_iff]
    simp only [parseSegment_eq_ok_iff, parseSegment_eq_error_iff]
    constructor
    · rintro ⟨before, bad, after, hpieces, hbefore, hbad⟩
      refine ⟨fun h => hroot (.inl h), fun h => hroot (.inr h), before, bad, after, ?_, ?_, hbefore,
        hbad⟩
      · rw [← hpieces, Text.intercalate_pieces]
      · intro segment hsegment
        exact Text.not_mem_of_mem_pieces (hpieces ▸ hsegment)
    · rintro ⟨-, -, before, bad, after, htext, hdots, hbefore, hbad⟩
      refine ⟨before, bad, after, ?_, hbefore, hbad⟩
      rw [htext, Text.pieces_intercalate (by simp) hdots]

/-- A path is read back from its text. -/
theorem parse_render (h : ∀ index ∈ path, index < 2 ^ 64) : parse path.render = .ok path := by
  by_cases hpath : path = []
  · subst hpath
    rfl
  · apply parse_eq_ok_iff.mpr
    refine .inr ⟨path.map Decimal.digits, by simpa using hpath, ?_, ?_⟩
    · rw [render, if_neg hpath, String.toList_ofList]
    · rw [List.forall₂_map_left_iff, List.forall₂_same]
      intro index hindex
      exact denotes_digits (h index hindex)

/-- Every index of a path that has been read fits into 64 bits. -/
theorem lt_of_parse (h : parse text = .ok path) : ∀ index ∈ path, index < 2 ^ 64 := by
  rcases parse_eq_ok_iff.mp h with ⟨-, rfl⟩ | ⟨segments, -, -, h⟩
  · exact fun _ hindex => absurd hindex List.not_mem_nil
  · have hflip : List.Forall₂ (flip Denotes) path segments := h.flip
    exact ((List.forall₂_and_left path segments).mp (hflip.imp fun _ _ hd => ⟨Denotes.lt hd, hd⟩)).1

/-- Paths and their texts. Every path of 64-bit indices is read back from the text that it is
written as. The texts that are read as a path are the empty one and the dot, which are the root, and
those that are made of one or more segments with dots between them, where each segment stands for
the index at its place. Of any other text the first segment that stands for nothing is reported.
Whatever has been read as a path is read as the same path once it has been written. -/
theorem parse_exact (text : String) (path : Path) :
    ((∀ index ∈ path, index < 2 ^ 64) → parse path.render = .ok path) ∧
    (parse text = .ok path ↔
      (text = "" ∨ text = ".") ∧ path = [] ∨
        ∃ segments, segments ≠ [] ∧ text.toList = List.intercalate ['.'] segments ∧
          List.Forall₂ Denotes segments path) ∧
    (∀ error, parse text = .error error ↔
      text ≠ "" ∧ text ≠ "." ∧
        ∃ before bad after, text.toList = List.intercalate ['.'] (before ++ bad :: after) ∧
          (∀ segment ∈ before ++ bad :: after, '.' ∉ segment) ∧
          (∀ segment ∈ before, ∃ index, Denotes segment index) ∧ IsFaulty bad error) ∧
    (parse text = .ok path → parse path.render = .ok path) := by
  refine ⟨parse_render, parse_eq_ok_iff, fun _ => parse_eq_error_iff, ?_⟩
  intro h
  exact parse_render (lt_of_parse h)

end Path

end SourceEvolution
