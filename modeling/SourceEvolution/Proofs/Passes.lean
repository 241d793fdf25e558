import Mathlib.Data.List.Forall2

/-!
# Computations that may fail

A computation in steps comes to its end if every step does, and otherwise the first step that fails
is reported.

* **Two steps** (`Except.bind_eq_ok_iff`, `Except.bind_eq_error_iff`): the second is made with the
  outcome of the first.
* **Passes** (`mapM_eq_ok_iff`, `mapM_eq_error_iff`): the items of a list are read one after the
  other.
-/

namespace SourceEvolution

variable {α β ε : Type} {error : ε}

/-! ## Two steps -/

section steps

variable {first : Except ε α} {second : α → Except ε β}

theorem Except.bind_eq_ok_iff {outcome : β} :
    (first >>= second) = .ok outcome ↔
      ∃ between, first = .ok between ∧ second between = .ok outcome := by
  cases first <;> simp [bind, Except.bind]

theorem Except.bind_eq_error_iff :
    (first >>= second) = .error error ↔
      first = .error error ∨ ∃ between, first = .ok between ∧ second between = .error error := by
  cases first <;> simp [bind, Except.bind]

end steps

/-! ## Passes -/

section pass

variable {read : α → Except ε β} {xs : List α}

/-- All items can be read. -/
theorem mapM_eq_ok_iff {ys : List β} :
    xs.mapM read = .ok ys ↔ List.Forall₂ (fun x y => read x = .ok y) xs ys := by
  induction xs generalizing ys with
  | nil =>
    rw [List.mapM_nil, List.forall₂_nil_left_iff]
    exact ⟨fun h => (Except.ok.inj h).symm, fun h => congrArg Except.ok h.symm⟩
  | cons x xs ih =>
    simp only [List.mapM_cons, Except.bind_eq_ok_iff, ih, List.forall₂_cons_left_iff]
    constructor
    · rintro ⟨y, hread, rest, hrest, hys⟩
      exact ⟨y, rest, hread, hrest, (Except.ok.inj hys).symm⟩
    · rintro ⟨y, rest, hread, hrest, rfl⟩
      exact ⟨y, hread, rest, hrest, rfl⟩

/-- The first item that cannot be read is reported. -/
theorem mapM_eq_error_iff :
    xs.mapM read = .error error ↔
      ∃ before bad after, xs = before ++ bad :: after ∧ (∀ x ∈ before, ∃ y, read x = .ok y) ∧
        read bad = .error error := by
  induction xs with
  | nil => simp [pure, Except.pure]
  | cons x xs ih =>
    rw [List.mapM_cons, Except.bind_eq_error_iff]
    constructor
    · rintro (hread | ⟨y, hread, hrest⟩)
      · -- the very first item is the one
        exact ⟨[], x, xs, rfl, by simp, hread⟩
      · rcases Except.bind_eq_error_iff.mp hrest with hrest | ⟨rest, -, hpure⟩
        · obtain ⟨before, bad, after, rfl, hbefore, hbad⟩ := ih.mp hrest
          refine ⟨x :: before, bad, after, rfl, ?_, hbad⟩
          exact List.forall_mem_cons.mpr ⟨⟨y, hread⟩, hbefore⟩
        · cases hpure
    · rintro ⟨before, bad, after, heq, hbefore, hbad⟩
      cases before with
      | nil =>
        obtain ⟨rfl, rfl⟩ := List.cons.inj heq
        exact .inl hbad
      | cons first before =>
        obtain ⟨rfl, rfl⟩ := List.cons.inj heq
        obtain ⟨⟨y, hread⟩, hbefore⟩ := List.forall_mem_cons.mp hbefore
        have hrest := ih.mpr ⟨before, bad, after, rfl, hbefore, hbad⟩
        exact .inr ⟨y, hread, Except.bind_eq_error_iff.mpr (.inl hrest)⟩

end pass

end SourceEvolution
