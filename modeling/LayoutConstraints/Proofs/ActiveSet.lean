import LayoutConstraints.Engine
import LayoutConstraints.Proofs.Equality

/-!
# What taking up and dropping do to the active constraints

The active constraints are a list kept up to equality. What matters of it
is which constraints it holds an equal of, and there a batch acts as a set
would: taking it up adds its constraints, dropping it removes them. This
needs equality to be symmetric and transitive, since the constraint that is
kept may only be equal to the one that was handed over.

A constraint that holds a NaN escapes this. It equals none, so it is taken
up each time it is handed over and no batch drops it.

**Results.** `take_eq_append`: taking up appends. `holds_take`, `holds_drop`
for the constraints that equal something, `filter_holdsNaN_take`,
`filter_holdsNaN_drop` for those that equal nothing.
-/
namespace LayoutConstraints

namespace Engine

variable {ε : Type} [BEq ε] {active batch : List (Constraint ε)} {c x y : Constraint ε}

theorem holds_iff : holds active x = true ↔ ∃ a ∈ active, (a == x) = true := by
  simp only [holds, List.any_eq_true]

theorem holds_cons : holds (c :: batch) x = (c == x || holds batch x) := List.any_cons

theorem take_cons (active : List (Constraint ε)) (c : Constraint ε) (batch : List (Constraint ε)) :
    take active (c :: batch) = take (takeOne active c) batch := rfl

/-- Nothing in force is touched, and what is new keeps its order. -/
theorem take_eq_append (active batch : List (Constraint ε)) :
    ∃ added, take active batch = active ++ added ∧ added.Sublist batch := by
  induction batch generalizing active with
  | nil => exact ⟨[], (List.append_nil _).symm, .refl _⟩
  | cons c batch ih =>
    obtain ⟨added, hadded, hsub⟩ := ih (takeOne active c)
    rw [take_cons, hadded]
    unfold takeOne
    split
    · exact ⟨added, rfl, hsub.cons c⟩
    · exact ⟨c :: added, List.append_assoc .., hsub.cons_cons c⟩

variable [EquivBEq ε]

/-! ## Constraints that equal something -/

theorem holds_congr (h : (x == y) = true) : holds active x = holds active y := by
  unfold holds
  congr 1
  funext a
  exact BEq.congr_right h

theorem holds_takeOne : holds (takeOne active c) x = (holds active x || c == x) := by
  unfold takeOne
  split
  · next hc =>
    -- the constraint already active stands in for the one handed over
    by_cases hx : (c == x) = true
    · rw [← holds_congr hx, hc, Bool.true_or]
    · rw [Bool.not_eq_true] at hx
      rw [hx, Bool.or_false]
  · simp only [holds, List.any_append, List.any_cons, List.any_nil, Bool.or_false]

theorem holds_take (active batch : List (Constraint ε)) (x : Constraint ε) :
    holds (take active batch) x = (holds active x || holds batch x) := by
  induction batch generalizing active with
  | nil => simp [take, holds]
  | cons c batch ih =>
    rw [take_cons, ih, holds_takeOne, holds_cons, Bool.or_assoc]

/-- Equal constraints are dropped together. -/
theorem holds_drop (active batch : List (Constraint ε)) (x : Constraint ε) :
    holds (drop active batch) x = (holds active x && !holds batch x) := by
  rw [Bool.eq_iff_iff, Bool.and_eq_true, Bool.not_eq_true', holds_iff, holds_iff]
  simp only [drop, List.mem_filter, Bool.not_eq_true']
  constructor
  · rintro ⟨a, ⟨ha, hkept⟩, hax⟩
    exact ⟨⟨a, ha, hax⟩, by rw [← holds_congr hax, hkept]⟩
  · rintro ⟨⟨a, ha, hax⟩, hkept⟩
    exact ⟨a, ⟨ha, by rw [holds_congr hax, hkept]⟩, hax⟩

/-- What has been handed over is active, unless it holds a NaN. -/
theorem holds_take_of_mem (hmem : c ∈ batch) (hc : c.holdsNaN = false) :
    holds (take active batch) c = true := by
  have hbatch : holds batch c = true := holds_iff.2 ⟨c, hmem, Constraint.beq_self_iff.2 hc⟩
  rw [holds_take, hbatch, Bool.or_true]

/-! ## Constraints that equal nothing -/

theorem holds_of_holdsNaN (h : x.holdsNaN = true) : holds active x = false := by
  rw [Bool.eq_false_iff]
  intro hx
  obtain ⟨a, -, hax⟩ := holds_iff.1 hx
  rw [Constraint.holdsNaN_of_beq (BEq.symm hax)] at h
  cases h

theorem filter_holdsNaN_takeOne :
    (takeOne active c).filter Constraint.holdsNaN =
      active.filter Constraint.holdsNaN ++ [c].filter Constraint.holdsNaN := by
  unfold takeOne
  split
  · next hc =>
    have hnan : c.holdsNaN = false := by
      rw [Bool.eq_false_iff]
      intro h
      rw [holds_of_holdsNaN h] at hc
      cases hc
    simp [hnan]
  · rw [List.filter_append]

theorem filter_holdsNaN_take (active batch : List (Constraint ε)) :
    (take active batch).filter Constraint.holdsNaN =
      active.filter Constraint.holdsNaN ++ batch.filter Constraint.holdsNaN := by
  induction batch generalizing active with
  | nil => simp [take]
  | cons c batch ih =>
    rw [take_cons, ih, filter_holdsNaN_takeOne, List.append_assoc, ← List.filter_append,
      List.singleton_append]

theorem filter_holdsNaN_drop (active batch : List (Constraint ε)) :
    (drop active batch).filter Constraint.holdsNaN = active.filter Constraint.holdsNaN := by
  rw [drop, List.filter_filter]
  refine List.filter_congr fun a _ => ?_
  by_cases h : a.holdsNaN = true
  · rw [holds_of_holdsNaN h, h]
    rfl
  · rw [Bool.not_eq_true] at h
    rw [h, Bool.false_and]

end Engine

end LayoutConstraints
