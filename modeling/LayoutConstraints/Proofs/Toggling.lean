import LayoutConstraints.Proofs.Installing
import Mathlib.Data.List.Basic
import Mathlib.Data.List.Induction

/-!
# The last batch that mentions a constraint decides

What a session hands to the sink is a sequence of batches, each taken up or
dropped: the constraints of a layout that was installed, and saved sets
activated or deactivated later. Batches overlap, and a constraint of one may
be equal to one of another without being the same.

Whether an equal of a constraint is active is settled by the last batch
that contains an equal of it. The invariant of the induction over the
batches is `Engine.holds`, which a batch overwrites for the constraints it
mentions and leaves alone for all others. A constraint that holds a NaN is
mentioned by no batch in this sense; such constraints pile up, in the order
in which they were handed over.

**Results.** `Session.run_active`: the engine of a session is its batches
committed in turn, failures and all other instructions leaving no trace.
`holds_commitAll_iff`, `filter_holdsNaN_commitAll`: what batches committed
in turn make active. Together they make `Session.active_iff_last_batch`.
-/
namespace LayoutConstraints

/-! ## Batches -/

/-- A batch handed to the sink, to be taken up or else dropped. -/
structure Batch (ε : Type) where
  activation : Bool
  constraints : List (Constraint ε)

namespace Batch

variable {ε : Type}

/-- The constraints a batch asks to be taken up. -/
def activated (b : Batch ε) : List (Constraint ε) := if b.activation then b.constraints else []

/-- A member of a list with one more at its end is that one, or comes before it. -/
theorem concat_split {batches earlier later : List (Batch ε)} {b d : Batch ε}
    (h : batches ++ [b] = earlier ++ d :: later) :
    batches = earlier ∧ b = d ∧ later = [] ∨
      ∃ between, batches = earlier ++ d :: between ∧ later = between ++ [b] := by
  rcases List.eq_nil_or_concat' later with rfl | ⟨between, e, rfl⟩
  · obtain ⟨hinit, hlast⟩ := List.append_singleton_inj.1 h
    exact .inl ⟨hinit, hlast, rfl⟩
  · rw [← List.cons_append, ← List.append_assoc, List.append_singleton_inj] at h
    exact .inr ⟨between, h.1, by rw [h.2]⟩

variable [BEq ε]

/-- Whether the batch contains an equal of a constraint. -/
def Mentions (b : Batch ε) (x : Constraint ε) : Prop := ∃ c ∈ b.constraints, (c == x) = true

def commit (active : List (Constraint ε)) (b : Batch ε) : List (Constraint ε) :=
  if b.activation then Engine.take active b.constraints else Engine.drop active b.constraints

/-- Some batch mentions the constraint, and the last that does takes it up. -/
def LastActivates (x : Constraint ε) (batches : List (Batch ε)) : Prop :=
  ∃ earlier b later, batches = earlier ++ b :: later ∧
    b.Mentions x ∧ (∀ d ∈ later, ¬ d.Mentions x) ∧ b.activation = true

variable {batches : List (Batch ε)} {b : Batch ε} {x : Constraint ε}

theorem not_lastActivates_nil : ¬ LastActivates x [] := by
  rintro ⟨earlier, b, later, hsplit, -⟩
  cases earlier <;> cases hsplit

theorem lastActivates_concat_of_mentions (h : b.Mentions x) :
    LastActivates x (batches ++ [b]) ↔ b.activation = true := by
  constructor
  · rintro ⟨earlier, d, later, hsplit, -, hlater, hd⟩
    rcases concat_split hsplit with ⟨-, rfl, -⟩ | ⟨between, -, rfl⟩
    · exact hd
    · exact absurd h (hlater b (List.mem_append_right _ List.mem_cons_self))
  · intro hb
    exact ⟨batches, b, [], rfl, h, by simp, hb⟩

theorem lastActivates_concat_of_not_mentions (h : ¬ b.Mentions x) :
    LastActivates x (batches ++ [b]) ↔ LastActivates x batches := by
  constructor
  · rintro ⟨earlier, d, later, hsplit, hdx, hlater, hd⟩
    rcases concat_split hsplit with ⟨-, rfl, -⟩ | ⟨between, hinit, rfl⟩
    · exact absurd hdx h
    · exact ⟨earlier, d, between, hinit, hdx, fun c hc => hlater c (List.mem_append_left _ hc), hd⟩
  · rintro ⟨earlier, d, later, rfl, hdx, hlater, hd⟩
    refine ⟨earlier, d, later ++ [b], by simp, hdx, ?_, hd⟩
    intro c hc
    rcases List.mem_append.1 hc with hc | hc
    · exact hlater c hc
    · rw [List.mem_singleton.1 hc]
      exact h

/-! ## Batches committed in turn -/

variable [EquivBEq ε]

/-- A batch settles what it mentions and leaves all else as it was. -/
theorem holds_commit (active : List (Constraint ε)) (b : Batch ε) (x : Constraint ε) :
    Engine.holds (commit active b) x =
      if Engine.holds b.constraints x then b.activation else Engine.holds active x := by
  unfold commit
  cases b.activation with
  | true =>
    rw [if_pos rfl, Engine.holds_take]
    cases Engine.holds b.constraints x <;> simp
  | false =>
    rw [if_neg (by simp), Engine.holds_drop]
    cases Engine.holds b.constraints x <;> simp

theorem holds_commitAll_iff :
    Engine.holds (batches.foldl commit []) x = true ↔ LastActivates x batches := by
  -- From the end: the last batch decides if it mentions `x`, else those before it do.
  induction batches using List.reverseRecOn with
  | nil => simp [Engine.holds, not_lastActivates_nil]
  | append_singleton batches b ih =>
    rw [List.foldl_append, List.foldl_cons, List.foldl_nil]
    by_cases h : b.Mentions x
    · rw [holds_commit, if_pos (Engine.holds_iff.2 h), lastActivates_concat_of_mentions h]
    · rw [holds_commit, if_neg (mt Engine.holds_iff.1 h),
        lastActivates_concat_of_not_mentions h, ih]

theorem filter_holdsNaN_commit (active : List (Constraint ε)) (b : Batch ε) :
    (commit active b).filter Constraint.holdsNaN =
      active.filter Constraint.holdsNaN ++ b.activated.filter Constraint.holdsNaN := by
  unfold commit activated
  cases b.activation with
  | true => exact Engine.filter_holdsNaN_take active b.constraints
  | false => simpa using Engine.filter_holdsNaN_drop active b.constraints

theorem filter_holdsNaN_commitAll (active : List (Constraint ε)) (batches : List (Batch ε)) :
    (batches.foldl commit active).filter Constraint.holdsNaN =
      active.filter Constraint.holdsNaN ++
        (batches.flatMap activated).filter Constraint.holdsNaN := by
  induction batches generalizing active with
  | nil => simp
  | cons b batches ih =>
    rw [List.foldl_cons, ih, filter_holdsNaN_commit, List.flatMap_cons, List.filter_append,
      List.append_assoc]

end Batch

/-! ## Sessions -/

namespace Session

/-- What an instruction that ended in `outcome` handed to the sink: a layout
that was installed the constraints it returned, and otherwise saved sets one
after another. -/
def handed (s : Session) (outcome : Outcome) : Instruction → List (Batch String)
  | .apply _ _ _ =>
    match outcome with
    | .compiled _ (.ok cs) => [⟨true, cs⟩]
    | _ => []
  | .activate sets _ => [⟨true, s.savedAll sets⟩]
  | .deactivate sets _ => [⟨false, s.savedAll sets⟩]
  | _ => []

/-- The batches of a session, in order. -/
def batches (mode : Mode) (s : Session) : List Instruction → List (Batch String)
  | [] => []
  | i :: is => s.handed (s.step mode i).2.outcome i ++ (s.step mode i).1.batches mode is

theorem step_active (mode : Mode) (s : Session) (i : Instruction) :
    (s.step mode i).1.engine.active =
      (s.handed (s.step mode i).2.outcome i).foldl Batch.commit s.engine.active := by
  cases i with
  | store name draft => rfl
  | reparent element container? => rfl
  | count sets => rfl
  | compile layout save? => exact congrArg Engine.active (step_compile s mode layout save?).1
  | activate sets route =>
    simp only [step, perform, Route.reach_eq]
    rfl
  | deactivate sets route =>
    simp only [step, perform, Route.reach_eq]
    rfl
  | apply layout save? route =>
    cases h : (s.step mode (.apply layout save? route)).2.outcome with
    | done => cases h
    | counted hits all => cases h
    | compiled asked? result =>
      cases result with
      | error f =>
        rw [(step_failed h).1]
        rfl
      | ok cs =>
        rw [(step_apply_ok h).1]
        rfl

theorem run_active (mode : Mode) (s : Session) (is : List Instruction) :
    (s.run mode is).1.engine.active = (s.batches mode is).foldl Batch.commit s.engine.active := by
  induction is generalizing s with
  | nil => rfl
  | cons i is ih => rw [batches, List.foldl_append, ← step_active, ← ih, run]

/-- **The last mention decides.** After any instructions, an equal of a
constraint is active if and only if some batch so far contained an equal of
it and the last batch that did was taken up. The active constraints that
hold a NaN are those of all the batches taken up so far, each as often as
it was handed over. -/
theorem active_iff_last_batch (nodes : List (String × Option String)) (mode : Mode)
    (is : List Instruction) :
    (∀ x, (∃ a ∈ ((ofTree nodes).run mode is).1.engine.active, (a == x) = true) ↔
      Batch.LastActivates x ((ofTree nodes).batches mode is)) ∧
    ((ofTree nodes).run mode is).1.engine.active.filter Constraint.holdsNaN =
      (((ofTree nodes).batches mode is).flatMap Batch.activated).filter Constraint.holdsNaN := by
  rw [run_active]
  refine ⟨fun x => ?_, Batch.filter_holdsNaN_commitAll _ _⟩
  rw [← Engine.holds_iff]
  exact Batch.holds_commitAll_iff

end Session

end LayoutConstraints
