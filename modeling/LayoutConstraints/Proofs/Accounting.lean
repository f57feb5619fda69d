import LayoutConstraints.Proofs.Toggling
import Mathlib.Algebra.GroupWithZero.Nat

/-!
# The account of a whole session

What an engine and the counters show at any point of a session can be told
from the instructions and their answers so far. The layouts that were
installed and the saved sets that were activated are the batches, each
counted once, be it empty or not. Each element has been prepared as often as
it stands in the lists that these layouts laid out. Nothing comes into force
but what some batch has brought.

A layout that was only compiled, or that failed, is on no account, and
dropping a set counts as nothing.

**Results.** `Session.step_account` for one instruction and from it
`Session.run_batches`, `Session.run_prepared` for many;
`Batch.length_commitAll_le` for what is in force. Together they make
`Session.whole_account`.
-/
namespace LayoutConstraints

/-! ## What is in force -/

namespace Engine

variable {ε : Type} [BEq ε]

theorem length_take_le (active batch : List (Constraint ε)) :
    (take active batch).length ≤ active.length + batch.length := by
  obtain ⟨added, hadded, hsub⟩ := take_eq_append active batch
  rw [hadded, List.length_append]
  exact Nat.add_le_add_left hsub.length_le _

end Engine

namespace Batch

variable {ε : Type} [BEq ε]

theorem length_commit_le (active : List (Constraint ε)) (b : Batch ε) :
    (commit active b).length ≤ active.length + b.activated.length := by
  unfold commit activated
  split
  · exact Engine.length_take_le active b.constraints
  · exact List.length_filter_le ..

theorem length_commitAll_le (active : List (Constraint ε)) (batches : List (Batch ε)) :
    (batches.foldl commit active).length ≤
      active.length + (batches.map fun b => b.activated.length).sum := by
  induction batches generalizing active with
  | nil => exact Nat.le_refl _
  | cons b batches ih =>
    have hrest := ih (commit active b)
    have hone := length_commit_le active b
    rw [List.foldl_cons, List.map_cons, List.sum_cons]
    omega

end Batch

/-! ## What was done -/

/-- The layout that an instruction with this outcome has installed. -/
def Instruction.installed? (i : Instruction) (outcome : Outcome) : Option Layout :=
  match i, outcome with
  | .apply layout _ _, .compiled _ (.ok _) => some layout
  | _, _ => none

def Instruction.isActivation : Instruction → Bool
  | activate .. => true
  | _ => false

/-- The layouts that instructions so answered have installed, in order. -/
def installedLayouts (is : List Instruction) (answers : List Answer) : List Layout :=
  (is.zip answers).filterMap fun done => done.1.installed? done.2.outcome

theorem installedLayouts_cons (i : Instruction) (is : List Instruction) (a : Answer)
    (answers : List Answer) :
    installedLayouts (i :: is) (a :: answers) =
      (i.installed? a.outcome).toList ++ installedLayouts is answers := by
  rw [installedLayouts, List.zip_cons_cons, List.filterMap_cons]
  cases i.installed? a.outcome <;> rfl

namespace Session

/-- What one instruction adds to the batches and to the counters. -/
theorem step_account (logged : Bool) (s : Session) (i : Instruction) :
    let mode : Mode := ⟨false, logged⟩
    let installed? := i.installed? (s.step mode i).2.outcome
    (s.step mode i).1.engine.batches =
        s.engine.batches + (installed?.toList.length + if i.isActivation then 1 else 0) ∧
      ∀ name, (s.step mode i).1.prepared name =
        s.prepared name + (installed?.toList.map fun layout => layout.laidOut.count name).sum := by
  intro mode installed?
  cases i with
  | store | reparent | count => exact ⟨rfl, fun name => rfl⟩
  | activate sets route | deactivate sets route =>
    simp only [step, perform, Route.reach_eq]
    exact ⟨rfl, fun name => rfl⟩
  | compile layout save? =>
    obtain ⟨hengine, hprepared, -⟩ := step_compile s mode layout save?
    rw [hengine, hprepared]
    exact ⟨rfl, fun name => rfl⟩
  | apply layout save? route =>
    cases h : (layout.compile s).1.result with
    | error f =>
      have hstep : s.step mode (.apply layout save? route) = s.step mode (.compile layout save?) := by
        simp only [step, perform_apply_error h]
      obtain ⟨hengine, hprepared, -⟩ := step_compile s mode layout save?
      have hnone : installed? = none := by
        simp only [installed?, hstep]
        simp only [step, perform_compile, h, Instruction.installed?]
      rw [hstep, hengine, hprepared, hnone]
      exact ⟨rfl, fun name => rfl⟩
    | ok cs =>
      have hsome : installed? = some layout := by
        simp only [installed?, step, perform_apply_ok h, Instruction.installed?]
      rw [hsome]
      simp only [step, perform_apply_ok h, save_engine, save_prepared]
      exact ⟨rfl, fun name => rfl⟩

/-! ## Whole sessions -/

theorem run_batches (logged : Bool) (s : Session) (before after : List Instruction) :
    (s.run ⟨false, logged⟩ before).1.engine.batches =
      s.engine.batches +
        ((installedLayouts before (s.run ⟨false, logged⟩ (before ++ after)).2).length +
          before.countP Instruction.isActivation) := by
  induction before generalizing s with
  | nil => rfl
  | cons i before ih =>
    have hstep := (step_account logged s i).1
    simp only [List.cons_append, run, installedLayouts_cons, List.length_append, List.countP_cons,
      ih, hstep]
    omega

theorem run_prepared (logged : Bool) (s : Session) (before after : List Instruction)
    (name : String) :
    (s.run ⟨false, logged⟩ before).1.prepared name =
      s.prepared name +
        ((installedLayouts before (s.run ⟨false, logged⟩ (before ++ after)).2).map
          fun layout => layout.laidOut.count name).sum := by
  induction before generalizing s with
  | nil => rfl
  | cons i before ih =>
    have hstep := (step_account logged s i).2 name
    simp only [List.cons_append, run, installedLayouts_cons, List.map_append, List.sum_append,
      ih, hstep, Nat.add_assoc]

/-- **The account of a session.** At any point of a session whose elements are
prepared, the engine has been given one batch for each layout installed so
far and each activation of saved sets; an element has been prepared as often
as it occurs among the elements these layouts laid out; and there are no more
constraints in force than in all batches that were taken up. -/
theorem whole_account (nodes : List (String × Option String)) (logged : Bool)
    (before after : List Instruction) :
    let mode : Mode := ⟨false, logged⟩
    let s := ((ofTree nodes).run mode before).1
    let answers := ((ofTree nodes).run mode (before ++ after)).2
    let installed := installedLayouts before answers
    let batches := (ofTree nodes).batches mode before
    s.engine.batches = installed.length + before.countP Instruction.isActivation ∧
      (∀ name, s.prepared name = (installed.map fun layout => layout.laidOut.count name).sum) ∧
      s.engine.active.length ≤ (batches.map fun b => b.activated.length).sum := by
  intro mode s answers installed batches
  have hbatches := run_batches logged (ofTree nodes) before after
  have hactive := Batch.length_commitAll_le (ofTree nodes).engine.active batches
  refine ⟨?_, fun name => ?_, ?_⟩
  · rwa [show (ofTree nodes).engine.batches = 0 from rfl, Nat.zero_add] at hbatches
  · have hprepared := run_prepared logged (ofTree nodes) before after name
    rwa [show (ofTree nodes).prepared name = 0 from rfl, Nat.zero_add] at hprepared
  · rw [← run_active, show (ofTree nodes).engine.active.length = 0 from rfl, Nat.zero_add] at hactive
    exact hactive

/-- A chain that lists its last element twice, an empty batch, a layout that
fails and a set dropped: three batches, two preparations, nothing in force. -/
example :
    let edge : List (Draft String) := [.start (.single .top)]
    let is := [Instruction.apply (.chained ["view", "label", "label"] [.start (.single .top)] [])
        (some "edges") .direct,
      .apply (.all [] edge) none .forwarded, .apply (.all ["label", "view"] edge) none .direct,
      .activate ["none", "edges"] .dispatched, .deactivate ["edges"] .direct]
    let s := ((ofTree [("view", none), ("label", some "view")]).run ⟨false, true⟩ is).1
    s.engine.batches = 3 ∧ s.prepared "label" = 2 ∧ s.prepared "view" = 0 ∧
      s.engine.active.length = 0 := by
  decide

end Session

end LayoutConstraints
