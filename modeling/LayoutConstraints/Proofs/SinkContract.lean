import LayoutConstraints.Proofs.Reparenting
import LayoutConstraints.Proofs.Withdrawal

/-!
# What is relied on of a sink

Layouts are installed and withdrawn in the belief that a sink treats a batch
as a set: that it makes no difference to hand over a constraint twice, or a
batch in another order. `Sink.Contract` spells this out. The engine meets it
where constraints equal themselves. One that holds a NaN does not, and is taken up
again each time, so what is said of taking up twice leaves it out.

What is in force is still a list, and order does make a difference to it.
Of constraints that equal each other the first to come is the one that
stays. So two orders of a batch may leave different constraints in force, but
as many, and equals of the same ones (`Engine.Matches`).

**Results.** `Engine.take_of_holds`: what is held already is not taken up.
`Engine.matches_take_perm`, `Engine.drop_perm`: the order of a batch.
`Engine.contract`, `Sink.Contract.seen`: the contract of the engine, and of a
sink that has it inside. Together they make `sink_contract`.
-/
namespace LayoutConstraints

variable {ε σ τ : Type}

/-! ## The contract -/

/-- As many constraints, and equals of the same ones. -/
structure Engine.Matches [BEq ε] (active other : List (Constraint ε)) : Prop where
  length : active.length = other.length
  holds : ∀ x, holds active x = holds other x

/-- What is relied on of a sink, of whose state `active` shows what is in
force. -/
structure Sink.Contract [BEq ε] (sink : Sink ε σ) (active : σ → List (Constraint ε)) :
    Prop where
  activate_twice : ∀ s rs, (∀ c ∈ rs, c.holdsNaN = false) →
    active (sink.activate rs (sink.activate rs s)) = active (sink.activate rs s)
  deactivate_twice : ∀ s rs,
    active (sink.deactivate rs (sink.deactivate rs s)) = active (sink.deactivate rs s)
  activate_perm : ∀ s (rs rs' : List (Constraint ε)), rs.Perm rs' →
    Engine.Matches (active (sink.activate rs s)) (active (sink.activate rs' s))
  deactivate_perm : ∀ s (rs rs' : List (Constraint ε)), rs.Perm rs' →
    active (sink.deactivate rs s) = active (sink.deactivate rs' s)
  /-- What is new stands at the end, in the order in which it was handed over. -/
  activate_appends : ∀ s rs, ∃ added, active (sink.activate rs s) = active s ++ added ∧
    added.Sublist rs
  /-- What stays keeps its order, and it is what equals nothing in the batch. -/
  deactivate_keeps : ∀ s rs, (active (sink.deactivate rs s)).Sublist (active s) ∧
    ∀ c, c ∈ active (sink.deactivate rs s) ↔ c ∈ active s ∧ ∀ d ∈ rs, (d == c) = false
  restored : ∀ s rs x, Engine.holds (active (sink.activate rs (sink.deactivate rs s))) x =
    (Engine.holds (active s) x || Engine.holds rs x)

/-- The engine as a sink. -/
def Engine.sink [BEq ε] : Sink ε (Engine ε) where
  activate := activate
  deactivate := deactivate

/-- A sink that is seen to do what another does meets the same contract. -/
theorem Sink.Contract.seen [BEq ε] {sink : Sink ε σ} {outer : Sink ε τ}
    {active : σ → List (Constraint ε)} (h : sink.Contract active) (view : τ → σ)
    (hactivate : ∀ rs t, view (outer.activate rs t) = sink.activate rs (view t))
    (hdeactivate : ∀ rs t, view (outer.deactivate rs t) = sink.deactivate rs (view t)) :
    outer.Contract fun t => active (view t) where
  activate_twice t rs hrs := by
    rw [hactivate, hactivate]
    exact h.activate_twice (view t) rs hrs
  deactivate_twice t rs := by
    rw [hdeactivate, hdeactivate]
    exact h.deactivate_twice (view t) rs
  activate_perm t rs rs' hperm := by
    rw [hactivate, hactivate]
    exact h.activate_perm (view t) rs rs' hperm
  deactivate_perm t rs rs' hperm := by
    rw [hdeactivate, hdeactivate]
    exact h.deactivate_perm (view t) rs rs' hperm
  activate_appends t rs := by
    rw [hactivate]
    exact h.activate_appends (view t) rs
  deactivate_keeps t rs := by
    rw [hdeactivate]
    exact h.deactivate_keeps (view t) rs
  restored t rs x := by
    rw [hactivate, hdeactivate]
    exact h.restored (view t) rs x

/-! ## The engine -/

namespace Engine

variable [BEq ε] {active other batch batch' : List (Constraint ε)} {c d x : Constraint ε}

/-! ### Once and again -/

/-- What is held already is not taken up. -/
theorem take_of_holds (h : ∀ c ∈ batch, holds active c = true) : take active batch = active := by
  induction batch with
  | nil => rfl
  | cons c batch ih =>
    have hone : takeOne active c = active := if_pos (h c List.mem_cons_self)
    rw [take_cons, hone]
    exact ih fun d hd => h d (List.mem_cons_of_mem c hd)

theorem take_take [EquivBEq ε] (h : ∀ c ∈ batch, c.holdsNaN = false) :
    take (take active batch) batch = take active batch :=
  take_of_holds fun c hc => holds_take_of_mem hc (h c hc)

theorem drop_drop (active batch : List (Constraint ε)) :
    drop (drop active batch) batch = drop active batch := by
  simp only [drop, List.filter_filter, Bool.and_self]

/-- Dropped and taken up again, the constraints of a batch are in force. -/
theorem holds_take_drop [EquivBEq ε] (active batch : List (Constraint ε)) (x : Constraint ε) :
    holds (take (drop active batch) batch) x = (holds active x || holds batch x) := by
  rw [holds_take, holds_drop]
  cases holds active x <;> cases holds batch x <;> rfl

/-! ### In any order -/

theorem drop_perm (h : batch.Perm batch') (active : List (Constraint ε)) :
    drop active batch = drop active batch' := by
  simp only [drop, holds, h.any_eq]

theorem length_takeOne (active : List (Constraint ε)) (c : Constraint ε) :
    (takeOne active c).length = active.length + if holds active c then 0 else 1 := by
  unfold takeOne
  split
  · rfl
  · exact List.length_append

namespace Matches

theorem refl (active : List (Constraint ε)) : Matches active active := ⟨rfl, fun _ => rfl⟩

theorem trans {active other third : List (Constraint ε)} (h : Matches active other)
    (h' : Matches other third) : Matches active third :=
  ⟨h.length.trans h'.length, fun x => (h.holds x).trans (h'.holds x)⟩

variable [EquivBEq ε]

theorem takeOne (h : Matches active other) (c : Constraint ε) :
    Matches (takeOne active c) (takeOne other c) where
  length := by rw [length_takeOne, length_takeOne, h.length, h.holds]
  holds x := by rw [holds_takeOne, holds_takeOne, h.holds]

theorem take (h : Matches active other) (batch : List (Constraint ε)) :
    Matches (take active batch) (take other batch) := by
  induction batch generalizing active other with
  | nil => exact h
  | cons c batch ih => exact ih (h.takeOne c)

end Matches

variable [EquivBEq ε]

/-- Of two constraints that are equal the first is taken up, whichever it is. -/
theorem matches_swap (active : List (Constraint ε)) (c d : Constraint ε) :
    Matches (takeOne (takeOne active c) d) (takeOne (takeOne active d) c) where
  length := by
    simp only [length_takeOne, holds_takeOne]
    rw [BEq.comm (a := d)]
    by_cases h : (c == d) = true
    · rw [holds_congr h, h, Bool.or_true]
    · rw [Bool.not_eq_true] at h
      rw [h, Bool.or_false, Bool.or_false]
      exact Nat.add_right_comm ..
  holds x := by
    simp only [holds_takeOne]
    exact Bool.or_right_comm ..

theorem matches_take_perm (h : batch.Perm batch') (active : List (Constraint ε)) :
    Matches (take active batch) (take active batch') := by
  induction h generalizing active with
  | nil => exact .refl active
  | cons c _ ih => exact ih (takeOne active c)
  | swap c d batch => exact (matches_swap active d c).take batch
  | trans _ _ ih ih' => exact (ih active).trans (ih' active)

theorem contract : (sink : Sink ε (Engine ε)).Contract Engine.active where
  activate_twice _ _ hrs := take_take hrs
  deactivate_twice g rs := drop_drop g.active rs
  activate_perm g _ _ h := matches_take_perm h g.active
  deactivate_perm g _ _ h := drop_perm h g.active
  activate_appends g rs := take_eq_append g.active rs
  deactivate_keeps g rs := by
    refine ⟨List.filter_sublist, fun c => ?_⟩
    show c ∈ drop g.active rs ↔ _
    simp only [drop, List.mem_filter, holds, Bool.not_eq_true', List.any_eq_false,
      Bool.not_eq_true]
  restored g rs x := holds_take_drop g.active rs x

end Engine

/-! ## Sessions -/

theorem Site.contract (route : Route) :
    (route.reach sink).Contract fun site => site.engine.active := by
  rw [Route.reach_eq]
  exact Engine.contract.seen Site.engine (fun _ _ => rfl) fun _ _ => rfl

namespace Session

/-- A layout that has been installed compiles to the same again. -/
theorem compile_after_apply {s : Session} {mode : Mode} {layout : Layout} {save? : Option String}
    {route : Route} {cs : List (Constraint String)} (h : (layout.compile s).1.result = .ok cs) :
    (layout.compile (s.step mode (.apply layout save? route)).1).1 = (layout.compile s).1 ∧
      (layout.compile (s.step mode (.apply layout save? route)).1).2.asked =
        (layout.compile s).2.asked := by
  have hnext : (s.step mode (.apply layout save? route)).1 = _ :=
    congrArg Effect.next (perform_apply_ok h)
  refine Layout.compile_congr ?_ fun name _ => ?_
  · rw [hnext, save_bindings]
  · rw [hnext, save_container?]

end Session

/-- **The contract of the sink.** The engine meets it, whatever has been handed
over before, and so does the sink of a session by any route. So a layout
that is installed twice at once, from expressions that hold no NaN, returns
the same constraints again and leaves those in force as they were. -/
theorem sink_contract [BEq ε] [EquivBEq ε] :
    (Engine.sink : Sink ε (Engine ε)).Contract Engine.active ∧
    (∀ route : Route, (route.reach Site.sink).Contract fun site => site.engine.active) ∧
    ∀ (s : Session) (mode : Session.Mode) (layout : Layout) (save? again? : Option String)
      (route route' : Route) (asked? : Option (List String)) (cs : List (Constraint String)),
      let once := s.step mode (.apply layout save? route)
      let again := once.1.step mode (.apply layout again? route')
      once.2.outcome = .compiled asked? (.ok cs) →
      (∀ job ∈ layout.jobs s, ∀ e ∈ job.expressions, e.holdsNaN = false) →
      again.2.outcome = .compiled asked? (.ok cs) ∧
        again.1.engine.active = once.1.engine.active := by
  refine ⟨Engine.contract, Site.contract, ?_⟩
  intro s mode layout save? again? route route' asked? cs once again h hnan
  have hcompiled := h
  rw [Session.outcome_apply] at hcompiled
  have hrun := Session.compile_of_outcome hcompiled
  obtain ⟨hsame, hasked⟩ : (layout.compile once.1).1 = (layout.compile s).1 ∧
      (layout.compile once.1).2.asked = (layout.compile s).2.asked :=
    Session.compile_after_apply hrun
  have hagain : again.2.outcome = .compiled asked? (.ok cs) := by
    rw [Session.outcome_apply, ← hcompiled]
    simp only [Session.step, Session.perform_compile, hsame, hasked]
  have hclean : ∀ c ∈ cs, c.holdsNaN = false := by
    rw [Layout.compile_eq_jobs] at hrun
    refine (holdsNaN_compileJobs hrun).2 fun job hjob e row hgives _ => ?_
    exact hnan job hjob e hgives.1
  refine ⟨hagain, ?_⟩
  have honce : once.1.engine = s.engine.activate cs := (Session.step_apply_ok h).1
  have htwice : again.1.engine = once.1.engine.activate cs := (Session.step_apply_ok hagain).1
  rw [htwice, honce]
  exact Engine.take_take hclean

/-- Two left edges that differ in the sign of a zero, and a top edge, in two
orders: one of the left edges is in force, the one that came first. And a
layout of one element, installed twice. -/
theorem sink_contract_zeros :
    let left : Constraint String := ⟨"label", .left, .equal, some "view", .left, .one, .zero, none⟩
    let signed : Constraint String := { left with constant := -.zero }
    let top : Constraint String := { left with sourceAttribute := .top, targetAttribute := .top }
    let once := Engine.empty.activate [left, top, signed]
    let edges : Layout := .one "label" [.start (.single .left), .start (.single .top)]
    let s := Session.ofTree [("view", none), ("label", some "view")]
    let installed := (s.step ⟨false, false⟩ (.apply edges (some "edges") .direct)).1
    once.active = [left, top] ∧ (Engine.empty.activate [signed, left, top]).active = [signed, top] ∧
      Engine.Matches [left, top] [signed, top] ∧
      (once.activate [left, top, signed]).active = [left, top] ∧
      (installed.step ⟨false, false⟩ (.apply edges none .forwarded)).1.engine.active =
        installed.engine.active := by
  intro left signed top once edges s installed
  obtain ⟨hengine, -, hsession⟩ := @sink_contract String _ _
  have hperm : [left, top, signed].Perm [signed, left, top] :=
    @List.perm_append_comm _ [left, top] [signed]
  have htwice := hengine.activate_twice .empty [left, top, signed] (by decide)
  have hagain := hsession s ⟨false, false⟩ edges (some "edges") none .direct .forwarded none
    [left, top] rfl (by decide)
  exact ⟨rfl, rfl, hengine.activate_perm .empty _ _ hperm, htwice, hagain.2⟩

end LayoutConstraints
