import LayoutConstraints.Proofs.Batching
import LayoutConstraints.Proofs.Resolution
import LayoutConstraints.Proofs.Toggling

/-!
# What a session keeps

A session keeps constraints in two places: those in force in the engine and
those put aside in saved sets. Both are filled with what compiling has
returned and never with anything made from it. So whatever holds of every
compiled constraint holds of every constraint kept, among other things that
a target is missing exactly where no attribute of it is named.

The constraints in force are also told apart by equality. One is taken up
only if none in force equals it, and dropping others cannot undo that. Nor
can a NaN: a constraint that holds one may be in force twice over, and even
then no two positions hold equal constraints.

The invariant of a run (`Session.Keeps`) speaks of all that was returned so
far, since a set may be activated long after it was saved.

**Results.** `resolved_compileJobs` for whatever is compiled, `distinct_take`
and `distinct_drop` for the engine; `Session.step_saves` for the set that one
instruction saves, `Session.keeps_step` for all that it keeps and
`Session.keeps_run` for many. Together they make `Session.kept_returned`.
-/
namespace LayoutConstraints

variable {ε : Type}

/-! ## What compiling returns -/

theorem Expression.resolved_constraint (e : Expression ε) (element container : ε)
    (a b : Attribute) : (e.constraint element container a b).Resolved := by
  cases b <;> simp [Constraint.Resolved, constraint, Attribute.isReal]

theorem Expression.resolved_row {element container : ε} {e : Expression ε}
    {cs : List (Constraint ε)} (h : e.Row element container cs) : ∀ c ∈ cs, c.Resolved := by
  intro c hc
  obtain ⟨a, b, rfl⟩ := eq_constraint_of_row h hc
  exact resolved_constraint e element container a b

theorem resolved_compileJobs {container? : ε → Option ε} {jobs : List (Job ε)}
    {cs : List (Constraint ε)} (h : (compileJobs container? jobs).result = .ok cs) :
    ∀ c ∈ cs, c.Resolved := by
  intro c hc
  obtain ⟨job, -, e, row, ⟨-, hrow⟩, hc⟩ := (mem_compileJobs h).1 hc
  obtain ⟨container, -, hrow⟩ := compile_singleton_ok.1 hrow
  exact Expression.resolved_row hrow c hc

/-! ## What the engine holds -/

namespace Engine

variable [BEq ε] {active batch : List (Constraint ε)} {c x : Constraint ε}

/-- No two positions hold equal constraints. -/
def Distinct (active : List (Constraint ε)) : Prop := active.Pairwise fun a b => (a == b) = false

theorem distinct_positions [EquivBEq ε] (h : Distinct active) {i j : Nat} {a b : Constraint ε}
    (hij : i ≠ j) (ha : active[i]? = some a) (hb : active[j]? = some b) : (a == b) = false := by
  obtain ⟨hi, rfl⟩ := List.getElem?_eq_some_iff.1 ha
  obtain ⟨hj, rfl⟩ := List.getElem?_eq_some_iff.1 hb
  have hordered := List.pairwise_iff_getElem.1 h
  rcases Nat.lt_or_gt_of_ne hij with hlt | hlt
  · exact hordered i j hi hj hlt
  · rw [BEq.comm]
    exact hordered j i hj hi hlt

theorem distinct_takeOne (h : Distinct active) (c : Constraint ε) :
    Distinct (takeOne active c) := by
  unfold takeOne
  split
  · exact h
  · next hc =>
    refine List.pairwise_append.2 ⟨h, List.pairwise_singleton .., fun a ha b hb => ?_⟩
    rw [List.mem_singleton.1 hb, Bool.eq_false_iff]
    exact fun hac => hc (holds_iff.2 ⟨a, ha, hac⟩)

theorem distinct_take (h : Distinct active) (batch : List (Constraint ε)) :
    Distinct (take active batch) := by
  induction batch generalizing active with
  | nil => exact h
  | cons c batch ih => exact ih (distinct_takeOne h c)

theorem distinct_drop (h : Distinct active) (batch : List (Constraint ε)) :
    Distinct (drop active batch) := List.Pairwise.filter _ h

theorem mem_take (h : x ∈ take active batch) : x ∈ active ∨ x ∈ batch := by
  obtain ⟨added, hadded, hsub⟩ := take_eq_append active batch
  rw [hadded, List.mem_append] at h
  exact h.imp_right fun hx => hsub.subset hx

theorem mem_drop (h : x ∈ drop active batch) : x ∈ active := (List.mem_filter.1 h).1

end Engine

namespace Batch

variable [BEq ε] {batches : List (Batch ε)} {active : List (Constraint ε)}

theorem distinct_commitAll (h : Engine.Distinct active) (batches : List (Batch ε)) :
    Engine.Distinct (batches.foldl commit active) := by
  induction batches generalizing active with
  | nil => exact h
  | cons b batches ih =>
    apply ih
    unfold commit
    split
    · exact Engine.distinct_take h b.constraints
    · exact Engine.distinct_drop h b.constraints

theorem mem_commitAll {x : Constraint ε} (h : x ∈ batches.foldl commit active) :
    x ∈ active ∨ ∃ b ∈ batches, x ∈ b.constraints := by
  induction batches generalizing active with
  | nil => exact .inl h
  | cons b batches ih =>
    rcases ih h with hx | ⟨d, hd, hx⟩
    · unfold commit at hx
      split at hx
      · rcases Engine.mem_take hx with hx | hx
        · exact .inl hx
        · exact .inr ⟨b, List.mem_cons_self, hx⟩
      · exact .inl (Engine.mem_drop hx)
    · exact .inr ⟨d, List.mem_cons_of_mem b hd, hx⟩

end Batch

/-! ## What an instruction returns and saves -/

/-- The name under which an instruction saves what it returns. -/
def Instruction.save? : Instruction → Option String
  | compile _ save? => save?
  | apply _ save? _ => save?
  | _ => none

/-- The constraints of an instruction that compiled a layout and did not fail. -/
def Outcome.returned : Outcome → List (Constraint String)
  | .compiled _ (.ok cs) => cs
  | _ => []

theorem Outcome.mem_returned {outcome : Outcome} {c : Constraint String}
    (h : c ∈ outcome.returned) : ∃ asked? cs, outcome = .compiled asked? (.ok cs) ∧ c ∈ cs := by
  unfold returned at h
  split at h
  · next asked? cs => exact ⟨asked?, cs, rfl, h⟩
  · cases h

namespace Session

variable {mode : Mode} {s : Session} {i : Instruction}

theorem saved_save {name : String} {run : Compilation String} {cs : List (Constraint String)}
    (h : run.result = .ok cs) : (s.save (some name) run).saved = update s.saved name cs := by
  simp only [save, h]

theorem saved_save_of_ne {name? : Option String} {name : String} (h : name? ≠ some name)
    (run : Compilation String) : (s.save name? run).saved name = s.saved name := by
  unfold save
  split
  · exact update_of_ne fun hn => h (congrArg some hn.symm)
  · rfl

/-- A layout that is to be saved and succeeds is saved under its name, as it is
returned. -/
theorem step_saves {name : String} {asked? : Option (List String)} {cs : List (Constraint String)}
    (hname : i.save? = some name) (h : (s.step mode i).2.outcome = .compiled asked? (.ok cs)) :
    (s.step mode i).1.saved = update s.saved name cs := by
  cases i with
  | store | reparent | activate | deactivate | count => cases hname
  | compile layout save? | apply layout save? route =>
    obtain rfl : save? = some name := hname
    exact saved_save (Outcome.compiled.inj h).2

/-- Sets of other names stay as they are. -/
theorem step_saved_of_ne {name : String} (hname : i.save? ≠ some name) :
    (s.step mode i).1.saved name = s.saved name := by
  cases i with
  | store | reparent | activate | deactivate | count => rfl
  | compile layout save? | apply layout save? route => exact saved_save_of_ne hname _

theorem exists_compiled {name : String} (hname : i.save? = some name) :
    ∃ asked? result, (s.step mode i).2.outcome = .compiled asked? result := by
  cases i with
  | store | reparent | activate | deactivate | count => cases hname
  | compile layout save? | apply layout save? route => exact ⟨_, _, rfl⟩

/-- A saved set stays, or becomes what the instruction has returned. -/
theorem step_saved (mode : Mode) (s : Session) (i : Instruction) (name : String) :
    (s.step mode i).1.saved name = s.saved name ∨
      (s.step mode i).1.saved name = (s.step mode i).2.outcome.returned := by
  by_cases hname : i.save? = some name
  · obtain ⟨asked?, result, h⟩ : ∃ asked? result, (s.step mode i).2.outcome =
        .compiled asked? result := exists_compiled hname
    cases result with
    | error f => exact .inl (by rw [(step_failed h).1])
    | ok cs =>
      refine .inr ?_
      rw [step_saves hname h, update_same, h]
      rfl
  · exact .inl (step_saved_of_ne hname)

theorem resolved_step : ∀ c ∈ (s.step mode i).2.outcome.returned, c.Resolved := by
  have hcompiled (layout : Layout) (save? : Option String) :
      ∀ c ∈ (s.step mode (.compile layout save?)).2.outcome.returned, c.Resolved := by
    intro c hc
    obtain ⟨asked?, cs, houtcome, hc⟩ := Outcome.mem_returned hc
    have hrun := compile_of_outcome houtcome
    rw [Layout.compile_eq_jobs] at hrun
    exact resolved_compileJobs hrun c hc
  cases i with
  | store | reparent | activate | deactivate | count => exact fun c hc => absurd hc List.not_mem_nil
  | compile layout save? => exact hcompiled layout save?
  | apply layout save? route =>
    rw [outcome_apply]
    exact hcompiled layout save?

/-! ## The invariant -/

/-- All constraints kept are among `returned`, and those in force are distinct. -/
structure Keeps (returned : List (Constraint String)) (s : Session) : Prop where
  distinct : Engine.Distinct s.engine.active
  active : ∀ c ∈ s.engine.active, c ∈ returned
  saved : ∀ name, ∀ c ∈ s.saved name, c ∈ returned

theorem keeps_ofTree (nodes : List (String × Option String)) : Keeps [] (ofTree nodes) where
  distinct := .nil
  active _ h := h
  saved _ _ h := h

/-- A batch is what an instruction returns, or comes from saved sets. -/
theorem mem_handed {returned : List (Constraint String)} (h : s.Keeps returned) {b : Batch String}
    (hb : b ∈ s.handed (s.step mode i).2.outcome i) :
    ∀ c ∈ b.constraints, c ∈ returned ++ (s.step mode i).2.outcome.returned := by
  have hsets (sets : List String) : ∀ c ∈ s.savedAll sets, c ∈ returned := by
    intro c hc
    obtain ⟨name, -, hc⟩ := List.mem_flatMap.1 hc
    exact h.saved name c hc
  cases i with
  | store | reparent | compile | count => cases hb
  | activate sets | deactivate sets =>
    rw [List.mem_singleton.1 hb]
    exact fun c hc => List.mem_append_left _ (hsets sets c hc)
  | apply layout save? route =>
    cases houtcome : (s.step mode (.apply layout save? route)).2.outcome with
    | done | counted =>
      rw [houtcome] at hb
      cases hb
    | compiled asked? result =>
      rw [houtcome] at hb
      cases result with
      | error f => cases hb
      | ok cs =>
        rw [List.mem_singleton.1 hb]
        exact fun c hc => List.mem_append_right _ hc

theorem keeps_step {returned : List (Constraint String)} (h : s.Keeps returned) (mode : Mode)
    (i : Instruction) :
    (s.step mode i).1.Keeps (returned ++ (s.step mode i).2.outcome.returned) where
  distinct := by
    rw [step_active]
    exact Batch.distinct_commitAll h.distinct _
  active := by
    intro c hc
    rw [step_active] at hc
    rcases Batch.mem_commitAll hc with hc | ⟨b, hb, hc⟩
    · exact List.mem_append_left _ (h.active c hc)
    · exact mem_handed h hb c hc
  saved := by
    intro name c hc
    rcases step_saved mode s i name with hsaved | hsaved
    · rw [hsaved] at hc
      exact List.mem_append_left _ (h.saved name c hc)
    · rw [hsaved] at hc
      exact List.mem_append_right _ hc

/-- All that the instructions answered so far have returned. -/
def returned (answers : List Answer) : List (Constraint String) :=
  answers.flatMap fun answer => answer.outcome.returned

theorem keeps_run {earlier : List (Constraint String)} (h : s.Keeps earlier) (mode : Mode)
    (is : List Instruction) : (s.run mode is).1.Keeps (earlier ++ returned (s.run mode is).2) := by
  induction is generalizing s earlier with
  | nil => simpa [run, returned] using h
  | cons i is ih =>
    have hrest := ih (keeps_step h mode i)
    rwa [List.append_assoc] at hrest

theorem resolved_run (mode : Mode) (s : Session) (is : List Instruction) :
    ∀ c ∈ returned (s.run mode is).2, c.Resolved := by
  induction is generalizing s with
  | nil => exact fun c hc => absurd hc List.not_mem_nil
  | cons i is ih => exact List.forall_mem_append.2 ⟨resolved_step, ih _⟩

/-- **What is kept was returned.** After any instructions no two positions of
the active constraints hold equal ones. Every constraint that is active or
saved is the same, in every field, as one that an instruction so far has
returned; it has no target exactly if it names no attribute of one, which is
exactly if it is a fixed value. -/
theorem kept_returned (nodes : List (String × Option String)) (mode : Mode)
    (is : List Instruction) :
    let s := ((ofTree nodes).run mode is).1
    let answers := ((ofTree nodes).run mode is).2
    (∀ (i j : Nat) (a b : Constraint String), i ≠ j → s.engine.active[i]? = some a →
      s.engine.active[j]? = some b → (a == b) = false) ∧
    ∀ c, (c ∈ s.engine.active ∨ ∃ name, c ∈ s.saved name) →
      (∃ answer ∈ answers, ∃ asked? cs, answer.outcome = .compiled asked? (.ok cs) ∧ c ∈ cs) ∧
        (c.target? = none ↔ c.targetAttribute = .notAnAttribute) ∧
        (c.targetAttribute = .notAnAttribute ↔ c.isFixedValue = true) := by
  intro s answers
  have hkeeps := keeps_run (keeps_ofTree nodes) mode is
  rw [List.nil_append] at hkeeps
  refine ⟨?_, ?_⟩
  · intro i j a b hij ha hb
    exact Engine.distinct_positions hkeeps.distinct hij ha hb
  · intro c hc
    have hmem : c ∈ returned answers := hc.elim (hkeeps.active c) fun ⟨name, hc⟩ =>
      hkeeps.saved name c hc
    have hresolved := resolved_run mode (ofTree nodes) is c hmem
    obtain ⟨answer, hanswer, hc⟩ := List.mem_flatMap.1 hmem
    exact ⟨⟨answer, hanswer, Outcome.mem_returned hc⟩, hresolved, hresolved.isFixedValue_iff.symm⟩

/-- A width that is to be NaN, installed twice: the engine holds the same
constraint at two positions, and it does not equal itself. -/
theorem kept_returned_nan :
    let s := ofTree [("view", none), ("label", some "view")]
    let width : Draft String := .adjust (.start (.single .width)) (.equalToConstant .nan)
    let i := Instruction.apply (.one "label" [width]) (some "width") .direct
    let c : Constraint String :=
      ⟨"label", .width, .equal, none, .notAnAttribute, .one, .nan, none⟩
    (s.run ⟨false, true⟩ [i, i]).1.engine.active = [c, c] ∧ (c == c) = false ∧
      c.isFixedValue = true := by
  intro s width i c
  have hactive : (s.run ⟨false, true⟩ [i, i]).1.engine.active = [c, c] := rfl
  have hmem : c ∈ (s.run ⟨false, true⟩ [i, i]).1.engine.active := by
    rw [hactive]
    exact List.mem_cons_self
  have hkept := kept_returned [("view", none), ("label", some "view")] ⟨false, true⟩ [i, i]
  exact ⟨hactive, hkept.1 0 1 c c (by decide) rfl rfl, (hkept.2 c (.inl hmem)).2.2.1 rfl⟩

end Session

end LayoutConstraints
