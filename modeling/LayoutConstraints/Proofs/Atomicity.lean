import LayoutConstraints.Proofs.Questions

/-!
# A failed layout leaves no trace

A layout can fail late: after other elements have been compiled, and after
a chained layout has asked for expressions several times. Installing it
prepares elements and calls the sink only once all of it is compiled, so a
failure comes before the first of these calls, whatever they do to the state
of the host. Of a chained layout the questions are left, and nothing else.

In a session nothing but the answer tells that a failed instruction was
there. Its events are the questions asked on the way, and the rest of the
session runs as if it had been left out.

**Results.** `install_failed` and its three forms `apply_failed`,
`applyAll_failed`, `applyChained_failed`, for any host; `step_failed` for one
instruction; `run_failed` for a whole session.
-/
namespace LayoutConstraints

variable {ε σ : Type}

/-! ## Installing -/

@[simp]
theorem result_install (prepare : ε → σ → σ) (sink : Sink ε σ) (elements : List ε)
    (run : Compilation ε) (s : σ) :
    (install prepare sink elements run s).1.result = run.result := by
  unfold install
  split
  · rfl
  · exact Compilation.result_concluding _ _

section

variable {container? : ε → Option ε} {prepare : ε → σ → σ} {sink : Sink ε σ}
  {es : List (Expression ε)} {s : σ} {f : Failure}

theorem install_failed {elements : List ε} {run : Compilation ε}
    (h : (install prepare sink elements run s).1.result = .error f) :
    install prepare sink elements run s = (run, s) := by
  rw [result_install] at h
  exact install_of_error h

theorem apply_failed {element : ε}
    (h : (apply container? prepare sink element es s).1.result = .error f) :
    (apply container? prepare sink element es s).2 = s :=
  congrArg Prod.snd (install_failed h)

theorem applyAll_failed {elements : List ε}
    (h : (applyAll container? prepare sink elements es s).1.result = .error f) :
    (applyAll container? prepare sink elements es s).2 = s :=
  congrArg Prod.snd (install_failed h)

/-- The host has been asked some of the questions, and that is all. -/
theorem applyChained_failed {layout : ε → σ → List (Expression ε) × σ} {elements : List ε}
    (h : (applyChained container? prepare sink layout elements s).1.result = .error f) :
    ∃ asked, asked <+: elements.dropLast ∧
      (applyChained container? prepare sink layout elements s).2 = stateAfter layout asked s := by
  obtain ⟨asked, hprefix, hstate, -⟩ := compileChained_asked container? layout elements s
  exact ⟨asked, hprefix, (congrArg Prod.snd (install_failed h)).trans hstate⟩

end

/-! ## Layouts in a session -/

namespace Layout

/-- The three forms compile each in their own way and install alike. -/
theorem apply_eq (s : Session) (plain : Bool) (sink : Sink String Site) (layout : Layout) :
    layout.apply s plain sink =
      install (Site.prepare plain) sink layout.laidOut (layout.compile s).1
        (layout.compile s).2 := by
  cases layout <;> rfl

@[simp]
theorem result_apply (s : Session) (plain : Bool) (sink : Sink String Site) (layout : Layout) :
    (layout.apply s plain sink).1.result = (layout.compile s).1.result := by
  rw [apply_eq, result_install]

theorem apply_of_error {s : Session} {plain : Bool} {sink : Sink String Site} {layout : Layout}
    {f : Failure} (h : (layout.compile s).1.result = .error f) :
    layout.apply s plain sink = layout.compile s := by
  rw [apply_eq, install_of_error h]

/-- A layout that does not ask lists no questions. -/
theorem asked_getD (s : Session) (layout : Layout) :
    (if layout.asks then some (layout.compile s).2.asked else none).getD [] =
      (layout.compile s).2.asked := by
  cases layout <;> rfl

end Layout

namespace Session

/-! ## One instruction -/

@[simp]
theorem save_container? (s : Session) (name? : Option String) (run : Compilation String) :
    (s.save name? run).container? = s.container? := by
  unfold save
  split <;> rfl

@[simp]
theorem save_bindings (s : Session) (name? : Option String) (run : Compilation String) :
    (s.save name? run).bindings = s.bindings := by
  unfold save
  split <;> rfl

theorem save_failed {s : Session} {name? : Option String} {run : Compilation String} {f : Failure}
    (h : run.result = .error f) : s.save name? run = s := by
  unfold save
  rw [h]
  cases name? <;> rfl

/-- Compiling saves what it returns, and changes nothing else. -/
theorem perform_compile (s : Session) (plain : Bool) (layout : Layout) (save? : Option String) :
    s.perform plain (.compile layout save?) =
      { next := s.save save? (layout.compile s).1
        outcome := .compiled (if layout.asks then some (layout.compile s).2.asked else none)
          (layout.compile s).1.result
        events := (layout.compile s).2.asked.map .callback
        log := (layout.compile s).1.log } := by
  have hsite := layout.site_eq_questioned s
  have hnext : s.withSite (layout.compile s).2 = s := by
    rw [hsite]
    rfl
  have hevents : (layout.compile s).2.events = (layout.compile s).2.asked.map .callback :=
    congrArg Site.events hsite
  simp only [perform, Effect.ofLayout, hnext, hevents]

/-- A layout that fails is answered as if it had only been compiled. -/
theorem perform_apply_error {s : Session} {plain : Bool} {layout : Layout} {save? : Option String}
    {route : Route} {f : Failure} (h : (layout.compile s).1.result = .error f) :
    s.perform plain (.apply layout save? route) = s.perform plain (.compile layout save?) :=
  congrArg (Effect.ofLayout s layout save?) (Layout.apply_of_error h)

theorem perform_compile_failed {s : Session} {plain : Bool} {layout : Layout}
    {save? : Option String} {asked? : Option (List String)} {f : Failure}
    (h : (s.perform plain (.compile layout save?)).outcome = .compiled asked? (.error f)) :
    (s.perform plain (.compile layout save?)).next = s ∧
      (s.perform plain (.compile layout save?)).events = (asked?.getD []).map .callback := by
  rw [perform_compile] at h ⊢
  simp only [Outcome.compiled.injEq] at h ⊢
  obtain ⟨rfl, hresult⟩ := h
  exact ⟨save_failed hresult, by rw [Layout.asked_getD]⟩

theorem perform_failed {s : Session} {plain : Bool} {i : Instruction}
    {asked? : Option (List String)} {f : Failure}
    (h : (s.perform plain i).outcome = .compiled asked? (.error f)) :
    (s.perform plain i).next = s ∧
      (s.perform plain i).events = (asked?.getD []).map .callback := by
  cases i with
  | compile layout save? => exact perform_compile_failed h
  | apply layout save? route =>
    have hrun : (layout.compile s).1.result = .error f :=
      (Layout.result_apply ..).symm.trans (Outcome.compiled.inj h).2
    rw [perform_apply_error hrun] at h ⊢
    exact perform_compile_failed h
  | store name draft => cases h
  | reparent element container? => cases h
  | activate sets route => cases h
  | deactivate sets route => cases h
  | count sets => cases h

theorem step_failed {s : Session} {mode : Mode} {i : Instruction}
    {asked? : Option (List String)} {f : Failure}
    (h : (s.step mode i).2.outcome = .compiled asked? (.error f)) :
    (s.step mode i).1 = s ∧ (s.step mode i).2.engine = s.engine ∧
      (s.step mode i).2.events = (asked?.getD []).map .callback := by
  obtain ⟨hnext, hevents⟩ := perform_failed h
  exact ⟨hnext, congrArg Session.engine hnext, hevents⟩

/-! ## Whole sessions -/

theorem run_append (mode : Mode) (s : Session) (is js : List Instruction) :
    s.run mode (is ++ js) =
      (((s.run mode is).1.run mode js).1,
        (s.run mode is).2 ++ ((s.run mode is).1.run mode js).2) := by
  induction is generalizing s with
  | nil => rfl
  | cons i is ih => simp only [List.cons_append, run, ih]

/-- **Failure is atomic.** Wherever in a session a layout fails to compile or
to be installed, the tree, the bindings, the saved sets, the preparations
and the engine are as before, the events are the questions asked, and the
instructions after it are answered as if it had not been there. -/
theorem run_failed {mode : Mode} {s reached : Session} {before : List Instruction}
    {earlier : List Answer} (hr : s.run mode before = (reached, earlier)) {i : Instruction}
    {asked? : Option (List String)} {f : Failure}
    (h : (reached.step mode i).2.outcome = .compiled asked? (.error f))
    (after : List Instruction) :
    (reached.step mode i).1 = reached ∧
      (reached.step mode i).2.engine = reached.engine ∧
      (reached.step mode i).2.events = (asked?.getD []).map .callback ∧
      s.run mode (before ++ after) =
        ((reached.run mode after).1, earlier ++ (reached.run mode after).2) ∧
      s.run mode (before ++ i :: after) =
        ((reached.run mode after).1,
          earlier ++ (reached.step mode i).2 :: (reached.run mode after).2) := by
  obtain ⟨hnext, hengine, hevents⟩ := step_failed h
  refine ⟨hnext, hengine, hevents, ?_, ?_⟩
  · rw [run_append, hr]
  · rw [run_append, hr]
    simp only [run, hnext]

/-- The second element of a batch is the root of the tree; what the first
would have gained is not saved, and the set saved before is still in force. -/
theorem run_failed_batch :
    let s := ofTree [("view", none), ("label", some "view")]
    let before := [Instruction.apply (.one "label" [.start (.single .top)]) (some "edge") .direct]
    let i := Instruction.apply (.all ["label", "view"] [.start (.single .left)]) (some "edge")
      .dispatched
    let after := [Instruction.count ["edge"]]
    let reached := (s.run ⟨false, true⟩ before).1
    (reached.step ⟨false, true⟩ i).2.outcome = .compiled none (.error .missingContainer) ∧
      (reached.step ⟨false, true⟩ i).1 = reached ∧
      (s.run ⟨false, true⟩ (before ++ i :: after)).1 =
        (s.run ⟨false, true⟩ (before ++ after)).1 := by
  intro s before i after reached
  have h : (reached.step ⟨false, true⟩ i).2.outcome = .compiled none (.error .missingContainer) :=
    rfl
  obtain ⟨hnext, -, -, hwithout, hwith⟩ := run_failed (s := s) rfl h after
  exact ⟨h, hnext, by rw [hwithout, hwith]⟩

end Session

end LayoutConstraints
