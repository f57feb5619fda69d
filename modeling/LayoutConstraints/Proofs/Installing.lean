import LayoutConstraints.Proofs.ActiveSet
import LayoutConstraints.Proofs.Atomicity

/-!
# What a successful layout does to its host

A layout that succeeds reaches its host in a fixed order. First come the
questions, if it asks at all. Then each element that was laid out is
prepared, as often as it is listed. Last comes one batch with all the
constraints that are returned, even if there are none. The host receives no
other call.

A host is one state with what asking, preparing and handing over do to it,
so the calls it has received are told by the state it ends in: `stateAfter`
for the questions, and from there `Call.perform` over a list of calls,
whatever the host makes of them.

**Results.** `install_commits` for any host, with `compileChained_asked` for
the questions; `Carries.install` for a host inside another; `Site.commit_eq`
for the engine, the counters and the events of a session;
`Session.perform_apply_ok` for all that one instruction does. Together they
make `apply_protocol`.
-/
namespace LayoutConstraints

variable {ε σ τ : Type}

/-! ## Calls on a host -/

inductive Call (ε : Type) where
  | prepare (element : ε)
  | activate (batch : List (Constraint ε))
  | deactivate (batch : List (Constraint ε))

/-- What a call does to the state of the host. -/
def Call.perform (prepare : ε → σ → σ) (sink : Sink ε σ) (s : σ) : Call ε → σ
  | .prepare element => prepare element s
  | .activate batch => sink.activate batch s
  | .deactivate batch => sink.deactivate batch s

/-- The calls that put constraints in force for the elements they lay out. -/
def Call.commit (elements : List ε) (cs : List (Constraint ε)) : List (Call ε) :=
  elements.map .prepare ++ [.activate cs]

/-- An attempt that ends as compiling does and, if that succeeds, has made the
calls that commit its constraints and no others. -/
structure Commits (prepare : ε → σ → σ) (sink : Sink ε σ) (elements : List ε)
    (compiled : Except Failure (List (Constraint ε))) (s : σ) (attempt : Compilation ε × σ) :
    Prop where
  result : attempt.1.result = compiled
  calls : ∀ cs, compiled = .ok cs →
    attempt.2 = (Call.commit elements cs).foldl (Call.perform prepare sink) s

theorem install_ok {prepare : ε → σ → σ} {sink : Sink ε σ} {elements : List ε}
    {run : Compilation ε} {s : σ} {cs : List (Constraint ε)} (h : run.result = .ok cs) :
    (install prepare sink elements run s).2 =
      (Call.commit elements cs).foldl (Call.perform prepare sink) s := by
  rw [Call.commit, List.foldl_append, List.foldl_map, install, h]
  rfl

theorem install_commits (prepare : ε → σ → σ) (sink : Sink ε σ) (elements : List ε)
    (run : Compilation ε) (s : σ) :
    Commits prepare sink elements run.result s (install prepare sink elements run s) where
  result := result_install prepare sink elements run s
  calls _ h := install_ok h

/-! ## A host inside another -/

/-- A host of which `view` shows another: preparing and handing over do to what is
seen what they do to the other. -/
structure Carries (view : σ → τ) (prepare : ε → σ → σ) (sink : Sink ε σ) (inner : ε → τ → τ)
    (innerSink : Sink ε τ) : Prop where
  prepare : ∀ e s, view (prepare e s) = inner e (view s)
  activate : ∀ batch s, view (sink.activate batch s) = innerSink.activate batch (view s)

theorem Carries.install {view : σ → τ} {prepare : ε → σ → σ} {sink : Sink ε σ}
    {inner : ε → τ → τ} {innerSink : Sink ε τ} (h : Carries view prepare sink inner innerSink)
    (elements : List ε) (run : Compilation ε) (s : σ) :
    (install prepare sink elements run s).map id view =
      install inner innerSink elements run (view s) := by
  have hprepared : view (elements.foldl (fun s e => prepare e s) s) =
      elements.foldl (fun t e => inner e t) (view s) :=
    (List.foldl_hom view fun s e => (h.prepare e s).symm).symm
  cases hrun : run.result with
  | error f => rw [install_of_error hrun, install_of_error hrun, Prod.map_apply, id]
  | ok cs =>
    simp only [LayoutConstraints.install, hrun, Prod.map_apply, id, h.activate, hprepared]

/-! ## The host of a session -/

namespace Site

theorem prepareAll_eq (plain : Bool) (elements : List String) (site : Site) :
    elements.foldl (fun s e => prepare plain e s) site =
      { engine := site.engine
        prepared := fun name => site.prepared name + if plain then 0 else elements.count name
        events := site.events ++ if plain then [] else elements.map .prepare } := by
  induction elements generalizing site with
  | nil => cases plain <;> simp
  | cons e es ih =>
    rw [List.foldl_cons, ih]
    cases plain with
    | true => rfl
    | false =>
      simp only [prepare, update, Bool.false_eq_true, if_false, List.map_cons, List.append_assoc,
        List.singleton_append, Site.mk.injEq, and_true, true_and]
      funext name
      rw [List.count_cons]
      by_cases h : name = e
      · subst h
        simp only [if_true, beq_self_eq_true]
        omega
      · rw [if_neg h, if_neg (by simpa using Ne.symm h)]
        omega

theorem commit_eq (plain : Bool) (elements : List String) (cs : List (Constraint String))
    (site : Site) :
    (Call.commit elements cs).foldl (Call.perform (prepare plain) sink) site =
      { engine := site.engine.activate cs
        prepared := fun name => site.prepared name + if plain then 0 else elements.count name
        events := site.events ++ (if plain then [] else elements.map .prepare) ++
          [.activate cs.length] } := by
  rw [Call.commit, List.foldl_append, List.foldl_map]
  have h := prepareAll_eq plain elements site
  simp only [Call.perform, List.foldl_cons, List.foldl_nil] at h ⊢
  rw [h]
  rfl

/-- Neither preparing nor handing over asks anything. -/
theorem asked_commit (plain : Bool) (elements : List String) (cs : List (Constraint String))
    (site : Site) :
    ((Call.commit elements cs).foldl (Call.perform (prepare plain) sink) site).asked =
      site.asked := by
  have hpreparations : (if plain then [] else elements.map Event.prepare).filterMap Event.asked? =
      [] := by
    cases plain <;> simp [List.filterMap_map, Function.comp_def, Event.asked?]
  rw [commit_eq, asked, List.filterMap_append, List.filterMap_append, hpreparations]
  simp [asked, Event.asked?]

end Site

namespace Session

@[simp]
theorem save_engine (s : Session) (name? : Option String) (run : Compilation String) :
    (s.save name? run).engine = s.engine := by
  unfold save
  split <;> rfl

@[simp]
theorem save_prepared (s : Session) (name? : Option String) (run : Compilation String) :
    (s.save name? run).prepared = s.prepared := by
  unfold save
  split <;> rfl

/-- Saving looks at nothing but the result. -/
theorem save_congr {s : Session} {name? : Option String} {run run' : Compilation String}
    (h : run.result = run'.result) : s.save name? run = s.save name? run' := by
  simp only [save, h]

theorem compile_of_outcome {s : Session} {mode : Mode} {layout : Layout} {save? : Option String}
    {asked? : Option (List String)} {result : Except Failure (List (Constraint String))}
    (h : (s.step mode (.compile layout save?)).2.outcome = .compiled asked? result) :
    (layout.compile s).1.result = result := by
  simp only [step, perform, Effect.ofLayout, Outcome.compiled.injEq] at h
  exact h.2

/-- All that a layout does which succeeds. -/
theorem perform_apply_ok {s : Session} {plain : Bool} {layout : Layout} {save? : Option String}
    {route : Route} {cs : List (Constraint String)} (h : (layout.compile s).1.result = .ok cs) :
    s.perform plain (.apply layout save? route) =
      { next := Session.save
          { s with
            engine := s.engine.activate cs
            prepared := fun name =>
              s.prepared name + if plain then 0 else layout.laidOut.count name }
          save? (layout.compile s).1
        outcome := .compiled (if layout.asks then some layout.questions else none) (.ok cs)
        events := layout.questions.map .callback ++
          (if plain then [] else layout.laidOut.map .prepare) ++ [.activate cs.length]
        log := (layout.compile s).1.log ++ [.activating cs.length] } := by
  -- The host that is prepared is the one that has been asked.
  have hquestions := Layout.compile_questions h
  have hsite : (layout.apply s plain (route.reach Site.sink)).2 =
      (Call.commit layout.laidOut cs).foldl (Call.perform (Site.prepare plain) Site.sink)
        (s.site.questioned layout.questions) := by
    rw [Layout.apply_eq, Route.reach_eq, hquestions]
    exact install_ok h
  have hrun : (layout.apply s plain (route.reach Site.sink)).1 =
      ⟨(layout.compile s).1.log ++ [.activating cs.length], .ok cs⟩ := by
    simp only [Layout.apply_eq, install, h, Compilation.concluding]
  have hasked : (layout.apply s plain (route.reach Site.sink)).2.asked = layout.questions := by
    rw [hsite, Site.asked_commit, Site.asked_questioned]
    rfl
  simp only [perform, Effect.ofLayout, hrun, hasked]
  rw [hsite, Site.commit_eq]
  congr 1
  exact save_congr h.symm

/-- Applying ends as compiling does, with the same questions. -/
theorem outcome_apply (s : Session) (mode : Mode) (layout : Layout) (save? : Option String)
    (route : Route) :
    (s.step mode (.apply layout save? route)).2.outcome =
      (s.step mode (.compile layout save?)).2.outcome := by
  simp only [step]
  cases h : (layout.compile s).1.result with
  | error f => rw [perform_apply_error h]
  | ok cs =>
    have hasked := Layout.asked_of_site (Layout.compile_questions h)
    rw [perform_apply_ok h, perform_compile, hasked, h]

theorem step_apply_ok {s : Session} {mode : Mode} {layout : Layout} {save? : Option String}
    {route : Route} {asked? : Option (List String)} {cs : List (Constraint String)}
    (h : (s.step mode (.apply layout save? route)).2.outcome = .compiled asked? (.ok cs)) :
    (s.step mode (.apply layout save? route)).1.engine = s.engine.activate cs ∧
      (s.step mode (.apply layout save? route)).2.events =
        layout.questions.map .callback ++
          (if mode.plain then [] else layout.laidOut.map .prepare) ++ [.activate cs.length] := by
  rw [outcome_apply] at h
  simp only [step, perform_apply_ok (compile_of_outcome h), save_engine, and_self]

theorem step_compile (s : Session) (mode : Mode) (layout : Layout) (save? : Option String) :
    (s.step mode (.compile layout save?)).1.engine = s.engine ∧
      (s.step mode (.compile layout save?)).1.prepared = s.prepared ∧
      ∀ event ∈ (s.step mode (.compile layout save?)).2.events, ∃ name, event = .callback name := by
  simp only [step, perform_compile]
  refine ⟨save_engine s save? _, save_prepared s save? _, ?_⟩
  intro event h
  obtain ⟨name, -, rfl⟩ := List.mem_map.1 h
  exact ⟨name, rfl⟩

end Session

/-! ## The protocol -/

/-- What a session's host has become once `elements` are laid out by `cs`. -/
structure Site.Committed (plain : Bool) (elements : List String) (cs : List (Constraint String))
    (site later : Site) : Prop where
  events : later.events =
    site.events ++ (if plain then [] else elements.map .prepare) ++ [.activate cs.length]
  engine : later.engine = site.engine.activate cs
  active : ∀ c ∈ cs, c.holdsNaN = false → Engine.holds later.engine.active c = true

theorem Site.committed (plain : Bool) (elements : List String) (cs : List (Constraint String))
    (site : Site) :
    site.Committed plain elements cs
      ((Call.commit elements cs).foldl (Call.perform (Site.prepare plain) Site.sink) site) := by
  rw [Site.commit_eq]
  exact ⟨rfl, rfl, fun c hmem hc => Engine.holds_take_of_mem hmem hc⟩

/-- The calls that the three forms make on a host they find in the state `host`. -/
structure HostProtocol (container? : ε → Option ε) (prepare : ε → σ → σ) (sink : Sink ε σ)
    (host : σ) : Prop where
  one : ∀ element es, Commits prepare sink [element] (compile container? element es).result host
    (apply container? prepare sink element es host)
  all : ∀ elements es, Commits prepare sink elements (compileAll container? elements es).result host
    (applyAll container? prepare sink elements es host)
  /-- All questions have been put to the host before the first element is prepared. -/
  chained : ∀ (callback : ε → σ → List (Expression ε) × σ) (elements : List ε),
    Commits prepare sink elements.tail (compileChained container? callback elements host).1.result
      (stateAfter callback elements.dropLast host)
      (applyChained container? prepare sink callback elements host)
  /-- Compiling puts some of these questions to the host, and if it succeeds all of
  them. It makes no other call. -/
  asked : ∀ (callback : ε → σ → List (Expression ε) × σ) (elements : List ε),
    ∃ asked, asked <+: elements.dropLast ∧
      (compileChained container? callback elements host).2 = stateAfter callback asked host ∧
      ∀ cs, (compileChained container? callback elements host).1.result = .ok cs →
        asked = elements.dropLast

/-- What an instruction does in a session that applies the layout, or only compiles
it. -/
structure Session.Protocol (s : Session) (mode : Session.Mode) (layout : Layout)
    (save? : Option String) (route : Route) : Prop where
  outcome : (s.step mode (.apply layout save? route)).2.outcome =
    (s.step mode (.compile layout save?)).2.outcome
  events : ∀ asked? cs,
    (s.step mode (.apply layout save? route)).2.outcome = .compiled asked? (.ok cs) →
    (s.step mode (.apply layout save? route)).2.events =
      layout.questions.map .callback ++ (if mode.plain then [] else layout.laidOut.map .prepare) ++
        [.activate cs.length]
  engine : ∀ asked? cs,
    (s.step mode (.apply layout save? route)).2.outcome = .compiled asked? (.ok cs) →
    (s.step mode (.apply layout save? route)).1.engine = s.engine.activate cs
  active : ∀ asked? cs,
    (s.step mode (.apply layout save? route)).2.outcome = .compiled asked? (.ok cs) →
    ∀ c ∈ cs, c.holdsNaN = false →
      Engine.holds (s.step mode (.apply layout save? route)).1.engine.active c = true
  compiledEngine : (s.step mode (.compile layout save?)).1.engine = s.engine
  compiledPrepared : (s.step mode (.compile layout save?)).1.prepared = s.prepared
  compiledEvents : ∀ event ∈ (s.step mode (.compile layout save?)).2.events,
    ∃ name, event = .callback name

theorem hostProtocol (container? : ε → Option ε) (prepare : ε → σ → σ) (sink : Sink ε σ)
    (host : σ) : HostProtocol container? prepare sink host where
  one element es := install_commits ..
  all elements es := install_commits ..
  chained callback elements := by
    obtain ⟨asked, -, hstate, hall⟩ := compileChained_asked container? callback elements host
    refine ⟨result_install .., fun cs h => ?_⟩
    rw [← hall cs h, ← hstate]
    exact install_ok h
  asked callback elements := compileChained_asked container? callback elements host

theorem Session.protocol (s : Session) (mode : Session.Mode) (layout : Layout)
    (save? : Option String) (route : Route) : s.Protocol mode layout save? route where
  outcome := outcome_apply s mode layout save? route
  events _ _ h := (step_apply_ok h).2
  engine _ _ h := (step_apply_ok h).1
  active _ _ h := by
    intro c hmem hc
    rw [(step_apply_ok h).1]
    exact Engine.holds_take_of_mem hmem hc
  compiledEngine := (step_compile s mode layout save?).1
  compiledPrepared := (step_compile s mode layout save?).2.1
  compiledEvents := (step_compile s mode layout save?).2.2

/-- **The protocol of a layout.** Whatever the host, each of the three forms
ends as compiling does, and on success its calls on the host are to ask about
each element but the last, if it is a chained layout, then to prepare each
element that was laid out, in order, and then to activate once what is
returned. On the host of a session these calls are what the events tell, and
what was returned is then active, unless it holds a NaN. Compiling alone
causes no event but questions and leaves engine and counters alone. -/
theorem apply_protocol (container? : ε → Option ε) (prepare : ε → σ → σ) (sink : Sink ε σ)
    (host : σ) (s : Session) (mode : Session.Mode) (layout : Layout) (save? : Option String)
    (route : Route) :
    HostProtocol container? prepare sink host ∧
      (∀ plain elements cs (site : Site), site.Committed plain elements cs
        ((Call.commit elements cs).foldl (Call.perform (Site.prepare plain) Site.sink) site)) ∧
      s.Protocol mode layout save? route :=
  ⟨hostProtocol container? prepare sink host, Site.committed, s.protocol mode layout save? route⟩

/-- A chain from the root of the tree, with its other element twice. -/
theorem apply_protocol_chain :
    let s := Session.ofTree [("view", none), ("label", some "view")]
    let i := Instruction.apply
      (.chained ["view", "label", "label"] [.adjust (.start (.single .top)) (.of .previous)] [])
      none .direct
    (∃ cs, (s.step ⟨false, false⟩ i).2.outcome = .compiled (some ["view", "label"]) (.ok cs)) ∧
      (s.step ⟨false, false⟩ i).2.events =
        [.callback "view", .callback "label", .prepare "label", .prepare "label", .activate 2] := by
  intro s i
  obtain ⟨-, -, protocol⟩ := apply_protocol s.container? (Site.prepare false) Site.sink s.site s
    ⟨false, false⟩
    (.chained ["view", "label", "label"] [.adjust (.start (.single .top)) (.of .previous)] [])
    none .direct
  have h : (s.step ⟨false, false⟩ i).2.outcome = .compiled (some ["view", "label"])
      (.ok [⟨"label", .top, .equal, some "view", .top, .one, .zero, none⟩,
        ⟨"label", .top, .equal, some "label", .top, .one, .zero, none⟩]) := rfl
  exact ⟨⟨_, h⟩, protocol.events _ _ h⟩

end LayoutConstraints
