import LayoutConstraints.Engine
import LayoutConstraints.Expression.Step
import LayoutConstraints.Installation

/-!
# Layout sessions

A session is a tree of named elements, an engine, and what has been put
aside by name: expressions as bindings, constraints of earlier layouts
as saved sets. Instructions change it one at a time; each is answered with
its outcome, the events it caused, its notices if they are wanted, and the
engine after it. An instruction that fails does not end the session.

A layout works on a `Site`. Whoever is asked for expressions, prepared or
handed a batch leaves an event there, so the events of an instruction stand
in the order in which it went about its work.

An element stands in the tree under one container or none, which may
change. An expression never stored is blank, and a set never
saved is empty.

**Results.** `update_same`, `update_of_ne`: what a table holds after one
entry is set.
-/
namespace LayoutConstraints

/-! ## Tables -/

/-- The table with one entry set. -/
def update {α : Type} (table : String → α) (name : String) (value : α) : String → α :=
  fun n => if n = name then value else table n

@[simp]
theorem update_same {α : Type} (table : String → α) (name : String) (value : α) :
    update table name value name = value := by
  simp [update]

theorem update_of_ne {α : Type} {table : String → α} {name n : String} {value : α}
    (h : n ≠ name) : update table name value n = table n := by
  simp [update, h]

/-! ## Instructions -/

/-- An element, or in a chained layout the one before the current. -/
inductive Place where
  | named (name : String)
  | previous
  deriving DecidableEq, Repr

def Place.resolve (previous : String) : Place → String
  | named name => name
  | .previous => previous

inductive Layout where
  | one (element : String) (drafts : List (Draft String))
  | all (elements : List String) (drafts : List (Draft String))
  /-- Each element after the first, by the drafts listed under the name of the
  element before, or else by the common ones. -/
  | chained (elements : List String) (drafts : List (Draft Place))
      (special : List (String × List (Draft Place)))

inductive Instruction where
  | store (name : String) (draft : Draft String)
  | reparent (element : String) (container? : Option String)
  | compile (layout : Layout) (save? : Option String)
  | apply (layout : Layout) (save? : Option String) (route : Route)
  | activate (sets : List String) (route : Route)
  | deactivate (sets : List String) (route : Route)
  | count (sets : List String)

/-! ## Answers -/

inductive Event where
  | callback (element : String)
  | prepare (element : String)
  | activate (constraints : Nat)
  | deactivate (constraints : Nat)
  deriving DecidableEq, Repr

def Event.text : Event → String
  | callback element => s!"callback {element}"
  | prepare element => s!"prepare {element}"
  | activate constraints => s!"activate {constraints}"
  | deactivate constraints => s!"deactivate {constraints}"

/-- The element a layout has asked about. -/
def Event.asked? : Event → Option String
  | callback element => some element
  | _ => none

inductive Outcome where
  | done
  /-- `asked?` lists the elements for which a chained layout asked. -/
  | compiled (asked? : Option (List String)) (result : Except Failure (List (Constraint String)))
  | counted (hits : Nat) (all : Bool)

structure Answer where
  outcome : Outcome
  events : List Event
  log? : Option (List Notice)
  engine : Engine String

/-! ## States -/

structure Session where
  container? : String → Option String
  bindings : String → Expression String
  saved : String → List (Constraint String)
  prepared : String → Nat
  engine : Engine String

/-- What compiling and installing work on: the engine, how often each element
has been prepared, and the events noted so far. -/
structure Site where
  engine : Engine String
  prepared : String → Nat
  events : List Event

/-- The site of a session, with no event yet. -/
def Session.site (s : Session) : Site := ⟨s.engine, s.prepared, []⟩

namespace Site

/-- The elements asked about, in order. -/
def asked (site : Site) : List String := site.events.filterMap Event.asked?

/-- Elements of a plain kind take no part in being prepared. -/
def prepare (plain : Bool) (element : String) (site : Site) : Site :=
  if plain then site
  else
    { site with
      prepared := update site.prepared element (site.prepared element + 1)
      events := site.events ++ [.prepare element] }

def sink : Sink String Site where
  activate batch site :=
    { site with
      engine := site.engine.activate batch
      events := site.events ++ [.activate batch.length] }
  deactivate batch site :=
    { site with
      engine := site.engine.deactivate batch
      events := site.events ++ [.deactivate batch.length] }

end Site

namespace Layout

/-- Whether the layout asks for expressions as it goes. -/
def asks : Layout → Bool
  | chained .. => true
  | _ => false

/-- The expressions for the element after `previous`; the site notes the question. -/
def ask (bindings : String → Expression String) (drafts : List (Draft Place))
    (special : List (String × List (Draft Place))) (previous : String) (site : Site) :
    List (Expression String) × Site :=
  (((special.lookup previous).getD drafts).map fun d =>
      (d.map (Place.resolve previous)).eval bindings,
    { site with events := site.events ++ [.callback previous] })

/-- Compiles the layout, on the site of the session. -/
def compile (s : Session) : Layout → Compilation String × Site
  | one element drafts =>
    (LayoutConstraints.compile s.container? element (drafts.map (·.eval s.bindings)), s.site)
  | all elements drafts =>
    (compileAll s.container? elements (drafts.map (·.eval s.bindings)), s.site)
  | chained elements drafts special =>
    compileChained s.container? (ask s.bindings drafts special) elements s.site

/-- Compiles and installs the layout, on the site of the session. -/
def apply (s : Session) (plain : Bool) (sink : Sink String Site) :
    Layout → Compilation String × Site
  | one element drafts =>
    LayoutConstraints.apply s.container? (Site.prepare plain) sink element
      (drafts.map (·.eval s.bindings)) s.site
  | all elements drafts =>
    applyAll s.container? (Site.prepare plain) sink elements (drafts.map (·.eval s.bindings)) s.site
  | chained elements drafts special =>
    applyChained s.container? (Site.prepare plain) sink (ask s.bindings drafts special) elements
      s.site

end Layout

namespace Session

/-- The tree given by pairs of an element and its container. -/
def ofTree (nodes : List (String × Option String)) : Session where
  container? name := (nodes.lookup name).join
  bindings _ := .blank
  saved _ := []
  prepared _ := 0
  engine := .empty

/-- The constraints of several saved sets, one after another. -/
def savedAll (s : Session) (sets : List String) : List (Constraint String) := sets.flatMap s.saved

/-- Saves the constraints of a compilation that did not fail. -/
def save (s : Session) (name? : Option String) (run : Compilation String) : Session :=
  match name?, run.result with
  | some name, .ok cs => { s with saved := update s.saved name cs }
  | _, _ => s

/-- Takes back the engine and the preparations. -/
def withSite (s : Session) (site : Site) : Session :=
  { s with engine := site.engine, prepared := site.prepared }

/-- What one instruction did. -/
structure Effect where
  next : Session
  outcome : Outcome
  events : List Event
  log : List Notice

/-- The effect of handing saved sets to the sink. -/
def Effect.ofSite (s : Session) (site : Site) : Effect :=
  ⟨s.withSite site, .done, site.events, []⟩

/-- The effect of a layout that has been compiled or applied. -/
def Effect.ofLayout (s : Session) (layout : Layout) (save? : Option String)
    (run : Compilation String × Site) : Effect where
  next := (s.withSite run.2).save save? run.1
  outcome := .compiled (if layout.asks then some run.2.asked else none) run.1.result
  events := run.2.events
  log := run.1.log

def perform (plain : Bool) (s : Session) : Instruction → Effect
  | .store name draft =>
    ⟨{ s with bindings := update s.bindings name (draft.eval s.bindings) }, .done, [], []⟩
  | .reparent element container? =>
    ⟨{ s with container? := update s.container? element container? }, .done, [], []⟩
  | .compile layout save? => .ofLayout s layout save? (layout.compile s)
  | .apply layout save? route =>
    .ofLayout s layout save? (layout.apply s plain (route.reach Site.sink))
  | .activate sets route =>
    .ofSite s ((route.reach Site.sink).activate (s.savedAll sets) s.site)
  | .deactivate sets route =>
    .ofSite s ((route.reach Site.sink).deactivate (s.savedAll sets) s.site)
  | .count sets =>
    let active := Engine.holds s.engine.active
    ⟨s, .counted ((s.savedAll sets).countP active) ((s.savedAll sets).all active), [], []⟩

/-- How a session is run: whether elements are of the plain kind, and
whether notices are wanted. -/
structure Mode where
  plain : Bool
  logged : Bool
  deriving DecidableEq, Repr

def step (mode : Mode) (s : Session) (i : Instruction) : Session × Answer :=
  let effect := s.perform mode.plain i
  (effect.next,
    { outcome := effect.outcome
      events := effect.events
      log? := if mode.logged then some effect.log else none
      engine := effect.next.engine })

/-- The session after the instructions, and the answer to each. -/
def run (mode : Mode) (s : Session) : List Instruction → Session × List Answer
  | [] => (s, [])
  | i :: is =>
    let first := s.step mode i
    let others := first.1.run mode is
    (others.1, first.2 :: others.2)

end Session

end LayoutConstraints
