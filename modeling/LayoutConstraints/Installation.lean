import LayoutConstraints.Compilation

/-!
# Installing layouts

Installing a layout compiles it and, if that succeeds, prepares each
element that was laid out and hands all constraints to a sink in one batch.
If it fails, nothing is prepared and the sink is not called. The
constraints are returned, so that the same batch can be withdrawn later.

A host says what preparing an element and handing over a batch do to a
state `σ`. In a chained layout it is also the host that is asked, and its
answers may depend on that state and change it; so whatever is done to a
host is done to one state, in the order in which it happens. Where elements
are contained is no part of the state and stays fixed for the whole call.

A sink can be reached directly or through another that passes every call
on; `Route` lists the ways.

**Results.** `install_of_error`: a failed compilation leaves the state as it
was.
-/
namespace LayoutConstraints

variable {ε σ : Type}

/-- Where constraints are handed over and withdrawn. Mirrors `ConstraintSink`. -/
structure Sink (ε σ : Type) where
  activate : List (Constraint ε) → σ → σ
  deactivate : List (Constraint ε) → σ → σ

/-- A sink that passes every call on to another. -/
def Sink.forward (sink : Sink ε σ) : Sink ε σ where
  activate batch s := sink.activate batch s
  deactivate batch s := sink.deactivate batch s

/-- How a sink is reached. -/
inductive Route where
  | direct
  | forwarded
  | dispatched
  deriving DecidableEq, Repr

def Route.reach : Route → Sink ε σ → Sink ε σ
  | direct, sink => sink
  | forwarded, sink => sink.forward
  | dispatched, sink => sink.forward

theorem Route.reach_eq (route : Route) (sink : Sink ε σ) : route.reach sink = sink := by
  cases route <;> rfl

/-- Commits a compilation that laid out `elements`: `prepare_for_layout` for each
of them, then `activate`. -/
def install (prepare : ε → σ → σ) (sink : Sink ε σ) (elements : List ε) (run : Compilation ε)
    (s : σ) : Compilation ε × σ :=
  match run.result with
  | .error _ => (run, s)
  | .ok cs =>
    (run.concluding fun cs => .activating cs.length,
      sink.activate cs (elements.foldl (fun s e => prepare e s) s))

theorem install_of_error {prepare : ε → σ → σ} {sink : Sink ε σ} {elements : List ε}
    {run : Compilation ε} {s : σ} {f : Failure} (h : run.result = .error f) :
    install prepare sink elements run s = (run, s) := by
  simp [install, h]

/-! ## The three forms -/

/-- Mirrors `apply`. -/
def apply (container? : ε → Option ε) (prepare : ε → σ → σ) (sink : Sink ε σ) (element : ε)
    (es : List (Expression ε)) (s : σ) : Compilation ε × σ :=
  install prepare sink [element] (compile container? element es) s

/-- Mirrors `apply_all`. -/
def applyAll (container? : ε → Option ε) (prepare : ε → σ → σ) (sink : Sink ε σ)
    (elements : List ε) (es : List (Expression ε)) (s : σ) : Compilation ε × σ :=
  install prepare sink elements (compileAll container? elements es) s

/-- The questions are put to the host that is then prepared. The first element is
not laid out, so it is not prepared either. Mirrors `apply_with_previous`. -/
def applyChained (container? : ε → Option ε) (prepare : ε → σ → σ) (sink : Sink ε σ)
    (layout : ε → σ → List (Expression ε) × σ) (elements : List ε) (s : σ) : Compilation ε × σ :=
  let compiled := compileChained container? layout elements s
  install prepare sink elements.tail compiled.1 compiled.2

end LayoutConstraints
