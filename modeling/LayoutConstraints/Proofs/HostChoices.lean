import LayoutConstraints.Proofs.Installing
import Mathlib.Data.List.Forall2

/-!
# What a host chooses leaves the layout alone

Three things are up to the host: by which route each call reaches the sink,
whether its elements take part in being prepared, and whether it wants a log.
No instruction goes by any of them. The counters of preparations are the one
part of a session that such a choice changes, and nothing reads them.

So there is one session behind all choices: calls go straight to the engine,
elements are prepared, and a log is kept. What a host sees is that session
through its own choices, which leave out preparations, or the log, and
otherwise nothing (`Answer.under`, `Session.under`).

**Results.** `Session.perform_under` for one instruction and from it
`Session.run_under`: a run in any mode and by any routes is the run behind
it, seen in that mode. `Answer.matches_under`: how two views of one answer
differ. Together they make `Session.host_choices`.
-/
namespace LayoutConstraints

/-! ## Views -/

def Event.isPreparation : Event → Bool
  | prepare _ => true
  | _ => false

/-- The same instruction, straight to the engine. -/
def Instruction.directly : Instruction → Instruction
  | apply layout save? _ => apply layout save? .direct
  | activate sets _ => activate sets .direct
  | deactivate sets _ => deactivate sets .direct
  | i => i

namespace Session

/-- Elements are prepared, and a log is kept. -/
def Mode.full : Mode := ⟨false, true⟩

/-- What is left of the events where elements are not prepared. -/
def Mode.seen (mode : Mode) (events : List Event) : List Event :=
  if mode.plain then events.filter (!·.isPreparation) else events

/-- What a session run in full is in a mode; where elements are not prepared
the counters stay at `prepared`. -/
def under (mode : Mode) (prepared : String → Nat) (s : Session) : Session :=
  { s with prepared := if mode.plain then prepared else s.prepared }

/-- What the effect of an instruction in full is in a mode. -/
def Effect.under (mode : Mode) (prepared : String → Nat) (e : Effect) : Effect :=
  { e with next := e.next.under mode prepared, events := mode.seen e.events }

end Session

/-- What an answer given in full is in a mode. -/
def Answer.under (mode : Session.Mode) (a : Answer) : Answer :=
  { a with events := mode.seen a.events, log? := if mode.logged then a.log? else none }

/-- How the answers to one instruction in two modes compare. -/
structure Answer.Matches (mode mode' : Session.Mode) (a a' : Answer) : Prop where
  outcome : a.outcome = a'.outcome
  engine : a.engine = a'.engine
  events : mode.plain = mode'.plain → a.events = a'.events
  preparations : mode.plain = false → mode'.plain = true →
    a'.events = a.events.filter (!·.isPreparation)
  log : mode.logged = true → mode'.logged = true → ∃ log, a.log? = some log ∧ a'.log? = some log

theorem Answer.matches_under (mode mode' : Session.Mode) {a : Answer} {log : List Notice}
    (hlog : a.log? = some log) : Answer.Matches mode mode' (a.under mode) (a.under mode') where
  outcome := rfl
  engine := rfl
  events h := by simp only [under, Session.Mode.seen, h]
  preparations h h' := by
    simp only [under, Session.Mode.seen, h, h', Bool.false_eq_true, if_false, if_true]
  log h h' := ⟨log, by simp only [under, h, hlog, if_true], by simp only [under, h', hlog, if_true]⟩

namespace Session

/-! ## Events -/

namespace Mode

variable (mode : Mode)

theorem seen_append (events more : List Event) :
    mode.seen (events ++ more) = mode.seen events ++ mode.seen more := by
  unfold seen
  split
  · exact List.filter_append ..
  · rfl

theorem seen_eq_self {events : List Event} (h : ∀ event ∈ events, event.isPreparation = false) :
    mode.seen events = events := by
  unfold seen
  split
  · exact List.filter_eq_self.2 fun event hevent => by rw [h event hevent]; rfl
  · rfl

theorem seen_callbacks (elements : List String) :
    mode.seen (elements.map .callback) = elements.map .callback := by
  refine mode.seen_eq_self fun event h => ?_
  obtain ⟨element, -, rfl⟩ := List.mem_map.1 h
  rfl

theorem seen_preparations (elements : List String) :
    mode.seen (elements.map .prepare) = if mode.plain then [] else elements.map .prepare := by
  unfold seen
  split
  · refine List.filter_eq_nil_iff.2 fun event h => ?_
    obtain ⟨element, -, rfl⟩ := List.mem_map.1 h
    exact Bool.false_ne_true
  · rfl

end Mode

/-! ## One instruction -/

variable {mode : Mode} {prepared : String → Nat}

theorem save_under (s : Session) (name? : Option String) (run : Compilation String) :
    (s.under mode prepared).save name? run = (s.save name? run).under mode prepared := by
  unfold save
  split <;> rfl

/-- Compiling looks at no counter. -/
theorem compile_under (mode : Mode) (prepared : String → Nat) (s : Session) (layout : Layout) :
    (layout.compile (s.under mode prepared)).1 = (layout.compile s).1 ∧
      (layout.compile (s.under mode prepared)).2.asked = (layout.compile s).2.asked :=
  Layout.compile_congr rfl fun _ _ => rfl

theorem perform_compile_under (s : Session) (layout : Layout) (save? : Option String) :
    (s.under mode prepared).perform mode.plain (.compile layout save?) =
      (s.perform false (.compile layout save?)).under mode prepared := by
  obtain ⟨hrun, hasked⟩ := compile_under mode prepared s layout
  simp only [perform_compile, hrun, hasked, save_under, Effect.under, mode.seen_callbacks]

theorem perform_apply_under (s : Session) (layout : Layout) (save? : Option String)
    (route : Route) :
    (s.under mode prepared).perform mode.plain (.apply layout save? route) =
      (s.perform false (.apply layout save? .direct)).under mode prepared := by
  have hrun := (compile_under mode prepared s layout).1
  cases h : (layout.compile s).1.result with
  | error f =>
    rw [perform_apply_error h, perform_apply_error (hrun ▸ h)]
    exact perform_compile_under s layout save?
  | ok cs =>
    rw [perform_apply_ok h, perform_apply_ok (hrun ▸ h)]
    simp only [Effect.under, hrun, ← save_under, mode.seen_append, mode.seen_callbacks,
      mode.seen_preparations, Bool.false_eq_true, if_false]
    -- what is left is the same record once it is known whether elements are prepared
    obtain ⟨plain, logged⟩ := mode
    cases plain <;> rfl

/-- An instruction does in any mode and by any route what it does in full. -/
theorem perform_under (s : Session) (i : Instruction) :
    (s.under mode prepared).perform mode.plain i =
      (s.perform false i.directly).under mode prepared := by
  cases i with
  | store name draft | reparent element container? | count sets =>
    obtain ⟨plain, logged⟩ := mode
    cases plain <;> rfl
  | compile layout save? => exact perform_compile_under s layout save?
  | apply layout save? route => exact perform_apply_under s layout save? route
  | activate sets route | deactivate sets route =>
    obtain ⟨plain, logged⟩ := mode
    cases route <;> cases plain <;> rfl

theorem step_under (s : Session) (i : Instruction) :
    (s.under mode prepared).step mode i =
      ((s.step .full i.directly).1.under mode prepared, (s.step .full i.directly).2.under mode) := by
  have hfull : Mode.full.plain = false := rfl
  simp only [step, perform_under, hfull]
  rfl

/-! ## Whole sessions -/

/-- A run by any choices is the run in full, seen by these choices. -/
theorem run_under (s : Session) (is : List Instruction) :
    (s.under mode prepared).run mode is =
      ((s.run .full (is.map .directly)).1.under mode prepared,
        (s.run .full (is.map .directly)).2.map (Answer.under mode)) := by
  induction is generalizing s with
  | nil => rfl
  | cons i is ih => simp only [run, step_under, ih, List.map_cons]

theorem ofTree_under (nodes : List (String × Option String)) (mode : Mode) :
    (ofTree nodes).under mode (fun _ => 0) = ofTree nodes := by
  unfold under
  split <;> rfl

theorem run_logged (s : Session) (is : List Instruction) :
    ∀ a ∈ (s.run .full is).2, ∃ log, a.log? = some log := by
  induction is generalizing s with
  | nil => exact fun a ha => absurd ha List.not_mem_nil
  | cons i is ih => exact List.forall_mem_cons.2 ⟨⟨_, rfl⟩, ih _⟩

/-- How two runs of the same instructions compare that differ in what the host
chooses. -/
structure RunsMatch (mode mode' : Mode) (run run' : Session × List Answer) : Prop where
  answers : List.Forall₂ (Answer.Matches mode mode') run.2 run'.2
  container? : run.1.container? = run'.1.container?
  bindings : run.1.bindings = run'.1.bindings
  saved : run.1.saved = run'.1.saved
  engine : run.1.engine = run'.1.engine
  prepared : mode.plain = mode'.plain → run.1.prepared = run'.1.prepared
  unprepared : mode.plain = true → ∀ name, run.1.prepared name = 0

/-- **A host's choices.** Two runs of the same instructions, by whatever
routes, with and without preparations or a log, give answers with the same
outcomes and the same engine, one by one. Their events are the same, except
that without preparations just these are missing, and so is the log where
both keep one. The runs end with the same tree, bindings, saved sets and
engine; and the counters are the same too, or all zero without preparations. -/
theorem host_choices (nodes : List (String × Option String)) (mode mode' : Mode)
    (is is' : List Instruction) (h : is.map Instruction.directly = is'.map Instruction.directly) :
    RunsMatch mode mode' ((ofTree nodes).run mode is) ((ofTree nodes).run mode' is') := by
  let full := (ofTree nodes).run .full (is.map .directly)
  have hrun : (ofTree nodes).run mode is =
      (full.1.under mode fun _ => 0, full.2.map (Answer.under mode)) := by
    rw [← run_under, ofTree_under]
  have hrun' : (ofTree nodes).run mode' is' =
      (full.1.under mode' fun _ => 0, full.2.map (Answer.under mode')) := by
    simp only [full, h]
    rw [← run_under, ofTree_under]
  rw [hrun, hrun']
  refine ⟨?_, rfl, rfl, rfl, rfl, fun hplain => ?_, fun hplain name => ?_⟩
  · rw [List.forall₂_map_left_iff, List.forall₂_map_right_iff, List.forall₂_same]
    intro a ha
    obtain ⟨log, hlog⟩ := run_logged _ _ a ha
    exact Answer.matches_under mode mode' hlog
  · simp only [under, hplain]
  · simp only [under, hplain, if_true]

/-- The same layout installed by reference among plain elements without a log,
and by dispatch among elements that are prepared: one event more. -/
theorem host_choices_plain :
    let i (route : Route) := Instruction.apply (.one "label" [.start (.single .top)]) none route
    let nodes := [("view", none), ("label", some "view")]
    let run := (ofTree nodes).run ⟨false, true⟩ [i .dispatched]
    let run' := (ofTree nodes).run ⟨true, false⟩ [i .forwarded]
    run.2.map Answer.events = [[.prepare "label", .activate 1]] ∧
      run'.2.map Answer.events = [[.activate 1]] ∧
      List.Forall₂ (Answer.Matches ⟨false, true⟩ ⟨true, false⟩) run.2 run'.2 ∧
      run.1.engine = run'.1.engine := by
  intro i nodes run run'
  have same := host_choices nodes ⟨false, true⟩ ⟨true, false⟩ [i .dispatched] [i .forwarded] rfl
  exact ⟨rfl, rfl, same.answers, same.engine⟩

end Session

end LayoutConstraints
