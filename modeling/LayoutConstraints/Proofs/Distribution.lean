import LayoutConstraints.Proofs.Batching

/-!
# Two ways to lay out a list alike

The same expressions reach many elements in two ways: one layout for all of
them, or a chain whose callback says the same whoever it is asked about.
The chain lays out each element but the first. So it does what the layout for all
does to the list without its first element: it ends alike, reports alike,
and makes the same calls on its host. With one element or none nothing is
laid out, and the host is given one empty batch all the same.

Nothing but the questions is left of the difference. The chain does to the
host they have left what the layout for all does to the host as it was. So
wherever no question writes, both leave the same. In a session the questions
are events of their own, before those that both ways share.

**Results.** `Job.chain_same`: the jobs of both are the same.
`applyChained_same` for any host, `Session.step_same` for a session,
`Layout.ask_named` for drafts that do not mention the element before. Together
they make `distribution_agrees`.
-/
namespace LayoutConstraints

variable {ε σ τ : Type}

/-! ## Jobs -/

theorem Job.chain_same (es : List (Expression ε)) (elements : List ε) :
    chain (fun _ => es) elements = common elements.tail es := by
  induction elements using pair_induction with
  | nil | single => rfl
  | pair previous element rest ih => exact congrArg (Job.mk element es :: ·) ih

theorem compileChained_same (container? : ε → Option ε)
    {callback : ε → σ → List (Expression ε) × σ} {es : List (Expression ε)}
    (hanswer : ∀ e s, (callback e s).1 = es) (elements : List ε) (s : σ) :
    (compileChained container? callback elements s).1 = compileAll container? elements.tail es := by
  rw [compileChained_eq container? hanswer, Job.chain_same, compileAll_eq]

/-- The chain goes on with the host its questions have left. -/
theorem applyChained_same (container? : ε → Option ε) (prepare : ε → σ → σ) (sink : Sink ε σ)
    {callback : ε → σ → List (Expression ε) × σ} {es : List (Expression ε)}
    (hanswer : ∀ e s, (callback e s).1 = es) (elements : List ε) (s : σ) :
    ∃ asked, asked <+: elements.dropLast ∧
      applyChained container? prepare sink callback elements s =
        applyAll container? prepare sink elements.tail es (stateAfter callback asked s) := by
  obtain ⟨asked, hprefix, hstate, -⟩ := compileChained_asked container? callback elements s
  refine ⟨asked, hprefix, ?_⟩
  rw [applyChained, applyAll, compileChained_same container? hanswer, hstate]

/-! ## Drafts -/

theorem Draft.resolve_named (previous : String) (d : Draft String) :
    (d.map Place.named).map (Place.resolve previous) = d := by
  induction d with
  | start s => rfl
  | stored name => rfl
  | adjust base a ih =>
    have ha : (a.map Place.named).map (Place.resolve previous) = a := by
      cases a <;> rfl
    rw [map, map, ih, ha]
  | relate base r operand ihb iho => rw [map, map, ihb, iho]

/-- Drafts that name their elements say the same whoever comes before. -/
theorem Layout.ask_named (bindings : String → Expression String) (drafts : List (Draft String))
    (previous : String) (site : Site) :
    (ask bindings (drafts.map (Draft.map .named)) [] previous site).1 =
      drafts.map (·.eval bindings) := by
  simp only [ask, List.lookup_nil, Option.getD_none, List.map_map, Function.comp_def,
    Draft.resolve_named]

/-! ## Sessions -/

namespace Session

/-- What one instruction does is what another does after some questions. -/
structure AlikeButQuestions (chained all : Session × Answer) : Prop where
  session : chained.1 = all.1
  engine : chained.2.engine = all.2.engine
  outcome : ∃ asked result, chained.2.outcome = .compiled (some asked) result ∧
    all.2.outcome = .compiled none result ∧ chained.2.events = asked.map .callback ++ all.2.events
  log : chained.2.log? = all.2.log?

theorem step_same {s : Session} (mode : Mode) {drafts : List (Draft Place)}
    {special : List (String × List (Draft Place))} {shared : List (Draft String)}
    (hask : ∀ previous site,
      (Layout.ask s.bindings drafts special previous site).1 = shared.map (·.eval s.bindings))
    (elements : List String) (save? : Option String) (route route' : Route) :
    AlikeButQuestions (s.step mode (.apply (.chained elements drafts special) save? route))
      (s.step mode (.apply (.all elements.tail shared) save? route')) := by
  have hrun : (Layout.compile s (.chained elements drafts special)).1 =
      (Layout.compile s (.all elements.tail shared)).1 :=
    compileChained_same s.container? hask elements s.site
  cases h : (Layout.compile s (.all elements.tail shared)).1.result with
  | error f =>
    simp only [step, perform_apply_error h, perform_apply_error (hrun ▸ h), perform_compile, hrun]
    exact ⟨rfl, rfl, ⟨_, _, rfl, rfl, (List.append_nil _).symm⟩, rfl⟩
  | ok cs =>
    simp only [step, perform_apply_ok h, perform_apply_ok (hrun ▸ h), hrun]
    exact ⟨rfl, rfl, ⟨_, _, rfl, rfl, by simp [Layout.questions, Layout.laidOut]⟩, rfl⟩

end Session

/-! ## Both ways -/

/-- How a chain whose callback always answers `es` compares to the layout of all
elements but the first by `es`, on a host of which no question changes what
`view` shows. -/
structure Distributed (container? : ε → Option ε) (view : σ → τ) (prepare : ε → σ → σ)
    (sink : Sink ε σ) (callback : ε → σ → List (Expression ε) × σ) (es : List (Expression ε))
    (elements : List ε) (host : σ) : Prop where
  compiled : (compileChained container? callback elements host).1 =
    compileAll container? elements.tail es
  /-- The one difference is that the chain goes on with the host it has asked. -/
  asked : ∃ asked, asked <+: elements.dropLast ∧
    applyChained container? prepare sink callback elements host =
      applyAll container? prepare sink elements.tail es (stateAfter callback asked host)
  applied : (applyChained container? prepare sink callback elements host).map id view =
    (applyAll container? prepare sink elements.tail es host).map id view
  success : ∀ cs, (applyAll container? prepare sink elements.tail es host).1.result = .ok cs →
    (applyAll container? prepare sink elements.tail es host).2 =
      (Call.commit elements.tail cs).foldl (Call.perform prepare sink) host
  failure : ∀ f, (applyAll container? prepare sink elements.tail es host).1.result = .error f →
    (applyAll container? prepare sink elements.tail es host).2 = host
  short : elements.length ≤ 1 →
    (applyAll container? prepare sink elements.tail es host).1.result = .ok [] ∧
      (applyAll container? prepare sink elements.tail es host).2 = sink.activate [] host
  session : ∀ (s : Session) (mode : Session.Mode) (names : List String)
    (drafts : List (Draft Place)) (special : List (String × List (Draft Place)))
    (shared : List (Draft String)) (save? : Option String) (route route' : Route),
    (∀ previous site,
      (Layout.ask s.bindings drafts special previous site).1 = shared.map (·.eval s.bindings)) →
    Session.AlikeButQuestions
      (s.step mode (.apply (.chained names drafts special) save? route))
      (s.step mode (.apply (.all names.tail shared) save? route'))

/-- **Two ways agree.** A chain whose callback always answers the same compiles to
what one layout for all elements but the first compiles to, the log
included. Applied to any host in any state it ends alike, and leaves the host
alike wherever no question writes: on success these elements have been
prepared in order and one batch has been activated, an empty one where there
is at most one element; on failure nothing has been done. In a session the
two have the same effect but for the questions. -/
theorem distribution_agrees (container? : ε → Option ε) {view : σ → τ} {prepare : ε → σ → σ}
    {sink : Sink ε σ} {inner : ε → τ → τ} {innerSink : Sink ε τ}
    (hcarries : Carries view prepare sink inner innerSink)
    {callback : ε → σ → List (Expression ε) × σ} {es : List (Expression ε)}
    (hanswer : ∀ e s, (callback e s).1 = es) (hquiet : ∀ e s, view (callback e s).2 = view s)
    (elements : List ε) (host : σ) :
    Distributed container? view prepare sink callback es elements host where
  compiled := compileChained_same container? hanswer elements host
  asked := applyChained_same container? prepare sink hanswer elements host
  applied := by
    obtain ⟨asked, -, hasked⟩ := applyChained_same container? prepare sink hanswer elements host
    rw [hasked, applyAll, applyAll, hcarries.install, hcarries.install,
      stateAfter_kept view hquiet]
  success _ h := install_ok ((result_install ..).symm.trans h)
  failure _ h := applyAll_failed h
  short hlength := by
    have htail : elements.tail = [] := by
      rw [← List.length_eq_zero_iff, List.length_tail]
      omega
    rw [htail]
    exact ⟨rfl, rfl⟩
  session _ mode names _ _ _ save? route route' hask :=
    Session.step_same mode hask names save? route route'

/-- A chain that lists one element twice and is applied in a session; and a
chain of the root alone, on a host that counts its questions beside the site. -/
theorem distribution_agrees_repeated :
    let s := Session.ofTree [("view", none), ("label", some "view")]
    let callback := fun (_ : String) (host : Nat × Site) =>
      (([.ofAttribute .top] : List (Expression String)), host.1 + 1, host.2)
    let sink : Sink String (Nat × Site) :=
      ⟨fun batch host => (host.1, Site.sink.activate batch host.2),
        fun batch host => (host.1, Site.sink.deactivate batch host.2)⟩
    let edge : List (Draft String) := [.start (.single .top)]
    let chained := s.step ⟨false, true⟩
      (.apply (.chained ["view", "label", "label"] (edge.map (Draft.map .named)) []) none .direct)
    let all := s.step ⟨false, true⟩ (.apply (.all ["label", "label"] edge) none .direct)
    chained.1 = all.1 ∧
      all.2.events = [.prepare "label", .prepare "label", .activate 2] ∧
      (applyChained s.container? (fun e host => (host.1, Site.prepare false e host.2)) sink callback
        ["view"] (0, s.site)).2.2.events = [.activate 0] := by
  intro s callback sink edge chained all
  have hcarries : Carries Prod.snd (fun e (host : Nat × Site) =>
      (host.1, Site.prepare false e host.2)) sink (Site.prepare false) Site.sink :=
    ⟨fun _ _ => rfl, fun _ _ => rfl⟩
  have agree := distribution_agrees s.container? hcarries
    (fun _ _ => rfl : ∀ e host, (callback e host).1 = [.ofAttribute .top]) (fun _ _ => rfl)
    ["view"] (0, s.site)
  have hsame := agree.session s ⟨false, true⟩ ["view", "label", "label"]
    (edge.map (Draft.map .named)) [] edge none .direct .direct (Layout.ask_named s.bindings edge)
  have hhost := congrArg Prod.snd agree.applied
  rw [Prod.map_snd, Prod.map_snd, (agree.short (Nat.le_refl 1)).2] at hhost
  exact ⟨hsame.session, rfl, congrArg Site.events hhost⟩

end LayoutConstraints
