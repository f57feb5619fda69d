import LayoutConstraints.Proofs.Resolution
import LayoutConstraints.Session

/-!
# What a chained layout asks

While it compiles, a chained layout does nothing to its host but put
questions to it: about the elements from the first on, in order, never about
the last, and about all but the last if nothing fails. So the state it
leaves is the one these questions leave (`stateAfter`), whatever the host
makes of them. The other two forms do not see their host at all.

In a session a question is an event and nothing else. What a layout compiles
to goes by the bindings and by where the elements it lays out are contained,
not by what is in force or has happened before.

**Results.** `compileChained_asked`: the state that compiling leaves.
`compileChained_related`: hosts that answer alike. `Layout.compile_site`: the
site that compiling leaves in a session. `Layout.compile_congr`: what a layout
in a session looks at.
-/
namespace LayoutConstraints

variable {ε σ τ : Type}

/-- Along a list two elements at a time, as a chained layout goes. -/
@[elab_as_elim]
theorem pair_induction {motive : List ε → Prop} (nil : motive []) (single : ∀ e, motive [e])
    (pair : ∀ previous element rest, motive (element :: rest) →
      motive (previous :: element :: rest)) (elements : List ε) : motive elements := by
  induction elements with
  | nil => exact nil
  | cons previous rest ih =>
    cases rest with
    | nil => exact single previous
    | cons element rest => exact pair previous element rest ih

/-! ## Any host -/

/-- The state of a host once it has been asked about these elements. -/
def stateAfter (callback : ε → σ → List (Expression ε) × σ) (asked : List ε) (s : σ) : σ :=
  asked.foldl (fun s e => (callback e s).2) s

/-- What no question changes is the same after several. -/
theorem stateAfter_kept {callback : ε → σ → List (Expression ε) × σ} (observe : σ → τ)
    (h : ∀ e s, observe (callback e s).2 = observe s) (asked : List ε) (s : σ) :
    observe (stateAfter callback asked s) = observe s := by
  induction asked generalizing s with
  | nil => rfl
  | cons e asked ih => exact (ih (callback e s).2).trans (h e s)

section

variable {container? other? : ε → Option ε} {callback : ε → σ → List (Expression ε) × σ}
  {elements : List ε}

/-- The host has been asked, from the first element on, and nothing else has been
done to it. -/
theorem compileChained_asked (container? : ε → Option ε)
    (callback : ε → σ → List (Expression ε) × σ) (elements : List ε) (s : σ) :
    ∃ asked, asked <+: elements.dropLast ∧
      (compileChained container? callback elements s).2 = stateAfter callback asked s ∧
      ∀ cs, (compileChained container? callback elements s).1.result = .ok cs →
        asked = elements.dropLast := by
  induction elements using pair_induction generalizing s with
  -- A single element has nobody to follow it, so it is not asked about.
  | nil | single => exact ⟨[], List.nil_prefix, rfl, fun _ _ => rfl⟩
  | pair previous element rest ih =>
    simp only [compileChained, List.dropLast_cons_cons]
    cases hfirst : (compile container? element (callback previous s).1).result with
    | error f =>
      refine ⟨[previous], ⟨_, rfl⟩, rfl, fun cs h => ?_⟩
      rw [hfirst] at h
      cases h
    | ok as =>
      obtain ⟨asked, hprefix, hstate, hall⟩ := ih (callback previous s).2
      refine ⟨previous :: asked, List.cons_prefix_cons.2 ⟨rfl, hprefix⟩, hstate, fun cs h => ?_⟩
      obtain ⟨-, bs, -, hrest, -⟩ := Compilation.result_append_ok.1 h
      rw [hall bs hrest]

/-- A chain compiles alike on two hosts whose states stay related, if related
states give the same answers. -/
theorem compileChained_related {other : ε → τ → List (Expression ε) × τ} {R : σ → τ → Prop}
    (hanswer : ∀ e s t, R s t → (callback e s).1 = (other e t).1)
    (hstate : ∀ e s t, R s t → R (callback e s).2 (other e t).2) {s : σ} {t : τ} (h : R s t) :
    (compileChained container? callback elements s).1 =
        (compileChained container? other elements t).1 ∧
      R (compileChained container? callback elements s).2
        (compileChained container? other elements t).2 := by
  induction elements using pair_induction generalizing s t with
  | nil | single => exact ⟨rfl, h⟩
  | pair previous element rest ih =>
    have hnext := hstate previous s t h
    simp only [compileChained, hanswer previous s t h]
    cases (compile container? element (other previous t).1).result with
    | error f => exact ⟨rfl, hnext⟩
    | ok as => exact ⟨congrArg (_ ++ ·) (ih hnext).1, (ih hnext).2⟩

/-! ## Containers -/

theorem compileAll_local (h : ∀ e ∈ elements, other? e = container? e)
    (es : List (Expression ε)) :
    compileAll other? elements es = compileAll container? elements es := by
  induction elements with
  | nil => rfl
  | cons element rest ih =>
    rw [compileAll, compileAll, compile_local (h element List.mem_cons_self),
      ih fun e he => h e (List.mem_cons_of_mem element he)]

/-- Containers matter of the elements that are laid out, and the first is not. -/
theorem compileChained_local (h : ∀ e ∈ elements.tail, other? e = container? e) (s : σ) :
    compileChained other? callback elements s = compileChained container? callback elements s := by
  induction elements using pair_induction generalizing s with
  | nil | single => rfl
  | pair previous element rest ih =>
    simp only [compileChained, compile_local (h element List.mem_cons_self),
      ih fun e he => h e (List.mem_cons_of_mem element he)]

end

/-! ## The site of a session -/

namespace Site

/-- The site after a layout has asked about these elements. -/
def questioned (names : List String) (site : Site) : Site :=
  { site with events := site.events ++ names.map .callback }

@[simp]
theorem asked_questioned (names : List String) (site : Site) :
    (site.questioned names).asked = site.asked ++ names := by
  simp [questioned, asked, List.filterMap_map, Function.comp_def, Event.asked?]

end Site

namespace Layout

/-- The elements a layout is for; the first of a chain only has a successor. -/
def laidOut : Layout → List String
  | one element _ => [element]
  | all elements _ => elements
  | chained elements _ _ => elements.tail

/-- The elements a layout asks about, if nothing fails. -/
def questions : Layout → List String
  | chained elements _ _ => elements.dropLast
  | _ => []

theorem stateAfter_ask (bindings : String → Expression String) (drafts : List (Draft Place))
    (special : List (String × List (Draft Place))) (names : List String) (site : Site) :
    stateAfter (ask bindings drafts special) names site = site.questioned names := by
  induction names generalizing site with
  | nil => simp [stateAfter, Site.questioned]
  | cons name names ih =>
    have hrest := ih (ask bindings drafts special name site).2
    simpa [stateAfter, Site.questioned, ask] using hrest

/-- Compiling a layout leaves nothing on the site but its questions. -/
theorem compile_site (s : Session) (layout : Layout) :
    ∃ names, names <+: layout.questions ∧
      (layout.compile s).2 = s.site.questioned names ∧
      ∀ cs, (layout.compile s).1.result = .ok cs → names = layout.questions := by
  have hnone : s.site = s.site.questioned [] := by simp [Site.questioned]
  cases layout with
  | one element drafts | all elements drafts => exact ⟨[], List.nil_prefix, hnone, fun _ _ => rfl⟩
  | chained elements drafts special =>
    obtain ⟨names, hprefix, hstate, hall⟩ :=
      compileChained_asked s.container? (ask s.bindings drafts special) elements s.site
    rw [stateAfter_ask] at hstate
    exact ⟨names, hprefix, hstate, hall⟩

theorem asked_of_site {s : Session} {layout : Layout} {names : List String}
    (h : (layout.compile s).2 = s.site.questioned names) : (layout.compile s).2.asked = names := by
  rw [h, Site.asked_questioned]
  rfl

/-- What has been asked about is all there is to know about the site. -/
theorem site_eq_questioned (s : Session) (layout : Layout) :
    (layout.compile s).2 = s.site.questioned (layout.compile s).2.asked := by
  obtain ⟨names, -, hsite, -⟩ := layout.compile_site s
  rw [asked_of_site hsite, hsite]

theorem compile_questions {s : Session} {layout : Layout} {cs : List (Constraint String)}
    (h : (layout.compile s).1.result = .ok cs) :
    (layout.compile s).2 = s.site.questioned layout.questions := by
  obtain ⟨names, -, hsite, hall⟩ := layout.compile_site s
  rw [hsite, hall cs h]

/-- A layout looks at the bindings, and at the containers of the elements it
lays out. -/
theorem compile_congr {s later : Session} {layout : Layout}
    (hbindings : later.bindings = s.bindings)
    (h : ∀ name ∈ layout.laidOut, later.container? name = s.container? name) :
    (layout.compile later).1 = (layout.compile s).1 ∧
      (layout.compile later).2.asked = (layout.compile s).2.asked := by
  cases layout with
  | one element drafts =>
    refine ⟨?_, rfl⟩
    simp only [compile, hbindings, LayoutConstraints.compile_local (h element List.mem_cons_self)]
  | all elements drafts =>
    refine ⟨?_, rfl⟩
    simp only [compile, hbindings]
    exact compileAll_local h _
  | chained elements drafts special =>
    have hnoted (e : String) (site : Site) :
        (ask s.bindings drafts special e site).2.asked = site.asked ++ [e] :=
      site.asked_questioned [e]
    simp only [compile, hbindings]
    rw [compileChained_local h]
    refine compileChained_related (R := fun (a b : Site) => a.asked = b.asked) ?_ ?_ rfl
    · exact fun _ _ _ _ => rfl
    · intro e a b hsame
      rw [hnoted, hnoted, hsame]

end Layout

end LayoutConstraints
