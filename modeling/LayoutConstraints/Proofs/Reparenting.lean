import LayoutConstraints.Proofs.Chaining

/-!
# What follows an element to another container

An element may be put into another container after it has been laid out.
The container enters a constraint in one place only: it is the target where
the right-hand attribute is a real one and the expression names no target of
its own. So the same layout of the same element, in one container and then
in another, fails alike or gives constraints that agree position by position
in everything but these targets. One expression can give both kinds, as its
group on the right may hold `notAnAttribute` beside real attributes.

The containers of other elements enter nothing, and a constraint that has been
compiled is not looked at again.

**Results.** `Expression.follows_constraint` for one pair of attributes,
`Expression.exists_movedRow` for one expression and `compile_moved` for a
layout. `Session.run_reparents`: what is left of a session whose elements are
moved. Together they make `defaulted_targets_follow`.
-/
namespace LayoutConstraints

variable {ε : Type}

/-! ## Two containers -/

/-- Two constraints of one expression, the element first in `p` and then in
`q`. Where `p` and `q` are the same, a target that is named may be both. -/
structure Expression.Follows (e : Expression ε) (p q : ε) (before after : Constraint ε) :
    Prop where
  fields : after = { before with target? := after.target? }
  defaulted : before.targetAttribute ≠ .notAnAttribute → e.target? = none →
    before.target? = some p ∧ after.target? = some q
  settled : ¬ (before.targetAttribute ≠ .notAnAttribute ∧ e.target? = none) → after = before
  only : p ≠ q → before.target? = some p → after.target? = some q →
    before.targetAttribute ≠ .notAnAttribute ∧ e.target? = none

/-- The constraints of one expression in both containers, position by position. -/
structure Expression.MovedRow (element p q : ε) (e : Expression ε)
    (row : List (Constraint ε × Constraint ε)) : Prop where
  before : e.Row element p (row.map Prod.fst)
  after : e.Row element q (row.map Prod.snd)
  follows : ∀ pair ∈ row, e.Follows p q pair.1 pair.2

/-- How a layout of an element in `p` compares to that in `q`. -/
inductive Moved (element p q : ε) (es : List (Expression ε)) :
    Except Failure (List (Constraint ε)) → Except Failure (List (Constraint ε)) → Prop where
  | failed (f : Failure) : Moved element p q es (.error f) (.error f)
  | compiled {rows : List (List (Constraint ε × Constraint ε))}
    (h : List.Forall₂ (Expression.MovedRow element p q) es rows) :
    Moved element p q es (.ok (rows.flatten.map Prod.fst)) (.ok (rows.flatten.map Prod.snd))

namespace Expression

theorem follows_constraint (e : Expression ε) (element p q : ε) (a b : Attribute) :
    e.Follows p q (e.constraint element p a b) (e.constraint element q a b) where
  fields := rfl
  defaulted hb he := by
    have hreal : b.isReal = true := Attribute.isReal_iff.2 hb
    simp [constraint, hreal, he]
  settled h := by
    by_cases hb : b = .notAnAttribute
    · subst hb
      rfl
    · -- a target that is named is the same in both containers
      have he : e.target? ≠ none := fun he => h ⟨hb, he⟩
      obtain ⟨t, ht⟩ := Option.ne_none_iff_exists'.1 he
      simp only [constraint, ht, Option.getD_some]
  only hpq hp hq := by
    by_cases hb : b = .notAnAttribute
    · subst hb
      cases hp
    · refine ⟨hb, ?_⟩
      have hreal : b.isReal = true := Attribute.isReal_iff.2 hb
      cases he : e.target? with
      | none => rfl
      | some t =>
        simp only [constraint, hreal, he, if_true, Option.getD_some, Option.some.injEq] at hp hq
        exact absurd (hp.symm.trans hq) hpq

theorem exists_movedRow {element p : ε} {e : Expression ε} {cs : List (Constraint ε)}
    (h : e.Row element p cs) (q : ε) :
    ∃ row, e.MovedRow element p q row ∧ row.map Prod.fst = cs := by
  obtain ⟨as, has, rfl⟩ := row_iff.1 h
  let both (ab : Attribute × Attribute) : Constraint ε × Constraint ε :=
    (e.constraint element p ab.1 ab.2, e.constraint element q ab.1 ab.2)
  have hfst : ((as.zip e.targets).map both).map Prod.fst =
      as.zipWith (e.constraint element p) e.targets := by
    rw [List.map_map, ← List.map_uncurry_zip_eq_zipWith]
    rfl
  have hsnd : ((as.zip e.targets).map both).map Prod.snd =
      as.zipWith (e.constraint element q) e.targets := by
    rw [List.map_map, ← List.map_uncurry_zip_eq_zipWith]
    rfl
  refine ⟨(as.zip e.targets).map both, ⟨?_, ?_, ?_⟩, hfst⟩
  · exact row_iff.2 ⟨as, has, hfst⟩
  · exact row_iff.2 ⟨as, has, hsnd⟩
  · intro pair hpair
    obtain ⟨ab, -, rfl⟩ := List.mem_map.1 hpair
    exact e.follows_constraint element p q ab.1 ab.2

theorem exists_movedRows {element p : ε} {es : List (Expression ε)}
    {rows : List (List (Constraint ε))} (h : List.Forall₂ (Row element p) es rows) (q : ε) :
    ∃ moved, List.Forall₂ (MovedRow element p q) es moved ∧
      moved.map (List.map Prod.fst) = rows := by
  induction h with
  | nil => exact ⟨[], .nil, rfl⟩
  | cons hrow _ ih =>
    obtain ⟨row, hmoved, rfl⟩ := exists_movedRow hrow q
    obtain ⟨moved, hrest, rfl⟩ := ih
    exact ⟨row :: moved, .cons hmoved hrest, rfl⟩

end Expression

theorem compile_moved {container? other? : ε → Option ε} {element p q : ε}
    (hp : container? element = some p) (hq : other? element = some q) (es : List (Expression ε)) :
    Moved element p q es (compile container? element es).result
      (compile other? element es).result := by
  rw [compile_of_container hp, compile_of_container hq]
  cases h : (compileFrom element p 0 es).result with
  | error f =>
    -- which expression is undefined has nothing to do with a container
    have hfail : (compileFrom element q 0 es).result = .error f :=
      compileFrom_error.2 (compileFrom_error.1 h)
    rw [hfail]
    exact .failed f
  | ok cs =>
    obtain ⟨rows, hrows, rfl⟩ := compileFrom_ok.1 h
    obtain ⟨moved, hmoved, rfl⟩ := Expression.exists_movedRows hrows q
    have hafter : List.Forall₂ (Expression.Row element q) es (moved.map (List.map Prod.snd)) := by
      rw [List.forall₂_map_right_iff]
      exact hmoved.imp fun e row hrow => hrow.after
    rw [compileFrom_ok.2 ⟨_, hafter, rfl⟩, ← List.map_flatten, ← List.map_flatten]
    exact .compiled hmoved

/-! ## Other elements -/

/-- Where nothing but containers has changed, and none of an element it lays out, a
layout compiles to the same on the same site. -/
theorem Layout.compile_local {s later : Session} {layout : Layout}
    (hbindings : later.bindings = s.bindings) (hsite : later.site = s.site)
    (h : ∀ name ∈ layout.laidOut, later.container? name = s.container? name) :
    layout.compile later = layout.compile s := by
  obtain ⟨hrun, hasked⟩ := compile_congr hbindings h
  refine Prod.ext hrun ?_
  calc (layout.compile later).2
      = later.site.questioned (layout.compile later).2.asked := site_eq_questioned later layout
    _ = s.site.questioned (layout.compile s).2.asked := by rw [hsite, hasked]
    _ = (layout.compile s).2 := (site_eq_questioned s layout).symm

namespace Session

/-- Elements that are moved leave everything but the tree as it was, and there
the elements that are not moved. -/
theorem run_reparents (mode : Mode) (s : Session) {is : List Instruction}
    (h : ∀ i ∈ is, ∃ name parent?, i = .reparent name parent?) :
    (s.run mode is).1.bindings = s.bindings ∧ (s.run mode is).1.saved = s.saved ∧
      (s.run mode is).1.prepared = s.prepared ∧ (s.run mode is).1.engine = s.engine ∧
      ∀ name, (∀ parent?, .reparent name parent? ∉ is) →
        (s.run mode is).1.container? name = s.container? name := by
  induction is generalizing s with
  | nil => exact ⟨rfl, rfl, rfl, rfl, fun name _ => rfl⟩
  | cons i is ih =>
    obtain ⟨moved, parent?, rfl⟩ := h i List.mem_cons_self
    obtain ⟨hbindings, hsaved, hprepared, hengine, hcontainer⟩ :=
      ih (s.step mode (.reparent moved parent?)).1 fun j hj => h j (List.mem_cons_of_mem _ hj)
    refine ⟨hbindings, hsaved, hprepared, hengine, fun name hname => ?_⟩
    have hne : name ≠ moved := by
      rintro rfl
      exact hname parent? List.mem_cons_self
    have hlater := hcontainer name fun p hp => hname p (List.mem_cons_of_mem _ hp)
    exact hlater.trans (update_of_ne hne)

end Session

/-! ## What follows -/

/-- What is left of a session, and what its layouts compile to, once the
instructions `is` have moved some of its elements. -/
structure Session.Reparented (s : Session) (mode : Session.Mode) (is : List Instruction) :
    Prop where
  saved : (s.run mode is).1.saved = s.saved
  engine : (s.run mode is).1.engine = s.engine
  unmoved : ∀ layout : Layout,
    (∀ name ∈ layout.laidOut, ∀ parent?, .reparent name parent? ∉ is) →
    layout.compile (s.run mode is).1 = layout.compile s
  moved : ∀ element drafts p q, s.container? element = some p →
    (s.run mode is).1.container? element = some q →
    Moved element p q (drafts.map (·.eval s.bindings))
      (Layout.compile s (.one element drafts)).1.result
      (Layout.compile (s.run mode is).1 (.one element drafts)).1.result

/-- In what way layouts follow the containers of their elements. -/
structure DefaultedTargetsFollow (ε : Type) : Prop where
  moved : ∀ (container? other? : ε → Option ε) (element p q : ε) (es : List (Expression ε)),
    container? element = some p → other? element = some q →
    Moved element p q es (compile container? element es).result (compile other? element es).result
  others : ∀ (container? other? : ε → Option ε) (element : ε) (es : List (Expression ε)),
    other? element = container? element →
    compile other? element es = compile container? element es
  session : ∀ (s : Session) (mode : Session.Mode) (is : List Instruction),
    (∀ i ∈ is, ∃ name parent?, i = .reparent name parent?) → s.Reparented mode is

theorem Session.reparented {s : Session} {mode : Session.Mode} {is : List Instruction}
    (h : ∀ i ∈ is, ∃ name parent?, i = .reparent name parent?) : s.Reparented mode is := by
  obtain ⟨hbindings, hsaved, hprepared, hengine, hcontainer⟩ := run_reparents mode s h
  refine ⟨hsaved, hengine, ?_, ?_⟩
  · intro layout hlayout
    have hsite : (s.run mode is).1.site = s.site := by
      rw [site, site, hengine, hprepared]
    exact Layout.compile_local hbindings hsite fun name hname =>
      hcontainer name (hlayout name hname)
  · intro element drafts p q hp hq
    simp only [Layout.compile, hbindings]
    exact compile_moved hp hq _

/-- **Only defaulted targets follow the container.** The layout of an element
that is in one container, and then in another, fails alike or gives
constraints that differ in defaulted targets alone. Where other elements are
contained makes no difference. In a session the elements may be moved any
number of times: the saved and the active constraints stay as they are,
layouts of elements that are not moved compile as before, and those of an
element that is moved compare as above. -/
theorem defaulted_targets_follow : DefaultedTargetsFollow ε where
  moved _ _ _ _ _ es hp hq := compile_moved hp hq es
  others _ _ _ es h := compile_local h es
  session _ _ _ h := Session.reparented h

/-- A label with a fixed width, a left edge against its container and a top
edge against the view, which is its container at first. Once it stands in a
panel, the left edge alone is against the panel. What was installed before
stays as it is. -/
theorem defaulted_targets_follow_panel :
    let sides : Draft String := .start (.group [.width, .left] (some [.notAnAttribute, .left]))
    let top : Draft String := .adjust (.start (.single .top)) (.of "view")
    let layout := Layout.one "label" [sides, top]
    let mode : Session.Mode := ⟨false, false⟩
    let s := ((Session.ofTree [("view", none), ("panel", some "view"), ("label", some "view")]).run
      mode [.apply layout (some "frame") .direct]).1
    let later := (s.run mode [.reparent "label" (some "panel")]).1
    later.engine = s.engine ∧ later.saved = s.saved ∧
      Moved "label" "view" "panel" ([sides, top].map (·.eval s.bindings))
        (layout.compile s).1.result (layout.compile later).1.result ∧
      ∃ cs ds, (layout.compile s).1.result = .ok cs ∧ (layout.compile later).1.result = .ok ds ∧
        cs.map Constraint.target? = [none, some "view", some "view"] ∧
        ds.map Constraint.target? = [none, some "panel", some "view"] := by
  intro sides top layout mode s later
  have follow := (@defaulted_targets_follow String).session s mode
    [.reparent "label" (some "panel")] (by simp)
  exact ⟨follow.engine, follow.saved, follow.moved "label" [sides, top] "view" "panel" rfl rfl,
    _, _, rfl, rfl, rfl, rfl⟩

end LayoutConstraints
