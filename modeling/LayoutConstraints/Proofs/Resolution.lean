import LayoutConstraints.Compilation
import Mathlib.Data.List.Forall2

/-!
# What a layout resolves to

`compile` settles three questions in one pass: which failure is reported,
which attributes of an expression face each other, and what a pair of them
is bound to. Here each question has a rule of its own, read off the fields
of the expressions.

* `Lefts`, `Rights`: which stored attributes stand on a side when several
  are stored. On the left a group hides a single attribute. On the right an
  explicit side hides the mirrored one, and of the mirrored attributes the
  single one hides the group.
* `Row`: the constraints of one expression, one per position both sides
  have, with every field given.
* `FirstUndefined`: the least position of an expression without a left-hand
  side.

**Results.** `compile_outcome`: an element without a container fails before
its expressions are looked at; else the first undefined expression is
reported; else the constraints are the rows of the expressions in order.
`mem_compile`: each of them is one expression's, at two of its attributes
(`Expression.eq_constraint_of_row`).
-/
namespace LayoutConstraints

variable {ε : Type}

/-! ## Rules -/

namespace Expression

/-- The expression has no left-hand side. -/
def Undefined (e : Expression ε) : Prop := e.attribute? = none ∧ e.group? = none

/-- The attributes on the left. -/
inductive Lefts (e : Expression ε) : List Attribute → Prop where
  | group {as : List Attribute} (h : e.group? = some as) : Lefts e as
  | single {a : Attribute} (hg : e.group? = none) (h : e.attribute? = some a) : Lefts e [a]

/-- The attributes on the right. -/
inductive Rights (e : Expression ε) : List Attribute → Prop where
  | otherGroup {bs : List Attribute} (h : e.otherGroup? = some bs) : Rights e bs
  | otherSingle {b : Attribute} (hg : e.otherGroup? = none) (h : e.otherAttribute? = some b) :
    Rights e [b]
  | mirroredSingle {a : Attribute} (hg : e.otherGroup? = none) (hs : e.otherAttribute? = none)
    (h : e.attribute? = some a) : Rights e [a]
  | mirroredGroup {as : List Attribute} (hg : e.otherGroup? = none)
    (hs : e.otherAttribute? = none) (ha : e.attribute? = none) (h : e.group? = some as) :
    Rights e as

/-- The constraints of one expression for an element in a container. -/
def Row (element container : ε) (e : Expression ε) (cs : List (Constraint ε)) : Prop :=
  ∃ as bs : List Attribute, e.Lefts as ∧ e.Rights bs ∧ cs.length = min as.length bs.length ∧
    ∀ (k : Nat) (a b : Attribute), as[k]? = some a → bs[k]? = some b →
      cs[k]? = some
        ({ element := element
           sourceAttribute := a
           relation := e.relation?.getD .equal
           target? := if b = .notAnAttribute then none else some (e.target?.getD container)
           targetAttribute := b
           multiplier := e.multiplier?.getD .one
           constant := e.constant
           priority? := e.priority? } : Constraint ε)

end Expression

/-- `index` is the least position of an undefined expression. -/
def FirstUndefined (es : List (Expression ε)) (index : Nat) : Prop :=
  (∃ e, es[index]? = some e ∧ e.Undefined) ∧
    ∀ j, j < index → ∀ e, es[j]? = some e → ¬ e.Undefined

/-! ## One expression -/

namespace Expression

theorem lefts_iff {e : Expression ε} {as : List Attribute} : e.Lefts as ↔ e.sources? = some as := by
  unfold sources?
  refine ⟨fun h => ?_, fun h => ?_⟩
  · cases h with
    | group h => simp [h]
    | single hg h => simp [hg, h]
  · cases hg : e.group? with
    | some bs =>
      simp only [hg, Option.some.injEq] at h
      exact .group (hg.trans (congrArg some h))
    | none =>
      cases ha : e.attribute? with
      | none => simp [hg, ha] at h
      | some a =>
        simp only [hg, ha, Option.some.injEq] at h
        subst h
        exact .single hg ha

theorem undefined_iff {e : Expression ε} : e.Undefined ↔ e.sources? = none := by
  unfold Undefined sources?
  cases e.group? <;> cases e.attribute? <;> simp

theorem defined_of_sources {e : Expression ε} {as : List Attribute} (h : e.sources? = some as) :
    ¬ e.Undefined := by
  intro hu
  rw [undefined_iff.1 hu] at h
  cases h

/-- Only an undefined expression can have no rule for its right-hand side. -/
theorem rights_iff {e : Expression ε} {bs : List Attribute} (h : ¬ e.Undefined) :
    e.Rights bs ↔ e.targets = bs := by
  unfold targets
  refine ⟨fun hb => ?_, fun hb => ?_⟩
  · cases hb with
    | otherGroup h => simp [h]
    | otherSingle hg h => simp [hg, h]
    | mirroredSingle hg hs h => simp [hg, hs, h]
    | mirroredGroup hg hs ha h => simp [hg, hs, ha, h]
  · subst hb
    cases hg : e.otherGroup? with
    | some bs => exact .otherGroup hg
    | none =>
      cases hs : e.otherAttribute? with
      | some b => exact .otherSingle hg hs
      | none =>
        cases ha : e.attribute? with
        | some a => exact .mirroredSingle hg hs ha
        | none =>
          cases hl : e.group? with
          | some as => exact .mirroredGroup hg hs ha hl
          | none => exact absurd ⟨ha, hl⟩ h

/-- Whether a pair has a target, said of its right-hand attribute. -/
theorem target_eq (b : Attribute) (t : ε) :
    (if b.isReal then some t else none) = if b = .notAnAttribute then none else some t := by
  by_cases h : b = .notAnAttribute
  · subst h; rfl
  · rw [if_pos (Attribute.isReal_iff.2 h), if_neg h]

/-- A row is determined by its expression: the two sides zipped. -/
theorem row_iff {element container : ε} {e : Expression ε} {cs : List (Constraint ε)} :
    Row element container e cs ↔
      ∃ as, e.sources? = some as ∧ cs = as.zipWith (e.constraint element container) e.targets := by
  refine ⟨fun h => ?_, fun h => ?_⟩
  · obtain ⟨as, bs, hl, hr, hlen, hget⟩ := h
    have hs := lefts_iff.1 hl
    have hb := (rights_iff (defined_of_sources hs)).1 hr
    subst hb
    refine ⟨as, hs, List.ext_getElem? fun k => ?_⟩
    rw [List.getElem?_zipWith]
    cases ha : as[k]? with
    | none =>
      -- past the end of either side the length of the row decides
      rw [List.getElem?_eq_none_iff] at ha ⊢
      omega
    | some a =>
      cases hb : e.targets[k]? with
      | none =>
        rw [List.getElem?_eq_none_iff] at hb ⊢
        omega
      | some b =>
        rw [hget k a b ha hb]
        simp only [constraint, target_eq]
        rfl
  · obtain ⟨as, hs, rfl⟩ := h
    have hr := (rights_iff (defined_of_sources hs)).2 rfl
    refine ⟨as, e.targets, lefts_iff.2 hs, hr, List.length_zipWith, ?_⟩
    intro k a b ha hb
    rw [List.getElem?_zipWith, ha, hb]
    simp only [constraint, target_eq]
    rfl

theorem row_unique {element container : ε} {e : Expression ε} {cs ds : List (Constraint ε)}
    (hc : e.Row element container cs) (hd : e.Row element container ds) : cs = ds := by
  obtain ⟨as, has, rfl⟩ := row_iff.1 hc
  obtain ⟨bs, hbs, rfl⟩ := row_iff.1 hd
  rw [Option.some.inj (has.symm.trans hbs)]

/-- A row holds nothing but what its expression says of a pair of attributes. -/
theorem eq_constraint_of_row {element container : ε} {e : Expression ε} {cs : List (Constraint ε)}
    (h : e.Row element container cs) {c : Constraint ε} (hc : c ∈ cs) :
    ∃ a b, c = e.constraint element container a b := by
  obtain ⟨as, -, rfl⟩ := row_iff.1 h
  rw [← List.map_uncurry_zip_eq_zipWith] at hc
  obtain ⟨pair, -, rfl⟩ := List.mem_map.1 hc
  exact ⟨pair.1, pair.2, rfl⟩

theorem compile_ok {e : Expression ε} {element container : ε} {index : Nat}
    {cs : List (Constraint ε)} :
    (e.compile element container index).result = .ok cs ↔ Row element container e cs := by
  rw [row_iff]
  unfold compile
  cases e.sources? with
  | none => simp [Compilation.fail]
  | some as => simp [eq_comm]

theorem compile_error {e : Expression ε} {element container : ε} {index : Nat} {f : Failure} :
    (e.compile element container index).result = .error f ↔
      f = .undefinedAttribute index ∧ e.Undefined := by
  rw [undefined_iff]
  unfold compile
  cases e.sources? with
  | none => simp [Compilation.fail, eq_comm]
  | some as => simp

end Expression

/-! ## A list of expressions -/

theorem not_firstUndefined_nil (index : Nat) :
    ¬ FirstUndefined ([] : List (Expression ε)) index := by
  intro h
  obtain ⟨⟨e, he, -⟩, -⟩ := h
  simp at he

theorem firstUndefined_zero {e : Expression ε} {es : List (Expression ε)} :
    FirstUndefined (e :: es) 0 ↔ e.Undefined := by
  simp [FirstUndefined]

theorem firstUndefined_succ {e : Expression ε} {es : List (Expression ε)} {k : Nat} :
    FirstUndefined (e :: es) (k + 1) ↔ ¬ e.Undefined ∧ FirstUndefined es k := by
  unfold FirstUndefined
  refine ⟨fun h => ?_, fun h => ?_⟩
  · obtain ⟨⟨d, hd, hu⟩, hleast⟩ := h
    refine ⟨hleast 0 (by omega) e rfl, ⟨d, by simpa using hd, hu⟩, fun j hj c hc => ?_⟩
    exact hleast (j + 1) (by omega) c (by simpa using hc)
  · obtain ⟨he, ⟨d, hd, hu⟩, hleast⟩ := h
    refine ⟨⟨d, by simpa using hd, hu⟩, fun j hj c hc => ?_⟩
    cases j with
    | zero => simp only [List.getElem?_cons_zero, Option.some.injEq] at hc; rwa [← hc]
    | succ j => exact hleast j (by omega) c (by simpa using hc)

theorem firstUndefined_singleton {e : Expression ε} {index : Nat} :
    FirstUndefined [e] index ↔ index = 0 ∧ e.Undefined := by
  cases index with
  | zero => simp [firstUndefined_zero]
  | succ k => simp [firstUndefined_succ, not_firstUndefined_nil]

/-- The expression at a position is the first undefined one. -/
theorem firstUndefined_length {before after : List (Expression ε)} {e : Expression ε} :
    FirstUndefined (before ++ e :: after) before.length ↔
      e.Undefined ∧ ∀ d ∈ before, ¬ d.Undefined := by
  induction before with
  | nil => simp [firstUndefined_zero]
  | cons d before ih =>
    rw [List.cons_append, List.length_cons, firstUndefined_succ, ih, List.forall_mem_cons]
    exact and_left_comm

theorem compileFrom_append (element container : ε) (es es' : List (Expression ε)) (index : Nat) :
    compileFrom element container index (es ++ es') =
      compileFrom element container index es ++
        compileFrom element container (index + es.length) es' := by
  induction es generalizing index with
  | nil => exact (Compilation.empty_append _).symm
  | cons e es ih =>
    rw [List.cons_append, compileFrom, compileFrom, ih, Compilation.append_assoc, List.length_cons,
      Nat.add_assoc, Nat.add_comm 1]

/-- The rows of a list, wherever its numbering begins. -/
theorem compileFrom_ok {element container : ε} {es : List (Expression ε)} {index : Nat}
    {cs : List (Constraint ε)} :
    (compileFrom element container index es).result = .ok cs ↔
      ∃ rows, List.Forall₂ (Expression.Row element container) es rows ∧ cs = rows.flatten := by
  induction es generalizing index cs with
  | nil => simp [compileFrom, Compilation.empty, eq_comm]
  | cons e es ih =>
    rw [compileFrom, Compilation.result_append_ok]
    refine ⟨fun h => ?_, fun h => ?_⟩
    · obtain ⟨as, bs, ha, hb, rfl⟩ := h
      obtain ⟨rows, hrows, rfl⟩ := ih.1 hb
      exact ⟨as :: rows, .cons (Expression.compile_ok.1 ha) hrows, rfl⟩
    · obtain ⟨rows, hrows, rfl⟩ := h
      cases hrows with
      | cons he hes =>
        exact ⟨_, _, Expression.compile_ok.2 he, ih.2 ⟨_, hes, rfl⟩, rfl⟩

theorem compileFrom_error {element container : ε} {es : List (Expression ε)} {index : Nat}
    {f : Failure} :
    (compileFrom element container index es).result = .error f ↔
      ∃ k, f = .undefinedAttribute (index + k) ∧ FirstUndefined es k := by
  induction es generalizing index with
  | nil => simp [compileFrom, Compilation.empty, not_firstUndefined_nil]
  | cons e es ih =>
    rw [compileFrom, Compilation.result_append_error, Expression.compile_error, ih]
    refine ⟨fun h => ?_, fun h => ?_⟩
    · rcases h with ⟨rfl, he⟩ | ⟨⟨as, has⟩, k, rfl, hk⟩
      · exact ⟨0, rfl, firstUndefined_zero.2 he⟩
      · have hd : ¬ e.Undefined := fun h => by
          rw [Expression.compile_error.2 ⟨rfl, h⟩] at has; cases has
        exact ⟨k + 1, by rw [Nat.add_right_comm, Nat.add_assoc], firstUndefined_succ.2 ⟨hd, hk⟩⟩
    · obtain ⟨k, rfl, hk⟩ := h
      cases k with
      | zero => exact .inl ⟨rfl, firstUndefined_zero.1 hk⟩
      | succ k =>
        obtain ⟨hd, hk⟩ := firstUndefined_succ.1 hk
        refine .inr ⟨?_, k, by rw [Nat.add_right_comm, Nat.add_assoc], hk⟩
        cases h : (e.compile element container index).result with
        | ok as => exact ⟨as, rfl⟩
        | error g => exact absurd (Expression.compile_error.1 h).2 hd

theorem mem_compileFrom {element container : ε} {es : List (Expression ε)} {index : Nat}
    {cs : List (Constraint ε)} (h : (compileFrom element container index es).result = .ok cs)
    {c : Constraint ε} :
    c ∈ cs ↔ ∃ e ∈ es, ∃ row, e.Row element container row ∧ c ∈ row := by
  induction es generalizing index cs with
  | nil =>
    cases h
    simp
  | cons e es ih =>
    obtain ⟨as, bs, has, hbs, rfl⟩ := Compilation.result_append_ok.1 h
    have hrow : c ∈ as ↔ ∃ row, e.Row element container row ∧ c ∈ row := by
      have he := Expression.compile_ok.1 has
      refine ⟨fun hc => ⟨as, he, hc⟩, ?_⟩
      rintro ⟨row, hr, hc⟩
      rwa [Expression.row_unique he hr]
    rw [List.mem_append, hrow, ih hbs, List.exists_mem_cons_iff]

/-! ## The layout of one element -/

theorem compile_of_container {container? : ε → Option ε} {element container : ε}
    (h : container? element = some container) (es : List (Expression ε)) :
    (compile container? element es).result = (compileFrom element container 0 es).result := by
  rw [compile, h]
  exact Compilation.result_concluding _ _

theorem compile_of_no_container {container? : ε → Option ε} {element : ε}
    (h : container? element = none) (es : List (Expression ε)) :
    (compile container? element es).result = .error .missingContainer := by
  rw [compile, h]
  rfl

theorem compile_error {container? : ε → Option ε} {element : ε} {es : List (Expression ε)}
    {f : Failure} :
    (compile container? element es).result = .error f ↔
      f = .missingContainer ∧ container? element = none ∨
        ∃ index, f = .undefinedAttribute index ∧ container? element ≠ none ∧
          FirstUndefined es index := by
  cases h : container? element with
  | none =>
    rw [compile_of_no_container h]
    simp [eq_comm]
  | some container =>
    rw [compile_of_container h, compileFrom_error]
    simp

/-- No container is looked at but that of the element. -/
theorem compile_local {container? other? : ε → Option ε} {element : ε}
    (h : other? element = container? element) (es : List (Expression ε)) :
    compile other? element es = compile container? element es := by
  rw [compile, compile, h]

/-- In a layout an expression can be exchanged for one that compiles alike. -/
theorem compile_replace {e e' : Expression ε}
    (h : ∀ element container index,
      e.compile element container index = e'.compile element container index)
    (container? : ε → Option ε) (element : ε) (before after : List (Expression ε)) :
    compile container? element (before ++ e :: after) =
      compile container? element (before ++ e' :: after) := by
  unfold compile
  cases container? element with
  | none => rfl
  | some container =>
    simp only [compileFrom_append, compileFrom, h, List.length_append, List.length_cons]

theorem compile_singleton {container? : ε → Option ε} {element container : ε}
    (h : container? element = some container) {e : Expression ε} {as : List Attribute}
    (hs : e.sources? = some as) :
    (compile container? element [e]).result =
      .ok (as.zipWith (e.constraint element container) e.targets) := by
  rw [compile_of_container h, compileFrom_ok]
  exact ⟨[_], .cons (Expression.row_iff.2 ⟨as, hs, rfl⟩) .nil, by simp⟩

theorem compile_singleton_ok {container? : ε → Option ε} {element : ε} {e : Expression ε}
    {row : List (Constraint ε)} :
    (compile container? element [e]).result = .ok row ↔
      ∃ container, container? element = some container ∧ e.Row element container row := by
  cases h : container? element with
  | none =>
    rw [compile_of_no_container h]
    simp
  | some container =>
    rw [compile_of_container h, compileFrom_ok]
    simp [List.forall₂_cons_left_iff]

/-- A constraint of a layout is one that some expression gives on its own. -/
theorem mem_compile {container? : ε → Option ε} {element : ε} {es : List (Expression ε)}
    {cs : List (Constraint ε)} (h : (compile container? element es).result = .ok cs)
    {c : Constraint ε} :
    c ∈ cs ↔ ∃ e ∈ es, ∃ row, (compile container? element [e]).result = .ok row ∧ c ∈ row := by
  cases hcontainer : container? element with
  | none =>
    rw [compile_of_no_container hcontainer] at h
    cases h
  | some container =>
    rw [compile_of_container hcontainer] at h
    simp only [mem_compileFrom h, compile_singleton_ok, hcontainer, Option.some.injEq,
      exists_eq_left']

/-- **How a layout ends.** Without a container it always fails, and only then
in this way; with one it fails at the first undefined expression, if there
is one; else it gives the rows of its expressions, in order. -/
theorem compile_outcome (container? : ε → Option ε) (element : ε) (es : List (Expression ε)) :
    ((compile container? element es).result = .error .missingContainer ↔
      container? element = none) ∧
    (∀ index, (compile container? element es).result = .error (.undefinedAttribute index) ↔
      container? element ≠ none ∧ FirstUndefined es index) ∧
    (∀ cs, (compile container? element es).result = .ok cs ↔
      ∃ container, container? element = some container ∧
        ∃ rows, List.Forall₂ (Expression.Row element container) es rows ∧ cs = rows.flatten) := by
  cases h : container? element with
  | none =>
    rw [compile_of_no_container h]
    simp
  | some container =>
    rw [compile_of_container h]
    refine ⟨?_, fun index => ?_, fun cs => ?_⟩
    · rw [compileFrom_error]
      simp
    · rw [compileFrom_error]
      simp
    · rw [compileFrom_ok]
      simp

end LayoutConstraints
