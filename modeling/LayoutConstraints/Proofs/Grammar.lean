import LayoutConstraints.Document
import Mathlib.Data.List.Nodup

/-!
# What is read as a constraint

`Constraint.Reads d c` is the grammar: the document `d` spells the
constraint `c`. It speaks of the entries of an object by membership alone,
so neither their order nor an entry under another key can matter.

* Eight values spell a constraint (`Values.Spell`): a text, three tokens,
  two numbers, and a target and a priority which may be `null`.
* In an object each of them stands under its key. A target or a priority
  which is `null` may also be missing.
* In an array they are the items, in the order of the fields.

Nothing else is read. In an object two entries under one key would leave it
to their order which of them counts, so keys are assumed to be distinct. No
such assumption is made on objects further down: one that is read has a
single key.

**Results.** One lemma for each kind of value, `Values.read_iff` for the eight
together, `ofDocument_object` and `ofDocument_array` for where they stand, and
`reads_exactly_grammar`.
-/
namespace LayoutConstraints

namespace Document

/-! ## Values -/

/-- A token: its tag, or an object with the tag as its only key, to `null`. -/
inductive Spells (tag : String) : Document → Prop
  | plain : Spells tag (text tag)
  | keyed : Spells tag (object [(tag, null)])

inductive IsText : Document → String → Prop
  | text (s : String) : IsText (.text s) s

inductive IsDouble : Document → Double → Prop
  | whole (n : Int) : IsDouble (.whole n) (.ofInt n)
  | number (x : Double) : IsDouble (.number x) x

/-- A whole number is rounded to the weight at once, a double is narrowed. -/
inductive IsPriority : Document → Priority → Prop
  | whole (n : Int) : IsPriority (.whole n) ⟨.ofInt n⟩
  | number (x : Double) : IsPriority (.number x) ⟨x.convert⟩

/-- `null` for none, or a value of the kind `holds`. -/
inductive OrNull {α : Type} (holds : Document → α → Prop) : Document → Option α → Prop
  | null : OrNull holds .null none
  | given {d : Document} {a : α} (value : holds d a) : OrNull holds d (some a)

theorem string_iff (d : Document) (s : String) : d.string? = some s ↔ IsText d s := by
  constructor
  · intro h
    cases d with
    | text => cases h; exact .text s
    | _ => cases h
  · rintro ⟨⟩
    rfl

theorem double_iff (d : Document) (x : Double) : d.double? = some x ↔ IsDouble d x := by
  constructor
  · intro h
    cases d with
    | whole n => cases h; exact .whole n
    | number => cases h; exact .number x
    | _ => cases h
  · rintro (_ | _) <;> rfl

theorem priority_iff (d : Document) (p : Priority) : d.priority? = some p ↔ IsPriority d p := by
  constructor
  · intro h
    cases d with
    | whole n => cases h; exact .whole n
    | number x => cases h; exact .number x
    | _ => cases h
  · rintro (_ | _) <;> rfl

theorem tag_iff (d : Document) (s : String) : d.tag? = some s ↔ Spells s d := by
  constructor
  · intro h
    unfold tag? at h
    split at h
    · cases h; exact .plain
    · cases h; exact .keyed
    · cases h
  · rintro (_ | _) <;> rfl

/-- A token is found by its tag when every token is listed and no two share a
tag. -/
theorem find_tag_iff {α : Type} {all : List α} {tag : α → String} (listed : ∀ a, a ∈ all)
    (injective : ∀ {a b}, tag a = tag b → a = b) {s : String} {a : α} :
    all.find? (tag · == s) = some a ↔ tag a = s := by
  constructor
  · intro found
    exact eq_of_beq (List.find?_some (p := fun b => tag b == s) found)
  · rintro rfl
    cases found : all.find? (tag · == tag a) with
    | none => exact absurd (beq_self_eq_true _) (List.find?_eq_none.mp found a (listed a))
    | some b =>
      have same : (tag b == tag a) = true := List.find?_some (p := fun b => tag b == tag a) found
      rw [injective (eq_of_beq same)]

theorem attribute_iff (d : Document) (a : Attribute) : d.attribute? = some a ↔ Spells a.tag d := by
  simp only [attribute?, Option.bind_eq_some_iff, tag_iff,
    find_tag_iff Attribute.mem_all Attribute.tag_injective, exists_eq_right']

theorem relation_iff (d : Document) (r : Relation) : d.relation? = some r ↔ Spells r.tag d := by
  simp only [relation?, Option.bind_eq_some_iff, tag_iff,
    find_tag_iff Relation.mem_all Relation.tag_injective, exists_eq_right']

theorem optional_iff {α : Type} {read : Document → Option α} {holds : Document → α → Prop}
    (reads : ∀ d a, read d = some a ↔ holds d a) (null_unread : read null = none)
    (d : Document) (a? : Option α) : optional? read (some d) = some a? ↔ OrNull holds d a? := by
  cases d with
  | null =>
    constructor
    · intro h
      cases h
      exact .null
    · rintro (_ | value)
      · rfl
      · cases null_unread.symm.trans ((reads null _).mpr value)
  | _ =>
    constructor
    · intro h
      obtain ⟨a, ha, rfl⟩ := Option.map_eq_some_iff.mp h
      exact .given ((reads _ a).mp ha)
    · rintro ⟨⟩
      exact congrArg (Option.map some) ((reads _ _).mpr ‹_›)

/-- A value that must be there may as well be `null` when it is missing. -/
theorem required_getD {α : Type} (read : Document → Option α) (null_unread : read null = none)
    (value? : Option Document) : read (value?.getD null) = value?.bind read := by
  cases value? with
  | none => exact null_unread
  | some d => rfl

theorem optional_getD {α : Type} {read : Document → Option α} (value? : Option Document) :
    optional? read (some (value?.getD null)) = optional? read value? := by
  cases value? <;> rfl

/-! ## Objects -/

/-- No key of the object has two entries. -/
def KeysDistinct : Document → Prop
  | object fields => (fields.map Prod.fst).Nodup
  | _ => True

/-- With distinct keys the entry which is looked up is the only one. -/
theorem lookup_iff {fields : List (String × Document)} (distinct : (object fields).KeysDistinct)
    {key : String} {d : Document} : fields.lookup key = some d ↔ (key, d) ∈ fields := by
  induction fields with
  | nil => simp
  | cons entry fields ih =>
    obtain ⟨first, value⟩ := entry
    obtain ⟨fresh, distinct⟩ := List.nodup_cons.mp distinct
    by_cases same : key = first
    · subst same
      have alone : (key, d) ∉ fields := fun h => fresh (List.mem_map.mpr ⟨_, h, rfl⟩)
      simp [alone, eq_comm]
    · have unequal : (key == first) = false := beq_eq_false_iff_ne.mpr same
      simp [List.lookup_cons, unequal, same, ih distinct]

theorem lookup_eq_none {fields : List (String × Document)}
    (distinct : (object fields).KeysDistinct) {key : String} :
    fields.lookup key = none ↔ ∀ d, (key, d) ∉ fields := by
  simp only [Option.eq_none_iff_forall_ne_some, ne_eq, lookup_iff distinct]

end Document

namespace Constraint

/-! ## The grammar -/

/-- The values of the eight fields, before they are read. -/
structure Values where
  element : Document
  sourceAttribute : Document
  relation : Document
  target : Document
  targetAttribute : Document
  multiplier : Document
  constant : Document
  priority : Document

namespace Values

def items (v : Values) : List Document :=
  [v.element, v.sourceAttribute, v.relation, v.target, v.targetAttribute, v.multiplier, v.constant,
    v.priority]

def fields (v : Values) : List (String × Document) :=
  [("element", v.element), ("attribute", v.sourceAttribute), ("relation", v.relation),
    ("target", v.target), ("target_attribute", v.targetAttribute),
    ("multiplier", v.multiplier), ("constant", v.constant), ("priority", v.priority)]

/-- What holds of each value with its key. -/
theorem forall_fields {v : Values} {holds : String → Document → Prop} :
    (∀ key d, (key, d) ∈ v.fields → holds key d) ↔
      holds "element" v.element ∧ holds "attribute" v.sourceAttribute ∧
        holds "relation" v.relation ∧ holds "target" v.target ∧
        holds "target_attribute" v.targetAttribute ∧ holds "multiplier" v.multiplier ∧
        holds "constant" v.constant ∧ holds "priority" v.priority := by
  calc (∀ key d, (key, d) ∈ v.fields → holds key d)
      ↔ ∀ entry ∈ v.fields, holds entry.1 entry.2 :=
        (Prod.forall (p := fun entry => entry ∈ v.fields → holds entry.1 entry.2)).symm
    _ ↔ _ := by
        simp only [fields, List.forall_mem_cons, List.not_mem_nil, false_implies, implies_true,
          and_true]

/-- The values spell the constraint, field by field. -/
structure Spell (v : Values) (c : Constraint String) : Prop where
  element : v.element.IsText c.element
  sourceAttribute : v.sourceAttribute.Spells c.sourceAttribute.tag
  relation : v.relation.Spells c.relation.tag
  target : v.target.OrNull Document.IsText c.target?
  targetAttribute : v.targetAttribute.Spells c.targetAttribute.tag
  multiplier : v.multiplier.IsDouble c.multiplier
  constant : v.constant.IsDouble c.constant
  priority : v.priority.OrNull Document.IsPriority c.priority?

end Values

/-- The fields that may be missing. -/
def optionalNames : List String := ["target", "priority"]

/-- Each value stands under its key among the entries of an object. Where it
is `null` and the field optional, the key may be missing. -/
def Values.StandIn (v : Values) (entries : List (String × Document)) : Prop :=
  ∀ key d, (key, d) ∈ v.fields →
    (key, d) ∈ entries ∨ key ∈ optionalNames ∧ d = .null ∧ ∀ d', (key, d') ∉ entries

/-- The document spells the constraint. -/
inductive Reads : Document → Constraint String → Prop
  | object {v : Values} {entries : List (String × Document)} {c : Constraint String}
      (stand : v.StandIn entries) (spell : v.Spell c) : Reads (.object entries) c
  | array {v : Values} {c : Constraint String} (spell : v.Spell c) : Reads (.array v.items) c

/-! ## Reading by fields -/

namespace Values

variable {v : Values} {c : Constraint String} {field : String → Option Document}

/-- The values found under the eight keys, `null` where there is none. -/
def found (field : String → Option Document) : Values where
  element := (field "element").getD .null
  sourceAttribute := (field "attribute").getD .null
  relation := (field "relation").getD .null
  target := (field "target").getD .null
  targetAttribute := (field "target_attribute").getD .null
  multiplier := (field "multiplier").getD .null
  constant := (field "constant").getD .null
  priority := (field "priority").getD .null

theorem getD_found (field : String → Option Document) :
    ∀ key d, (key, d) ∈ (found field).fields → (field key).getD .null = d := by
  rw [forall_fields]
  exact ⟨rfl, rfl, rfl, rfl, rfl, rfl, rfl, rfl⟩

theorem found_eq (h : ∀ key d, (key, d) ∈ v.fields → (field key).getD .null = d) :
    found field = v := by
  obtain ⟨element, source, relation, target, targetAttribute, multiplier, constant, priority⟩ :=
    forall_fields.mp h
  simp only [found, element, source, relation, target, targetAttribute, multiplier, constant,
    priority]

/-- Of the values that spell a constraint only an optional one can be `null`. -/
theorem Spell.optional_of_null (spell : v.Spell c) :
    ∀ key d, (key, d) ∈ v.fields → d = .null → key ∈ optionalNames := by
  obtain ⟨element, source, relation, -, targetAttribute, multiplier, constant, -⟩ := spell
  rw [forall_fields]
  refine ⟨?_, ?_, ?_, fun _ => by decide, ?_, ?_, ?_, fun _ => by decide⟩
  · intro h; rw [h] at element; cases element
  · intro h; rw [h] at source; cases source
  · intro h; rw [h] at relation; cases relation
  · intro h; rw [h] at targetAttribute; cases targetAttribute
  · intro h; rw [h] at multiplier; cases multiplier
  · intro h; rw [h] at constant; cases constant

end Values

/-- The eight values read in turn. -/
def Values.read? (v : Values) : Option (Constraint String) := do
  let element ← v.element.string?
  let sourceAttribute ← v.sourceAttribute.attribute?
  let relation ← v.relation.relation?
  let target? ← Document.optional? Document.string? (some v.target)
  let targetAttribute ← v.targetAttribute.attribute?
  let multiplier ← v.multiplier.double?
  let constant ← v.constant.double?
  let priority? ← Document.optional? Document.priority? (some v.priority)
  return { element, sourceAttribute, relation, target?, targetAttribute, multiplier, constant,
           priority? }

open Document in
theorem Values.read_iff {v : Values} {c : Constraint String} : v.read? = some c ↔ v.Spell c := by
  simp only [read?, bind, pure, Option.bind_eq_some_iff, string_iff, attribute_iff, relation_iff,
    double_iff, optional_iff string_iff rfl, optional_iff priority_iff rfl, Option.some.injEq]
  constructor
  · rintro ⟨_, element, _, source, _, relation, _, target, _, targetAttribute, _, multiplier, _,
      constant, _, priority, rfl⟩
    exact ⟨element, source, relation, target, targetAttribute, multiplier, constant, priority⟩
  · intro spell
    exact ⟨_, spell.element, _, spell.sourceAttribute, _, spell.relation, _, spell.target, _,
      spell.targetAttribute, _, spell.multiplier, _, spell.constant, _, spell.priority, rfl⟩

open Document in
/-- What the fields give is what the values found under the keys are read as. -/
theorem ofFields_eq (field : String → Option Document) :
    ofFields? field = (Values.found field).read? := by
  simp only [ofFields?, Values.read?, Values.found, bind, Option.bind_assoc,
    required_getD string? rfl, required_getD attribute? rfl,
    required_getD relation? rfl, required_getD double? rfl, optional_getD]

/-- Only the eight keys are looked up. -/
theorem ofFields_congr {field field' : String → Option Document}
    (same : ∀ key ∈ fieldNames, field key = field' key) : ofFields? field = ofFields? field' := by
  simp only [fieldNames, List.forall_mem_cons] at same
  obtain ⟨element, sourceAttribute, relation, target, targetAttribute, multiplier, constant,
    priority, -⟩ := same
  simp only [ofFields?, element, sourceAttribute, relation, target, targetAttribute, multiplier,
    constant, priority]

/-! ## Objects -/

section Objects

variable {entries : List (String × Document)} {v : Values} {c : Constraint String}

theorem Values.StandIn.getD_lookup (distinct : (Document.object entries).KeysDistinct)
    (stand : v.StandIn entries) {key : String} {d : Document} (h : (key, d) ∈ v.fields) :
    (entries.lookup key).getD .null = d := by
  obtain there | ⟨-, rfl, missing⟩ := stand key d h
  · rw [(Document.lookup_iff distinct).mpr there]
    rfl
  · rw [(Document.lookup_eq_none distinct).mpr missing]
    rfl

theorem Values.Spell.standIn_found (distinct : (Document.object entries).KeysDistinct)
    (spell : (Values.found (entries.lookup ·)).Spell c) :
    (Values.found (entries.lookup ·)).StandIn entries := by
  intro key d h
  have value := Values.getD_found _ key d h
  cases looked : entries.lookup key with
  | some d' =>
    rw [looked, Option.getD_some] at value
    exact .inl ((Document.lookup_iff distinct).mp (looked.trans (congrArg some value)))
  | none =>
    rw [looked, Option.getD_none] at value
    subst value
    exact .inr ⟨spell.optional_of_null key _ h rfl, rfl, (Document.lookup_eq_none distinct).mp looked⟩

/-- An object is read as the values that stand in it, wherever they stand and
whatever else does. -/
theorem ofDocument_standIn (distinct : (Document.object entries).KeysDistinct)
    (stand : v.StandIn entries) : ofDocument? (.object entries) = v.read? := by
  show ofFields? (entries.lookup ·) = v.read?
  rw [ofFields_eq, Values.found_eq fun key d h => stand.getD_lookup distinct h]

theorem ofDocument_object (distinct : (Document.object entries).KeysDistinct) :
    ofDocument? (.object entries) = some c ↔ ∃ v : Values, v.StandIn entries ∧ v.Spell c := by
  constructor
  · intro h
    rw [ofDocument?, ofFields_eq] at h
    have spell := Values.read_iff.mp h
    exact ⟨_, spell.standIn_found distinct, spell⟩
  · rintro ⟨v, stand, spell⟩
    rw [ofDocument_standIn distinct stand]
    exact Values.read_iff.mpr spell

/-- The order of the entries does not matter, nor do entries under other keys. -/
theorem ofDocument_object_congr {entries' : List (String × Document)}
    (distinct : (Document.object entries).KeysDistinct)
    (distinct' : (Document.object entries').KeysDistinct)
    (same : ∀ key ∈ fieldNames, ∀ d, (key, d) ∈ entries ↔ (key, d) ∈ entries') :
    ofDocument? (.object entries) = ofDocument? (.object entries') := by
  show ofFields? (entries.lookup ·) = ofFields? (entries'.lookup ·)
  refine ofFields_congr fun key known => Option.ext fun d => ?_
  rw [Document.lookup_iff distinct, Document.lookup_iff distinct']
  exact same key known d

end Objects

/-! ## Arrays -/

theorem Values.exists_items {items : List Document} (h : items.length = fieldNames.length) :
    ∃ v : Values, v.items = items := by
  match items, h with
  | [a, b, c, d, e, f, g, i], _ => exact ⟨⟨a, b, c, d, e, f, g, i⟩, rfl⟩

theorem ofDocument_items (v : Values) : ofDocument? (.array v.items) = v.read? := by
  have eight : v.items.length = fieldNames.length := rfl
  rw [ofDocument?, if_pos eight]
  exact ofFields_eq _

theorem ofDocument_array {items : List Document} {c : Constraint String} :
    ofDocument? (.array items) = some c ↔ ∃ v : Values, v.items = items ∧ v.Spell c := by
  constructor
  · intro h
    by_cases eight : items.length = fieldNames.length
    · obtain ⟨v, rfl⟩ := Values.exists_items eight
      rw [ofDocument_items] at h
      exact ⟨v, rfl, Values.read_iff.mp h⟩
    · cases (if_neg eight).symm.trans h
  · rintro ⟨v, rfl, spell⟩
    rw [ofDocument_items]
    exact Values.read_iff.mpr spell

/-! ## The grammar is what is read -/

theorem Values.keysDistinct_fields (v : Values) : (Document.object v.fields).KeysDistinct := by
  show fieldNames.Nodup
  decide

theorem Values.standIn_fields (v : Values) : v.StandIn v.fields := fun _ _ h => .inl h

/-- **Exactly the grammar is read.** A document whose keys are distinct is read
as a constraint if and only if it spells that constraint, so it is read at
all if and only if it spells one. Two objects with the same entries under
the eight keys are read alike, in whatever order these stand and whatever
stands beside them. Any eight values are read alike from an array and from
an object, be it as the same constraint or as none. -/
theorem reads_exactly_grammar :
    (∀ d : Document, d.KeysDistinct → ∀ c, ofDocument? d = some c ↔ Reads d c) ∧
      (∀ entries entries' : List (String × Document),
        (Document.object entries).KeysDistinct → (Document.object entries').KeysDistinct →
        (∀ key ∈ fieldNames, ∀ d, (key, d) ∈ entries ↔ (key, d) ∈ entries') →
        ofDocument? (.object entries) = ofDocument? (.object entries')) ∧
      ∀ v : Values, ofDocument? (.array v.items) = ofDocument? (.object v.fields) := by
  refine ⟨fun d distinct c => ?_, fun entries entries' => ofDocument_object_congr, fun v => ?_⟩
  · cases d with
    | object entries =>
      rw [ofDocument_object distinct]
      constructor
      · rintro ⟨v, stand, spell⟩
        exact .object stand spell
      · rintro (⟨stand, spell⟩ | _)
        exact ⟨_, stand, spell⟩
    | array items =>
      rw [ofDocument_array]
      constructor
      · rintro ⟨v, rfl, spell⟩
        exact .array spell
      · rintro (_ | spell)
        exact ⟨_, rfl, spell⟩
    | _ => exact ⟨nofun, nofun⟩
  · rw [ofDocument_items, ofDocument_standIn v.keysDistinct_fields v.standIn_fields]

/-- A width of at least eight with an unknown key in front, the fields out of
order, the relation as an object, whole numbers and no target. -/
def looseEntries : List (String × Document) :=
  [("note", .bool true), ("constant", .whole 8), ("relation", .object [("GreaterOrEqual", .null)]),
    ("element", .text "label"), ("priority", .null), ("target_attribute", .text "NotAnAttribute"),
    ("multiplier", .whole 1), ("attribute", .text "Width")]

/-- The loose entries are read, and read alike from last to first. -/
theorem reads_loose_entries :
    ofDocument? (.object looseEntries) =
        some { element := "label", sourceAttribute := .width, relation := .greaterOrEqual,
               target? := none, targetAttribute := .notAnAttribute, multiplier := .ofInt 1,
               constant := .ofInt 8, priority? := none } ∧
      ofDocument? (.object looseEntries.reverse) = ofDocument? (.object looseEntries) := by
  have distinct : (Document.object looseEntries).KeysDistinct := by
    show (looseEntries.map Prod.fst).Nodup
    decide
  have distinct' : (Document.object looseEntries.reverse).KeysDistinct := by
    show (looseEntries.reverse.map Prod.fst).Nodup
    decide
  obtain ⟨reads_iff, order_free, -⟩ := reads_exactly_grammar
  refine ⟨(reads_iff _ distinct _).mpr (.object (v := ⟨.text "label", .text "Width",
    .object [("GreaterOrEqual", .null)], .null, .text "NotAnAttribute", .whole 1, .whole 8, .null⟩)
    ?_ ?_), order_free _ _ distinct' distinct fun _ _ _ => List.mem_reverse⟩
  · rw [Values.StandIn, Values.forall_fields]
    simp [looseEntries, optionalNames]
  · exact ⟨.text _, .plain, .keyed, .null, .plain, .whole 1, .whole 8, .null⟩

end Constraint

end LayoutConstraints
