import LayoutConstraints.Expression.Step
import LayoutConstraints.Proofs.Widening

/-!
# Refining an operand

A merge takes over the target, the constant and the multiplier of its
operand. So refining the operand before the merge mostly comes to the same
as refining the result after it. It does not for three kinds of steps.

* A number that is zero. The merge takes it for one that was never set and
  keeps its own, which the same step after the merge overwrites. It is the
  number stored that counts: subtracting zero stores a zero, and so does
  dividing by an infinity. No other divisor does, as the reciprocal of the
  greatest number is far above the least.
* A priority. The merge does not take it over.
* A comparison with a constant. It goes by the left-hand side of what it
  refines.

**Results.** `relate_refined`: each kind of step, before the merge and after
it. `commutes_iff_passes`: the steps for which it is the same whatever is
merged, told from the numbers written. `relate_adjustAll`: chains of them.
-/
namespace LayoutConstraints

variable {ε : Type}

/-! ## Numbers that come to zero -/

theorem div_le_roundHalfEven (num den : Nat) : num / den ≤ roundHalfEven num den := by
  simp only [roundHalfEven]
  split
  · exact Nat.le_refl _
  · split <;> omega

namespace Format

variable (F : Format)

/-- What is one unit or more is not rounded to zero. -/
theorem nearest_pos {num den : Nat} (hden : 0 < den) (h : den ≤ num) : 0 < F.nearest num den := by
  cases hshift : (num / den).log2 - F.fractionBits with
  | zero =>
    rw [F.nearest_eq hshift, Nat.zero_mul, Nat.zero_add, Nat.pow_zero, Nat.mul_one]
    exact Nat.lt_of_lt_of_le (Nat.div_pos h hden) (div_le_roundHalfEven num den)
  | succ k =>
    rw [F.nearest_eq hshift]
    exact Nat.lt_of_lt_of_le (Nat.mul_pos k.succ_pos (Nat.two_pow_pos _)) (Nat.le_add_right _ _)

theorem units_pos {magnitude : Nat} (h : magnitude ≠ 0) : 0 < F.units magnitude := by
  refine Nat.pos_of_ne_zero fun hzero => h (F.units_injective ?_)
  rw [hzero, F.units_subnormal (Nat.zero_div _), Nat.zero_mod]

/-- The reciprocal of a finite value is one unit or more. -/
theorem units_le_reciprocal (hfraction : 3 ≤ F.fractionBits) {magnitude : Nat}
    (h : magnitude < F.infinity) : F.units magnitude ≤ 2 ^ F.unitExponent * 2 ^ F.unitExponent := by
  obtain ⟨significand, k, hvalue, hsig, hk⟩ := F.exists_significand magnitude
  have hexponent : magnitude / 2 ^ F.fractionBits < 2 ^ F.exponentBits - 1 :=
    (Nat.div_lt_iff_lt_mul (Nat.two_pow_pos _)).2 h
  have hbias : 2 ^ F.exponentBits - 2 ≤ 2 * F.bias := by
    unfold bias
    cases F.exponentBits with
    | zero => decide
    | succ e =>
      rw [Nat.pow_succ, Nat.add_sub_cancel]
      omega
  have hroom : F.fractionBits + 1 + k ≤ F.unitExponent + F.unitExponent := by
    unfold unitExponent
    omega
  calc F.units magnitude = significand * 2 ^ k := hvalue
    _ ≤ 2 ^ (F.fractionBits + 1) * 2 ^ k := Nat.mul_le_mul_right _ (Nat.le_of_lt hsig)
    _ = 2 ^ (F.fractionBits + 1 + k) := (Nat.pow_add ..).symm
    _ ≤ 2 ^ (F.unitExponent + F.unitExponent) := Nat.pow_le_pow_right (by decide) hroom
    _ = 2 ^ F.unitExponent * 2 ^ F.unitExponent := Nat.pow_add ..

end Format

namespace Binary

variable {F : Format}

theorem isZero_neg (x : Binary F) : (-x).isZero = x.isZero := by
  cases x <;> rfl

theorem isZero_ofMagnitude (negative : Bool) (magnitude : Nat) :
    (ofMagnitude negative magnitude : Binary F).isZero = true ↔ magnitude = 0 ∨ F.infinity = 0 := by
  rw [ofMagnitude, isZero, beq_iff_eq, Nat.min_eq_zero_iff]

/-- One divided by a number is zero for the infinities alone. -/
theorem isZero_reciprocal (hfraction : 3 ≤ F.fractionBits) (d : Binary F) :
    d.reciprocal.isZero = !(d.isNaN || d.isFinite) := by
  cases d with
  | nan => rfl
  | number negative magnitude =>
    have hinfinite :
        (!((number negative magnitude).isNaN || (number negative magnitude).isFinite)) = true ↔
          magnitude.val = F.infinity := by
      simp [isNaN, isFinite]
    rw [Bool.eq_iff_iff, hinfinite, reciprocal]
    split
    · next hzero => rw [infinite, isZero_ofMagnitude, or_self, hzero, eq_comm]
    · next hzero =>
      split
      · next hinf => exact iff_of_true ((isZero_ofMagnitude ..).2 (.inl rfl)) hinf
      · next hinf =>
        have hlt : magnitude.val < F.infinity :=
          Nat.lt_of_le_of_ne (Nat.le_of_lt_succ magnitude.isLt) hinf
        have hpos := F.nearest_pos (F.units_pos hzero) (F.units_le_reciprocal hfraction hlt)
        rw [ofRatio, isZero_ofMagnitude]
        omega

end Binary

/-! ## What a step stores -/

namespace Adjustment

/-- The number a step stores as the constant, if it stores nothing else. -/
def offset? : Adjustment ε → Option Double
  | .plus c => some c
  | .minus c => some (-c)
  | _ => none

/-- The number a step stores as the multiplier, if it stores nothing else. -/
def factor? : Adjustment ε → Option Double
  | .times m => some m
  | .dividedBy d => some d.reciprocal
  | _ => none

/-- Whether a step may be taken before a merge as well as after it. -/
def passes : Adjustment ε → Bool
  | .of _ | .equalToElement _ => true
  | .plus n | .minus n | .times n => !n.isZero
  | .dividedBy d => d.isNaN || d.isFinite
  | .equalToConstant _ | .atLeastConstant _ | .atMostConstant _ | .withPriority _ => false

/-- To refine the operand by this is to refine the result, whatever is merged. -/
def Commutes (x : Adjustment ε) : Prop :=
  ∀ (a b : Expression ε) (r : Relation), a.relate r (b.adjust x) = (a.relate r b).adjust x

variable {x : Adjustment ε} {n : Double}

theorem passes_of_offset (h : x.offset? = some n) : x.passes = !n.isZero := by
  cases x with
  | plus c =>
    cases h
    rfl
  | minus c =>
    cases h
    rw [Binary.isZero_neg]
    rfl
  | _ => cases h

theorem passes_of_factor (h : x.factor? = some n) : x.passes = !n.isZero := by
  cases x with
  | times m =>
    cases h
    rfl
  | dividedBy d =>
    cases h
    rw [Binary.isZero_reciprocal (by decide), Bool.not_not]
    rfl
  | _ => cases h

end Adjustment

namespace Expression

variable {x : Adjustment ε} {n : Double}

theorem adjust_of_offset (e : Expression ε) (h : x.offset? = some n) :
    e.adjust x = { e with constant := n } := by
  cases x with
  | plus c | minus c =>
    cases h
    rfl
  | _ => cases h

theorem adjust_of_factor (e : Expression ε) (h : x.factor? = some n) :
    e.adjust x = { e with multiplier? := some n } := by
  cases x with
  | times m | dividedBy d =>
    cases h
    rfl
  | _ => cases h

/-! ## One step -/

section

variable (a b : Expression ε) (r : Relation)

theorem relate_offset (h : x.offset? = some n) :
    a.relate r (b.adjust x) =
      { a.relate r b with constant := if n.isZero then a.constant else n } := by
  rw [adjust_of_offset b h]
  rfl

theorem relate_factor (h : x.factor? = some n) :
    a.relate r (b.adjust x) =
      { a.relate r b with multiplier? := if n.isZero then a.multiplier? else some n } := by
  rw [adjust_of_factor b h]
  rfl

theorem relate_withPriority (p : Priority) :
    a.relate r (b.adjust (.withPriority p)) = a.relate r b := rfl

/-- A zero makes no difference only where it is the number kept. -/
theorem relate_offset_iff (h : x.offset? = some n) :
    a.relate r (b.adjust x) = (a.relate r b).adjust x ↔ n.isZero = false ∨ a.constant = n := by
  rw [relate_offset a b r h, adjust_of_offset _ h]
  simp only [mk.injEq, true_and, and_true]
  cases n.isZero <;> simp

theorem relate_factor_iff (h : x.factor? = some n) :
    a.relate r (b.adjust x) = (a.relate r b).adjust x ↔
      n.isZero = false ∨ a.multiplier? = some n := by
  rw [relate_factor a b r h, adjust_of_factor _ h]
  simp only [mk.injEq, true_and, and_true]
  cases n.isZero <;> simp

end

end Expression

/-! ## The steps that pass -/

namespace Adjustment

open Expression

variable {x : Adjustment ε} {n : Double}

theorem commutes_iff_of_offset (h : x.offset? = some n) : x.Commutes ↔ n.isZero = false := by
  constructor
  · intro hx
    -- a merge that keeps a number other than zero
    have hone := hx { blank with constant := .one } blank .equal
    rcases (relate_offset_iff _ _ _ h).1 hone with hz | (hkept : Binary.one = n)
    · exact hz
    · rw [← hkept]
      decide
  · exact fun hz a b r => (relate_offset_iff a b r h).2 (.inl hz)

theorem commutes_iff_of_factor (h : x.factor? = some n) : x.Commutes ↔ n.isZero = false := by
  constructor
  · intro hx
    -- a merge that keeps no multiplier
    rcases (relate_factor_iff _ _ _ h).1 (hx blank blank .equal) with hz | hkept
    · exact hz
    · cases hkept
  · exact fun hz a b r => (relate_factor_iff a b r h).2 (.inl hz)

/-- **The steps that may be taken before a merge or after it:** those that set the
target, and those whose number does not come to zero. -/
theorem commutes_iff_passes (x : Adjustment ε) : x.Commutes ↔ x.passes = true := by
  cases x with
  | of v | equalToElement v => exact iff_of_true (fun _ _ _ => rfl) rfl
  | plus c | minus c =>
    rw [commutes_iff_of_offset rfl, passes_of_offset rfl, Bool.not_eq_true']
  | times m | dividedBy d =>
    rw [commutes_iff_of_factor rfl, passes_of_factor rfl, Bool.not_eq_true']
  | equalToConstant c | atLeastConstant c | atMostConstant c =>
    -- the operand's attribute against the marker of a comparison, in one slot
    refine iff_of_false (fun hx => ?_) Bool.false_ne_true
    have hslot : some Attribute.right = some Attribute.notAnAttribute :=
      congrArg otherAttribute? (hx (ofAttribute .left) (ofAttribute .right) .equal)
    cases hslot
  | withPriority p =>
    refine iff_of_false (fun hx => ?_) Bool.false_ne_true
    have hpriority : none = some p := congrArg priority? (hx blank blank .equal)
    cases hpriority

end Adjustment

/-! ## Before the merge and after it -/

namespace Expression

/-- A chain of such steps, with priorities among them, may be taken before the merge.
After it the priorities are left out. -/
theorem relate_adjustAll (a b : Expression ε) (r : Relation) (xs : List (Adjustment ε))
    (h : ∀ x ∈ xs, x.passes = true ∨ ∃ p, x = .withPriority p) :
    a.relate r (xs.foldl adjust b) = (xs.filter Adjustment.passes).foldl adjust (a.relate r b) := by
  induction xs generalizing b with
  | nil => rfl
  | cons x xs ih =>
    rw [List.foldl_cons, ih (b.adjust x) fun y hy => h y (List.mem_cons_of_mem x hy)]
    rcases h x List.mem_cons_self with hx | ⟨p, rfl⟩
    · rw [(Adjustment.commutes_iff_passes x).2 hx, List.filter_cons_of_pos hx, List.foldl_cons]
    · rw [relate_withPriority, List.filter_cons_of_neg Bool.false_ne_true]

/-- **Refining an operand.** To measure it against an element, to add to it or subtract
from it, to multiply or divide it is to do so to the result of the merge, unless the
number stored is a zero of either sign; a NaN is none. With a zero the merge keeps its
own number, and the one the operand had before makes no difference. A priority of the
operand is lost. -/
theorem relate_refined (a b : Expression ε) (r : Relation) :
    (∀ v, a.relate r (b.adjust (.of v)) = (a.relate r b).adjust (.of v)) ∧
    (∀ x n, x.offset? = some n →
      (n.isZero = false → a.relate r (b.adjust x) = (a.relate r b).adjust x) ∧
      (n.isZero = true → ∀ former,
        a.relate r ({ b with constant := former }.adjust x) =
          { a.relate r b with constant := a.constant })) ∧
    (∀ x n, x.factor? = some n →
      (n.isZero = false → a.relate r (b.adjust x) = (a.relate r b).adjust x) ∧
      (n.isZero = true → ∀ former?,
        a.relate r ({ b with multiplier? := former? }.adjust x) =
          { a.relate r b with multiplier? := a.multiplier? })) ∧
    ∀ p, a.relate r (b.adjust (.withPriority p)) = a.relate r b := by
  refine ⟨fun v => rfl, fun x n hx => ⟨fun hn => ?_, fun hn former => ?_⟩,
    fun x n hx => ⟨fun hn => ?_, fun hn former? => ?_⟩, relate_withPriority a b r⟩
  · exact (Adjustment.commutes_iff_of_offset hx).2 hn a b r
  · rw [relate_offset _ _ _ hx, hn, if_pos rfl]
    rfl
  · exact (Adjustment.commutes_iff_of_factor hx).2 hn a b r
  · rw [relate_factor _ _ _ hx, hn, if_pos rfl]
    rfl

/-- A width is at most a height of another element. Adding a NaN comes to the same on
either side of the merge. Subtracting zero from the height, or dividing it by an
infinity, leaves the offset or the factor that the width has. -/
theorem relate_refined_zeros :
    let two : Double := .ofBits 0x4000000000000000
    let width : Expression String := (ofAttribute .width).refineAll
      [.adjust (.times two), .adjust (.plus .one)]
    let height : Expression String := (ofAttribute .height).refineAll
      [.adjust (.of "image"), .adjust (.plus two), .adjust (.times .one)]
    let merged := width.relate .lessOrEqual height
    width.relate .lessOrEqual (height.adjust (.plus .nan)) = merged.adjust (.plus .nan) ∧
      width.relate .lessOrEqual (height.adjust (.minus .zero)) = { merged with constant := .one } ∧
      width.relate .lessOrEqual (height.adjust (.dividedBy (.infinite true))) =
        { merged with multiplier? := some two } := by
  intro two width height merged
  obtain ⟨-, offset, factor, -⟩ := relate_refined width height .lessOrEqual
  refine ⟨?_, ?_, ?_⟩
  · exact (offset (.plus .nan) .nan rfl).1 rfl
  · exact (offset (.minus .zero) _ rfl).2 (by decide) height.constant
  · exact (factor (.dividedBy (.infinite true)) _ rfl).2 (by decide) height.multiplier?

end Expression

end LayoutConstraints
