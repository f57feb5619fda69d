import LayoutConstraints.Proofs.Equality
import LayoutConstraints.Proofs.NumberText

/-!
# The text of a constraint tells the constraint

A constraint is printed as a row of words between single blanks. As no word
has a blank in it, the row is read off the text. In the row three things
could be taken for others and are not.

* An attribute of an element is split at its last point: no name of an
  attribute has a point, whatever the element has.
* On the right a bare number is no attribute of a target: behind a point a
  number has digits, and no name of an attribute has a digit.
* Each part that may be left out begins with a marker of its own, so what
  follows decides which parts are there (`append_injective_of_marked`).

What is left out can be filled in, up to equality: a multiplier of one and
a zero constant, if nothing is NaN. Only the multiplier of a fixed value
has left no trace.

**Results.** `anchorWord_injective`, `text_ne_anchorWord` for words;
`multiplier_of_words`, `constant_of_words`, `priority_of_words` for the
optional parts. Together they make `text_identifies`.
-/
namespace LayoutConstraints

/-! ## Rows of words -/

theorem intercalate_blank_injective {ws vs : List String} (hw : ∀ w ∈ ws, ' ' ∉ w.toList)
    (hv : ∀ v ∈ vs, ' ' ∉ v.toList) (hws : ws ≠ []) (hvs : vs ≠ [])
    (h : " ".intercalate ws = " ".intercalate vs) : ws = vs := by
  have hsplit := String.toList_split_intercalate hw
  have hsingle : String.singleton ' ' = " " := rfl
  rw [if_neg hws, hsingle, h, ← hsingle, String.toList_split_intercalate hv, if_neg hvs] at hsplit
  exact hsplit.symm

/-- Nothing, or a marker with one more word. -/
def Marked (marks ws : List String) : Prop := ws = [] ∨ ∃ m ∈ marks, ∃ w, ws = [m, w]

/-- The row does not begin with one of the markers. -/
def Unmarked (marks ws : List String) : Prop := ∀ w ∈ ws.head?, w ∉ marks

theorem append_injective_of_marked {marks xs ys ps qs : List String} (hx : Marked marks xs)
    (hy : Marked marks ys) (hp : Unmarked marks ps) (hq : Unmarked marks qs)
    (h : xs ++ ps = ys ++ qs) : xs = ys ∧ ps = qs := by
  rcases hx with rfl | ⟨m, hm, w, rfl⟩
  · rcases hy with rfl | ⟨n, hn, v, rfl⟩
    · exact ⟨rfl, h⟩
    · exact absurd hn (hp n (by rw [List.nil_append] at h; rw [h]; rfl))
  · rcases hy with rfl | ⟨n, hn, v, rfl⟩
    · exact absurd hm (hq m (by rw [List.nil_append] at h; rw [← h]; rfl))
    · simp only [List.cons_append, List.nil_append, List.cons.injEq] at h
      obtain ⟨rfl, rfl, rfl⟩ := h
      exact ⟨rfl, rfl⟩

/-- A list is split at the last place of a member. -/
theorem append_cons_injective {α : Type} {p : α} {before before' after after' : List α}
    (h : p ∉ after) (h' : p ∉ after') (heq : before ++ p :: after = before' ++ p :: after') :
    before = before' ∧ after = after' := by
  rcases List.append_eq_append_iff.1 heq with ⟨more, rfl, hmore⟩ | ⟨more, rfl, hmore⟩
  · cases more with
    | nil => exact ⟨(List.append_nil _).symm, (List.cons.inj hmore).2⟩
    | cons c more =>
      rw [(List.cons.inj hmore).2] at h
      exact absurd (List.mem_append_right _ List.mem_cons_self) h
  · cases more with
    | nil => exact ⟨List.append_nil _, (List.cons.inj hmore).2.symm⟩
    | cons c more =>
      rw [(List.cons.inj hmore).2] at h'
      exact absurd (List.mem_append_right _ List.mem_cons_self) h'

/-! ## Single words -/

theorem Attribute.mem_label {a : Attribute} {c : Char} (h : c ∈ a.label.toList) :
    c.isDigit = false ∧ c ≠ '.' ∧ c ≠ ' ' := by
  have hall : a.label.toList.all fun c => !c.isDigit && c != '.' && c != ' ' := by
    cases a <;> decide
  simpa [and_assoc] using List.all_eq_true.1 hall c h

namespace Constraint

variable {ε : Type} {a b c : Constraint ε}

/-! ## Optional parts -/

theorem priorityWord_ne (p : Priority) {w : String} (h : w.toList.head? ≠ some '@') :
    s!"@{p}" ≠ w := by
  rintro rfl
  rw [String.toList_append] at h
  exact h rfl

theorem multiplierWords_marked (c : Constraint ε) : Marked ["*"] c.multiplierWords := by
  unfold multiplierWords
  split
  · exact .inl rfl
  · exact .inr ⟨"*", by simp, _, rfl⟩

theorem constantWords_marked (c : Constraint ε) : Marked ["+", "-"] c.constantWords := by
  unfold constantWords
  split
  · exact .inr ⟨"+", by simp, _, rfl⟩
  · split
    · exact .inr ⟨"-", by simp, _, rfl⟩
    · exact .inl rfl

theorem priorityWords_unmarked {marks : List String}
    (hmarks : ∀ m ∈ marks, m.toList.head? ≠ some '@') (c : Constraint ε) :
    Unmarked marks c.priorityWords := by
  unfold priorityWords
  cases c.priority? with
  | none => simp [Unmarked]
  | some p =>
    intro w hw hmark
    rw [List.head?_cons, Option.mem_some_iff] at hw
    exact priorityWord_ne p (hmarks w hmark) hw

theorem constantWords_unmarked (c : Constraint ε) :
    Unmarked ["*"] (c.constantWords ++ c.priorityWords) := by
  intro w hw hstar
  rcases c.constantWords_marked with h | ⟨m, hm, v, h⟩
  · rw [h, List.nil_append] at hw
    exact priorityWords_unmarked (by decide) c w hw hstar
  · rw [h, List.cons_append, List.head?_cons, Option.mem_some_iff] at hw
    subst hw
    rw [List.mem_singleton.1 hstar] at hm
    revert hm
    decide

theorem parts_of_words
    (h : a.multiplierWords ++ (a.constantWords ++ a.priorityWords) =
      b.multiplierWords ++ (b.constantWords ++ b.priorityWords)) :
    a.multiplierWords = b.multiplierWords ∧ a.constantWords = b.constantWords ∧
      a.priorityWords = b.priorityWords := by
  obtain ⟨hmultiplier, hrest⟩ := append_injective_of_marked a.multiplierWords_marked
    b.multiplierWords_marked a.constantWords_unmarked b.constantWords_unmarked h
  exact ⟨hmultiplier, append_injective_of_marked a.constantWords_marked b.constantWords_marked
    (priorityWords_unmarked (by decide) a) (priorityWords_unmarked (by decide) b) hrest⟩

/-- Words that are there for both tell the multiplier, and missing ones that
it is one. -/
theorem multiplier_of_words (ha : a.multiplier.isNaN = false)
    (h : a.multiplierWords = b.multiplierWords) : (a.multiplier == b.multiplier) = true := by
  unfold multiplierWords at h
  split at h
  · next hone =>
    split at h
    · next hone' => exact BEq.trans hone (BEq.symm hone')
    · cases h
  · split at h
    · cases h
    · have htext : a.multiplier.text = b.multiplier.text := (List.cons.inj (List.cons.inj h).2).1
      rw [← Binary.text_injective htext]
      exact Binary.beq_self_iff.2 ha

theorem constantWords_of_zero (h : c.constant.isZero = true) : c.constantWords = [] := by
  rw [Binary.isZero_eq, Binary.beq_iff, Binary.place_zero] at h
  obtain ⟨k, hk, hzero⟩ := h
  cases hzero
  simp [constantWords, Binary.isPositive, Binary.isNegative, hk]

theorem beq_zero_of_not_signed {x : Double} (hnan : x.isNaN = false)
    (hpos : ¬ x.isPositive = true) (hneg : ¬ x.isNegative = true) : (x == .zero) = true := by
  rw [Binary.beq_iff, Binary.place_zero]
  have hsome : x.place.isSome = true := by rw [Binary.place_isSome, hnan]; rfl
  obtain ⟨k, hk⟩ := Option.isSome_iff_exists.1 hsome
  simp only [Binary.isPositive, Binary.isNegative, hk, Option.any_some,
    decide_eq_true_eq] at hpos hneg
  exact ⟨k, hk, by rw [show k = 0 by omega]⟩

/-- A constant that is shown stands behind its sign, and one that is not is
a zero of either sign. -/
theorem constant_of_words (ha : a.constant.isNaN = false) (hb : b.constant.isNaN = false)
    (h : a.constantWords = b.constantWords) : (a.constant == b.constant) = true := by
  have hself := Binary.beq_self_iff.2 ha
  unfold constantWords at h
  split at h
  · split at h
    · have htext : a.constant.text = b.constant.text := (List.cons.inj (List.cons.inj h).2).1
      rwa [← Binary.text_injective htext]
    · split at h <;> simp at h
  · next hpos =>
    split at h
    · split at h
      · simp at h
      · split at h
        · have htext : (-a.constant).text = (-b.constant).text :=
            (List.cons.inj (List.cons.inj h).2).1
          rwa [← Binary.neg_neg b.constant, ← Binary.text_injective htext, Binary.neg_neg]
        · cases h
    · next hneg =>
      split at h
      · cases h
      · next hpos' =>
        split at h
        · cases h
        · next hneg' =>
          exact BEq.trans (beq_zero_of_not_signed ha hpos hneg)
            (BEq.symm (beq_zero_of_not_signed hb hpos' hneg'))

theorem priority_of_words (ha : a.priority?.any (·.weight.isNaN) = false)
    (h : a.priorityWords = b.priorityWords) : (a.priority? == b.priority?) = true := by
  have hself := priority_beq_self_iff.2 ha
  unfold priorityWords at h
  cases hpa : a.priority? with
  | none => cases hpb : b.priority? <;> simp_all
  | some p =>
    cases hpb : b.priority? with
    | none => simp [hpa, hpb] at h
    | some q =>
      have htext : p.weight.text = q.weight.text := by
        simp only [hpa, hpb, List.cons.injEq, and_true] at h
        exact String.append_right_inj "@" |>.1 h
      have hpq : p = q := congrArg Priority.mk (Binary.text_injective htext)
      rw [← hpq, ← hpa]
      exact hself

/-! ## The whole text -/

section

variable [ToString ε]

theorem toList_anchorWord (element : ε) (a : Attribute) :
    (anchorWord element a).toList = (toString element).toList ++ '.' :: a.label.toList := by
  show (toString element ++ "." ++ a.label).toList = _
  simp

theorem anchorWord_injective {element element' : ε} {a a' : Attribute}
    (h : anchorWord element a = anchorWord element' a') :
    toString element = toString element' ∧ a = a' := by
  have hlist := congrArg String.toList h
  rw [toList_anchorWord, toList_anchorWord] at hlist
  have hpoint (a : Attribute) : '.' ∉ a.label.toList :=
    fun hmem => (Attribute.mem_label hmem).2.1 rfl
  obtain ⟨helement, hlabel⟩ := append_cons_injective (hpoint a) (hpoint a') hlist
  exact ⟨String.toList_inj.1 helement, Attribute.label_injective (String.toList_inj.1 hlabel)⟩

/-- A number is no attribute of an element. -/
theorem text_ne_anchorWord {F : Format} (x : Binary F) (element : ε) (a : Attribute) :
    x.text ≠ anchorWord element a := by
  intro h
  have hlist := congrArg String.toList h
  rw [toList_anchorWord] at hlist
  obtain ⟨c, hmem, hc⟩ := Binary.exists_digit_of_point hlist
  rw [(Attribute.mem_label hmem).1] at hc
  cases hc

/-- The elements that a constraint names. -/
def elements {ε : Type} (c : Constraint ε) : List ε := c.element :: c.target?.toList

theorem blank_notMem_anchorWord {element : ε} (h : ' ' ∉ (toString element).toList)
    (a : Attribute) : ' ' ∉ (anchorWord element a).toList := by
  rw [toList_anchorWord, List.mem_append, List.mem_cons, not_or, not_or]
  exact ⟨h, by decide, fun hmem => (Attribute.mem_label hmem).2.2 rfl⟩

theorem blank_notMem_words {c : Constraint ε} (h : ∀ e ∈ c.elements, ' ' ∉ (toString e).toList) :
    ∀ w ∈ c.words, ' ' ∉ w.toList := by
  have hnumber {F : Format} (x : Binary F) : ' ' ∉ (toString x).toList := Binary.blank_notMem_text x
  have hmultiplier : ∀ w ∈ c.multiplierWords, ' ' ∉ w.toList := by
    unfold multiplierWords
    split
    · simp
    · simp [hnumber]
  have hconstant : ∀ w ∈ c.constantWords, ' ' ∉ w.toList := by
    unfold constantWords
    split
    · simp [hnumber]
    · split
      · simp [hnumber]
      · simp
  have hpriority : ∀ w ∈ c.priorityWords, ' ' ∉ w.toList := by
    unfold priorityWords
    cases c.priority? with
    | none => simp
    | some p =>
      rw [List.forall_mem_singleton]
      show ' ' ∉ ("@" ++ p.weight.text).toList
      rw [String.toList_append, List.mem_append, not_or]
      exact ⟨by decide, hnumber p.weight⟩
  have hright : ∀ w ∈ c.rightWords, ' ' ∉ w.toList := by
    unfold rightWords
    split
    · next target ht _ =>
      have htarget := h target (by simp [elements, ht])
      simp only [List.forall_mem_cons, List.forall_mem_append]
      exact ⟨blank_notMem_anchorWord htarget _, hmultiplier, hconstant⟩
    · simp [hnumber]
  simp only [words, List.forall_mem_cons, List.forall_mem_append]
  refine ⟨blank_notMem_anchorWord (h _ List.mem_cons_self) _, ?_, hright, hpriority⟩
  cases c.relation <;> decide

theorem words_of_text (ha : ∀ e ∈ a.elements, ' ' ∉ (toString e).toList)
    (hb : ∀ e ∈ b.elements, ' ' ∉ (toString e).toList) (h : a.text = b.text) : a.words = b.words :=
  intercalate_blank_injective (blank_notMem_words ha) (blank_notMem_words hb) (List.cons_ne_nil _ _)
    (List.cons_ne_nil _ _) h

theorem rightWords_of_none (h : c.target? = none) : c.rightWords = [c.constant.text] := by
  rw [rightWords, h]
  rfl

theorem rightWords_of_some {target : ε} (hc : c.Resolved) (h : c.target? = some target) :
    c.rightWords =
      anchorWord target c.targetAttribute :: (c.multiplierWords ++ c.constantWords) := by
  have hreal : c.targetAttribute.isReal = true := by
    rw [Attribute.isReal_iff]
    intro hnot
    rw [hc.2 hnot] at h
    cases h
  rw [rightWords, h, hreal]

/-- What faces a bare number on the right is a bare number too. -/
theorem target_none_of_words (hb : b.Resolved) (htarget : a.target? = none)
    (h : a.rightWords ++ a.priorityWords = b.rightWords ++ b.priorityWords) :
    b.target? = none := by
  cases htarget' : b.target? with
  | none => rfl
  | some t =>
    rw [rightWords_of_none htarget, rightWords_of_some hb htarget'] at h
    exact absurd (List.cons.inj h).1 (text_ne_anchorWord _ _ _)

/-- **The text identifies the constraint.** Two constraints of the shape that
compiling gives, without NaN, are printed alike only if they are equal in
every field, but for the multiplier of a fixed value. Elements print without
blanks, and equal elements are those that print alike. -/
theorem text_identifies [BEq ε] (ha : a.holdsNaN = false) (hb : b.holdsNaN = false)
    (hra : a.Resolved) (hrb : b.Resolved) (hta : ∀ e ∈ a.elements, ' ' ∉ (toString e).toList)
    (htb : ∀ e ∈ b.elements, ' ' ∉ (toString e).toList)
    (helements : ∀ e ∈ a.elements, ∀ e' ∈ b.elements, toString e = toString e' → (e == e') = true)
    (h : toString a = toString b) :
    (a.element == b.element) = true ∧ a.sourceAttribute = b.sourceAttribute ∧
      a.relation = b.relation ∧ (a.target? == b.target?) = true ∧
      a.targetAttribute = b.targetAttribute ∧ (a.constant == b.constant) = true ∧
      (a.priority? == b.priority?) = true ∧
      (a.isFixedValue = false → (a.multiplier == b.multiplier) = true) := by
  simp only [holdsNaN, Bool.or_eq_false_iff] at ha hb
  obtain ⟨⟨hma, hca⟩, hpa⟩ := ha
  obtain ⟨⟨-, hcb⟩, -⟩ := hb
  have hwords := words_of_text hta htb h
  simp only [words, List.cons.injEq] at hwords
  obtain ⟨hanchor, hsymbol, hright⟩ := hwords
  obtain ⟨hname, hsource⟩ := anchorWord_injective hanchor
  have helement := helements _ List.mem_cons_self _ List.mem_cons_self hname
  have hrelation := Relation.symbol_injective hsymbol
  cases htarget : a.target? with
  | none =>
    have hfixed := hra.isFixedValue_iff.2 (hra.1 htarget)
    have htarget' := target_none_of_words hrb htarget hright
    rw [rightWords_of_none htarget, rightWords_of_none htarget'] at hright
    obtain ⟨htext, hpriority⟩ := List.cons.inj hright
    have hconstant : (a.constant == b.constant) = true := by
      rw [← Binary.text_injective htext]
      exact Binary.beq_self_iff.2 hca
    exact ⟨helement, hsource, hrelation, by rw [htarget']; rfl,
      (hra.1 htarget).trans (hrb.1 htarget').symm, hconstant, priority_of_words hpa hpriority,
      fun hnot => by rw [hfixed] at hnot; cases hnot⟩
  | some t =>
    cases htarget' : b.target? with
    | none =>
      have hnone := target_none_of_words hra htarget' hright.symm
      rw [htarget] at hnone
      cases hnone
    | some t' =>
      rw [rightWords_of_some hra htarget, rightWords_of_some hrb htarget'] at hright
      simp only [List.cons_append, List.append_assoc, List.cons.injEq] at hright
      obtain ⟨hanchor', hparts⟩ := hright
      obtain ⟨hname', hattribute⟩ := anchorWord_injective hanchor'
      have ht : (t == t') = true :=
        helements t (by simp [elements, htarget]) t' (by simp [elements, htarget']) hname'
      obtain ⟨hmultiplier, hconstant, hpriority⟩ := parts_of_words hparts
      exact ⟨helement, hsource, hrelation, ht, hattribute, constant_of_words hca hcb hconstant,
        priority_of_words hpa hpriority, fun _ => multiplier_of_words hma hmultiplier⟩

end

/-- The two zeros are left out alike; the constraints are equal and not the same. -/
theorem text_identifies_zeros :
    let a : Constraint String :=
      ⟨"label.1", .left, .greaterOrEqual, some "view", .right, .one, .zero, some ⟨.one⟩⟩
    let b : Constraint String := { a with constant := -.zero }
    toString a = toString b ∧ a ≠ b ∧ (a.constant == b.constant) = true := by
  intro a b
  have hwords : a.constantWords = b.constantWords :=
    (constantWords_of_zero rfl).trans (constantWords_of_zero rfl).symm
  have h : toString a = toString b := by
    show " ".intercalate (_ :: _ :: (_ :: (_ ++ a.constantWords) ++ _)) = _
    rw [hwords]
    rfl
  have hblank : ∀ e ∈ ["label.1", "view"], ' ' ∉ (toString e).toList := by decide
  obtain ⟨-, -, -, -, -, hconstant, -⟩ := text_identifies (a := a) (b := b) rfl rfl
    ⟨by rintro ⟨⟩, by rintro ⟨⟩⟩ ⟨by rintro ⟨⟩, by rintro ⟨⟩⟩ hblank hblank
    (fun e _ e' _ he => by rw [beq_iff_eq]; exact he) h
  exact ⟨h, by decide, hconstant⟩

end Constraint

end LayoutConstraints
