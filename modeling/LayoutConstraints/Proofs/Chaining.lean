import LayoutConstraints.Proofs.Batching
import Mathlib.Data.List.Forall2

/-!
# The course of a chained layout

A chained layout goes along its elements two at a time. It asks the callback
about the first of a pair, lays out the second by the answer, and goes on to
the next pair only if that has not failed. So the callback is asked about
the elements from the first on, in order and once each: about all but the
last if nothing fails, and else up to the one whose answer led to the
failure. The first element has nobody before it. It is never laid out, and
its container is of no interest.

Nothing of this depends on what the callback keeps in its state. What it was
asked about is told by a callback that takes note of it (`noting`) and
otherwise answers the same.

**Results.** `compileChained_cut`: a chain can be cut at any element; what
follows is run from the state that was left, unless something has failed.
`compileChained_state`: the state after a chain, by the number of pairs it
has come to (`Job.attempts`). `getElem?_answered`: the pair at each
position. Together they make `chained_course`.
-/
namespace LayoutConstraints

variable {ε τ : Type}

/-! ## Callbacks -/

/-- The same callback with a list of what it has been asked about. -/
def noting (callback : ε → τ → List (Expression ε) × τ) (e : ε) (s : τ × List ε) :
    List (Expression ε) × (τ × List ε) :=
  ((callback e s.1).1, (callback e s.1).2, s.2 ++ [e])

/-- What a chained layout asks its callback about, in order. -/
def chainQuestions (container? : ε → Option ε) (callback : ε → τ → List (Expression ε) × τ)
    (elements : List ε) (t : τ) : List ε :=
  (compileChained container? (noting callback) elements (t, [])).2.2

theorem stateAfter_noting (callback : ε → τ → List (Expression ε) × τ) (asked : List ε) (t : τ)
    (noted : List ε) :
    stateAfter (noting callback) asked (t, noted) = (stateAfter callback asked t, noted ++ asked) := by
  induction asked generalizing t noted with
  | nil => simp [stateAfter]
  | cons e asked ih =>
    have h := ih (callback e t).2 (noted ++ [e])
    rwa [List.append_assoc, List.singleton_append] at h

/-! ## Pairs -/

namespace Job

/-- The pair at position `i`: an element, and the answer about the one before it
of a callback that has been asked about all elements before that. -/
structure At (callback : ε → τ → List (Expression ε) × τ) (elements : List ε) (t : τ) (i : Nat)
    (job : Job ε) : Prop where
  element : elements[i + 1]? = some job.element
  answer : ∃ previous, elements[i]? = some previous ∧
    job.expressions = (callback previous (stateAfter callback (elements.take i) t)).1

theorem getElem?_answered {callback : ε → τ → List (Expression ε) × τ} {elements : List ε} {t : τ}
    {i : Nat} {job : Job ε} :
    (answered callback elements t)[i]? = some job ↔ At callback elements t i job := by
  induction elements using pair_induction generalizing t i with
  | nil | single =>
    exact ⟨fun h => by simp [answered] at h, fun h => by simpa using h.element⟩
  | pair previous element rest ih =>
    rw [answered]
    cases i with
    | zero =>
      refine ⟨fun h => ?_, fun h => ?_⟩
      · cases h
        exact ⟨rfl, previous, rfl, rfl⟩
      · obtain ⟨e, es⟩ := job
        obtain ⟨helement, p, hp, hanswer⟩ := h
        cases hp
        cases helement
        obtain rfl : es = (callback previous t).1 := hanswer
        rfl
    | succ i =>
      rw [List.getElem?_cons_succ, ih]
      exact ⟨fun h => ⟨h.element, h.answer⟩, fun h => ⟨h.element, h.answer⟩⟩

theorem length_answered (callback : ε → τ → List (Expression ε) × τ) (elements : List ε) (t : τ) :
    (answered callback elements t).length = elements.length - 1 := by
  induction elements using pair_induction generalizing t with
  | nil | single => rfl
  | pair previous element rest ih => rw [answered, List.length_cons, ih]; rfl

theorem row_at {container? : ε → Option ε} {jobs : List (Job ε)}
    {rows : List (List (Constraint ε))} (h : Rows container? jobs rows) {i : Nat} {job : Job ε}
    (hi : jobs[i]? = some job) :
    ∃ row, rows[i]? = some row ∧ (job.compile container?).result = .ok row := by
  obtain ⟨hlt, rfl⟩ := List.getElem?_eq_some_iff.1 hi
  have hlt' : i < rows.length := h.length_eq ▸ hlt
  exact ⟨rows[i], List.getElem?_eq_getElem hlt', h.get hlt hlt'⟩

theorem answered_noting (callback : ε → τ → List (Expression ε) × τ) (elements : List ε) (t : τ)
    (noted : List ε) :
    answered (noting callback) elements (t, noted) = answered callback elements t := by
  induction elements using pair_induction generalizing t noted with
  | nil | single => rfl
  | pair previous element rest ih => rw [answered, answered]; exact congrArg _ (ih _ _)

/-- How many of the jobs are come to: all, or those up to the first that fails. -/
def attempts (container? : ε → Option ε) : List (Job ε) → Nat
  | [] => 0
  | job :: jobs =>
    match (job.compile container?).result with
    | .error _ => 1
    | .ok _ => attempts container? jobs + 1

section

variable {container? : ε → Option ε} {job : Job ε} {jobs : List (Job ε)}

/-- A job is come to if it is there and all before it have succeeded. -/
theorem lt_attempts_iff {k : Nat} :
    k < attempts container? jobs ↔
      k < jobs.length ∧ ∀ i, i < k → ∀ job, jobs[i]? = some job → job.Succeeds container? := by
  induction jobs generalizing k with
  | nil => simp [attempts]
  | cons job jobs ih =>
    cases k with
    | zero => cases h : (job.compile container?).result <;> simp [attempts, h]
    | succ k =>
      cases h : (job.compile container?).result with
      | error f =>
        have hfirst : ¬ job.Succeeds container? := by
          rintro ⟨row, hrow⟩
          rw [h] at hrow
          cases hrow
        refine ⟨fun hlt => ?_, fun hall => absurd (hall.2 0 (Nat.succ_pos k) job rfl) hfirst⟩
        simp only [attempts, h] at hlt
        omega
      | ok row =>
        simp only [attempts, h, Nat.add_lt_add_iff_right, ih, List.length_cons]
        refine and_congr_right fun _ => ⟨fun hall i hi j hj => ?_, fun hall i hi j hj => ?_⟩
        · cases i with
          | zero =>
            cases hj
            exact ⟨row, h⟩
          | succ i => exact hall i (by omega) j hj
        · exact hall (i + 1) (by omega) j hj

theorem attempts_le (container? : ε → Option ε) (jobs : List (Job ε)) :
    attempts container? jobs ≤ jobs.length :=
  Nat.le_of_not_lt fun hlt => Nat.lt_irrefl _ (lt_attempts_iff.1 hlt).1

theorem attempts_answered_le (container? : ε → Option ε)
    (callback : ε → τ → List (Expression ε) × τ) (elements : List ε) (t : τ) :
    attempts container? (answered callback elements t) ≤ elements.length - 1 :=
  length_answered callback elements t ▸ attempts_le ..

theorem attempts_of_all
    (h : ∀ (i : Nat) (job : Job ε), jobs[i]? = some job → job.Succeeds container?) :
    attempts container? jobs = jobs.length := by
  refine Nat.le_antisymm (attempts_le container? jobs) (Nat.le_of_not_lt fun hlt => ?_)
  exact Nat.lt_irrefl _ (lt_attempts_iff.2 ⟨hlt, fun i _ => h i⟩)

theorem attempts_of_error {k : Nat} {f : Failure} (hk : jobs[k]? = some job)
    (hbefore : ∀ i, i < k → ∀ job, jobs[i]? = some job → job.Succeeds container?)
    (hjob : (job.compile container?).result = .error f) :
    attempts container? jobs = k + 1 := by
  have hcome : k < attempts container? jobs :=
    lt_attempts_iff.2 ⟨(List.getElem?_eq_some_iff.1 hk).1, hbefore⟩
  have hstop : ¬ k + 1 < attempts container? jobs := by
    intro hlt
    obtain ⟨row, hrow⟩ := (lt_attempts_iff.1 hlt).2 k (Nat.lt_succ_self k) job hk
    rw [hjob] at hrow
    cases hrow
  omega

end

end Job

/-! ## Going on from where a chain was left -/

/-- What is run next starts from the state that was left. It is not run after a
failure. -/
def Compilation.andThen (first : Compilation ε × τ) (next : τ → Compilation ε × τ) :
    Compilation ε × τ :=
  match first.1.result with
  | .error _ => first
  | .ok _ => (first.1 ++ (next first.2).1, (next first.2).2)

theorem Compilation.empty_andThen (t : τ) (next : τ → Compilation ε × τ) :
    andThen (empty, t) next = next t := by
  show (empty ++ (next t).1, (next t).2) = _
  rw [empty_append]

theorem Compilation.andThen_assoc (first : Compilation ε × τ) (next last : τ → Compilation ε × τ) :
    andThen (andThen first next) last = andThen first fun t => andThen (next t) last := by
  obtain ⟨⟨log, result⟩, t⟩ := first
  cases result with
  | error f => rfl
  | ok cs =>
    simp only [andThen]
    cases hnext : (next t).1.result with
    | error f =>
      have hfail : (Compilation.mk log (.ok cs) ++ (next t).1).result = .error f :=
        result_append_error.2 (.inr ⟨⟨cs, rfl⟩, hnext⟩)
      simp only [hfail]
    | ok ds =>
      have hok : (Compilation.mk log (.ok cs) ++ (next t).1).result = .ok (cs ++ ds) :=
        result_append_ok.2 ⟨cs, ds, rfl, hnext, rfl⟩
      simp only [hok, append_assoc]

section

variable {container? : ε → Option ε} {callback : ε → τ → List (Expression ε) × τ}

theorem compileChained_cons (previous element : ε) (rest : List ε) (t : τ) :
    compileChained container? callback (previous :: element :: rest) t =
      Compilation.andThen (compile container? element (callback previous t).1, (callback previous t).2)
        (compileChained container? callback (element :: rest)) := by
  rfl

/-- A chain that is cut at an element goes on with it. -/
theorem compileChained_cut (before : List ε) (middle : ε) (after : List ε) (t : τ) :
    compileChained container? callback (before ++ middle :: after) t =
      Compilation.andThen (compileChained container? callback (before ++ [middle]) t)
        (compileChained container? callback (middle :: after)) := by
  induction before generalizing t with
  | nil => exact (Compilation.empty_andThen t _).symm
  | cons previous before ih =>
    -- The element after `previous` is the middle one or comes before it.
    cases before with
    | nil | cons element before =>
      simp only [List.cons_append, List.nil_append, compileChained_cons,
        Compilation.andThen_assoc] at ih ⊢
      exact congrArg _ (funext ih)

/-- The state after a chain is that of having asked about the first of each pair
it has come to. -/
theorem compileChained_state (elements : List ε) (t : τ) :
    (compileChained container? callback elements t).2 =
      stateAfter callback
        (elements.take (Job.attempts container? (Job.answered callback elements t))) t := by
  induction elements using pair_induction generalizing t with
  | nil | single => rfl
  | pair previous element rest ih =>
    rw [compileChained_cons, Compilation.andThen, Job.answered, Job.attempts, Job.compile]
    cases h : (compile container? element (callback previous t).1).result with
    | error f => rfl
    | ok row => exact ih _

end

/-- The first job that fails, by its position. -/
theorem compileJobs_error_at {container? : ε → Option ε} {jobs : List (Job ε)} {k : Nat}
    {job : Job ε} {f : Failure} (hk : jobs[k]? = some job)
    (hbefore : ∀ i, i < k → ∀ j, jobs[i]? = some j → j.Succeeds container?)
    (hjob : (job.compile container?).result = .error f) :
    (compileJobs container? jobs).result = .error f := by
  obtain ⟨hlt, hget⟩ := List.getElem?_eq_some_iff.1 hk
  have hsplit : jobs = jobs.take k ++ job :: jobs.drop (k + 1) := by
    rw [← hget, ← List.drop_eq_getElem_cons hlt, List.take_append_drop]
  rw [hsplit]
  refine compileJobs_error (fun j hj => ?_) hjob _
  obtain ⟨i, hi⟩ := List.mem_iff_getElem?.1 hj
  rw [List.getElem?_take] at hi
  split at hi
  · next hik => exact hbefore i hik j hi
  · cases hi

theorem element_of_mem_compileJobs {container? : ε → Option ε} {jobs : List (Job ε)}
    {cs : List (Constraint ε)} (h : (compileJobs container? jobs).result = .ok cs)
    {c : Constraint ε} (hc : c ∈ cs) : c.element ∈ jobs.map Job.element := by
  obtain ⟨job, hjob, e, row, hgives, hrow⟩ := (mem_compileJobs h).1 hc
  obtain ⟨container, -, he⟩ := compile_singleton_ok.1 hgives.2
  obtain ⟨a, b, rfl⟩ := Expression.eq_constraint_of_row he hrow
  exact List.mem_map_of_mem hjob

theorem compileChained_noting (container? : ε → Option ε)
    (callback : ε → τ → List (Expression ε) × τ) (elements : List ε) (t : τ) :
    compileChained container? (noting callback) elements (t, []) =
      ((compileChained container? callback elements t).1,
        (compileChained container? callback elements t).2,
        chainQuestions container? callback elements t) := by
  have hrun : (compileChained container? (noting callback) elements (t, [])).1 =
      (compileChained container? callback elements t).1 := by
    rw [compileChained_jobs, compileChained_jobs, Job.answered_noting]
  have hstate : (compileChained container? (noting callback) elements (t, [])).2.1 =
      (compileChained container? callback elements t).2 := by
    rw [compileChained_state, compileChained_state, Job.answered_noting, stateAfter_noting]
  exact Prod.ext hrun (Prod.ext hstate rfl)

theorem chainQuestions_eq (container? : ε → Option ε)
    (callback : ε → τ → List (Expression ε) × τ) (elements : List ε) (t : τ) :
    chainQuestions container? callback elements t =
      elements.take (Job.attempts container? (Job.answered callback elements t)) := by
  rw [chainQuestions, compileChained_state, Job.answered_noting, stateAfter_noting]
  exact List.nil_append _

/-! ## The course -/

/-- What a chained layout asks, compiles and returns, pair by pair. -/
structure ChainCourse (container? : ε → Option ε) (callback : ε → τ → List (Expression ε) × τ)
    (elements : List ε) (t : τ) : Prop where
  /-- Taking note of the questions changes nothing. -/
  noted :
    let run := compileChained container? callback elements t
    compileChained container? (noting callback) elements (t, []) =
      (run.1, run.2, chainQuestions container? callback elements t)
  /-- The callback is asked about the elements in order, never about the last, and
  nothing else moves its state. -/
  questions :
    let asked := chainQuestions container? callback elements t
    asked <+: elements.dropLast ∧
      (compileChained container? callback elements t).2 = stateAfter callback asked t
  /-- It is asked about an element that has a successor once all pairs before are
  compiled. -/
  asked_iff : ∀ j, j < (chainQuestions container? callback elements t).length ↔
    j + 1 < elements.length ∧
      ∀ i, i < j → ∀ job, Job.At callback elements t i job → job.Succeeds container?
  /-- All that concerns the elements up to one of them comes before the question
  about it, which comes only if nothing has failed. -/
  cut : ∀ before middle after, elements = before ++ middle :: after →
    compileChained container? callback elements t =
      Compilation.andThen (compileChained container? callback (before ++ [middle]) t)
        (compileChained container? callback (middle :: after))
  /-- If no pair fails, every element but the last is asked about, and the rows of
  all pairs are returned in order. -/
  complete : (∀ i job, Job.At callback elements t i job → job.Succeeds container?) →
    chainQuestions container? callback elements t = elements.dropLast ∧
      (chainQuestions container? callback elements t).length = elements.length - 1 ∧
      ∃ rows : List (List (Constraint ε)), rows.length = elements.length - 1 ∧
        (∀ i job, Job.At callback elements t i job →
          ∃ row, rows[i]? = some row ∧ (job.compile container?).result = .ok row) ∧
        (compileChained container? callback elements t).1.result = .ok rows.flatten
  /-- The first pair that fails ends the layout with its failure: its element has no
  container, or an expression in the answer is undefined. It is the last that is
  asked for. -/
  stopped : ∀ k job f, Job.At callback elements t k job →
    (∀ i, i < k → ∀ j, Job.At callback elements t i j → j.Succeeds container?) →
    (job.compile container?).result = .error f →
    (compileChained container? callback elements t).1.result = .error f ∧
      chainQuestions container? callback elements t = elements.take (k + 1) ∧
      (chainQuestions container? callback elements t).length = k + 1 ∧
      (f = .missingContainer ∧ container? job.element = none ∨
        ∃ index, f = .undefinedAttribute index ∧ container? job.element ≠ none ∧
          FirstUndefined job.expressions index)
  /-- The container of the first element is not looked at, unless it is listed again. -/
  containers : ∀ other?, (∀ e ∈ elements.tail, other? e = container? e) →
    compileChained other? callback elements t = compileChained container? callback elements t
  /-- Every constraint is for an element after the first. -/
  constrained : ∀ cs, (compileChained container? callback elements t).1.result = .ok cs →
    ∀ c ∈ cs, c.element ∈ elements.tail ∧
      ∀ first rest, elements = first :: rest → first ∉ rest → c.element ≠ first

/-- **The course of a chained layout.** Whatever the callback keeps in its state,
it is asked about one element after another, each answer compiled before the
next question, up to the last pair or the first that fails. -/
theorem chained_course (container? : ε → Option ε) (callback : ε → τ → List (Expression ε) × τ)
    (elements : List ε) (t : τ) : ChainCourse container? callback elements t where
  noted := compileChained_noting container? callback elements t
  questions := by
    rw [chainQuestions_eq, compileChained_state, List.dropLast_eq_take]
    exact ⟨List.take_prefix_take_left (Job.attempts_answered_le ..), rfl⟩
  asked_iff j := by
    have hle := Job.attempts_answered_le container? callback elements t
    rw [chainQuestions_eq, List.length_take, Nat.min_eq_left (by omega), Job.lt_attempts_iff,
      Job.length_answered, Nat.lt_sub_iff_add_lt]
    simp only [Job.getElem?_answered]
  cut := by
    rintro before middle after rfl
    exact compileChained_cut before middle after t
  complete h := by
    simp only [← Job.getElem?_answered] at h ⊢
    obtain ⟨rows, hrows⟩ := Job.exists_rows fun job hjob => by
      obtain ⟨i, hi⟩ := List.mem_iff_getElem?.1 hjob
      exact h i job hi
    have hlength := Job.length_answered callback elements t
    have hasked : chainQuestions container? callback elements t = elements.dropLast := by
      rw [chainQuestions_eq, Job.attempts_of_all h, hlength, List.dropLast_eq_take]
    refine ⟨hasked, hasked ▸ List.length_dropLast, rows, hrows.length_eq ▸ hlength, ?_, ?_⟩
    · exact fun i job hi => Job.row_at hrows hi
    · rw [compileChained_jobs]
      exact compileJobs_ok hrows
  stopped k job f hjob hbefore hf := by
    simp only [← Job.getElem?_answered] at hjob hbefore
    have hasked : chainQuestions container? callback elements t = elements.take (k + 1) := by
      rw [chainQuestions_eq, Job.attempts_of_error hjob hbefore hf]
    have hlt := (List.getElem?_eq_some_iff.1 hjob).1
    rw [Job.length_answered] at hlt
    refine ⟨?_, hasked, ?_, compile_error.1 hf⟩
    · rw [compileChained_jobs]
      exact compileJobs_error_at hjob hbefore hf
    · rw [hasked, List.length_take]
      omega
  containers other? h := compileChained_local h t
  constrained cs h c hc := by
    rw [compileChained_jobs] at h
    have hmem := element_of_mem_compileJobs h hc
    rw [Job.elements_answered] at hmem
    refine ⟨hmem, ?_⟩
    rintro first rest rfl hfirst rfl
    exact hfirst hmem

/-- The second answer has an undefined expression. Nobody is asked a third time,
and the root, which comes first, needs no container. -/
theorem chained_course_stops :
    let container? := fun name => if name = "label" then some "view" else none
    let callback := fun (_ : String) (asked : Nat) =>
      (if asked = 0 then [.ofAttribute .top] else [.ofAttribute .top, .blank], asked + 1)
    let elements := ["view", "label", "label", "label"]
    let run := compileChained container? callback elements 0
    run.1.result = .error (.undefinedAttribute 1) ∧ run.2 = 2 ∧
      chainQuestions container? callback elements 0 = ["view", "label"] := by
  intro container? callback elements run
  have course := chained_course container? callback elements 0
  have hbefore : ∀ i, i < 1 → ∀ job, Job.At callback elements 0 i job → job.Succeeds container? := by
    rintro i hi ⟨e, es⟩ ⟨helement, p, hp, hanswer⟩
    obtain rfl : i = 0 := by omega
    cases helement
    cases hp
    obtain rfl : es = _ := hanswer
    exact ⟨_, rfl⟩
  obtain ⟨hresult, hasked, -, -⟩ := course.stopped 1 ⟨"label", [.ofAttribute .top, .blank]⟩ _
    ⟨rfl, "label", rfl, rfl⟩ hbefore rfl
  exact ⟨hresult, course.questions.2.trans (by rw [hasked]; rfl), hasked⟩

end LayoutConstraints
