import LayoutConstraints.Proofs.Installing
import LayoutConstraints.Proofs.Resolution
import Mathlib.Data.List.Forall2

/-!
# One batch for many elements

Laying out many elements at once compiles all of them, prepares all of them
and activates once. Laying them out one by one interleaves the three. The
two agree on everything but the number of batches, because compiling looks
at neither the engine nor the counters, and because taking up one batch
after another is taking up both as one (`Engine.take_append`), whatever of
them is active already.

They part where an element fails. The whole batch then comes to nothing,
while one by one the elements before it have been laid out.

**Results.** `applyEach_ok`, `applyEach_error`: where laying out one by one
ends. `install_jobs`: one batch against that. `compileAll_eq`,
`compileChained_eq`: both forms for many elements are one batch of jobs,
for any callback by `compileChained_jobs`. Together they make
`batch_refines_each`, for any host that carries the site of a session.
`mem_compileJobs`: where a constraint comes from.
-/
namespace LayoutConstraints

variable {ε σ τ : Type}

/-! ## Jobs -/

/-- An element with the expressions to lay it out by. -/
structure Job (ε : Type) where
  element : ε
  expressions : List (Expression ε)

namespace Job

def compile (container? : ε → Option ε) (job : Job ε) : Compilation ε :=
  LayoutConstraints.compile container? job.element job.expressions

def Succeeds (container? : ε → Option ε) (job : Job ε) : Prop :=
  ∃ cs, (job.compile container?).result = .ok cs

/-- The same expressions for each element. -/
def common (elements : List ε) (es : List (Expression ε)) : List (Job ε) := elements.map (⟨·, es⟩)

/-- For each element but the first the answer for the one before it. -/
def chain (answer : ε → List (Expression ε)) : List ε → List (Job ε)
  | previous :: element :: rest => ⟨element, answer previous⟩ :: chain answer (element :: rest)
  | _ => []

/-- For each element but the first what the callback says when it is asked about
the one before it, in order. -/
def answered (callback : ε → τ → List (Expression ε) × τ) : List ε → τ → List (Job ε)
  | previous :: element :: rest, t =>
    ⟨element, (callback previous t).1⟩ ::
      answered callback (element :: rest) (callback previous t).2
  | _, _ => []

/-- The constraints of each of several jobs that all succeed. -/
def Rows (container? : ε → Option ε) (jobs : List (Job ε)) (rows : List (List (Constraint ε))) :
    Prop :=
  List.Forall₂ (fun job row => (job.compile container?).result = .ok row) jobs rows

theorem exists_rows {container? : ε → Option ε} {jobs : List (Job ε)}
    (h : ∀ job ∈ jobs, job.Succeeds container?) : ∃ rows, Rows container? jobs rows := by
  induction jobs with
  | nil => exact ⟨[], .nil⟩
  | cons job jobs ih =>
    obtain ⟨row, hrow⟩ := h job List.mem_cons_self
    obtain ⟨rows, hrows⟩ := ih fun j hj => h j (List.mem_cons_of_mem job hj)
    exact ⟨row :: rows, .cons hrow hrows⟩

theorem elements_common (elements : List ε) (es : List (Expression ε)) :
    (common elements es).map element = elements := by
  rw [common, List.map_map]
  exact List.map_id elements

theorem elements_answered (callback : ε → τ → List (Expression ε) × τ) (elements : List ε) (t : τ) :
    (answered callback elements t).map element = elements.tail := by
  induction elements using pair_induction generalizing t with
  | nil | single => rfl
  | pair previous element rest ih => rw [answered, List.map_cons, ih]; rfl

/-- A callback whose answer depends on nothing but its argument. -/
theorem answered_eq_chain {callback : ε → τ → List (Expression ε) × τ}
    {answer : ε → List (Expression ε)} (hanswer : ∀ e t, (callback e t).1 = answer e)
    (elements : List ε) (t : τ) : answered callback elements t = chain answer elements := by
  induction elements using pair_induction generalizing t with
  | nil | single => rfl
  | pair previous element rest ih => rw [answered, chain, hanswer, ih]

theorem elements_chain (answer : ε → List (Expression ε)) (elements : List ε) :
    (chain answer elements).map element = elements.tail := by
  rw [← answered_eq_chain (fun e _ => rfl : ∀ e (t : Unit), (answer e, t).1 = answer e) elements ()]
  exact elements_answered ..

end Job

/-! ## All jobs at once -/

def compileJobs (container? : ε → Option ε) : List (Job ε) → Compilation ε
  | [] => .empty
  | job :: jobs => job.compile container? ++ compileJobs container? jobs

theorem compileAll_eq (container? : ε → Option ε) (elements : List ε) (es : List (Expression ε)) :
    compileAll container? elements es = compileJobs container? (Job.common elements es) := by
  induction elements with
  | nil => rfl
  | cons element rest ih =>
    rw [compileAll, ih]
    rfl

/-- What the callback would have said after a failure is never compiled. -/
theorem compileChained_jobs (container? : ε → Option ε)
    (callback : ε → τ → List (Expression ε) × τ) (elements : List ε) (t : τ) :
    (compileChained container? callback elements t).1 =
      compileJobs container? (Job.answered callback elements t) := by
  induction elements using pair_induction generalizing t with
  | nil | single => rfl
  | pair previous element rest ih =>
    simp only [compileChained, Job.answered, compileJobs, Job.compile]
    cases h : (compile container? element (callback previous t).1).result with
    | error f => exact (Compilation.append_of_error h).symm
    | ok row => rw [← ih]

theorem compileChained_eq (container? : ε → Option ε)
    {callback : ε → τ → List (Expression ε) × τ} {answer : ε → List (Expression ε)}
    (hanswer : ∀ e t, (callback e t).1 = answer e) (elements : List ε) (t : τ) :
    (compileChained container? callback elements t).1 =
      compileJobs container? (Job.chain answer elements) := by
  rw [compileChained_jobs, Job.answered_eq_chain hanswer]

/-- The jobs of a layout in a session. -/
def Layout.jobs (s : Session) : Layout → List (Job String)
  | one element drafts => [⟨element, drafts.map (·.eval s.bindings)⟩]
  | all elements drafts => Job.common elements (drafts.map (·.eval s.bindings))
  | chained elements drafts special => Job.answered (ask s.bindings drafts special) elements s.site

theorem Layout.compile_eq_jobs (s : Session) (layout : Layout) :
    (layout.compile s).1 = compileJobs s.container? (layout.jobs s) := by
  cases layout with
  | one element drafts => exact (Compilation.append_empty _).symm
  | all elements drafts => exact compileAll_eq ..
  | chained elements drafts special => exact compileChained_jobs ..

theorem compileJobs_ok {container? : ε → Option ε} {jobs : List (Job ε)}
    {rows : List (List (Constraint ε))} (h : Job.Rows container? jobs rows) :
    (compileJobs container? jobs).result = .ok rows.flatten := by
  induction h with
  | nil => rfl
  | cons hrow _ ih => exact Compilation.result_append_ok.2 ⟨_, _, hrow, ih, rfl⟩

theorem compileJobs_error {container? : ε → Option ε} {before : List (Job ε)} {job : Job ε}
    {f : Failure} (hbefore : ∀ j ∈ before, j.Succeeds container?)
    (hjob : (job.compile container?).result = .error f) (after : List (Job ε)) :
    (compileJobs container? (before ++ job :: after)).result = .error f := by
  induction before with
  | nil => exact Compilation.result_append_error.2 (.inl hjob)
  | cons j before ih =>
    refine Compilation.result_append_error.2 (.inr ⟨hbefore j List.mem_cons_self, ih ?_⟩)
    exact fun i hi => hbefore i (List.mem_cons_of_mem j hi)

/-- The expression is one of the job's, and on its own gives these constraints. -/
def Job.Gives (container? : ε → Option ε) (job : Job ε) (e : Expression ε)
    (row : List (Constraint ε)) : Prop :=
  e ∈ job.expressions ∧ (LayoutConstraints.compile container? job.element [e]).result = .ok row

theorem mem_compileJobs {container? : ε → Option ε} {jobs : List (Job ε)}
    {cs : List (Constraint ε)} (h : (compileJobs container? jobs).result = .ok cs)
    {c : Constraint ε} :
    c ∈ cs ↔ ∃ job ∈ jobs, ∃ e row, job.Gives container? e row ∧ c ∈ row := by
  induction jobs generalizing cs with
  | nil =>
    cases h
    simp
  | cons job jobs ih =>
    obtain ⟨as, bs, has, hbs, rfl⟩ := Compilation.result_append_ok.1 h
    have hjob : c ∈ as ↔ ∃ e row, job.Gives container? e row ∧ c ∈ row := by
      rw [mem_compile has]
      simp only [Job.Gives, and_assoc, exists_and_left]
    rw [List.mem_append, hjob, ih hbs, List.exists_mem_cons_iff]

/-! ## One job at a time -/

/-- Where laying out one by one ends: what each layout that succeeded has
returned, the failure that ended it, if any, and the state of the host. -/
structure Progress (ε σ : Type) where
  rows : List (List (Constraint ε))
  failure? : Option Failure
  host : σ

/-- Applies each job on its own, up to the first that fails. -/
def applyEach (container? : ε → Option ε) (prepare : ε → σ → σ) (sink : Sink ε σ) :
    List (Job ε) → σ → Progress ε σ
  | [], s => ⟨[], none, s⟩
  | job :: jobs, s =>
    let applied := apply container? prepare sink job.element job.expressions s
    match applied.1.result with
    | .error f => ⟨[], some f, applied.2⟩
    | .ok row =>
      let others := applyEach container? prepare sink jobs applied.2
      { others with rows := row :: others.rows }

section

variable {container? : ε → Option ε} {prepare : ε → σ → σ} {sink : Sink ε σ}

theorem applyEach_cons_ok {job : Job ε} {jobs : List (Job ε)} {row : List (Constraint ε)} {s : σ}
    (h : (job.compile container?).result = .ok row) :
    applyEach container? prepare sink (job :: jobs) s =
      let others := applyEach container? prepare sink jobs
        ((Call.commit [job.element] row).foldl (Call.perform prepare sink) s)
      { others with rows := row :: others.rows } := by
  have hresult : (apply container? prepare sink job.element job.expressions s).1.result =
      .ok row := (result_install ..).trans h
  have hhost : (apply container? prepare sink job.element job.expressions s).2 =
      (Call.commit [job.element] row).foldl (Call.perform prepare sink) s := install_ok h
  rw [applyEach]
  simp only [hresult, hhost]

theorem applyEach_cons_error {job : Job ε} {jobs : List (Job ε)} {f : Failure} {s : σ}
    (h : (job.compile container?).result = .error f) :
    applyEach container? prepare sink (job :: jobs) s = ⟨[], some f, s⟩ := by
  have hresult : (apply container? prepare sink job.element job.expressions s).1.result =
      .error f := (result_install ..).trans h
  rw [applyEach]
  simp only [hresult, apply_failed hresult]

/-- A failure ends in the state the jobs before it have left. -/
theorem applyEach_error {before : List (Job ε)} {job : Job ε} {f : Failure}
    (hbefore : ∀ j ∈ before, j.Succeeds container?)
    (hjob : (job.compile container?).result = .error f) (after : List (Job ε)) (s : σ) :
    applyEach container? prepare sink (before ++ job :: after) s =
      { applyEach container? prepare sink before s with failure? := some f } := by
  induction before generalizing s with
  | nil => exact applyEach_cons_error hjob
  | cons j before ih =>
    obtain ⟨row, hrow⟩ := hbefore j List.mem_cons_self
    rw [List.cons_append, applyEach_cons_ok hrow, applyEach_cons_ok hrow,
      ih fun i hi => hbefore i (List.mem_cons_of_mem j hi)]

end

/-- What the host of a session has become once each of `jobs` has been laid
out on its own: the constraints are taken up as if they were one batch. -/
structure Site.LaidOut (plain : Bool) (jobs : List (Job String))
    (rows : List (List (Constraint String))) (site later : Site) : Prop where
  active : later.engine.active = Engine.take site.engine.active rows.flatten
  batches : later.engine.batches = site.engine.batches + jobs.length
  prepared : later.prepared =
    fun name => site.prepared name + if plain then 0 else (jobs.map Job.element).count name

theorem Site.LaidOut.cons {plain : Bool} {job : Job String} {jobs : List (Job String)}
    {row : List (Constraint String)} {rows : List (List (Constraint String))} {site later : Site}
    (h : Site.LaidOut plain jobs rows
      ((Call.commit [job.element] row).foldl (Call.perform (Site.prepare plain) Site.sink) site)
      later) :
    site.LaidOut plain (job :: jobs) (row :: rows) later := by
  rw [Site.commit_eq] at h
  obtain ⟨hactive, hbatches, hprepared⟩ := h
  refine ⟨?_, ?_, ?_⟩
  · rw [hactive, List.flatten_cons, Engine.take_append]
    rfl
  · rw [hbatches, List.length_cons]
    simp only [Engine.activate]
    omega
  · rw [hprepared]
    funext name
    cases plain with
    | true => rfl
    | false =>
      simp only [List.map_cons, List.count_cons, List.count_nil, Bool.false_eq_true, if_false]
      omega

theorem applyEach_ok {container? : String → Option String} {jobs : List (Job String)}
    {rows : List (List (Constraint String))} (h : Job.Rows container? jobs rows) (plain : Bool)
    (site : Site) :
    (applyEach container? (Site.prepare plain) Site.sink jobs site).rows = rows ∧
      (applyEach container? (Site.prepare plain) Site.sink jobs site).failure? = none ∧
      site.LaidOut plain jobs rows
        (applyEach container? (Site.prepare plain) Site.sink jobs site).host := by
  induction h generalizing site with
  | nil =>
    refine ⟨rfl, rfl, rfl, rfl, ?_⟩
    funext name
    cases plain <;> rfl
  | cons hrow _ ih =>
    rw [applyEach_cons_ok hrow]
    obtain ⟨hrows, hfailure, hlaidOut⟩ := ih
      ((Call.commit _ _).foldl (Call.perform (Site.prepare plain) Site.sink) site)
    exact ⟨congrArg _ hrows, hfailure, hlaidOut.cons⟩

/-! ## The two compared -/

/-- How an attempt at a whole batch of jobs compares to doing them one by one. Where
the attempt asks for the expressions first, `asked` is the site it goes on with. -/
structure Batched (container? : String → Option String) (plain : Bool) (jobs : List (Job String))
    (site asked : Site) (attempt : Compilation String × Site) : Prop where
  engine : asked.engine = site.engine
  prepared : asked.prepared = site.prepared
  /-- The same constraints are returned and active, and the counters agree; the
  batch counts once and not once for each job. -/
  success : (∀ job ∈ jobs, job.Succeeds container?) →
    let each := applyEach container? (Site.prepare plain) Site.sink jobs site
    each.failure? = none ∧ attempt.1.result = .ok each.rows.flatten ∧
      attempt.2.engine.active = each.host.engine.active ∧
      attempt.2.prepared = each.host.prepared ∧
      attempt.2.engine.batches = site.engine.batches + 1 ∧
      each.host.engine.batches = site.engine.batches + jobs.length
  /-- Both report the first failure; the batch has had no effect, and one by one
  just the jobs before it have been done. -/
  failure : ∀ before job after f, jobs = before ++ job :: after →
    (∀ j ∈ before, j.Succeeds container?) → (job.compile container?).result = .error f →
    let each := applyEach container? (Site.prepare plain) Site.sink jobs site
    attempt.1.result = .error f ∧ attempt.2 = asked ∧ each.failure? = some f ∧
      Job.Rows container? before each.rows ∧ site.LaidOut plain before each.rows each.host

theorem install_jobs (container? : String → Option String) (plain : Bool)
    (jobs : List (Job String)) {site asked : Site} (hengine : asked.engine = site.engine)
    (hcounters : asked.prepared = site.prepared) :
    Batched container? plain jobs site asked
      (install (Site.prepare plain) Site.sink (jobs.map Job.element)
        (compileJobs container? jobs) asked) where
  engine := hengine
  prepared := hcounters
  success := by
    intro h each
    obtain ⟨rows, hrows⟩ := Job.exists_rows h
    obtain ⟨heach, hfailure, hactive, hbatches, hprepared⟩ := applyEach_ok hrows plain site
    have hrun := compileJobs_ok hrows
    have hhost := (install_commits (Site.prepare plain) Site.sink (jobs.map Job.element)
      (compileJobs container? jobs) asked).calls _ hrun
    rw [Site.commit_eq, hengine, hcounters] at hhost
    refine ⟨hfailure, ?_, ?_, ?_, ?_, hbatches⟩
    · rw [result_install, hrun, heach]
    · rw [hhost, hactive]
      rfl
    · rw [hhost, hprepared]
    · rw [hhost]
      rfl
  failure := by
    rintro before job after f rfl hbefore hjob each
    obtain ⟨rows, hrows⟩ := Job.exists_rows hbefore
    obtain ⟨heach, -, hlaidOut⟩ := applyEach_ok hrows plain site
    -- One by one stops where the jobs before the failing one have led.
    have hsplit : each = { applyEach container? (Site.prepare plain) Site.sink before site with
        failure? := some f } := applyEach_error hbefore hjob after site
    have hrun := compileJobs_error hbefore hjob after
    rw [install_of_error hrun, hsplit, heach]
    exact ⟨hrun, rfl, rfl, hrows, hlaidOut⟩

/-- **One batch refines one by one.** Both forms for many elements compare to
a sequence of layouts of single elements as `Batched` says: the same
expressions for each element, or for each but the first what the callback
answers for the one before, where its answer depends on that element only.
The host may be any that carries the site of a session, and a question may
change all of it but the engine and the counters. -/
theorem batch_refines_each (container? : String → Option String) (plain : Bool) {view : σ → Site}
    {prepare : String → σ → σ} {sink : Sink String σ}
    (hcarries : Carries view prepare sink (Site.prepare plain) Site.sink) (host : σ)
    (elements : List String) (es : List (Expression String))
    {callback : String → σ → List (Expression String) × σ}
    {answer : String → List (Expression String)} (hanswer : ∀ e s, (callback e s).1 = answer e)
    (hengine : ∀ e s, (view (callback e s).2).engine = (view s).engine)
    (hprepared : ∀ e s, (view (callback e s).2).prepared = (view s).prepared) :
    Batched container? plain (Job.common elements es) (view host) (view host)
      ((applyAll container? prepare sink elements es host).map id view) ∧
    ∃ asked, asked <+: elements.dropLast ∧
      Batched container? plain (Job.chain answer elements) (view host)
        (view (stateAfter callback asked host))
        ((applyChained container? prepare sink callback elements host).map id view) := by
  constructor
  · have h : Batched container? plain _ (view host) (view host) _ :=
      install_jobs container? plain (Job.common elements es) rfl rfl
    rwa [Job.elements_common, ← compileAll_eq, ← hcarries.install] at h
  · obtain ⟨asked, hprefix, hstate, -⟩ := compileChained_asked container? callback elements host
    have h := install_jobs container? plain (Job.chain answer elements)
      (stateAfter_kept (fun s => (view s).engine) hengine asked host)
      (stateAfter_kept (fun s => (view s).prepared) hprepared asked host)
    rw [Job.elements_chain, ← compileChained_eq container? hanswer elements host,
      ← hcarries.install, ← hstate] at h
    exact ⟨asked, hprefix, hstate ▸ h⟩

/-- An element listed twice is compared to with the same constraint, which is
active once; its callback leaves an event each time it is asked. -/
theorem batch_refines_each_repeated :
    let container? := fun name => if name = "label" then some "view" else none
    let callback := fun (name : String) (site : Site) =>
      (([.ofAttribute .top] : List (Expression String)), site.questioned [name])
    let site : Site := ⟨.empty, fun _ => 0, []⟩
    let batch := applyChained container? (Site.prepare false) Site.sink callback
      ["view", "label", "label"] site
    let each := applyEach container? (Site.prepare false) Site.sink
      (Job.chain (fun _ => [.ofAttribute .top]) ["view", "label", "label"]) site
    batch.1.result = .ok each.rows.flatten ∧
      batch.2.engine.active = each.host.engine.active ∧
      batch.2.prepared = each.host.prepared ∧
      batch.2.engine.batches = 1 ∧ each.host.engine.batches = 2 := by
  intro container? callback site batch each
  have hcarries : Carries id (Site.prepare false) Site.sink (Site.prepare false) Site.sink :=
    ⟨fun _ _ => rfl, fun _ _ => rfl⟩
  obtain ⟨-, asked, -, h⟩ := batch_refines_each container? false hcarries site
    ["view", "label", "label"] [] (fun _ _ => rfl : ∀ e s, (callback e s).1 = [.ofAttribute .top])
    (fun _ _ => rfl) (fun _ _ => rfl)
  have hall : ∀ job ∈ Job.chain (fun _ => [.ofAttribute .top]) ["view", "label", "label"],
      job.Succeeds container? := by
    intro job hjob
    simp only [Job.chain, List.mem_cons, List.not_mem_nil, or_false, or_self] at hjob
    subst hjob
    exact ⟨_, rfl⟩
  obtain ⟨-, hresult, hactive, hprepared, hbatch, heach⟩ := h.success hall
  exact ⟨hresult, hactive, hprepared, hbatch, heach⟩

end LayoutConstraints
