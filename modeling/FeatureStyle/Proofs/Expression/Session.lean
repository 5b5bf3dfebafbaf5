import FeatureStyle.Expression.Cache
import FeatureStyle.Proofs.Eval.Transparency
import Mathlib.Data.List.Dedup

/-!
# Sessions of a cache

A **session** is a sequence of calls of one cache, which compile sources or evaluate them. The cache
goes from call to call, with whatever the call before has left in it and in its pool, also when that
call has failed. What answers the questions of an evaluation may have effects of its own.

The reference does without a cache: every call compiles its source anew, and an evaluation gets a
new pool. **A session gives what the reference gives**, call by call, and after every call it keeps
the sources so far that compile, each of them once (`session_eq_reference`).

The invariant of a session is the list of sources that the cache keeps. It says all that is to be
known about the cache: an expression is determined by its source, and no outcome depends on the
pool.
-/

namespace FeatureStyle

namespace Dialogue

variable {m : Type → Type} [Monad m] [LawfulMonad m] {answer : (q : Query) → m q.Answer}
variable {α β : Type}

theorem runM_bind (d : Dialogue α) (f : α → Dialogue β) :
    (d >>= f).runM answer = d.runM answer >>= fun a ↦ (f a).runM answer := by
  induction d with
  | done a => rw [bind_done, runM, pure_bind]
  | ask q resume ih => simp only [bind_ask, runM, ih, LawfulMonad.bind_assoc]

theorem runM_map (f : α → β) (d : Dialogue α) :
    (f <$> d).runM answer = f <$> d.runM answer := by
  rw [← bind_pure_comp, runM_bind, ← bind_pure_comp]
  rfl

end Dialogue

/-- Compiling a source gives the expression of that source, if there is one. -/
theorem Expression.compile_eq_ok_iff {source : String} {e : Expression} :
    Expression.compile source = .ok e ↔ e.source = source := by
  have hsource {e : Expression} (h : Expression.compile source = .ok e) : e.source = source := by
    unfold Expression.compile at h
    split at h <;> cases h
    rfl
  refine ⟨hsource, ?_⟩
  rintro rfl
  rcases h : Expression.compile e.source with err | e'
  · unfold Expression.compile at h
    split at h
    · cases h
    · next herr =>
      rw [e.root_eq] at herr
      cases herr
  · rw [Expression.ext (hsource h)]

namespace ExpressionCache

variable {cache : ExpressionCache} {earlier : List String}

/-! ### What a cache keeps -/

/-- The sources that the cache keeps, the latest first. -/
def sources (cache : ExpressionCache) : List String := cache.expressions.map (·.source)

/-- The sources that compile, each of them once. -/
def compilable (sources : List String) : List String :=
  (sources.filter fun source ↦ (Expression.compile source).isOk).dedup

theorem size_eq (cache : ExpressionCache) : cache.size = cache.sources.length :=
  (List.length_map _).symm

theorem find?_eq_none_iff {source : String} :
    cache.find? source = none ↔ source ∉ cache.sources := by
  simp [find?, sources]

/-- What is found is what compiling would give. -/
theorem compile_of_find? {source : String} {e : Expression} (h : cache.find? source = some e) :
    Expression.compile source = .ok e := by
  rw [find?] at h
  have hsource := List.find?_some h
  exact Expression.compile_eq_ok_iff.2 (beq_iff_eq.1 hsource)

/-- **A cache compiles as if it was empty.** -/
theorem fst_compile (cache : ExpressionCache) (source : String) :
    (cache.compile source).1 = Expression.compile source := by
  rw [compile]
  split
  · next h => exact (compile_of_find? h).symm
  · split <;> next h => exact h.symm

/-- Compiling a source keeps it, unless it is kept already or does not compile. -/
theorem sources_compile (h : cache.sources = compilable earlier) (source : String) :
    (cache.compile source).2.sources = compilable (source :: earlier) := by
  have hmem : source ∈ cache.sources ↔
      source ∈ earlier.filter fun s ↦ (Expression.compile s).isOk := by
    rw [h, compilable, List.mem_dedup]
  rw [compile]
  split
  · next e hfind =>
    have hok := compile_of_find? hfind
    have hkept : source ∈ cache.sources := by
      by_contra hnone
      rw [find?_eq_none_iff.2 hnone] at hfind
      cases hfind
    rw [compilable, List.filter_cons_of_pos (by rw [hok]; rfl),
      List.dedup_cons_of_mem (hmem.1 hkept)]
    exact h
  · next hfind =>
    have hnone := find?_eq_none_iff.1 hfind
    split
    · next e hok =>
      rw [compilable, List.filter_cons_of_pos (by rw [hok]; rfl),
        List.dedup_cons_of_notMem (mt hmem.2 hnone), ← compilable, ← h]
      exact congrArg (· :: cache.sources) (Expression.compile_eq_ok_iff.1 hok)
    · next err herr =>
      rw [compilable, List.filter_cons_of_neg (by rw [herr]; nofun)]
      exact h

/-! ### Calls -/

/-- A call of a cache. The questions of an evaluation are answered in `m`. -/
inductive Call (m : Type → Type)
  | compile (source : String)
  | evaluate (source : String) (answer : (q : Query) → m q.Answer)

/-- What a call gives. -/
inductive Outcome
  | compiled (result : Except CompileError Expression)
  | evaluated (result : Except ExpressionError Value)

namespace Call

variable {m : Type → Type} [Monad m]

/-- The source that a call is about. -/
def source : Call m → String
  | compile source | evaluate source _ => source

/-- What a call gives without a cache: the source is compiled, and evaluated with a new pool. -/
def reference : Call m → m Outcome
  | compile source => pure (.compiled (Expression.compile source))
  | evaluate source answer =>
    match Expression.compile source with
    | .error err => pure (.evaluated (.error (.compile err)))
    | .ok e => do
      let (result, _) ← (e.root.evaluateIn .empty).runM answer
      return .evaluated (result.mapError .stop)

end Call

variable {m : Type → Type} [Monad m]

/-- Does what a call asks for. -/
def perform (cache : ExpressionCache) : Call m → m (Outcome × ExpressionCache)
  | .compile source =>
    let (result, after) := cache.compile source
    pure (.compiled result, after)
  | .evaluate source answer => do
    let (result, after) ← (cache.evaluate source).runM answer
    return (.evaluated result, after)

/-- What is seen after a call: its outcome, how many expressions the cache says it holds, and the
sources that it keeps. -/
structure Report where
  outcome : Outcome
  size : Nat
  sources : List String

/-- What is seen after each of the calls. -/
def session (cache : ExpressionCache) : List (Call m) → m (List Report)
  | [] => pure []
  | call :: calls => do
    let (outcome, after) ← cache.perform call
    let reports ← after.session calls
    return ⟨outcome, after.size, after.sources⟩ :: reports

/-- What should be seen after each of the calls, when there have been calls for the sources in
`earlier`, the latest first. -/
def reference (earlier : List String) : List (Call m) → m (List Report)
  | [] => pure []
  | call :: calls => do
    let outcome ← call.reference
    let kept := compilable (call.source :: earlier)
    let reports ← reference (call.source :: earlier) calls
    return ⟨outcome, kept.length, kept⟩ :: reports

variable [LawfulMonad m]

/-- The outcome of an evaluation does not depend on the pool. -/
theorem runM_evaluateIn_bind {α : Type} (e : Expr) (pool pool' : ScratchPool)
    (answer : (q : Query) → m q.Answer) (k : Except Stop Value → m α) :
    ((e.evaluateIn pool).runM answer >>= fun r ↦ k r.1) =
      (e.evaluateIn pool').runM answer >>= fun r ↦ k r.1 := by
  have hfst (pool : ScratchPool) : ((e.evaluateIn pool).runM answer >>= fun r ↦ k r.1) =
      (Except.mapError Stop.error <$> e.eval.run).runM answer >>= k := by
    rw [← e.fst_evaluateIn pool, Dialogue.runM_map, bind_map_left]
  rw [hfst pool, hfst pool']

/-- What follows a call only has to be known for the outcome without a cache, and for the caches
that keep what they should. -/
theorem perform_bind {α : Type} {call : Call m} {k : Outcome × ExpressionCache → m α}
    {k' : Outcome → m α} (h : cache.sources = compilable earlier)
    (hk : ∀ outcome after, after.sources = compilable (call.source :: earlier) →
      k (outcome, after) = k' outcome) :
    cache.perform call >>= k = call.reference >>= k' := by
  cases call with
  | compile source =>
    rw [perform, Call.reference, pure_bind, pure_bind, ← cache.fst_compile source]
    exact hk _ _ (sources_compile h source)
  | evaluate source answer =>
    have hsources : (cache.compile source).2.sources = compilable (source :: earlier) :=
      sources_compile h source
    rw [perform, Call.reference, evaluate, ← cache.fst_compile source]
    generalize cache.compile source = compiled at hsources
    rcases compiled with ⟨err | e, after⟩
    · simp only [Dialogue.pure_def, Dialogue.runM, pure_bind]
      exact hk _ _ hsources
    · simp only [Dialogue.runM_bind, Dialogue.pure_def, Dialogue.runM, bind_assoc, pure_bind]
      -- What is left of the evaluation in the pool is not looked at any more.
      rw [← runM_evaluateIn_bind e.root after.pool .empty answer fun result ↦
        k' (.evaluated (result.mapError .stop))]
      exact bind_congr fun r ↦ hk _ _ hsources

theorem session_eq_reference_of_sources (h : cache.sources = compilable earlier)
    (calls : List (Call m)) : cache.session calls = reference earlier calls := by
  -- The cache that is left behind by a call is only known by its sources.
  induction calls generalizing cache earlier with
  | nil => rfl
  | cons call calls ih =>
    rw [session, reference]
    refine perform_bind h fun outcome after hafter ↦ ?_
    simp only [ih hafter, size_eq, hafter]

/-- **A cache is transparent.** In every session of a new cache, whatever its calls are and whatever
answers the questions of its evaluations, each call gives what it gives without a cache. After each
call, the cache holds as many expressions as there are different sources so far that compile, and
keeps those: a source that does not compile changes nothing, and an evaluation that fails keeps its
source. -/
theorem session_eq_reference (calls : List (Call m)) :
    ExpressionCache.empty.size = 0 ∧ ExpressionCache.empty.session calls = reference [] calls :=
  ⟨rfl, session_eq_reference_of_sources rfl calls⟩

/-- A session with a source that does not compile, and one whose evaluation fails. -/
theorem session_eq_reference_absent :
    let answer : (q : Query) → Id q.Answer := Subject.answer (.ofProperty fun _ ↦ none)
    let calls : List (Call Id) := [.evaluate "${a}" answer, .evaluate "${a}&&" answer,
      .evaluate "${a}&&1" answer, .compile "${a}"]
    ExpressionCache.empty.session calls = reference [] calls ∧
      (ExpressionCache.empty.session calls).map (·.sources) =
        [["${a}"], ["${a}"], ["${a}&&1", "${a}"], ["${a}&&1", "${a}"]] := by
  intro answer calls
  have h := (session_eq_reference calls).2
  refine ⟨h, ?_⟩
  have ha : (Expression.compile "${a}").isOk = true := by with_unfolding_all rfl
  have hopen : (Expression.compile "${a}&&").isOk = false := by with_unfolding_all rfl
  have hand : (Expression.compile "${a}&&1").isOk = true := by with_unfolding_all rfl
  have hreports : (reference [] calls).map (·.sources) = [compilable ["${a}"],
      compilable ["${a}&&", "${a}"], compilable ["${a}&&1", "${a}&&", "${a}"],
      compilable ["${a}", "${a}&&1", "${a}&&", "${a}"]] := rfl
  rw [h, hreports]
  simp [compilable, ha, hopen, hand]

end ExpressionCache

end FeatureStyle
