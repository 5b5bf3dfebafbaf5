import FeatureStyle.Expression.Basic

/-!
# A cache of compiled expressions

An `ExpressionCache` keeps every source that it has compiled, and one scratch pool for all
evaluations. A source that does not compile is not kept, and an evaluation that fails leaves its
source in the cache.
-/

namespace FeatureStyle

/-- Why a source has no value. -/
inductive ExpressionError
  | compile (e : CompileError)
  | stop (e : Stop)
  deriving DecidableEq, Repr

/-- Compiled sources, the latest first, and a scratch pool. -/
structure ExpressionCache where
  expressions : List Expression
  pool : ScratchPool

namespace ExpressionCache

/-- The cache with nothing in it. -/
def empty : ExpressionCache := ⟨[], .empty⟩

/-- The expression of a source that has been compiled before. -/
def find? (cache : ExpressionCache) (source : String) : Option Expression :=
  cache.expressions.find? (·.source == source)

/-- The number of expressions in the cache. -/
def size (cache : ExpressionCache) : Nat := cache.expressions.length

/-- The expression of a source, from the cache or compiled and kept. -/
def compile (cache : ExpressionCache) (source : String) :
    Except CompileError Expression × ExpressionCache :=
  match cache.find? source with
  | some e => (.ok e, cache)
  | none =>
    match Expression.compile source with
    | .ok e => (.ok e, { cache with expressions := e :: cache.expressions })
    | .error err => (.error err, cache)

/-- The value of a source. -/
def evaluate (cache : ExpressionCache) (source : String) :
    Dialogue (Except ExpressionError Value × ExpressionCache) :=
  match cache.compile source with
  | (.error err, cache) => pure (.error (.compile err), cache)
  | (.ok e, cache) => do
    let (result, pool) ← e.root.evaluateIn cache.pool
    return (result.mapError .stop, { cache with pool })

end ExpressionCache

end FeatureStyle
