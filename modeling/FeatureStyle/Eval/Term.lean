import FeatureStyle.Eval.Operations
import FeatureStyle.Scratch.Pool

/-!
# Values with slots

A `Term` is a value whose colours and vectors are in a scratch pool. `Term.resolve?` reads the value
back, as long as every slot in it is live, and `Term.intern` puts the colours and vectors of a value
into the pool, from left to right.
-/

namespace FeatureStyle

/-- A value whose colours and vectors are slots. -/
inductive Term
  | undefined
  | null
  | bool (b : Bool)
  | number (x : Float)
  | string (s : String)
  | regExp (p : Pattern)
  | slot (lane : Lane) (s : Slot lane)
  | array (items : List Term)

namespace Term

mutual

/-- The value of a term, if all of its slots are live. -/
def resolve? (pool : ScratchPool) : Term → Option Value
  | undefined => some .undefined
  | null => some .null
  | bool b => some (.bool b)
  | number x => some (.number x)
  | string s => some (.string s)
  | regExp p => some (.regExp p)
  | slot lane s => (pool.live? s).map (.composite lane)
  | array items => (resolveItems? pool items).map .array

/-- The values of terms. -/
def resolveItems? (pool : ScratchPool) : List Term → Option (List Value)
  | [] => some []
  | t :: ts => do
    let v ← t.resolve? pool
    return v :: (← resolveItems? pool ts)

end

mutual

/-- The term of a value, whose colours and vectors go into the pool. -/
def intern : Value → StateM ScratchPool Term
  | .undefined => pure undefined
  | .null => pure null
  | .bool b => pure (bool b)
  | .number x => pure (number x)
  | .string s => pure (string s)
  | .regExp p => pure (regExp p)
  | .composite lane c => fun pool ↦
    let (s, pool) := pool.store c
    (slot lane s, pool)
  | .array items => array <$> internItems items

/-- The terms of values. -/
def internItems : List Value → StateM ScratchPool (List Term)
  | [] => pure []
  | v :: vs => do
    let t ← intern v
    return t :: (← internItems vs)

end

/-- Whether the term is a colour or vector. -/
def isSlot : Term → Bool
  | slot _ _ => true
  | _ => false

/-- The item of an array at a key, missing or not; nothing for other terms, and nothing for the
length. -/
def item? (object : Term) (key : Value) : Option Term :=
  match object with
  | array items =>
    if key.isLengthKey then none
    else some (key.index?.elim undefined fun i ↦ (items[i]?).getD undefined)
  | _ => none

end Term

end FeatureStyle
