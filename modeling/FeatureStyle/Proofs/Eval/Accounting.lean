import FeatureStyle.Proofs.Eval.Recording
import Mathlib.Data.List.MinMax
import Mathlib.Order.Nat

/-!
# The accounts of a pool

A pool is used by one evaluation after another, each of which empties it first. What one of them
leaves behind is known from what it stores (`Call.perform_eq`), and that is a matter of the
expression and the feature; neither the pool nor what was evaluated before has any part in it.

**The pool counts the evaluations, and a lane has the room that the largest of them took**
(`afterCalls_accounts`). An evaluation that fails halfway counts like any other, with what it has
stored up to there.
-/

namespace FeatureStyle.ScratchPool

/-- A call of an evaluation with a pool. -/
inductive Call
  /-- The value of an expression for a feature. -/
  | value (e : Expr) (feature : Subject)
  /-- The colour of an expression for a feature. -/
  | color (e : Expr) (feature : Subject)

namespace Call

/-- The pool after the call, whether the call succeeds or fails. -/
def perform (p : ScratchPool) : Call → ScratchPool
  | value e feature => ((e.evaluateIn p).run feature).2
  | color e feature => ((e.evaluateColorIn p).run feature).2

/-- What the call stores, in order. -/
def stored : Call → List Stored
  | value e feature | color e feature => (e.recorded.run feature).2

/-- How many values the call stores in a lane. -/
def stores (l : Lane) (c : Call) : Nat := Stored.count l c.stored

/-- **A call empties the pool and stores what it stores.** -/
theorem perform_eq (p : ScratchPool) (c : Call) : c.perform p = p.reset.storeAll c.stored := by
  have hvalue (e : Expr) (feature : Subject) :
      ((e.evaluateIn p).run feature).2 = p.reset.storeAll (e.recorded.run feature).2 := by
    rw [Expr.evaluateIn_eq, Dialogue.run_map]
  cases c with
  | value e feature => exact hvalue e feature
  | color e feature =>
    rw [perform, Expr.evaluateColorIn_eq, Dialogue.run_map]
    exact hvalue e feature

theorem generation_perform (p : ScratchPool) (c : Call) :
    (c.perform p).generation = p.generation + 1 := by
  rw [perform_eq, generation_storeAll, generation_reset]

theorem capacity_perform (p : ScratchPool) (c : Call) (l : Lane) :
    (c.perform p).capacity l = max (p.capacity l) (c.stores l) := by
  rw [perform_eq, capacity_storeAll_reset, stores]

end Call

/-- The pool after some calls, one after another. -/
def afterCalls (p : ScratchPool) (calls : List Call) : ScratchPool := calls.foldl Call.perform p

/-- The most values that one of the calls stores in a lane. -/
def peak (l : Lane) (calls : List Call) : Nat := (calls.map (Call.stores l)).foldr max 0

variable {l : Lane} {calls again : List Call}

theorem stores_le_peak {c : Call} (h : c ∈ calls) : c.stores l ≤ peak l calls :=
  List.le_max_of_le (List.mem_map_of_mem h) (Nat.le_refl _)

theorem peak_le {n : Nat} (h : ∀ c ∈ calls, c.stores l ≤ n) : peak l calls ≤ n := by
  refine List.max_le_of_forall_le _ n fun k hk ↦ ?_
  obtain ⟨c, hc, rfl⟩ := List.mem_map.1 hk
  exact h c hc

/-! ### Runs of calls -/

theorem afterCalls_append (p : ScratchPool) (calls more : List Call) :
    p.afterCalls (calls ++ more) = (p.afterCalls calls).afterCalls more := List.foldl_append

theorem generation_afterCalls (p : ScratchPool) (calls : List Call) :
    (p.afterCalls calls).generation = p.generation + .ofNat calls.length := by
  induction calls generalizing p with
  | nil => exact (UInt64.add_zero _).symm
  | cons c calls ih =>
    have hstep : p.afterCalls (c :: calls) = (c.perform p).afterCalls calls := rfl
    rw [hstep, ih, Call.generation_perform, List.length_cons, UInt64.ofNat_add, UInt64.add_assoc,
      UInt64.add_comm 1]
    rfl

theorem capacity_afterCalls (p : ScratchPool) (calls : List Call) (l : Lane) :
    (p.afterCalls calls).capacity l = max (p.capacity l) (peak l calls) := by
  induction calls generalizing p with
  | nil => exact (Nat.max_zero _).symm
  | cons c calls ih =>
    have hstep : p.afterCalls (c :: calls) = (c.perform p).afterCalls calls := rfl
    rw [hstep, ih, Call.capacity_perform, Nat.max_assoc]
    rfl

/-- **The accounts of a pool.** After any calls of a new pool, of whatever expressions and for
whatever features, and whether they succeed or fail:

* its generation is the number of calls, up to the size of a word;
* each lane has as much room as there are values of that lane stored by the call that stores the
  most of them;
* whatever is called next, no lane has less room, and no lane has more if those calls have all been
  made already.

What a call stores is a matter of its expression and its feature: from every pool, it leaves the
emptied pool with just that stored. The same is true of an evaluation whose answers change on the
way, since what is stored follows from the answers alone. -/
theorem afterCalls_accounts (calls : List Call) :
    (empty.afterCalls calls).generation = .ofNat calls.length ∧
      (∀ l, (empty.afterCalls calls).capacity l = (calls.map (Call.stores l)).foldr max 0) ∧
      (∀ l more, (empty.afterCalls calls).capacity l ≤
        (empty.afterCalls (calls ++ more)).capacity l) ∧
      (∀ l again, again ⊆ calls → (empty.afterCalls (calls ++ again)).capacity l =
        (empty.afterCalls calls).capacity l) ∧
      (∀ (c : Call) (p : ScratchPool), c.perform p = p.reset.storeAll c.stored) ∧
      ∀ (e : Expr) (p : ScratchPool), e.evaluateIn p =
        (fun r ↦ (r.1.mapError Stop.error, p.reset.storeAll r.2)) <$> e.recorded := by
  have hcapacity (calls : List Call) (l : Lane) :
      (empty.afterCalls calls).capacity l = peak l calls := by
    rw [capacity_afterCalls]
    cases l <;> exact Nat.zero_max _
  have hmore (more : List Call) (l : Lane) :
      (empty.afterCalls (calls ++ more)).capacity l = max (peak l calls) (peak l more) := by
    rw [afterCalls_append, capacity_afterCalls, hcapacity]
  refine ⟨?_, hcapacity calls, fun l more ↦ ?_, fun l again hagain ↦ ?_,
    fun c p ↦ c.perform_eq p, Expr.evaluateIn_eq⟩
  · rw [generation_afterCalls]
    exact UInt64.zero_add _
  · rw [hmore, hcapacity]
    exact Nat.le_max_left _ _
  · rw [hmore, hcapacity]
    exact Nat.max_eq_left (peak_le fun c hc ↦ stores_le_peak (hagain hc))

/-- A call that fails after two colours have been stored, and one that gives a vector in place of
the colour that it should. -/
theorem afterCalls_accounts_failing :
    let feature : Subject := .ofProperty fun _ ↦ none
    let colors : Expr := .array [.color .css [], .color .css []]
    let failing : Call := .value (.logical .and colors (.color .css [])) feature
    let vector : Call := .color (.vector .two [.number 1, .number 2]) feature
    let again : List Call := [vector, failing, vector]
    again ⊆ [failing, vector] ∧
      (empty.afterCalls ([failing, vector] ++ again)).generation = 5 ∧
      (empty.afterCalls ([failing, vector] ++ again)).capacity .color = 2 ∧
      (empty.afterCalls ([failing, vector] ++ again)).capacity .vec2 = 1 := by
  intro feature colors failing vector again
  have hagain : again ⊆ [failing, vector] := by simp [again]
  have h := afterCalls_accounts [failing, vector]
  have hgeneration := (afterCalls_accounts ([failing, vector] ++ again)).1
  have hcolor : [failing, vector].map (Call.stores .color) = [2, 0] := by with_unfolding_all rfl
  have hvector : [failing, vector].map (Call.stores .vec2) = [0, 1] := by with_unfolding_all rfl
  refine ⟨hagain, hgeneration, ?_, ?_⟩
  · rw [h.2.2.2.1 .color again hagain, h.2.1, hcolor]
    rfl
  · rw [h.2.2.2.1 .vec2 again hagain, h.2.1, hvector]
    rfl

end FeatureStyle.ScratchPool
