import FeatureStyle.Proofs.Eval.Correspondence
import FeatureStyle.Proofs.Eval.Simulation
import FeatureStyle.Proofs.Scratch.Stored

/-!
# What an evaluation stores

`Expr.recorded` evaluates an expression without a pool and writes down every colour and vector that
an evaluation with a pool would store, in order. It looks at values only: those in a value are
written down when it comes from a property, a constructor, an operator or a function, and not when
it is handed on. What has been written down is kept when the evaluation fails.

**The pool after an evaluation is the emptied pool with just these stored** (`evaluateIn_eq`), from
whatever pool it starts and whatever the feature answers. So the pool it starts from decides about
nothing but the generation and the room there is.
-/

namespace FeatureStyle

/-- An evaluation that writes down what it stores. -/
abbrev Recording := ExceptT EvalError (StateT (List Stored) Dialogue)

/-- The machine that puts nothing away, but writes down what would have been stored. -/
def Machine.recording : Machine Recording Value where
  ask d := liftM d
  check r := liftM r
  intern v := do
    modify (· ++ v.composites)
    return v
  read v := pure v
  array := .array
  isSlot
    | .composite _ _ => true
    | _ => false
  item?
    | .array items, key => if key.isLengthKey then none else some ((Value.array items).member key)
    | _, _ => none

namespace Term

variable {pool : ScratchPool} {t : Term} {v : Value}

theorem denotesItems_iff_forall₂ {ts : List Term} {vs : List Value} :
    DenotesItems pool ts vs ↔ List.Forall₂ (Denotes pool) ts vs := by
  induction ts generalizing vs with
  | nil => rw [denotesItems_nil, List.forall₂_nil_left_iff]
  | cons t ts ih =>
    rw [denotesItems_cons, List.forall₂_cons_left_iff]
    refine exists_congr fun w ↦ exists_congr fun ws ↦ ?_
    rw [ih]
    tauto

/-- The plus sign hands on the same on both sides. -/
theorem Denotes.isSlot_eq (h : t.Denotes pool v) :
    Machine.pooled.isSlot t = Machine.recording.isSlot v := by
  cases t with
  | slot l s =>
    obtain ⟨c, rfl, -⟩ := denotes_slot.1 h
    rfl
  | array ts =>
    obtain ⟨vs, rfl, -⟩ := denotes_array.1 h
    rfl
  | _ =>
    cases h
    rfl

/-- And so do members of arrays. -/
theorem Denotes.item?_rel (h : t.Denotes pool v) (key : Value) :
    Option.Rel (Denotes pool) (Machine.pooled.item? t key) (Machine.recording.item? v key) := by
  cases t with
  | array ts =>
    obtain ⟨vs, rfl, -⟩ := denotes_array.1 h
    cases hlength : key.isLengthKey with
    | true => simp [Machine.pooled, Machine.recording, Term.item?, hlength]
    | false =>
      have hitem : (array ts).item? key =
          some (key.index?.elim undefined fun i ↦ (ts[i]?).getD undefined) := by
        simp [Term.item?, hlength]
      have hmember : Machine.recording.item? (.array vs) key =
          some ((Value.array vs).member key) := by
        simp [Machine.recording, hlength]
      rw [hmember, show Machine.pooled.item? (array ts) key = _ from hitem]
      exact .some (h.item? hitem)
  | slot l s =>
    obtain ⟨c, rfl, -⟩ := denotes_slot.1 h
    exact .none
  | _ =>
    cases h
    exact .none

end Term

namespace Expr

open PooledEvaluation

/-- The outcome of an expression, and what its evaluation stores. -/
def recorded (e : Expr) : Dialogue (Except EvalError Value × List Stored) :=
  (Machine.recording.evaluate e).run.run []

variable {α β γ δ : Type} {R : List Stored → α → β → Prop} {S : List Stored → γ → δ → Prop}
  {p : ScratchPool} {log log' : List Stored}

/-! ### The pool holds what is written down -/

/-- How an evaluation with a pool ends, next to one that writes down what it stores: with related
results or the same error, and in the pool `p` with all of that stored. -/
def EndsTracked (p : ScratchPool) (R : List Stored → α → β → Prop) (log : List Stored) :
    Except Stop α × ScratchPool → Except EvalError β × List Stored → Prop
  | (.ok a, after), (.ok b, log') => log <+: log' ∧ after = p.storeAll log' ∧ R log' a b
  | (.error (.error e), after), (.error e', log') => after = p.storeAll log' ∧ e = e'
  | _, _ => False

/-- The evaluation that writes down tracks the one with a pool, from the pool `p` with all stored
that has been written down. -/
def Tracks (p : ScratchPool) (R : List Stored → α → β → Prop) (log : List Stored)
    (x : PooledEvaluation α) (y : Recording β) : Prop :=
  Dialogue.Lockstep (EndsTracked p R log) (x.run.run (p.storeAll log)) (y.run.run log)

namespace Tracks

theorem pure {a : α} {b : β} (h : R log a b) : Tracks p R log (pure a) (pure b) :=
  .done ⟨List.prefix_refl log, rfl, h⟩

/-- What is written down later goes on from what there was. -/
theorem of_prefix {x : PooledEvaluation α} {y : Recording β} (hlogs : log <+: log')
    (h : Tracks p R log' x y) :
    Dialogue.Lockstep (EndsTracked p R log) (x.run.run (p.storeAll log')) (y.run.run log') := by
  refine h.mono fun r r' hr ↦ ?_
  match r, r', hr with
  | (.ok _, _), (.ok _, _), ⟨hlogs', hpool, hR⟩ => exact ⟨hlogs.trans hlogs', hpool, hR⟩
  | (.error (.error _), _), (.error _, _), ⟨hpool, he⟩ => exact ⟨hpool, he⟩

/-- One step after another. What the first one has written down is what the second one starts
from. -/
theorem bind {x : PooledEvaluation α} {y : Recording β} {f : α → PooledEvaluation γ}
    {g : β → Recording δ} (h : Tracks p R log x y)
    (hfg : ∀ log' a b, log <+: log' → R log' a b → Tracks p S log' (f a) (g b)) :
    Tracks p S log (x >>= f) (y >>= g) := by
  refine Dialogue.Lockstep.bind h fun r r' hr ↦ ?_
  match r, r', hr with
  | (.ok a, _), (.ok b, log'), ⟨hlogs, rfl, hR⟩ =>
    exact of_prefix hlogs (hfg log' a b hlogs hR)
  -- An error ends both, and what was stored before it has been written down.
  | (.error (.error _), _), (.error _, _), ⟨hpool, he⟩ => exact .done ⟨hpool, he⟩

theorem ask (d : Dialogue α) :
    Tracks p (fun _ a b ↦ a = b) log (Machine.pooled.ask d) (Machine.recording.ask d) := by
  induction d with
  | done a => exact .done ⟨List.prefix_refl log, rfl, rfl⟩
  | ask q resume ih => exact Dialogue.Lockstep.ask q ih

theorem check (r : Except EvalError α) :
    Tracks p (fun _ a b ↦ a = b) log (Machine.pooled.check r) (Machine.recording.check r) := by
  cases r with
  | ok a => exact .done ⟨List.prefix_refl log, rfl, rfl⟩
  | error e => exact .done ⟨rfl, rfl⟩

theorem intern (v : Value) :
    Tracks p (fun log ↦ Term.Denotes (p.storeAll log)) log (Machine.pooled.intern v)
      (Machine.recording.intern v) := by
  have hpool : (Term.intern v (p.storeAll log)).2 = p.storeAll (log ++ v.composites) := by
    rw [Term.snd_intern, ScratchPool.storeAll_append]
  have hdenotes : (Term.intern v (p.storeAll log)).1.Denotes _ v :=
    (Term.denotes_intern v (p.storeAll log)).2
  rw [hpool] at hdenotes
  exact .done ⟨List.prefix_append log _, hpool, hdenotes⟩

theorem read {t : Term} {v : Value} (h : t.Denotes (p.storeAll log) v) :
    Tracks p (fun _ a b ↦ a = b) log (Machine.pooled.read t) (Machine.recording.read v) := by
  have hread : (Machine.pooled.read t).run.run (p.storeAll log) = .done (.ok v, p.storeAll log) :=
    run_valueOf h
  rw [Tracks, hread]
  exact .done ⟨List.prefix_refl log, rfl, rfl⟩

end Tracks

/-- **What is written down is what the pool holds**, at every moment of an evaluation that starts
from the pool `p`. -/
def recordedCorrespondence (p : ScratchPool) :
    Correspondence Machine.pooled Machine.recording (List Stored) where
  Later := (· <+: ·)
  Denotes log t v := t.Denotes (p.storeAll log) v
  Relates R log x y := Tracks p R log x y
  denotes_later := by
    rintro log _ t v ⟨more, rfl⟩ ht
    rw [ScratchPool.storeAll_append]
    exact ht.extend (ScratchPool.extends_storeAll _ more)
  relates_pure := .pure
  relates_bind := .bind
  relates_ask _ := .ask
  relates_check _ := .check
  relates_intern _ := .intern
  relates_read := .read
  denotes_array h := Term.denotes_array.2 ⟨_, rfl, Term.denotesItems_iff_forall₂.2 h⟩
  isSlot_eq := Term.Denotes.isSlot_eq
  item?_rel := Term.Denotes.item?_rel

/-- **The pool after an evaluation is the emptied pool with what is written down stored**, and the
outcome is the one that is written down. -/
theorem evaluateIn_eq (e : Expr) (pool : ScratchPool) :
    e.evaluateIn pool =
      (fun r ↦ (r.1.mapError Stop.error, pool.reset.storeAll r.2)) <$> e.recorded := by
  have h : Tracks pool.reset (fun _ v v' ↦ v = v') [] (Machine.pooled.evaluate e)
      (Machine.recording.evaluate e) := (recordedCorrespondence pool.reset).relates_evaluate e []
  have hmap : id <$> (Machine.pooled.evaluate e).run.run pool.reset =
      (fun r ↦ (r.1.mapError Stop.error, pool.reset.storeAll r.2)) <$> e.recorded := by
    refine Dialogue.Lockstep.map_eq_map (h.mono fun r r' hr ↦ ?_)
    match r, r', hr with
    | (.ok _, _), (.ok _, _), ⟨_, rfl, rfl⟩ => rfl
    | (.error (.error _), _), (.error _, _), ⟨rfl, rfl⟩ => rfl
  rwa [id_map, Machine.run_pooled_evaluate] at hmap

/-- That a colour is asked for changes the outcome only. -/
theorem evaluateColorIn_eq (e : Expr) (pool : ScratchPool) :
    e.evaluateColorIn pool =
      (fun r ↦ (r.1.bind fun v ↦ v.expectColor.mapError Stop.error, r.2)) <$>
        e.evaluateIn pool := by
  rw [← bind_pure_comp]
  change e.evaluateIn pool >>= _ = _
  refine bind_congr fun r ↦ ?_
  obtain ⟨stop | v, after⟩ := r
  · rfl
  · change (ofExcept v.expectColor).run.run after =
      pure (v.expectColor.mapError Stop.error, after)
    cases v.expectColor <;> rfl

end Expr

end FeatureStyle
