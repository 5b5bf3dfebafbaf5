import FeatureStyle.Proofs.Shader.Outcome

/-!
# Several expressions with one state

Expressions may be written one after the other with one state (`Expr.emitEach`); one that has no
shader form does not stop the others. The only thing that passes from one to the next is the flag.

Since the code of every expression is written steadily, **each of them is written as it is on its
own, and the flag is up in the end exactly if it was up at the start or one of them raises it**
(`run_emitEach`). That does not depend on their order (`emitEach_unordered`).
-/

namespace FeatureStyle.Expr

open Emission

/-- The code of expressions, each with a lead of its own, written one after the other. -/
def emitEach : List (String × Expr) →
    StateM ShaderState (List (Except ShaderUnsupported String))
  | [] => pure []
  | (lead, e) :: rest => do
    let text ← (e.emit lead).run
    return text :: (← emitEach rest)

/-- An expression written on its own, started without the flag: its code or the reason why there is
none, and whether it raises the flag. -/
def emitAlone (job : String × Expr) : Except ShaderUnsupported String × Bool :=
  ((job.2.emit job.1).result, (job.2.emit job.1).raises)

variable {jobs jobs' : List (String × Expr)}

/-- One step of the sequence: the expression adds its own flag to the one there is. -/
theorem run_emitEach_cons (job : String × Expr) (rest : List (String × Expr)) (before : Bool) :
    (emitEach (job :: rest)).run ⟨before⟩ =
      let (texts, after) := (emitEach rest).run ⟨before || (emitAlone job).2⟩
      ((emitAlone job).1 :: texts, after) := by
  obtain ⟨lead, e⟩ := job
  show (do
    let text ← (e.emit lead).run
    return text :: (← emitEach rest) : StateM ShaderState _).run ⟨before⟩ = _
  rw [StateT.run_bind, steady_emit lead e ⟨before⟩]
  rfl

/-- Each expression is written as it is on its own, and the flags add up. -/
theorem run_emitEach (jobs : List (String × Expr)) (before : Bool) :
    (emitEach jobs).run ⟨before⟩ =
      (jobs.map fun job ↦ (emitAlone job).1, ⟨before || jobs.any fun job ↦ (emitAlone job).2⟩) := by
  induction jobs generalizing before with
  | nil => rw [List.map_nil, List.any_nil, Bool.or_false]; rfl
  | cons job rest ih =>
    rw [run_emitEach_cons, ih]
    simp only [List.map_cons, List.any_cons, Bool.or_assoc]

/-- **The flag only accumulates.**

* There is a flag for each expression and lead, such that the writing ends with this flag or the one
  that it was started with, whether it succeeds or fails, and gives the same in both cases.
* Of expressions that are written one after the other with one state, each one is written as it is
  on its own, and the flag is up in the end exactly if it was up at the start or one of them raises
  it on its own.
* In another order each of them is still written in the same way, and the flag in the end is the
  same. -/
theorem emitEach_unordered (h : jobs.Perm jobs') (before : Bool) :
    (∀ lead e, ∃ outcome raised, ∀ flag,
        (emit lead e).run.run ⟨flag⟩ = (outcome, ⟨flag || raised⟩)) ∧
      ∃ texts after, (emitEach jobs).run ⟨before⟩ = (texts, ⟨after⟩) ∧
        texts = jobs.map (fun job ↦ (emitAlone job).1) ∧
        (after ↔ before ∨ ∃ job ∈ jobs, (emitAlone job).2) ∧
        ∃ texts', (emitEach jobs').run ⟨before⟩ = (texts', ⟨after⟩) ∧
          (jobs.zip texts).Perm (jobs'.zip texts') := by
  have hflag : (jobs'.any fun job ↦ (emitAlone job).2) = jobs.any fun job ↦ (emitAlone job).2 := by
    rw [Bool.eq_iff_iff, List.any_eq_true, List.any_eq_true]
    simp only [h.mem_iff]
  refine ⟨fun lead e ↦ ⟨_, _, fun flag ↦ steady_emit lead e ⟨flag⟩⟩, _, _, run_emitEach jobs before,
    rfl, by simp, _, hflag ▸ run_emitEach jobs' before, ?_⟩
  rw [← List.map_prod_left_eq_zip, ← List.map_prod_left_eq_zip]
  exact h.map _

/-- A translucent colour and an expression without a shader form, in both orders. -/
theorem emitEach_unordered_null :
    let jobs := [("a_", color (.channels .rgba) [number 0, number 0, number 0, property "a"]),
      ("a_", null)]
    jobs.Perm jobs.reverse ∧ ∃ texts after,
      (emitEach jobs).run ⟨false⟩ = (texts, ⟨after⟩) ∧
        texts = [.ok "vec4(0.0 / 255.0, 0.0 / 255.0, 0.0 / 255.0, a_a)", .error .null] ∧ after ∧
        ∃ texts', (emitEach jobs.reverse).run ⟨false⟩ = (texts', ⟨after⟩) ∧
          (jobs.zip texts).Perm (jobs.reverse.zip texts') := by
  intro jobs
  have hperm : jobs.Perm jobs.reverse := (List.reverse_perm jobs).symm
  obtain ⟨-, texts, after, hrun, htexts, -, hreverse⟩ := emitEach_unordered hperm false
  have heval : (emitEach jobs).run ⟨false⟩ =
      ([.ok "vec4(0.0 / 255.0, 0.0 / 255.0, 0.0 / 255.0, a_a)", .error .null], ⟨true⟩) := by
    with_unfolding_all rfl
  obtain ⟨rfl, hflag⟩ := Prod.mk.inj (heval.symm.trans hrun)
  obtain rfl : true = after := congrArg ShaderState.translucent hflag
  exact ⟨hperm, _, _, hrun, rfl, rfl, hreverse⟩

end FeatureStyle.Expr
