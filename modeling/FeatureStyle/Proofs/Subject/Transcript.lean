import FeatureStyle.Proofs.Expression.Session

/-!
# Dialogues on record

A `Respondent` answers a question in view of the `Transcript` of what has been asked and answered so
far, so it may answer differently when a question comes up again. Every subject is a respondent that
does not look at the transcript (`Subject.respondent`).

`Dialogue.converse` gives the result of a dialogue with a respondent and the transcript after it.
**A dialogue depends on the respondent only through the answers on record**
(`converse_eq_of_confirms`): one that would give the same answers, each in view of what came before
it, is asked the same questions and leads to the same result.
-/

namespace FeatureStyle

/-- A question and the answer to it. -/
structure Exchange where
  query : Query
  answer : query.Answer

/-- What has been asked and answered, the earliest first. -/
abbrev Transcript := List Exchange

/-- What answers a question in view of what has been asked and answered so far. -/
abbrev Respondent := Transcript → (q : Query) → q.Answer

namespace Respondent

/-- Answers a question and puts it on record. -/
def reply (A : Respondent) (q : Query) : StateM Transcript q.Answer := fun t ↦
  (A t q, t ++ [⟨q, A t q⟩])

/-- Every answer on record is the one that the respondent would give in its place. -/
def Confirms (A : Respondent) (record : Transcript) : Prop :=
  ∀ before x after, record = before ++ x :: after → A before x.query = x.answer

end Respondent

/-- The respondent that answers as the subject does. -/
def Subject.respondent (s : Subject) : Respondent := fun _ ↦ s.answer

/-- A subject confirms a record if it gives every answer in it. -/
theorem Subject.respondent_confirms_iff {s : Subject} {record : Transcript} :
    s.respondent.Confirms record ↔ ∀ x ∈ record, s.answer x.query = x.answer := by
  constructor
  · intro h x hx
    obtain ⟨before, after, hrecord⟩ := List.append_of_mem hx
    exact h before x after hrecord
  · rintro h before x after rfl
    exact h x (by simp)

namespace Dialogue

variable {α β : Type} {A B : Respondent}

/-- The result of a dialogue with a respondent, and the transcript after it. -/
def converse (d : Dialogue α) (A : Respondent) (t : Transcript) : α × Transcript :=
  (d.runM A.reply).run t

@[simp] theorem converse_done (a : α) (A : Respondent) (t : Transcript) :
    (done a).converse A t = (a, t) := rfl

@[simp] theorem converse_ask (q : Query) (resume : q.Answer → Dialogue α) (A : Respondent)
    (t : Transcript) :
    (ask q resume).converse A t = (resume (A t q)).converse A (t ++ [⟨q, A t q⟩]) := rfl

theorem converse_bind (d : Dialogue α) (f : α → Dialogue β) (A : Respondent) (t : Transcript) :
    (d >>= f).converse A t = (f (d.converse A t).1).converse A (d.converse A t).2 := by
  rw [converse, runM_bind]
  rfl

theorem converse_map (f : α → β) (d : Dialogue α) (A : Respondent) (t : Transcript) :
    (f <$> d).converse A t = (f (d.converse A t).1, (d.converse A t).2) := by
  rw [← bind_pure_comp, converse_bind]
  rfl

/-- Nothing is struck from the record. -/
theorem isPrefix_converse (d : Dialogue α) (A : Respondent) (t : Transcript) :
    t <+: (d.converse A t).2 := by
  induction d generalizing t with
  | done a => exact List.prefix_rfl
  | ask q resume ih => exact (List.prefix_append t _).trans (ih (A t q) _)

/-- Of two subjects that give the same answers to what the first one is asked, the second one is
asked the same. -/
theorem calls_eq_of_forall {s s' : Subject} (d : Dialogue α)
    (h : ∀ q ∈ d.calls s, s'.answer q = s.answer q) :
    d.calls s' = d.calls s ∧ d.run s' = d.run s := by
  induction d with
  | done a => exact ⟨rfl, rfl⟩
  | ask q resume ih =>
    obtain ⟨hq, hrest⟩ := List.forall_mem_cons.1 h
    obtain ⟨hcalls, hrun⟩ := ih (s.answer q) hrest
    simp only [calls, run, hq, hcalls, hrun, and_self]

/-- Of two respondents, where the second one would answer as the first one does beyond a transcript,
it is asked the same from there. -/
theorem converse_eq_of_forall (d : Dialogue α) {t : Transcript}
    (h : ∀ before x after, (d.converse A t).2 = before ++ x :: after → t <+: before →
      B before x.query = x.answer) : d.converse B t = d.converse A t := by
  induction d generalizing t with
  | done a => rfl
  | ask q resume ih =>
    obtain ⟨after, hafter⟩ := (resume (A t q)).isPrefix_converse A (t ++ [⟨q, A t q⟩])
    have hq : B t q = A t q := by
      refine h t ⟨q, A t q⟩ after ?_ List.prefix_rfl
      rw [converse_ask, ← hafter, List.append_assoc, List.singleton_append]
    rw [converse_ask, converse_ask, hq]
    exact ih (A t q) fun before x after hrecord hbefore ↦
      h before x after hrecord ((List.prefix_append t _).trans hbefore)

/-- **A dialogue depends on the respondent only through the answers on record.** -/
theorem converse_eq_of_confirms (d : Dialogue α) (h : B.Confirms (d.converse A []).2) :
    d.converse B [] = d.converse A [] :=
  d.converse_eq_of_forall fun before x after hrecord _ ↦ h before x after hrecord

end Dialogue

end FeatureStyle
