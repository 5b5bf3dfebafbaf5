import FeatureStyle.Subject.Dialogue

/-!
# How dialogues can end

A dialogue **can end** with a result when some answers lead to it. Nothing is assumed about who
answers: a question that comes up twice may be answered differently, so what holds of every end
holds for every subject (`ends_run`) and for subjects whose answers change on the way.

The ends of dialogues in sequence are those of the second one, after an end of the first
(`ends_bind_iff`).
-/

namespace FeatureStyle.Dialogue

variable {α β : Type} {a : α} {b : β}

/-- Some answers lead to the result. -/
inductive Ends : Dialogue α → α → Prop
  | done (a : α) : Ends (done a) a
  | ask (q : Query) {resume : q.Answer → Dialogue α} (answer : q.Answer) {a : α}
      (h : Ends (resume answer) a) : Ends (ask q resume) a

/-- What a subject leads to is an end. -/
theorem ends_run (s : Subject) (d : Dialogue α) : d.Ends (d.run s) := by
  induction d with
  | done a => exact .done a
  | ask q resume ih => exact .ask q (s.answer q) (ih (s.answer q))

@[simp] theorem ends_done_iff {c : α} : (done a).Ends c ↔ c = a := by
  constructor
  · rintro ⟨⟩
    rfl
  · rintro rfl
    exact .done c

/-- One dialogue after another ends as the second one does, after some end of the first. -/
theorem ends_bind_iff {d : Dialogue α} {f : α → Dialogue β} :
    (d >>= f).Ends b ↔ ∃ a, d.Ends a ∧ (f a).Ends b := by
  constructor
  · intro h
    induction d with
    | done a => exact ⟨a, .done a, h⟩
    | ask q resume ih =>
      rw [bind_ask] at h
      cases h with
      | ask _ answer h =>
        obtain ⟨a, ha, hb⟩ := ih answer h
        exact ⟨a, .ask q answer ha, hb⟩
  · rintro ⟨a, ha, hb⟩
    induction ha with
    | done a => exact hb
    | ask q answer _ ih => exact .ask q answer (ih hb)

theorem ends_map_iff {d : Dialogue α} {f : α → β} :
    (f <$> d).Ends b ↔ ∃ a, d.Ends a ∧ f a = b := by
  rw [← bind_pure_comp, ends_bind_iff]
  simp only [pure_def, ends_done_iff, eq_comm (a := b)]

end FeatureStyle.Dialogue
