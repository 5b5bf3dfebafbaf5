import FeatureStyle.Proofs.Source.Segment

/-!
# Backslashes behind the sentinel

Hiding backslashes before they are restored makes no difference (`restoreBackslashes_hide`): what is
hidden comes back, and a sentinel that was in the text before turns into a backslash as it would
have anyway. None arises where a hidden backslash meets its neighbours, because the sentinel does
not overlap with itself. So **a text comes back from hiding its backslashes exactly if it is free of
the sentinel** (`restoreBackslashes_hide_eq_self_iff`).
-/

namespace FeatureStyle.Source

variable {c : Char} {cs rest : List Char}

theorem sentinel_isPrefix_iff : sentinel <+: cs ↔ ∃ rest, cs = '@' :: '#' :: '%' :: rest := by
  have hsentinel : sentinel = ['@', '#', '%'] := rfl
  rw [hsentinel]
  exact ⟨fun ⟨rest, h⟩ ↦ ⟨rest, h.symm⟩, fun ⟨rest, h⟩ ↦ ⟨rest, h.symm⟩⟩

theorem restoreBackslashes_sentinel (cs : List Char) :
    restoreBackslashes ('@' :: '#' :: '%' :: cs) = '\\' :: restoreBackslashes cs := rfl

/-- Where no sentinel begins, a character stands for itself. -/
theorem restoreBackslashes_cons (h : ¬ sentinel <+: c :: cs) :
    restoreBackslashes (c :: cs) = c :: restoreBackslashes cs := by
  rw [restoreBackslashes]
  rintro rest rfl rfl
  exact h (sentinel_isPrefix_iff.2 ⟨rest, rfl⟩)

/-- A hidden backslash begins with an at sign, so what begins otherwise stood there before. -/
theorem exists_of_hideBackslashes_eq_cons (hc : c ≠ '@') (h : hideBackslashes cs = c :: rest) :
    ∃ cs', cs = c :: cs' ∧ hideBackslashes cs' = rest := by
  cases cs with
  | nil => cases h
  | cons d cs =>
    by_cases hd : d = '\\'
    · subst hd
      rw [hideBackslashes_backslash] at h
      exact absurd (List.cons.inj h).1.symm hc
    · rw [hideBackslashes_cons hd] at h
      obtain ⟨rfl, rfl⟩ := List.cons.inj h
      exact ⟨cs, rfl, rfl⟩

/-- Hiding backslashes behind a character makes no sentinel begin with it. -/
theorem isPrefix_of_isPrefix_hideBackslashes (h : sentinel <+: c :: hideBackslashes cs) :
    sentinel <+: c :: cs := by
  obtain ⟨rest, hrest⟩ := sentinel_isPrefix_iff.1 h
  obtain ⟨rfl, htail⟩ := List.cons.inj hrest
  obtain ⟨cs', rfl, hcs'⟩ := exists_of_hideBackslashes_eq_cons (by decide) htail
  obtain ⟨cs'', rfl, -⟩ := exists_of_hideBackslashes_eq_cons (by decide) hcs'
  exact sentinel_isPrefix_iff.2 ⟨cs'', rfl⟩

/-- **Hiding backslashes before they are restored makes no difference.** -/
theorem restoreBackslashes_hide (cs : List Char) :
    restoreBackslashes (hideBackslashes cs) = restoreBackslashes cs := by
  fun_induction restoreBackslashes cs with
  | case1 cs ih =>
    show '\\' :: restoreBackslashes (hideBackslashes cs) = _
    rw [ih]
  | case2 c cs hc ih =>
    by_cases hbackslash : c = '\\'
    · subst hbackslash
      rw [hideBackslashes_backslash, restoreBackslashes_sentinel, ih]
    · rw [hideBackslashes_cons hbackslash, restoreBackslashes_cons, ih]
      intro h
      obtain ⟨rest, hrest⟩ := sentinel_isPrefix_iff.1 (isPrefix_of_isPrefix_hideBackslashes h)
      obtain ⟨rfl, rfl⟩ := List.cons.inj hrest
      exact hc rest rfl rfl
  | case3 => rfl

/-- Restoring backslashes changes a text exactly if the sentinel is in it. -/
theorem restoreBackslashes_eq_self_iff : restoreBackslashes cs = cs ↔ ¬ sentinel <:+: cs := by
  induction cs with
  | nil => exact iff_of_true rfl (by simp [sentinel])
  | cons c cs ih =>
    rw [List.infix_cons_iff, not_or]
    by_cases h : sentinel <+: c :: cs
    · refine iff_of_false ?_ fun hnot ↦ hnot.1 h
      -- The text begins with an at sign and becomes one that begins with a backslash.
      obtain ⟨rest, hrest⟩ := sentinel_isPrefix_iff.1 h
      rw [hrest, restoreBackslashes_sentinel]
      exact fun heq ↦ absurd (List.cons.inj heq).1 (by decide)
    · rw [restoreBackslashes_cons h, List.cons.injEq, ih]
      exact ⟨fun hnot ↦ ⟨h, hnot.2⟩, fun hnot ↦ ⟨rfl, hnot.2⟩⟩

theorem restoreBackslashes_eq_self (h : '@' ∉ cs) : restoreBackslashes cs = cs :=
  restoreBackslashes_eq_self_iff.2 fun hin ↦ h (hin.subset (by decide))

/-- **A text comes back from hiding its backslashes exactly if it is free of the sentinel.** -/
theorem restoreBackslashes_hide_eq_self_iff :
    restoreBackslashes (hideBackslashes cs) = cs ↔ ¬ sentinel <:+: cs := by
  rw [restoreBackslashes_hide, restoreBackslashes_eq_self_iff]

/-! ### What hiding leaves in a text -/

theorem backslash_notMem_hideBackslashes (cs : List Char) : '\\' ∉ hideBackslashes cs := by
  induction cs with
  | nil => exact List.not_mem_nil
  | cons c cs ih =>
    by_cases hc : c = '\\'
    · subst hc
      rw [hideBackslashes_backslash]
      simpa using ih
    · rw [hideBackslashes_cons hc]
      exact fun h ↦ (List.mem_cons.1 h).elim (fun h ↦ hc h.symm) ih

/-- Hiding backslashes adds no other characters than those of the sentinel. -/
theorem notMem_hideBackslashes (hc : c ∉ sentinel) (h : c ∉ cs) : c ∉ hideBackslashes cs := by
  intro hmem
  obtain ⟨front, back, heq⟩ := List.append_of_mem hmem
  obtain ⟨front, back, rfl, -, -⟩ :=
    exists_of_hideBackslashes_eq_append (List.cons_ne_nil c []) (by simpa using hc) heq
  simp at h

end FeatureStyle.Source
