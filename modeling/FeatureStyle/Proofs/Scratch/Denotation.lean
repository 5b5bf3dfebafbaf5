import FeatureStyle.Eval.Term
import FeatureStyle.Proofs.Scratch.Extends

/-!
# What terms denote

A term **denotes** a value in a pool when all of its slots are live there and reading them back
gives the value. Denotation is kept when the pool is extended (`Denotes.extend`), also for slots
deep inside arrays, and putting a value into a pool gives a term that denotes it (`denotes_intern`).
-/

namespace FeatureStyle.Term

/-- Every slot of the term is live in the pool, and the term reads back as the value. -/
def Denotes (pool : ScratchPool) (t : Term) (v : Value) : Prop := t.resolve? pool = some v

/-- The same for terms and values side by side. -/
def DenotesItems (pool : ScratchPool) (ts : List Term) (vs : List Value) : Prop :=
  resolveItems? pool ts = some vs

variable {before after pool : ScratchPool}

/-! ### Arrays -/

theorem denotesItems_nil {vs : List Value} : DenotesItems pool [] vs ↔ vs = [] := by
  simp [DenotesItems, resolveItems?, eq_comm]

theorem denotesItems_cons {t : Term} {ts : List Term} {vs : List Value} :
    DenotesItems pool (t :: ts) vs ↔
      ∃ w ws, vs = w :: ws ∧ Denotes pool t w ∧ DenotesItems pool ts ws := by
  simp only [DenotesItems, Denotes, resolveItems?, Option.bind_eq_bind, Option.pure_def,
    Option.bind_eq_some_iff, Option.some.injEq]
  constructor
  · rintro ⟨w, hw, ws, hws, rfl⟩
    exact ⟨w, ws, rfl, hw, hws⟩
  · rintro ⟨w, ws, rfl, hw, hws⟩
    exact ⟨w, hw, ws, hws, rfl⟩

theorem denotes_array {ts : List Term} {v : Value} :
    Denotes pool (array ts) v ↔ ∃ vs, v = .array vs ∧ DenotesItems pool ts vs := by
  simp only [Denotes, resolve?, Option.map_eq_some_iff, DenotesItems]
  exact exists_congr fun vs ↦ by rw [and_comm, eq_comm]

theorem denotes_slot {l : Lane} {s : Slot l} {v : Value} :
    Denotes pool (slot l s) v ↔ ∃ c, v = .composite l c ∧ pool.live? s = some c := by
  simp only [Denotes, resolve?, Option.map_eq_some_iff]
  exact exists_congr fun c ↦ by rw [and_comm, eq_comm]

/-- The items of an array denote the items of its value, place by place. -/
theorem DenotesItems.getElem? {ts : List Term} {vs : List Value} (h : DenotesItems pool ts vs)
    (i : Nat) :
    (ts[i]? = none ∧ vs[i]? = none) ∨
      ∃ t v, ts[i]? = some t ∧ vs[i]? = some v ∧ Denotes pool t v := by
  induction ts generalizing vs i with
  | nil =>
    obtain rfl := denotesItems_nil.1 h
    exact .inl ⟨rfl, rfl⟩
  | cons t ts ih =>
    obtain ⟨w, ws, rfl, hw, hws⟩ := denotesItems_cons.1 h
    cases i with
    | zero => exact .inr ⟨t, w, rfl, rfl, hw⟩
    | succ i => simpa using ih hws i

/-! ### Extending the pool -/

mutual

/-- **A term denotes the same value in an extended pool.** -/
theorem Denotes.extend (hext : before.Extends after) :
    ∀ {t : Term} {v : Value}, Denotes before t v → Denotes after t v
  | undefined, _, h | null, _, h | bool _, _, h | number _, _, h | string _, _, h
  | regExp _, _, h => h
  | slot l s, _, h => by
    obtain ⟨c, rfl, hc⟩ := denotes_slot.1 h
    exact denotes_slot.2 ⟨c, rfl, hext.live?_eq hc⟩
  | array ts, _, h => by
    obtain ⟨vs, rfl, hvs⟩ := denotes_array.1 h
    exact denotes_array.2 ⟨vs, rfl, DenotesItems.extend hext hvs⟩

theorem DenotesItems.extend (hext : before.Extends after) :
    ∀ {ts : List Term} {vs : List Value}, DenotesItems before ts vs → DenotesItems after ts vs
  | [], _, h => h
  | t :: ts, _, h => by
    obtain ⟨w, ws, rfl, hw, hws⟩ := denotesItems_cons.1 h
    exact denotesItems_cons.2 ⟨w, ws, rfl, hw.extend hext, hws.extend hext⟩

end

/-! ### Putting values into the pool -/

mutual

/-- **A value that is put into a pool is denoted by its term, and nothing live is lost.** -/
theorem denotes_intern : ∀ (v : Value) (pool : ScratchPool),
    pool.Extends (intern v pool).2 ∧ Denotes (intern v pool).2 (intern v pool).1 v
  | .undefined, pool | .null, pool | .bool _, pool | .number _, pool | .string _, pool
  | .regExp _, pool => ⟨.refl pool, rfl⟩
  | .composite l c, pool =>
    ⟨pool.extends_store c, denotes_slot.2 ⟨c, rfl, pool.live?_store_self c⟩⟩
  | .array vs, pool => by
    obtain ⟨hext, hvs⟩ := denotesItems_internItems vs pool
    exact ⟨hext, denotes_array.2 ⟨vs, rfl, hvs⟩⟩

theorem denotesItems_internItems : ∀ (vs : List Value) (pool : ScratchPool),
    pool.Extends (internItems vs pool).2 ∧
      DenotesItems (internItems vs pool).2 (internItems vs pool).1 vs
  | [], pool => ⟨.refl pool, rfl⟩
  | v :: vs, pool => by
    obtain ⟨hext, hv⟩ := denotes_intern v pool
    obtain ⟨hext', hvs⟩ := denotesItems_internItems vs (intern v pool).2
    -- The first item's slots are still live when the other items have been put into the pool.
    exact ⟨hext.trans hext', denotesItems_cons.2 ⟨v, vs, rfl, hv.extend hext', hvs⟩⟩

end

/-! ### Looking at terms -/

/-- Only colours and vectors are slots. -/
theorem Denotes.positive_eq {t : Term} {v : Value} (h : Denotes pool t v)
    (ht : t.isSlot = true) : v.positive = v := by
  cases t with
  | slot l s =>
    obtain ⟨c, rfl, -⟩ := denotes_slot.1 h
    rfl
  | _ => cases ht

/-- What a term gives at a key without looking into the pool denotes the member of its value. -/
theorem Denotes.item? {o t : Term} {v k : Value} (h : Denotes pool o v)
    (ht : o.item? k = some t) : Denotes pool t (v.member k) := by
  cases o with
  | array ts =>
    obtain ⟨vs, rfl, hvs⟩ := denotes_array.1 h
    -- The length of an array is no item; a key that is no index gives nothing on both sides.
    cases hlen : k.isLengthKey with
    | true => simp [Term.item?, hlen] at ht
    | false =>
      cases hk : k.index? with
      | none =>
        obtain rfl : undefined = t := by simpa [Term.item?, hlen, hk] using ht
        simp [Value.member, hlen, hk, Denotes, resolve?]
      | some i =>
        obtain rfl : (ts[i]?).getD undefined = t := by simpa [Term.item?, hlen, hk] using ht
        rcases hvs.getElem? i with ⟨hts, hvs⟩ | ⟨t, v, hts, hvs, htv⟩
        · simp [Value.member, hlen, hk, hts, hvs, Denotes, resolve?]
        · simpa [Value.member, hlen, hk, hts, hvs] using htv
  | _ => cases ht

end FeatureStyle.Term
