import FeatureStyle.Fixture.Basic
import Mathlib.Data.String.Basic

/-!
# Features of fixtures

**A fixture without objects always describes a feature, and the feature has the values of all of its
properties** (`Fixture.exists_toFeature`). No property is put in twice, as the names of a fixture
ascend.

**A JSON value without objects comes back from the value of the language that it stands for**
(`Json.Plain.exists_toValue?`), however deep the arrays in it are.
-/

namespace FeatureStyle

/-! ### JSON values without objects -/

/-- There is no object in the value, and its numbers are such as is asked for. -/
inductive Json.Plain (p : Float → Prop) : Json → Prop
  | null : Plain p .null
  | bool (b : Bool) : Plain p (.bool b)
  | number {x : Float} (hx : p x) : Plain p (.number x)
  | string (s : String) : Plain p (.string s)
  | array {items : List Json} (hitems : ∀ j ∈ items, Plain p j) : Plain p (.array items)

namespace Json

variable {p q : Float → Prop} {j : Json}

theorem Plain.mono (h : j.Plain p) (hpq : ∀ x, p x → q x) : j.Plain q := by
  induction h with
  | null => exact .null
  | bool b => exact .bool b
  | number hx => exact .number (hpq _ hx)
  | string s => exact .string s
  | array _ ih => exact .array ih

/-- Values that come back one by one come back together. -/
theorem exists_toValues? {items : List Json}
    (h : ∀ j ∈ items, ∃ v, j.toValue? = some v ∧ v.toJson = j) :
    ∃ vs, toValues? items = some vs ∧ Value.toJsons vs = items := by
  induction items with
  | nil => exact ⟨[], by rw [toValues?], by rw [Value.toJsons]⟩
  | cons j items ih =>
    obtain ⟨⟨v, hv, hback⟩, hitems⟩ := List.forall_mem_cons.1 h
    obtain ⟨vs, hvs, hbacks⟩ := ih hitems
    exact ⟨v :: vs, by rw [toValues?, hv, hvs]; rfl, by rw [Value.toJsons, hback, hbacks]⟩

/-- **A value without objects comes back** from the value of the language that it stands for. -/
theorem Plain.exists_toValue? (h : j.Plain p) : ∃ v, j.toValue? = some v ∧ v.toJson = j := by
  induction h with
  | null => exact ⟨.null, by rw [toValue?], by rw [Value.toJson]⟩
  | bool b => exact ⟨.bool b, by rw [toValue?], by rw [Value.toJson]⟩
  | number _ => exact ⟨.number _, by rw [toValue?], by rw [Value.toJson]⟩
  | string s => exact ⟨.string s, by rw [toValue?], by rw [Value.toJson]⟩
  | array _ ih =>
    obtain ⟨vs, hvs, hback⟩ := exists_toValues? ih
    exact ⟨.array vs, by rw [toValue?, hvs]; rfl, by rw [Value.toJson, hback]⟩

end Json

namespace Fixture

variable {fixture : Fixture}

/-! ### Properties of a feature -/

theorem exists_insertProperties {properties : List (String × Json)}
    (h : ∀ p ∈ properties, ∃ v, p.2.toValue? = some v) (f : Feature) :
    ∃ f', insertProperties f properties = .ok f' := by
  induction properties generalizing f with
  | nil => exact ⟨f, rfl⟩
  | cons entry properties ih =>
    obtain ⟨⟨v, hv⟩, hproperties⟩ := List.forall_mem_cons.1 h
    rw [insertProperties, hv]
    exact ih hproperties _

/-- What is put in later under other names does not matter. -/
theorem property?_insertProperties_of_ne {properties : List (String × Json)} {f f' : Feature}
    {name : String} (h : insertProperties f properties = .ok f')
    (hne : ∀ p ∈ properties, p.1 ≠ name) : f'.property? name = f.property? name := by
  induction properties generalizing f with
  | nil =>
    cases h
    rfl
  | cons entry properties ih =>
    obtain ⟨n, j⟩ := entry
    obtain ⟨hhead, hne⟩ := List.forall_mem_cons.1 hne
    rw [insertProperties] at h
    split at h
    · rw [ih h hne, Feature.property?_insert, if_neg (Ne.symm hhead)]
    · cases h

/-- A property is found as it was put in. -/
theorem property?_insertProperties {properties : List (String × Json)} {f f' : Feature}
    (hascending : properties.Pairwise fun a b ↦ a.1 < b.1)
    (h : insertProperties f properties = .ok f') {name : String} {j : Json}
    (hmem : (name, j) ∈ properties) : f'.property? name = j.toValue? := by
  induction properties generalizing f with
  | nil => cases hmem
  | cons entry properties ih =>
    obtain ⟨n, k⟩ := entry
    obtain ⟨hhead, hascending⟩ := List.pairwise_cons.1 hascending
    rw [insertProperties] at h
    split at h
    · next v hv =>
      rcases List.mem_cons.1 hmem with heq | hmem
      · obtain ⟨rfl, rfl⟩ := Prod.mk.inj heq
        rw [property?_insertProperties_of_ne h fun p hp ↦ (hhead p hp).ne',
          Feature.property?_insert, if_pos rfl, hv]
      · exact ih hascending h hmem
    · cases h

/-- What classes a feature is of does not matter for its properties. -/
theorem property?_classes (classes : List String) (f : Feature) (name : String) :
    (classes.foldl Feature.addClass f).property? name = f.property? name := by
  induction classes generalizing f with
  | nil => rfl
  | cons c classes ih => exact ih (f.addClass c)

/-- **A fixture without objects describes a feature**, and this has the values of its properties. -/
theorem exists_toFeature {p : Float → Prop}
    (hplain : ∀ entry ∈ fixture.properties.entries, entry.2.Plain p) (defaultTime : Float) :
    ∃ f, fixture.toFeature defaultTime = .ok f ∧
      ∀ entry ∈ fixture.properties.entries, f.property? entry.1 = entry.2.toValue? := by
  have hvalues : ∀ entry ∈ fixture.properties.entries, ∃ v, entry.2.toValue? = some v :=
    fun entry hentry ↦ (hplain entry hentry).exists_toValue?.imp fun _ h ↦ h.1
  obtain ⟨f, hf⟩ := exists_insertProperties hvalues
    (Feature.empty.withTime (fixture.timeSinceLoad.getD defaultTime))
  refine ⟨fixture.classes.foldl Feature.addClass (fixture.className.elim f f.withClass), ?_, ?_⟩
  · rw [toFeature, hf]
    rfl
  · intro entry hentry
    rw [property?_classes, ← property?_insertProperties fixture.properties.ascending hf hentry]
    cases fixture.className <;> rfl

end Fixture

end FeatureStyle
