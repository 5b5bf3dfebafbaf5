import FeatureStyle.Proofs.Fixture.Properties
import Mathlib.Data.List.Forall2

/-!
# Which fixtures describe features

What is put into a feature is the **image** of a JSON value (`Json.Image`): the value that is made
of the same scalars in arrays nested in the same way. **A value has an image, and one only, exactly
if it holds no object**, however deep in arrays (`Json.toValue?_eq_some_iff`,
`Json.toValue?_eq_none_iff`).

The properties of a fixture are put in one after the other in the order of their names, so that
**the first that holds an object is the least, and it is the error** (`insertProperties_eq_error`).
If there is none, every one is put in under a new name, and the feature has as many
(`size_insertProperties`). The classes come last and leave everything else as it is
(`classify_eq`).
-/

namespace FeatureStyle

/-! ### Images of JSON values -/

namespace Json

/-- The value is the JSON value over again, array by array. -/
inductive Image : Json → Value → Prop
  | null : Image .null .null
  | bool (b : Bool) : Image (.bool b) (.bool b)
  | number (x : Float) : Image (.number x) (.number x)
  | string (s : String) : Image (.string s) (.string s)
  | array {items : List Json} {vs : List Value} (h : List.Forall₂ Image items vs) :
      Image (.array items) (.array vs)

/-- The value is an object, or there is one in it at some depth. -/
inductive HoldsObject : Json → Prop
  | object (fields : List (String × Json)) : HoldsObject (.object fields)
  | item {items : List Json} {j : Json} (hj : j ∈ items) (h : HoldsObject j) :
      HoldsObject (.array items)

mutual

/-- **A value stands for its image.** -/
theorem toValue?_eq_some_iff (j : Json) (v : Value) : j.toValue? = some v ↔ j.Image v := by
  cases j with
  | null | bool b | number x | string s =>
    rw [toValue?, Option.some.injEq]
    constructor
    · rintro rfl
      constructor
    · rintro ⟨⟩
      rfl
  | array items =>
    rw [toValue?, Option.map_eq_some_iff]
    constructor
    · rintro ⟨vs, hvs, rfl⟩
      exact .array ((toValues?_eq_some_iff items vs).1 hvs)
    · intro h
      cases h with
      | array h => exact ⟨_, (toValues?_eq_some_iff items _).2 h, rfl⟩
  | object fields =>
    rw [toValue?]
    exact iff_of_false (by simp) (by rintro ⟨⟩)

/-- Items have values exactly if each of them has an image. -/
theorem toValues?_eq_some_iff (items : List Json) (vs : List Value) :
    toValues? items = some vs ↔ List.Forall₂ Image items vs := by
  cases items with
  | nil => simp [toValues?, eq_comm]
  | cons j items =>
    rw [toValues?, List.forall₂_cons_left_iff, Option.bind_eq_bind, Option.bind_eq_some_iff]
    constructor
    · rintro ⟨v, hv, h⟩
      obtain ⟨vs', hvs, hcons⟩ := Option.bind_eq_some_iff.1 h
      cases hcons
      exact ⟨v, vs', (toValue?_eq_some_iff j v).1 hv, (toValues?_eq_some_iff items vs').1 hvs, rfl⟩
    · rintro ⟨v, vs', hv, hvs, rfl⟩
      refine ⟨v, (toValue?_eq_some_iff j v).2 hv, ?_⟩
      rw [(toValues?_eq_some_iff items vs').2 hvs]
      rfl

end

mutual

/-- **A value stands for none exactly if it holds an object.** -/
theorem toValue?_eq_none_iff (j : Json) : j.toValue? = none ↔ j.HoldsObject := by
  cases j with
  | null | bool b | number x | string s =>
    rw [toValue?]
    exact iff_of_false (by simp) (by rintro ⟨⟩)
  | array items =>
    rw [toValue?, Option.map_eq_none_iff, toValues?_eq_none_iff items]
    constructor
    · rintro ⟨j, hj, h⟩
      exact .item hj h
    · intro h
      cases h with
      | item hj h => exact ⟨_, hj, h⟩
  | object fields =>
    rw [toValue?]
    exact iff_of_true rfl (.object fields)

/-- They have none exactly if one of them holds an object. -/
theorem toValues?_eq_none_iff (items : List Json) :
    toValues? items = none ↔ ∃ j ∈ items, j.HoldsObject := by
  cases items with
  | nil => simp [toValues?]
  | cons j items =>
    rw [toValues?, List.exists_mem_cons_iff, ← toValue?_eq_none_iff j,
      ← toValues?_eq_none_iff items]
    rcases j.toValue? with - | v
    · simp
    · cases toValues? items <;> simp

end

/-- What has an image holds no object. -/
theorem Image.not_holdsObject {j : Json} {v : Value} (h : j.Image v) : ¬ j.HoldsObject := by
  rw [← toValue?_eq_none_iff, (toValue?_eq_some_iff j v).2 h]
  simp

end Json

/-! ### Putting properties in -/

/-- An entry with a new name makes the entries longer by one. -/
theorem length_insertByName {α : Type} {name : String} {a : α} {entries : List (String × α)}
    (h : ∀ entry ∈ entries, entry.1 ≠ name) :
    (insertByName name a entries).length = entries.length + 1 := by
  induction entries with
  | nil => rfl
  | cons entry entries ih =>
    obtain ⟨n, b⟩ := entry
    obtain ⟨hne, hentries⟩ := List.forall_mem_cons.1 h
    rw [insertByName, if_neg (Ne.symm hne)]
    split
    · rfl
    · rw [List.length_cons, ih hentries, List.length_cons]

namespace Fixture

variable {properties : List (String × Json)} {f f' : Feature} {e : FixtureError}

/-- The first property is put in as its image, and then the others. -/
theorem insertProperties_cons_eq_ok_iff {name : String} {j : Json} :
    insertProperties f ((name, j) :: properties) = .ok f' ↔
      ∃ v, j.Image v ∧ insertProperties (f.insert name v) properties = .ok f' := by
  simp only [← Json.toValue?_eq_some_iff]
  rw [insertProperties]
  cases j.toValue? <;> simp

/-- The first property is not supported, or one of the others. -/
theorem insertProperties_cons_eq_error_iff {name : String} {j : Json} :
    insertProperties f ((name, j) :: properties) = .error e ↔
      (j.HoldsObject ∧ e = .unsupportedValue name) ∨
        ∃ v, j.Image v ∧ insertProperties (f.insert name v) properties = .error e := by
  simp only [← Json.toValue?_eq_some_iff, ← Json.toValue?_eq_none_iff]
  rw [insertProperties]
  cases j.toValue? <;> simp [eq_comm]

/-- Nothing but the properties is put in. -/
theorem insertProperties_frame (h : insertProperties f properties = .ok f') :
    f'.className = f.className ∧ f'.classes = f.classes ∧ f'.timeSinceLoad = f.timeSinceLoad := by
  induction properties generalizing f with
  | nil =>
    cases h
    exact ⟨rfl, rfl, rfl⟩
  | cons p properties ih =>
    obtain ⟨v, -, h⟩ := insertProperties_cons_eq_ok_iff.1 h
    have hframe := ih h
    exact hframe

/-- Properties under new names are more properties. -/
theorem size_insertProperties (hascending : properties.Pairwise fun a b ↦ a.1 < b.1)
    (hnew : ∀ entry ∈ f.properties.entries, ∀ p ∈ properties, entry.1 ≠ p.1)
    (h : insertProperties f properties = .ok f') : f'.size = f.size + properties.length := by
  induction properties generalizing f with
  | nil =>
    cases h
    rfl
  | cons p properties ih =>
    obtain ⟨name, j⟩ := p
    obtain ⟨hhead, hascending⟩ := List.pairwise_cons.1 hascending
    obtain ⟨v, -, h⟩ := insertProperties_cons_eq_ok_iff.1 h
    have hsize : (f.insert name v).size = f.size + 1 :=
      length_insertByName fun entry hentry ↦ hnew entry hentry _ List.mem_cons_self
    have hnew' : ∀ entry ∈ (f.insert name v).properties.entries, ∀ p ∈ properties,
        entry.1 ≠ p.1 := by
      intro entry hentry p hp
      rcases mem_insertByName hentry with rfl | hentry
      · exact (hhead p hp).ne
      · exact hnew entry hentry p (List.mem_cons_of_mem _ hp)
    rw [ih hascending hnew' h, hsize, List.length_cons]
    omega

/-- If all properties are put in, none of them holds an object. -/
theorem forall_not_holdsObject_of_insertProperties (h : insertProperties f properties = .ok f') :
    ∀ p ∈ properties, ¬ p.2.HoldsObject := by
  induction properties generalizing f with
  | nil => simp
  | cons p properties ih =>
    obtain ⟨v, himage, h⟩ := insertProperties_cons_eq_ok_iff.1 h
    exact List.forall_mem_cons.2 ⟨himage.not_holdsObject, ih h⟩

/-- **The first property that holds an object is the error**, and all before it come before it in
the order of their names. -/
theorem insertProperties_eq_error (hascending : properties.Pairwise fun a b ↦ a.1 < b.1)
    (h : insertProperties f properties = .error e) :
    ∃ p ∈ properties, e = .unsupportedValue p.1 ∧ p.2.HoldsObject ∧
      ∀ other ∈ properties, other.2.HoldsObject → p.1 ≤ other.1 := by
  induction properties generalizing f with
  | nil => cases h
  | cons p properties ih =>
    obtain ⟨name, j⟩ := p
    obtain ⟨hhead, hascending⟩ := List.pairwise_cons.1 hascending
    rcases insertProperties_cons_eq_error_iff.1 h with ⟨hobject, rfl⟩ | ⟨v, himage, h⟩
    · exact ⟨(name, j), List.mem_cons_self, rfl, hobject, List.forall_mem_cons.2
        ⟨fun _ ↦ le_rfl, fun other hother _ ↦ (hhead other hother).le⟩⟩
    · obtain ⟨p, hp, rfl, hobject, hleast⟩ := ih hascending h
      exact ⟨p, List.mem_cons_of_mem _ hp, rfl, hobject, List.forall_mem_cons.2
        ⟨fun hj ↦ absurd hj himage.not_holdsObject, hleast⟩⟩

/-! ### Classes -/

/-- A feature keeps everything but its classes when classes are added. -/
theorem foldl_addClass_eq (classes : List String) (f : Feature) :
    classes.foldl Feature.addClass f =
      { f with classes := (classes.foldl Feature.addClass f).classes } := by
  induction classes generalizing f with
  | nil => rfl
  | cons c classes ih => exact ih (f.addClass c)

/-- Adding classes adds these and takes none away. -/
theorem isClass_foldl_addClass {c : String} (classes : List String) (f : Feature) :
    (classes.foldl Feature.addClass f).isClass c ↔ f.isClass c ∨ c ∈ classes := by
  induction classes generalizing f with
  | nil => simp
  | cons d classes ih =>
    rw [List.foldl_cons, ih, Feature.isClass_addClass, List.mem_cons, Bool.or_eq_true, beq_iff_eq]
    tauto

variable {fixture : Fixture} {time : Float} {g : Feature}

/-- The feature as one of the classes of the fixture. -/
def classify (fixture : Fixture) (g : Feature) : Feature :=
  fixture.classes.foldl Feature.addClass (fixture.className.elim g g.withClass)

/-- Classifying a feature changes its classes and nothing else. -/
theorem classify_eq (fixture : Fixture) (g : Feature) :
    fixture.classify g =
      { g with
        className := fixture.className.or g.className
        classes := (fixture.classify g).classes } := by
  rw [classify, foldl_addClass_eq]
  cases fixture.className <;> rfl

/-- A feature is of the classes of its fixture, and of those it had. -/
theorem isClass_classify {c : String} :
    (fixture.classify g).isClass c ↔
      fixture.className = some c ∨ c ∈ fixture.classes ∨ g.isClass c := by
  rw [classify, isClass_foldl_addClass]
  rcases fixture.className with - | name
  · simp [or_comm]
  · show (g.addClass name).isClass c ∨ _ ↔ _
    rw [Feature.isClass_addClass, Bool.or_eq_true, beq_iff_eq, Option.some.injEq]
    tauto

/-! ### Fixtures -/

/-- A feature that only its time is known of. -/
def bare (fixture : Fixture) (time : Float) : Feature :=
  Feature.empty.withTime (fixture.timeSinceLoad.getD time)

/-- A fixture becomes a feature exactly if its properties can be put in. -/
theorem toFeature_eq_ok_iff :
    fixture.toFeature time = .ok f ↔
      ∃ g, insertProperties (fixture.bare time) fixture.properties.entries = .ok g ∧
        fixture.classify g = f := by
  rw [toFeature, ← bare]
  rcases insertProperties (fixture.bare time) fixture.properties.entries with e | g
  · simp [bind, Except.bind]
  · simp [bind, Except.bind, pure, Except.pure, classify]

/-- Otherwise it fails where they do. -/
theorem toFeature_eq_error_iff :
    fixture.toFeature time = .error e ↔
      insertProperties (fixture.bare time) fixture.properties.entries = .error e := by
  rw [toFeature, ← bare]
  rcases insertProperties (fixture.bare time) fixture.properties.entries with e | g <;>
    simp [bind, Except.bind, pure, Except.pure]

/-- What is known about the feature besides its properties is what the fixture says. -/
theorem frame_of_toFeature (h : fixture.toFeature time = .ok f) :
    f.className = fixture.className ∧
      (∀ c, f.isClass c ↔ fixture.className = some c ∨ c ∈ fixture.classes) ∧
      f.timeSinceLoad = fixture.timeSinceLoad.getD time := by
  obtain ⟨g, hg, rfl⟩ := toFeature_eq_ok_iff.1 h
  obtain ⟨hname, hclasses, htime⟩ := insertProperties_frame hg
  refine ⟨?_, fun c ↦ ?_, ?_⟩
  · rw [classify_eq, hname]
    exact Option.or_none
  · have hnone : g.isClass c = false := by
      rw [Feature.isClass, hclasses]
      rfl
    simp [isClass_classify, hnone]
  · rw [classify_eq]
    exact htime

/-- The properties of the feature are the images of those of the fixture. -/
theorem property_of_toFeature (h : fixture.toFeature time = .ok f) (name : String) (v : Value) :
    f.property? name = some v ↔ ∃ j, (name, j) ∈ fixture.properties.entries ∧ j.Image v := by
  have hascending := fixture.properties.ascending
  obtain ⟨g, hg, rfl⟩ := toFeature_eq_ok_iff.1 h
  have hproperty : (fixture.classify g).property? name = g.property? name := by
    rw [classify_eq]
    rfl
  rw [hproperty]
  constructor
  · intro hv
    by_cases hmem : ∃ j, (name, j) ∈ fixture.properties.entries
    · obtain ⟨j, hj⟩ := hmem
      rw [property?_insertProperties hascending hg hj] at hv
      exact ⟨j, hj, (Json.toValue?_eq_some_iff j v).1 hv⟩
    · have hne : ∀ p ∈ fixture.properties.entries, p.1 ≠ name := by
        rintro ⟨n, j⟩ hp rfl
        exact hmem ⟨j, hp⟩
      rw [property?_insertProperties_of_ne hg hne] at hv
      cases hv
  · rintro ⟨j, hj, hv⟩
    rw [property?_insertProperties hascending hg hj]
    exact (Json.toValue?_eq_some_iff j v).2 hv

/-- The feature has as many properties as the fixture. -/
theorem size_of_toFeature (h : fixture.toFeature time = .ok f) :
    f.size = fixture.properties.size := by
  obtain ⟨g, hg, rfl⟩ := toFeature_eq_ok_iff.1 h
  have hempty : (fixture.bare time).properties.entries = [] := rfl
  have hsize := size_insertProperties fixture.properties.ascending (by simp [hempty]) hg
  rw [classify_eq]
  exact hsize.trans (Nat.zero_add _)

/-- **A fixture describes a feature exactly, or its least offender is named.** A fixture describes
no feature exactly if one of its properties holds an object, and then the error has the least name
of those that do. Otherwise the feature has the image of every property under its name, and no
others; it is exactly of the class that the fixture names, and of that class and the listed ones;
and the time is that of the fixture, or else the default. -/
theorem toFeature_exact (fixture : Fixture) (defaultTime : Float) :
    ((∃ e, fixture.toFeature defaultTime = .error e) ↔
        ∃ entry ∈ fixture.properties.entries, entry.2.HoldsObject) ∧
      (∀ e, fixture.toFeature defaultTime = .error e →
        ∃ entry ∈ fixture.properties.entries, e = .unsupportedValue entry.1 ∧
          entry.2.HoldsObject ∧
            ∀ other ∈ fixture.properties.entries, other.2.HoldsObject → entry.1 ≤ other.1) ∧
      ∀ f, fixture.toFeature defaultTime = .ok f →
        (∀ name v, f.subject.property name = some v ↔
          ∃ j, (name, j) ∈ fixture.properties.entries ∧ j.Image v) ∧
        f.size = fixture.properties.entries.length ∧
        f.subject.exactClassName = fixture.className ∧
        (∀ c, f.subject.isClass c ↔ fixture.className = some c ∨ c ∈ fixture.classes) ∧
        (∀ c, f.subject.isExactClass c ↔ fixture.className = some c) ∧
        (∀ c, f.subject.isExactClass c → f.subject.isClass c) ∧
        f.subject.timeSinceLoad = fixture.timeSinceLoad.getD defaultTime := by
  have hleast (e : FixtureError) (he : fixture.toFeature defaultTime = .error e) :=
    insertProperties_eq_error fixture.properties.ascending (toFeature_eq_error_iff.1 he)
  refine ⟨⟨?_, ?_⟩, hleast, fun f hf ↦ ?_⟩
  · rintro ⟨e, he⟩
    obtain ⟨entry, hentry, -, hobject, -⟩ := hleast e he
    exact ⟨entry, hentry, hobject⟩
  · rintro ⟨entry, hentry, hobject⟩
    rcases hfixture : fixture.toFeature defaultTime with e | f
    · exact ⟨e, rfl⟩
    · obtain ⟨g, hg, -⟩ := toFeature_eq_ok_iff.1 hfixture
      exact absurd hobject (forall_not_holdsObject_of_insertProperties hg entry hentry)
  · obtain ⟨hname, hclasses, htime⟩ := frame_of_toFeature hf
    have hexact (c : String) : f.subject.isExactClass c ↔ fixture.className = some c := by
      rw [← hname]
      exact beq_iff_eq
    exact ⟨property_of_toFeature hf, size_of_toFeature hf, hname, hclasses, hexact,
      fun c hc ↦ (hclasses c).2 (.inl ((hexact c).1 hc)), htime⟩

/-- An object is found deep in arrays, and of two names the lesser one is the error. -/
theorem toFeature_exact_nested :
    let properties : Properties Json :=
      ⟨[("a", .array [.null, .array [.object []]]), ("b", .object [])],
        List.pairwise_pair.2 (String.lt_iff_toList_lt.2 (by decide))⟩
    let fixture : Fixture := ⟨properties, none, [], none⟩
    fixture.toFeature 0 = .error (.unsupportedValue "a") ∧
      ∃ entry ∈ fixture.properties.entries,
        FixtureError.unsupportedValue "a" = .unsupportedValue entry.1 ∧ entry.2.HoldsObject ∧
          ∀ other ∈ fixture.properties.entries, other.2.HoldsObject → entry.1 ≤ other.1 := by
  intro properties fixture
  have herror : fixture.toFeature 0 = .error (.unsupportedValue "a") := rfl
  exact ⟨herror, (toFeature_exact fixture 0).2.1 _ herror⟩

end Fixture

end FeatureStyle
