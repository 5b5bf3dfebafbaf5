import FeatureStyle.Proofs.Tree.Height

/-!
# Paths in trees

A path from the root of a tree to a leaf passes composite nodes, and the step out of each is
**charged** or **free**: a level of nesting was spent on what the step leads to, or it was not. The
height of a tree is the length of its longest path, and no path has more charged steps than the
charge of the tree.

So the levels bound the charged steps of a path and not its length. **All paths of a tree that is
read are within `nestingLimit` exactly if the tree would still fit in as many levels when each
construct took one for all of its parts** (`FitsIn`), and not only for those to which the steps are
charged. This is so in particular if the other parts are not composite themselves: if left operands,
objects and callees are single tokens and there are no arrays (`Unwrapped`,
`parse_path_length_le_iff`).
-/

namespace FeatureStyle.SyntaxTree

/-- A step from a composite node to a part of it. -/
inductive Step
  /-- To what a level has been spent on. -/
  | charged
  /-- To a left operand, an object or a callee, or into an array. -/
  | free
  deriving DecidableEq

namespace Step

/-- The levels that are spent on a step. -/
def cost : Step → Nat
  | charged => 1
  | free => 0

end Step

/-- The parts of a composite node. -/
def parts : SyntaxTree → List (Step × SyntaxTree)
  | literal _ | identifier _ | compound _ => []
  | call callee arguments => (.free, callee) :: arguments.map (.charged, ·)
  | unary _ operand => [(.charged, operand)]
  | binary _ left right | logical _ left right => [(.free, left), (.charged, right)]
  | conditional test consequent alternate =>
    [(.charged, test), (.charged, consequent), (.charged, alternate)]
  | member object property _ => [(.free, object), (.charged, property)]
  | array items => items.map (.free, ·)

/-- A path from the root to a leaf, with one step for each composite node that it passes. A list of
expressions side by side is no composite node; an empty array is one, and it is a leaf. -/
inductive Path : SyntaxTree → List Step → Prop
  | literal (l : Literal) : Path (literal l) []
  | identifier (name : String) : Path (identifier name) []
  | emptyArray : Path (array []) [.free]
  | emptyCompound : Path (compound []) []
  | part {tree part : SyntaxTree} {s : Step} {path : List Step} (h : (s, part) ∈ tree.parts)
      (hpath : Path part path) : Path tree (s :: path)
  | item {items : List SyntaxTree} {item : SyntaxTree} {path : List Step} (h : item ∈ items)
      (hpath : Path item path) : Path (compound items) path

/-! ### Paths are bounded -/

/-- Each of several trees is as high as they are together, or lower. -/
theorem height_le_heights {item : SyntaxTree} {items : List SyntaxTree} (h : item ∈ items) :
    item.height ≤ heights items := by
  induction items with
  | nil => cases h
  | cons first items ih =>
    rw [heights]
    rcases List.mem_cons.1 h with rfl | h
    · exact Nat.le_max_left _ _
    · exact Nat.le_trans (ih h) (Nat.le_max_right _ _)

/-- Nor is it charged more. -/
theorem charge_le_charges {item : SyntaxTree} {items : List SyntaxTree} (h : item ∈ items) :
    item.charge ≤ charges items := by
  induction items with
  | nil => cases h
  | cons first items ih =>
    rw [charges]
    rcases List.mem_cons.1 h with rfl | h
    · exact Nat.le_max_left _ _
    · exact Nat.le_trans (ih h) (Nat.le_max_right _ _)

/-- A part is lower than its node, and its charge is lower by what the step to it costs. -/
theorem bounds_of_mem_parts {tree part : SyntaxTree} {s : Step} (h : (s, part) ∈ tree.parts) :
    part.height < tree.height ∧ part.charge + s.cost ≤ tree.charge := by
  cases tree with
  | literal | identifier | compound => cases h
  | call callee arguments =>
    rw [height, charge]
    rcases List.mem_cons.1 h with h | h
    · obtain ⟨rfl, rfl⟩ := Prod.mk.inj h
      exact ⟨by omega, Nat.le_max_left _ _⟩
    · obtain ⟨argument, hargument, h⟩ := List.mem_map.1 h
      obtain ⟨rfl, rfl⟩ := Prod.mk.inj h
      have hheight := height_le_heights hargument
      have hcharge := charge_le_charges hargument
      exact ⟨by omega, Nat.le_trans (Nat.succ_le_succ hcharge) (Nat.le_max_right _ _)⟩
  | array items =>
    obtain ⟨item, hitem, h⟩ := List.mem_map.1 h
    obtain ⟨rfl, rfl⟩ := Prod.mk.inj h
    rw [height, charge]
    exact ⟨Nat.lt_succ_of_le (height_le_heights hitem), charge_le_charges hitem⟩
  | unary operator operand =>
    obtain ⟨rfl, rfl⟩ := Prod.mk.inj (List.mem_singleton.1 h)
    rw [height, charge]
    exact ⟨Nat.lt_succ_self _, Nat.le_refl _⟩
  | binary _ left right | logical _ left right | member left right _ =>
    simp only [parts, List.mem_cons, Prod.mk.injEq, List.not_mem_nil, or_false] at h
    rw [height, charge]
    rcases h with ⟨rfl, rfl⟩ | ⟨rfl, rfl⟩
    · exact ⟨by omega, Nat.le_max_left _ _⟩
    · exact ⟨by omega, Nat.le_max_right _ _⟩
  | conditional test consequent alternate =>
    simp only [parts, List.mem_cons, Prod.mk.injEq, List.not_mem_nil, or_false] at h
    rw [height, charge]
    rcases h with ⟨rfl, rfl⟩ | ⟨rfl, rfl⟩ | ⟨rfl, rfl⟩ <;>
      exact ⟨by omega, Nat.succ_le_succ (by omega)⟩

namespace Path

variable {tree : SyntaxTree} {path : List Step}

/-- No path is longer than the tree is high. -/
theorem length_le_height (h : tree.Path path) : path.length ≤ tree.height := by
  induction h with
  | literal | identifier | emptyCompound => exact Nat.zero_le _
  | emptyArray =>
    rw [height]
    exact Nat.succ_le_succ (Nat.zero_le _)
  | part hpart _ ih => exact Nat.lt_of_le_of_lt ih (bounds_of_mem_parts hpart).1
  | item hitem _ ih =>
    rw [height]
    exact Nat.le_trans ih (height_le_heights hitem)

/-- On no path is more charged than the tree is. -/
theorem count_le_charge (h : tree.Path path) : path.count .charged ≤ tree.charge := by
  induction h with
  | literal | identifier | emptyCompound | emptyArray => exact Nat.zero_le _
  | @part tree part s path hpart _ ih =>
    have hcharge := (bounds_of_mem_parts hpart).2
    have hcost : (s :: path).count .charged = path.count .charged + s.cost := by
      cases s <;> simp [Step.cost]
    rw [hcost]
    exact Nat.le_trans (Nat.add_le_add_right ih _) hcharge
  | item hitem _ ih =>
    rw [charge]
    exact Nat.le_trans ih (charge_le_charges hitem)

end Path

/-! ### The bound is attained -/

/-- A path of a part goes on from the tree. -/
theorem exists_path_of_part {tree part : SyntaxTree} {s : Step} {n : Nat}
    (h : (s, part) ∈ tree.parts) (hpart : ∃ path, part.Path path ∧ path.length = n) :
    ∃ path, tree.Path path ∧ path.length = n + 1 := by
  obtain ⟨path, hpath, rfl⟩ := hpart
  exact ⟨s :: path, .part h hpath, rfl⟩

/-- Of two parts, the one with the longer path counts. -/
theorem exists_path_of_parts {tree part part' : SyntaxTree} {s s' : Step} {m n : Nat}
    (h : (s, part) ∈ tree.parts) (hpart : ∃ path, part.Path path ∧ path.length = m)
    (h' : (s', part') ∈ tree.parts) (hpart' : ∃ path, part'.Path path ∧ path.length = n) :
    ∃ path, tree.Path path ∧ path.length = max m n + 1 := by
  rcases max_choice m n with hmax | hmax
  · rw [hmax]
    exact exists_path_of_part h hpart
  · rw [hmax]
    exact exists_path_of_part h' hpart'

mutual

/-- The height of a tree is the length of a path. -/
theorem exists_path_height : ∀ tree : SyntaxTree,
    ∃ path, tree.Path path ∧ path.length = tree.height
  | literal l => ⟨[], .literal l, by rw [height]; rfl⟩
  | identifier name => ⟨[], .identifier name, by rw [height]; rfl⟩
  | call callee arguments => by
    have hcallee := exists_path_height callee
    rw [height]
    rcases eq_nil_or_exists_path arguments with rfl | ⟨argument, hargument, hpath⟩
    · rw [heights, Nat.max_zero]
      exact exists_path_of_part List.mem_cons_self hcallee
    · exact exists_path_of_parts List.mem_cons_self hcallee
        (List.mem_cons_of_mem _ (List.mem_map_of_mem hargument)) hpath
  | unary _ operand => by
    rw [height]
    exact exists_path_of_part List.mem_cons_self (exists_path_height operand)
  | binary _ left right | logical _ left right | member left right _ => by
    rw [height]
    exact exists_path_of_parts List.mem_cons_self (exists_path_height left)
      (List.mem_cons_of_mem _ List.mem_cons_self) (exists_path_height right)
  | conditional test consequent alternate => by
    have htest := exists_path_height test
    have hconsequent := exists_path_height consequent
    have halternate := exists_path_height alternate
    rw [height]
    rcases max_choice consequent.height alternate.height with h | h
    · rw [h]
      exact exists_path_of_parts List.mem_cons_self htest
        (List.mem_cons_of_mem _ List.mem_cons_self) hconsequent
    · rw [h]
      exact exists_path_of_parts List.mem_cons_self htest
        (List.mem_cons_of_mem _ (List.mem_cons_of_mem _ List.mem_cons_self)) halternate
  | array items => by
    rw [height]
    rcases eq_nil_or_exists_path items with rfl | ⟨item, hitem, hpath⟩
    · exact ⟨[.free], .emptyArray, by rw [heights]; rfl⟩
    · exact exists_path_of_part (List.mem_map_of_mem hitem) hpath
  | compound items => by
    rw [height]
    rcases eq_nil_or_exists_path items with rfl | ⟨item, hitem, path, hpath, hlength⟩
    · exact ⟨[], .emptyCompound, by rw [heights]; rfl⟩
    · exact ⟨path, .item hitem hpath, hlength⟩

/-- The highest of several trees has a path as long as they are high. -/
theorem eq_nil_or_exists_path : ∀ items : List SyntaxTree,
    items = [] ∨ ∃ item ∈ items, ∃ path, item.Path path ∧ path.length = heights items
  | [] => .inl rfl
  | item :: items => by
    have hitem := exists_path_height item
    rw [heights]
    right
    rcases Nat.le_total (heights items) item.height with hle | hle
    · rw [Nat.max_eq_left hle]
      exact ⟨item, List.mem_cons_self, hitem⟩
    · rw [Nat.max_eq_right hle]
      rcases eq_nil_or_exists_path items with rfl | ⟨longest, hlongest, hpath⟩
      · rw [heights] at hle ⊢
        rw [Nat.le_zero.1 hle] at hitem
        exact ⟨item, List.mem_cons_self, hitem⟩
      · exact ⟨longest, List.mem_cons_of_mem _ hlongest, hpath⟩

end

/-! ### Constructs and levels -/

/-- The tree fits in so many levels if each of its constructs takes one for all of its parts: also
for a left operand, an object or a callee, and for the items of an array. -/
inductive FitsIn : Nat → SyntaxTree → Prop
  | literal {n : Nat} (l : Literal) : FitsIn n (literal l)
  | identifier {n : Nat} (name : String) : FitsIn n (identifier name)
  | call {n : Nat} {callee : SyntaxTree} {arguments : List SyntaxTree} (hcallee : FitsIn n callee)
      (harguments : ∀ argument ∈ arguments, FitsIn n argument) :
      FitsIn (n + 1) (call callee arguments)
  | unary {n : Nat} {operand : SyntaxTree} (operator : String) (hoperand : FitsIn n operand) :
      FitsIn (n + 1) (unary operator operand)
  | binary {n : Nat} {left right : SyntaxTree} (operator : String) (hleft : FitsIn n left)
      (hright : FitsIn n right) : FitsIn (n + 1) (binary operator left right)
  | logical {n : Nat} {left right : SyntaxTree} (operator : String) (hleft : FitsIn n left)
      (hright : FitsIn n right) : FitsIn (n + 1) (logical operator left right)
  | conditional {n : Nat} {test consequent alternate : SyntaxTree} (htest : FitsIn n test)
      (hconsequent : FitsIn n consequent) (halternate : FitsIn n alternate) :
      FitsIn (n + 1) (conditional test consequent alternate)
  | member {n : Nat} {object property : SyntaxTree} (computed : Bool) (hobject : FitsIn n object)
      (hproperty : FitsIn n property) : FitsIn (n + 1) (member object property computed)
  | array {n : Nat} {items : List SyntaxTree} (hitems : ∀ item ∈ items, FitsIn n item) :
      FitsIn (n + 1) (array items)
  | compound {n : Nat} {items : List SyntaxTree} (hitems : ∀ item ∈ items, FitsIn n item) :
      FitsIn n (compound items)

/-- The tree of a single token. -/
def IsToken : SyntaxTree → Prop
  | literal _ | identifier _ => True
  | _ => False

/-- Nothing is put around a composite tree that no level is spent on: left operands, objects and
callees are single tokens, and there are no arrays. -/
inductive Unwrapped : SyntaxTree → Prop
  | literal (l : Literal) : Unwrapped (literal l)
  | identifier (name : String) : Unwrapped (identifier name)
  | call {callee : SyntaxTree} {arguments : List SyntaxTree} (hcallee : callee.IsToken)
      (harguments : ∀ argument ∈ arguments, Unwrapped argument) : Unwrapped (call callee arguments)
  | unary {operand : SyntaxTree} (operator : String) (hoperand : Unwrapped operand) :
      Unwrapped (unary operator operand)
  | binary {left right : SyntaxTree} (operator : String) (hleft : left.IsToken)
      (hright : Unwrapped right) : Unwrapped (binary operator left right)
  | logical {left right : SyntaxTree} (operator : String) (hleft : left.IsToken)
      (hright : Unwrapped right) : Unwrapped (logical operator left right)
  | conditional {test consequent alternate : SyntaxTree} (htest : Unwrapped test)
      (hconsequent : Unwrapped consequent) (halternate : Unwrapped alternate) :
      Unwrapped (conditional test consequent alternate)
  | member {object property : SyntaxTree} (computed : Bool) (hobject : object.IsToken)
      (hproperty : Unwrapped property) : Unwrapped (member object property computed)
  | compound {items : List SyntaxTree} (hitems : ∀ item ∈ items, Unwrapped item) :
      Unwrapped (compound items)

/-- A bound of the heights is a bound of each. -/
theorem heights_le_iff {items : List SyntaxTree} {n : Nat} :
    heights items ≤ n ↔ ∀ item ∈ items, item.height ≤ n := by
  induction items with
  | nil => simp [heights]
  | cons item items ih => rw [heights, Nat.max_le, ih, List.forall_mem_cons]

/-- **A tree that fits into a number of levels is not higher.** -/
theorem FitsIn.height_le {tree : SyntaxTree} {n : Nat} (h : tree.FitsIn n) : tree.height ≤ n := by
  induction h with
  | literal | identifier =>
    rw [height]
    exact Nat.zero_le _
  | call _ _ hcallee harguments =>
    rw [height]
    exact Nat.succ_le_succ (Nat.max_le.2 ⟨hcallee, heights_le_iff.2 harguments⟩)
  | unary _ _ hoperand =>
    rw [height]
    exact Nat.succ_le_succ hoperand
  | binary _ _ _ hleft hright | logical _ _ _ hleft hright | member _ _ _ hleft hright =>
    rw [height]
    exact Nat.succ_le_succ (Nat.max_le.2 ⟨hleft, hright⟩)
  | conditional _ _ _ htest hconsequent halternate =>
    rw [height]
    exact Nat.succ_le_succ (Nat.max_le.2 ⟨htest, Nat.max_le.2 ⟨hconsequent, halternate⟩⟩)
  | array _ hitems =>
    rw [height]
    exact Nat.succ_le_succ (heights_le_iff.2 hitems)
  | compound _ hitems =>
    rw [height]
    exact heights_le_iff.2 hitems

mutual

/-- **Conversely, a tree that is not higher fits.** -/
theorem fitsIn_of_height_le : ∀ (tree : SyntaxTree) {n : Nat}, tree.height ≤ n → tree.FitsIn n
  | literal l, _, _ => .literal l
  | identifier name, _, _ => .identifier name
  | call callee arguments, n, h => by
    rw [height] at h
    obtain ⟨n, rfl⟩ := Nat.exists_eq_add_one_of_ne_zero (show n ≠ 0 by omega)
    exact .call (fitsIn_of_height_le callee (by omega))
      (forall_fitsIn_of_heights_le arguments (by omega))
  | unary operator operand, n, h => by
    rw [height] at h
    obtain ⟨n, rfl⟩ := Nat.exists_eq_add_one_of_ne_zero (show n ≠ 0 by omega)
    exact .unary operator (fitsIn_of_height_le operand (by omega))
  | binary operator left right, n, h => by
    rw [height] at h
    obtain ⟨n, rfl⟩ := Nat.exists_eq_add_one_of_ne_zero (show n ≠ 0 by omega)
    exact .binary operator (fitsIn_of_height_le left (by omega))
      (fitsIn_of_height_le right (by omega))
  | logical operator left right, n, h => by
    rw [height] at h
    obtain ⟨n, rfl⟩ := Nat.exists_eq_add_one_of_ne_zero (show n ≠ 0 by omega)
    exact .logical operator (fitsIn_of_height_le left (by omega))
      (fitsIn_of_height_le right (by omega))
  | conditional test consequent alternate, n, h => by
    rw [height] at h
    obtain ⟨n, rfl⟩ := Nat.exists_eq_add_one_of_ne_zero (show n ≠ 0 by omega)
    exact .conditional (fitsIn_of_height_le test (by omega))
      (fitsIn_of_height_le consequent (by omega)) (fitsIn_of_height_le alternate (by omega))
  | member object property computed, n, h => by
    rw [height] at h
    obtain ⟨n, rfl⟩ := Nat.exists_eq_add_one_of_ne_zero (show n ≠ 0 by omega)
    exact .member computed (fitsIn_of_height_le object (by omega))
      (fitsIn_of_height_le property (by omega))
  | array items, n, h => by
    rw [height] at h
    obtain ⟨n, rfl⟩ := Nat.exists_eq_add_one_of_ne_zero (show n ≠ 0 by omega)
    exact .array (forall_fitsIn_of_heights_le items (by omega))
  | compound items, _, h => by
    rw [height] at h
    exact .compound (forall_fitsIn_of_heights_le items h)

/-- So does each of several. -/
theorem forall_fitsIn_of_heights_le : ∀ (items : List SyntaxTree) {n : Nat},
    heights items ≤ n → ∀ item ∈ items, item.FitsIn n
  | [], _, _ => List.forall_mem_nil _
  | item :: items, _, h => by
    rw [heights] at h
    exact List.forall_mem_cons.2 ⟨fitsIn_of_height_le item (by omega),
      forall_fitsIn_of_heights_le items (by omega)⟩

end

/-- **A tree fits in as many levels as its longest path has steps.** -/
theorem fitsIn_iff {tree : SyntaxTree} {n : Nat} :
    tree.FitsIn n ↔ ∀ path, tree.Path path → path.length ≤ n := by
  constructor
  · exact fun h path hpath ↦ Nat.le_trans hpath.length_le_height h.height_le
  · intro h
    obtain ⟨path, hpath, hlength⟩ := exists_path_height tree
    exact fitsIn_of_height_le tree (hlength ▸ h path hpath)

/-- A tree that is a token has no height. -/
theorem IsToken.height_eq {tree : SyntaxTree} (h : tree.IsToken) : tree.height = 0 := by
  cases tree with
  | literal | identifier => rw [height]
  | _ => cases h

/-- Where no tree is higher than it is charged, all together are not. -/
theorem heights_le_charges {items : List SyntaxTree}
    (h : ∀ item ∈ items, item.height ≤ item.charge) : heights items ≤ charges items :=
  heights_le_iff.2 fun item hitem ↦ Nat.le_trans (h item hitem) (charge_le_charges hitem)

/-- **Without anything around composite trees, every level of a tree is charged.** -/
theorem Unwrapped.height_le_charge {tree : SyntaxTree} (h : tree.Unwrapped) :
    tree.height ≤ tree.charge := by
  induction h with
  | literal | identifier =>
    rw [height]
    exact Nat.zero_le _
  | call hcallee _ harguments =>
    have hle := heights_le_charges harguments
    rw [height, charge, hcallee.height_eq]
    omega
  | unary _ _ hoperand =>
    rw [height, charge]
    exact Nat.succ_le_succ hoperand
  | binary _ hleft _ hright | logical _ hleft _ hright | member _ hleft _ hright =>
    rw [height, charge, hleft.height_eq]
    omega
  | conditional _ _ _ htest hconsequent halternate =>
    rw [height, charge]
    omega
  | compound _ hitems =>
    rw [height, charge]
    exact heights_le_charges hitems

/-! ### Trees that are read -/

/-- **What the count of levels bounds.** On a path of a tree that is read there are at most
`nestingLimit` charged steps, and fewer than `nestingLimit * (nestingLimit + 1)` steps in all. Every
path is within `nestingLimit` exactly if the tree fits in as many levels when each construct takes
one for all of its parts. It is if nothing is put around a composite tree that no level is spent
on. -/
theorem parse_path_length_le_iff {table : OperatorTable} {source : List Char} {tree : SyntaxTree}
    (h : parse table source = .ok tree) :
    (∀ path, tree.Path path → path.count .charged ≤ nestingLimit ∧
      path.length < nestingLimit * (nestingLimit + 1)) ∧
    ((∀ path, tree.Path path → path.length ≤ nestingLimit) ↔ tree.FitsIn nestingLimit) ∧
    (tree.Unwrapped → ∀ path, tree.Path path → path.length ≤ nestingLimit) := by
  have hcharge : tree.charge ≤ nestingLimit := charge_le_of_parse h
  refine ⟨fun path hpath ↦ ⟨?_, ?_⟩, fitsIn_iff.symm, fun hunwrapped path hpath ↦ ?_⟩
  · exact Nat.le_trans hpath.count_le_charge hcharge
  · exact Nat.lt_of_le_of_lt hpath.length_le_height (height_lt_of_parse h)
  · calc path.length ≤ tree.height := hpath.length_le_height
      _ ≤ tree.charge := hunwrapped.height_le_charge
      _ ≤ nestingLimit := hcharge

/-- A sum of two names is within the bound. -/
theorem parse_sum_path_length_le :
    ∃ tree, parse .default "a+b".toList = .ok tree ∧
      ∀ path, tree.Path path → path.length ≤ nestingLimit := by
  have hparse : parse .default "a+b".toList =
      .ok (.binary "+" (.identifier "a") (.identifier "b")) := by
    with_unfolding_all rfl
  exact ⟨_, hparse, (parse_path_length_le_iff hparse).2.2 (.binary "+" trivial (.identifier "b"))⟩

/-- Signs before the first of many summands: each of the two chains is within the bound, and the
path through both is not. -/
theorem exists_parse_path_length_gt :
    ∃ tree path, parse .default
        (List.replicate 65 '-' ++ 'a' :: (List.replicate 64 ['+', 'a']).flatten) = .ok tree ∧
      tree.Path path ∧ nestingLimit < path.length := by
  have hheight : (parse .default
      (List.replicate 65 '-' ++ 'a' :: (List.replicate 64 ['+', 'a']).flatten)).toOption.map
        height = some 129 := by
    decide +kernel
  -- The tree itself is not written out; its height is all that is needed of it.
  revert hheight
  generalize parse .default _ = result
  rcases result with e | tree
  · exact nofun
  · intro hheight
    obtain ⟨path, hpath, hlength⟩ := exists_path_height tree
    refine ⟨tree, path, rfl, hpath, ?_⟩
    rw [hlength, Option.some.inj hheight]
    decide

end FeatureStyle.SyntaxTree
