import Mathlib.Data.List.Forall2
import Mathlib.Data.List.Nodup

/-!
Trees whose inner nodes carry a value and a list of children, and their preorder walk.
A place is the list of child numbers from the root. The walk meets every place once.
-/
namespace OrderedTrees

inductive RoseTree (A : Type) where
  | leaf (value : A)
  | node (value : A) (children : List (RoseTree A))
  deriving Repr

variable {A : Type}

def RoseTree.value : RoseTree A → A
  | .leaf value => value
  | .node value _ => value

def RoseTree.isLeaf : RoseTree A → Bool
  | .leaf _ => true
  | .node _ _ => false

mutual
def walk : RoseTree A → List (RoseTree A)
  | .leaf value => [.leaf value]
  | .node value children => .node value children :: walkAll children

def walkAll : List (RoseTree A) → List (RoseTree A)
  | [] => []
  | child :: rest => walk child ++ walkAll rest
end

mutual
def places : RoseTree A → List (List Nat)
  | .leaf _ => [[]]
  | .node _ children => [] :: placesFrom 0 children

/-- The places below the children that are numbered from `first` on. -/
def placesFrom (first : Nat) : List (RoseTree A) → List (List Nat)
  | [] => []
  | child :: rest => (places child).map (first :: ·) ++ placesFrom (first + 1) rest
end

/-- The part of a tree that is found at a place. -/
def subtree (tree : RoseTree A) : List Nat → Option (RoseTree A)
  | [] => some tree
  | number :: rest =>
      match tree with
      | .leaf _ => none
      | .node _ children =>
          match children[number]? with
          | none => none
          | some child => subtree child rest

theorem subtree_root (tree : RoseTree A) : subtree tree [] = some tree := by
  unfold subtree
  rfl

theorem subtree_leaf (value : A) (number : Nat) (rest : List Nat) :
    subtree (.leaf value) (number :: rest) = none := by
  unfold subtree
  rfl

theorem subtree_child {value : A} {children : List (RoseTree A)} {number : Nat} {child : RoseTree A}
    (found : children[number]? = some child) (rest : List Nat) :
    subtree (.node value children) (number :: rest) = subtree child rest := by
  rw [subtree]
  rw [found]

theorem subtree_no_child {value : A} {children : List (RoseTree A)} {number : Nat}
    (missing : children[number]? = none) (rest : List Nat) :
    subtree (.node value children) (number :: rest) = none := by
  rw [subtree]
  rw [missing]

/-- Below the children, the place `number :: rest` is `rest` in the child of that number. -/
theorem mem_places_from {first : Nat} {children : List (RoseTree A)} {place : List Nat} :
    place ∈ placesFrom first children ↔
      ∃ number child rest, children[number]? = some child ∧ rest ∈ places child ∧
        place = (first + number) :: rest := by
  induction children generalizing first with
  | nil => simp [placesFrom]
  | cons child rest ih =>
    rw [placesFrom, List.mem_append, List.mem_map, ih]
    constructor
    · rintro (⟨inner, mem, rfl⟩ | ⟨number, other, inner, found, mem, rfl⟩)
      · exact ⟨0, child, inner, rfl, mem, rfl⟩
      · refine ⟨number + 1, other, inner, found, mem, ?_⟩
        congr 1
        omega
    · rintro ⟨number, other, inner, found, mem, rfl⟩
      cases number with
      | zero =>
        cases found
        exact Or.inl ⟨inner, mem, rfl⟩
      | succ number =>
        refine Or.inr ⟨number, other, inner, found, mem, ?_⟩
        congr 1
        omega

theorem mem_places_iff {tree : RoseTree A} {place : List Nat} :
    place ∈ places tree ↔ ∃ part, subtree tree place = some part := by
  induction place generalizing tree with
  | nil =>
    have root : [] ∈ places tree := by
      cases tree with
      | leaf value => exact List.mem_singleton.mpr rfl
      | node value children => exact List.mem_cons_self
    exact ⟨fun _ => ⟨tree, subtree_root tree⟩, fun _ => root⟩
  | cons number rest ih =>
    cases tree with
    | leaf value => simp [places, subtree_leaf]
    | node value children =>
      have below : number :: rest ∈ places (.node value children) ↔
          ∃ child, children[number]? = some child ∧ rest ∈ places child := by
        simp [places, mem_places_from]
      rw [below]
      cases found : children[number]? with
      | none => simp [subtree_no_child found]
      | some child => simp [subtree_child found, ih]

mutual
/-- Induction with a hypothesis for every child. -/
theorem tree_induction {P : RoseTree A → Prop} (leaf : ∀ value, P (.leaf value))
    (node : ∀ value children, (∀ child ∈ children, P child) → P (.node value children)) :
    (tree : RoseTree A) → P tree
  | .leaf value => leaf value
  | .node value children => node value children (all_induction leaf node children)

theorem all_induction {P : RoseTree A → Prop} (leaf : ∀ value, P (.leaf value))
    (node : ∀ value children, (∀ child ∈ children, P child) → P (.node value children)) :
    (children : List (RoseTree A)) → ∀ child ∈ children, P child
  | [] => fun _ mem => absurd mem List.not_mem_nil
  | first :: rest => by
    intro child mem
    rcases List.mem_cons.mp mem with same | later
    · exact same ▸ tree_induction leaf node first
    · exact all_induction leaf node rest child later
end

theorem places_from_nodup {children : List (RoseTree A)}
    (each : ∀ child ∈ children, (places child).Nodup) (first : Nat) :
    (placesFrom first children).Nodup := by
  induction children generalizing first with
  | nil => exact List.nodup_nil
  | cons child rest ih =>
    have own : ((places child).map (first :: ·)).Nodup :=
      (each child List.mem_cons_self).map List.cons_injective
    have others := ih (fun c mem => each c (List.mem_cons_of_mem _ mem)) (first + 1)
    refine own.append others ?_
    intro place left right
    obtain ⟨_, _, rfl⟩ := List.mem_map.mp left
    obtain ⟨number, _, _, _, _, clash⟩ := mem_places_from.mp right
    have same : first = first + 1 + number := (List.cons.inj clash).1
    omega

theorem places_nodup (tree : RoseTree A) : (places tree).Nodup := by
  induction tree using tree_induction with
  | leaf value => exact List.nodup_singleton _
  | node value children each =>
    refine List.nodup_cons.mpr ⟨?_, places_from_nodup each 0⟩
    intro mem
    obtain ⟨_, _, _, _, _, clash⟩ := mem_places_from.mp mem
    contradiction

/- What the walk meets, beside where it meets it. -/
def AtPlaces (tree : RoseTree A) : List (RoseTree A) → List (List Nat) → Prop :=
  List.Forall₂ fun part place => subtree tree place = some part

/-- The children behind `before` are walked while their places are counted from its length. -/
theorem walk_all_at_places (value : A) (before children : List (RoseTree A))
    (each : ∀ child ∈ children, AtPlaces child (walk child) (places child)) :
    AtPlaces (.node value (before ++ children)) (walkAll children)
      (placesFrom before.length children) := by
  induction children generalizing before with
  | nil => exact List.Forall₂.nil
  | cons child rest ih =>
    have here : (before ++ child :: rest)[before.length]? = some child := by simp
    have own : AtPlaces (.node value (before ++ child :: rest)) (walk child)
        ((places child).map (before.length :: ·)) := by
      refine List.forall₂_map_right_iff.mpr ((each child List.mem_cons_self).imp ?_)
      intro part place found
      rw [subtree_child here, found]
    have others := ih (before ++ [child]) fun c mem => each c (List.mem_cons_of_mem _ mem)
    rw [List.append_assoc, List.singleton_append, List.length_append] at others
    exact List.rel_append own others

/-- The walk of a tree and its places run in step. -/
theorem walk_at_places (tree : RoseTree A) : AtPlaces tree (walk tree) (places tree) := by
  induction tree using tree_induction with
  | leaf value => exact List.Forall₂.cons (subtree_root _) List.Forall₂.nil
  | node value children each =>
    exact List.Forall₂.cons (subtree_root _) (walk_all_at_places value [] children each)

theorem at_places_iff {tree : RoseTree A} {parts : List (RoseTree A)} {met : List (List Nat)}
    (aligned : AtPlaces tree parts met) (part : RoseTree A) :
    part ∈ parts ↔ ∃ place ∈ met, subtree tree place = some part := by
  induction aligned with
  | nil => simp
  | cons found _ ih =>
    rw [List.mem_cons, ih]
    simp only [List.exists_mem_cons_iff, found, Option.some.injEq, eq_comm]

theorem mem_walk_iff {tree part : RoseTree A} :
    part ∈ walk tree ↔ ∃ place, subtree tree place = some part := by
  rw [at_places_iff (walk_at_places tree)]
  constructor
  · rintro ⟨place, _, found⟩
    exact ⟨place, found⟩
  · rintro ⟨place, found⟩
    exact ⟨place, mem_places_iff.mpr ⟨part, found⟩, found⟩

end OrderedTrees
