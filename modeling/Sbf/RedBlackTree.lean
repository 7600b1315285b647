import Mathlib.Algebra.Group.Nat.Defs
import Mathlib.Data.Nat.Log
import Mathlib.Tactic.Common

set_option autoImplicit false

/-! Red-black trees and paths into them. A side is a parameter throughout, so that what holds
of a rotation or a repair on one side holds of its mirror image. -/

namespace RedBlack

inductive Side where
  | left
  | right
  deriving DecidableEq, Repr

inductive Color where
  | black
  | red
  deriving DecidableEq, Repr

namespace Side

def opp : Side → Side
  | left => right
  | right => left

@[simp] theorem opp_left : left.opp = right := rfl

@[simp] theorem opp_right : right.opp = left := rfl

@[simp] theorem opp_opp (side : Side) : side.opp.opp = side := by cases side <;> rfl

@[simp] theorem opp_ne (side : Side) : side.opp ≠ side := by cases side <;> decide

theorem eq_or_eq_opp (side other : Side) : other = side ∨ other = side.opp := by
  cases side <;> cases other <;> simp

end Side

/-- A node has a colour, a value and two subtrees. -/
inductive ColorTree (ι : Type) where
  | leaf
  | node (color : Color) (left : ColorTree ι) (value : ι) (right : ColorTree ι)

variable {ι : Type}

namespace ColorTree

/-- A node by a side: the subtree on that side first, the one on the other side last. -/
def make : Side → Color → ColorTree ι → ι → ColorTree ι → ColorTree ι
  | .left, color, near, value, far => node color near value far
  | .right, color, near, value, far => node color far value near

theorem make_opp (side : Side) (color : Color) (near : ColorTree ι) (value : ι) (far : ColorTree ι) :
    make side.opp color near value far = make side color far value near := by
  cases side <;> rfl

theorem node_eq_make (side : Side) (color : Color) (left right : ColorTree ι) (value : ι) :
    ∃ near far, node color left value right = make side color near value far := by
  cases side with
  | left => exact ⟨left, right, rfl⟩
  | right => exact ⟨right, left, rfl⟩

/-- The colour of a tree; a missing node counts as black. -/
def color : ColorTree ι → Color
  | leaf => .black
  | node color _ _ _ => color

/-- The tree with its root in a colour. -/
def paint (color : Color) : ColorTree ι → ColorTree ι
  | leaf => leaf
  | node _ left value right => node color left value right

/-- The values in the order in which a walk towards a side meets them. -/
def walk (toward : Side) : ColorTree ι → List ι
  | leaf => []
  | node _ left value right =>
      match toward with
      | .right => left.walk toward ++ value :: right.walk toward
      | .left => right.walk toward ++ value :: left.walk toward

def height : ColorTree ι → Nat
  | leaf => 0
  | node _ left _ right => max left.height right.height + 1

/-- No red node has a red child, and every way down meets the same number of black nodes. -/
def Balanced : ColorTree ι → Nat → Prop
  | leaf, blacks => blacks = 0
  | node .red left _ right, blacks =>
      left.color = .black ∧ right.color = .black ∧ left.Balanced blacks ∧ right.Balanced blacks
  | node .black _ _ _, 0 => False
  | node .black left _ right, blacks + 1 => left.Balanced blacks ∧ right.Balanced blacks

variable {side toward : Side} {c : Color} {near far tree : ColorTree ι} {value : ι} {blacks : Nat}

@[simp] theorem color_leaf : (leaf : ColorTree ι).color = .black := rfl

@[simp] theorem color_make : (make side c near value far).color = c := by
  cases side <;> rfl

@[simp] theorem paint_leaf : (leaf : ColorTree ι).paint c = leaf := rfl

@[simp] theorem paint_make (d : Color) :
    (make side c near value far).paint d = make side d near value far := by
  cases side <;> rfl

@[simp] theorem walk_leaf : (leaf : ColorTree ι).walk toward = [] := rfl

@[simp] theorem walk_make : (make side c near value far).walk side =
    far.walk side ++ value :: near.walk side := by
  cases side <;> rfl

@[simp] theorem walk_make_opp : (make side c near value far).walk side.opp =
    near.walk side.opp ++ value :: far.walk side.opp := by
  cases side <;> rfl

@[simp] theorem walk_paint (d : Color) : (tree.paint d).walk toward = tree.walk toward := by
  cases tree <;> rfl

theorem walk_left : tree.walk .left = (tree.walk .right).reverse := by
  induction tree with
  | leaf => rfl
  | node c left value right ihl ihr => simp [walk, ihl, ihr]

theorem walk_opp : tree.walk side.opp = (tree.walk side).reverse := by
  cases side with
  | left => simp [walk_left]
  | right => exact walk_left

theorem color_paint_black : (tree.paint .black).color = .black := by
  cases tree <;> rfl

theorem paint_of_black (black : tree.color = .black) : tree.paint .black = tree := by
  cases tree with
  | leaf => rfl
  | node c left value right =>
      cases (black : c = .black)
      rfl

@[simp] theorem balanced_leaf : (leaf : ColorTree ι).Balanced blacks ↔ blacks = 0 := Iff.rfl

@[simp] theorem balanced_red : (make side .red near value far).Balanced blacks ↔
    near.color = .black ∧ far.color = .black ∧ near.Balanced blacks ∧ far.Balanced blacks := by
  cases side with
  | left => exact Iff.rfl
  | right =>
      rw [make, Balanced]
      tauto

@[simp] theorem balanced_black : (make side .black near value far).Balanced (blacks + 1) ↔
    near.Balanced blacks ∧ far.Balanced blacks := by
  cases side with
  | left => exact Iff.rfl
  | right => exact And.comm

theorem not_balanced_black : ¬ (make side .black near value far).Balanced 0 := by
  cases side <;> exact id

/-- What is under a black node, whatever side it is looked at from. -/
theorem Balanced.of_black (balanced : (make side .black near value far).Balanced blacks) :
    ∃ below, blacks = below + 1 ∧ near.Balanced below ∧ far.Balanced below := by
  cases blacks with
  | zero => exact absurd balanced not_balanced_black
  | succ below => exact ⟨below, rfl, balanced_black.mp balanced⟩

/-- A tree with a black node on each way down is not a leaf, and can be opened on any side. -/
theorem Balanced.open_succ (side : Side) (balanced : tree.Balanced (blacks + 1)) :
    ∃ c near value far, tree = make side c near value far := by
  cases tree with
  | leaf => cases balanced
  | node c left value right =>
      obtain ⟨near, far, same⟩ := node_eq_make side c left right value
      exact ⟨c, near, value, far, same⟩

/-- A red node, opened on any side. -/
theorem open_red (side : Side) (red : tree.color = .red) :
    ∃ near value far, tree = make side .red near value far := by
  cases tree with
  | leaf => cases red
  | node c left value right =>
      cases (red : c = .red)
      obtain ⟨near, far, same⟩ := node_eq_make side .red left right value
      exact ⟨near, value, far, same⟩

/-- A red node made black counts one more. -/
theorem Balanced.blacken (balanced : tree.Balanced blacks) :
    ∃ m, (tree.paint .black).Balanced m := by
  cases tree with
  | leaf => exact ⟨blacks, balanced⟩
  | node c left value right =>
      cases c with
      | black => exact ⟨blacks, balanced⟩
      | red => exact ⟨blacks + 1, balanced.2.2⟩

theorem Balanced.blacken_red (balanced : tree.Balanced blacks) (red : tree.color = .red) :
    (tree.paint .black).Balanced (blacks + 1) := by
  cases tree with
  | leaf => cases red
  | node c left value right =>
      cases (red : c = .red)
      exact balanced.2.2

/-- Black nodes bound the size from below and the height from above. -/
theorem Balanced.bounds (balanced : tree.Balanced blacks) :
    2 ^ blacks ≤ (tree.walk .right).length + 1 ∧
      tree.height ≤ 2 * blacks + (if tree.color = .red then 1 else 0) := by
  induction tree generalizing blacks with
  | leaf =>
      cases (balanced : blacks = 0)
      simp [height]
  | node c left value right ihl ihr =>
      cases c with
      | red =>
          obtain ⟨blackLeft, blackRight, balancedLeft, balancedRight⟩ := balanced
          obtain ⟨sizeLeft, lowLeft⟩ := ihl balancedLeft
          obtain ⟨-, lowRight⟩ := ihr balancedRight
          rw [if_neg (by rw [blackLeft]; decide)] at lowLeft
          rw [if_neg (by rw [blackRight]; decide)] at lowRight
          constructor
          · simp only [walk, List.length_append, List.length_cons]
            omega
          · simp only [height, color, ↓reduceIte]
            omega
      | black =>
          cases blacks with
          | zero => cases balanced
          | succ below =>
              obtain ⟨balancedLeft, balancedRight⟩ := balanced
              obtain ⟨sizeLeft, lowLeft⟩ := ihl balancedLeft
              obtain ⟨sizeRight, lowRight⟩ := ihr balancedRight
              have one (side : Color) : (if side = .red then 1 else 0) ≤ 1 := by split <;> omega
              have oneLeft := one left.color
              have oneRight := one right.color
              constructor
              · simp only [walk, List.length_append, List.length_cons, Nat.pow_succ]
                omega
              · simp only [height]
                omega

end ColorTree

/-- A red-black tree: balanced, with a black root. -/
def RedBlackTree (tree : ColorTree ι) : Prop := tree.color = .black ∧ ∃ blacks, tree.Balanced blacks

/-- The height of a red-black tree is at most twice the logarithm of its size. -/
theorem RedBlackTree.height_le {tree : ColorTree ι} (sound : RedBlackTree tree) :
    tree.height ≤ 2 * Nat.log 2 ((tree.walk .right).length + 1) := by
  obtain ⟨black, blacks, balanced⟩ := sound
  obtain ⟨size, low⟩ := balanced.bounds
  rw [if_neg (by rw [black]; decide)] at low
  have logarithm : blacks ≤ Nat.log 2 ((tree.walk .right).length + 1) :=
    Nat.le_log_of_pow_le Nat.one_lt_two size
  omega

/-- A node on the way up from a hole: the hole is its subtree on `side`. -/
structure Frame (ι : Type) where
  side : Side
  color : Color
  value : ι
  sibling : ColorTree ι

/-- The way from a hole to the root, innermost node first. -/
abbrev Path (ι : Type) := List (Frame ι)

namespace Path

/-- The tree with the hole filled. -/
def plug (tree : ColorTree ι) : Path ι → ColorTree ι
  | [] => tree
  | frame :: path => plug (.make frame.side frame.color tree frame.value frame.sibling) path

/-- What a walk meets before it comes to the hole. -/
def behind (toward : Side) : Path ι → List ι
  | [] => []
  | frame :: path =>
      if frame.side = toward then
        behind toward path ++ frame.sibling.walk toward ++ [frame.value]
      else behind toward path

/-- What a walk meets once it is through with the hole. -/
def ahead (toward : Side) : Path ι → List ι
  | [] => []
  | frame :: path =>
      if frame.side = toward then ahead toward path
      else frame.value :: frame.sibling.walk toward ++ ahead toward path

/-- The hole may be filled with a red node. -/
def TakesRed : Path ι → Prop
  | [] => False
  | frame :: _ => frame.color = .black

/-- The tree around a hole for a tree with so many black nodes on each way down. -/
def Balanced : Path ι → Nat → Prop
  | [], _ => True
  | frame :: path, blacks =>
      frame.sibling.Balanced blacks ∧
        match frame.color with
        | .red => frame.sibling.color = .black ∧ TakesRed path ∧ Balanced path blacks
        | .black => Balanced path (blacks + 1)

variable {path inner : Path ι} {tree near far : ColorTree ι} {side toward : Side} {c : Color}
  {value : ι} {blacks : Nat}

@[simp] theorem plug_nil : plug tree ([] : Path ι) = tree := rfl

@[simp] theorem plug_cons : plug tree (⟨side, c, value, far⟩ :: path) =
    plug (.make side c tree value far) path := rfl

/-- The subtree on the other side is under the same node. -/
theorem plug_far : plug (.make side c near value far) path =
    plug far (⟨side.opp, c, value, near⟩ :: path) := by
  rw [plug_cons, ColorTree.make_opp]

@[simp] theorem plug_append : plug tree (inner ++ path) = plug (plug tree inner) path := by
  induction inner generalizing tree with
  | nil => rfl
  | cons frame inner ih => exact ih

theorem behind_append :
    behind toward (inner ++ path) = behind toward path ++ behind toward inner := by
  induction inner with
  | nil => simp [behind]
  | cons frame inner ih =>
      simp only [List.cons_append, behind, ih]
      split <;> simp

theorem ahead_append :
    ahead toward (inner ++ path) = ahead toward inner ++ ahead toward path := by
  induction inner with
  | nil => rfl
  | cons frame inner ih =>
      simp only [List.cons_append, ahead, ih]
      split <;> simp

theorem ahead_opp : ahead side.opp path = (behind side path).reverse := by
  induction path with
  | nil => rfl
  | cons frame path ih =>
      rw [ahead, behind]
      rcases Side.eq_or_eq_opp side frame.side with same | same
      · rw [same, if_neg (Side.opp_ne side).symm, if_pos rfl, ih, ColorTree.walk_opp]
        simp
      · rw [same, if_pos rfl, if_neg (Side.opp_ne side), ih]

theorem walk_plug : (plug tree path).walk toward =
    behind toward path ++ tree.walk toward ++ ahead toward path := by
  induction path generalizing tree with
  | nil => simp [plug, behind, ahead]
  | cons frame path ih =>
      rw [plug, ih]
      rcases Side.eq_or_eq_opp frame.side toward with rfl | rfl
      · simp [behind, ahead]
      · simp [behind, ahead, (Side.opp_ne frame.side).symm]

/-- Trees that are walked alike are walked alike in the same place. -/
theorem walk_plug_congr (same : near.walk toward = far.walk toward) :
    (plug near path).walk toward = (plug far path).walk toward := by
  rw [walk_plug, walk_plug, same]

theorem balanced_red : Balanced (⟨side, .red, value, far⟩ :: path) blacks ↔
    far.Balanced blacks ∧ far.color = .black ∧ TakesRed path ∧ path.Balanced blacks := Iff.rfl

theorem balanced_black : Balanced (⟨side, .black, value, far⟩ :: path) blacks ↔
    far.Balanced blacks ∧ path.Balanced (blacks + 1) := Iff.rfl

/-- A hole that takes a red node is under a black one. -/
theorem TakesRed.black (takes : TakesRed path) :
    ∃ side value far rest, path = ⟨side, .black, value, far⟩ :: rest := by
  cases path with
  | nil => exact takes.elim
  | cons frame rest =>
      obtain ⟨side, c, value, far⟩ := frame
      cases (takes : c = .black)
      exact ⟨side, value, far, rest, rfl⟩

/-- A hole filled with what fits gives a red-black tree. -/
theorem Balanced.plug (around : path.Balanced blacks) (balanced : tree.Balanced blacks)
    (fits : tree.color = .red → TakesRed path) : RedBlackTree (plug tree path) := by
  induction path generalizing tree blacks with
  | nil =>
      refine ⟨?_, blacks, balanced⟩
      cases same : tree.color with
      | black => exact same
      | red => exact (fits same).elim
  | cons frame path ih =>
      obtain ⟨side, c, value, far⟩ := frame
      cases c with
      | red =>
          obtain ⟨balancedFar, blackFar, takes, around⟩ := balanced_red.mp around
          have black : tree.color = .black := by
            cases same : tree.color with
            | black => rfl
            | red => cases (fits same : Color.red = .black)
          exact ih around (ColorTree.balanced_red.mpr ⟨black, blackFar, balanced, balancedFar⟩)
            (fun _ => takes)
      | black =>
          obtain ⟨balancedFar, around⟩ := balanced_black.mp around
          refine ih around (ColorTree.balanced_black.mpr ⟨balanced, balancedFar⟩) (fun red => ?_)
          rw [ColorTree.color_make] at red
          cases red

/-- A red-black tree is balanced around each of its holes. -/
theorem balanced_of_plug (sound : RedBlackTree (plug tree path)) :
    ∃ blacks, path.Balanced blacks ∧ tree.Balanced blacks ∧
      (tree.color = .red → TakesRed path) := by
  induction path generalizing tree with
  | nil =>
      obtain ⟨black, blacks, balanced⟩ := sound
      refine ⟨blacks, trivial, balanced, fun red => ?_⟩
      rw [plug_nil] at black
      rw [black] at red
      cases red
  | cons frame path ih =>
      obtain ⟨side, c, value, far⟩ := frame
      obtain ⟨blacks, around, balanced, takes⟩ := ih sound
      cases c with
      | red =>
          obtain ⟨black, blackFar, balanced, balancedFar⟩ := ColorTree.balanced_red.mp balanced
          refine ⟨blacks, ⟨balancedFar, blackFar, takes ColorTree.color_make, around⟩, balanced,
            fun red => ?_⟩
          rw [black] at red
          cases red
      | black =>
          obtain ⟨below, rfl, balanced, balancedFar⟩ := balanced.of_black
          exact ⟨below, ⟨balancedFar, around⟩, balanced, fun _ => rfl⟩

/-- Balance is not about the values. -/
theorem revalue {other : ι} (sound : RedBlackTree (plug (.make side c near value far) path)) :
    RedBlackTree (plug (.make side c near other far) path) := by
  obtain ⟨blacks, around, balanced, takes⟩ := balanced_of_plug sound
  rw [ColorTree.color_make] at takes
  refine around.plug ?_ (by rwa [ColorTree.color_make])
  cases c with
  | red => exact ColorTree.balanced_red.mpr (ColorTree.balanced_red.mp balanced)
  | black =>
      obtain ⟨below, rfl, inside⟩ := balanced.of_black
      exact ColorTree.balanced_black.mpr inside

theorem mem_walk_plug : value ∈ (plug (.make side c near value far) path).walk toward := by
  rw [walk_plug]
  rcases Side.eq_or_eq_opp side toward with rfl | rfl
  · simp
  · simp

/-- What a walk meets is the root of some subtree. -/
theorem exists_plug (side : Side) (inside : value ∈ tree.walk .right) : ∃ c near far path,
    tree = plug (.make side c near value far) path := by
  induction tree with
  | leaf => cases inside
  | node c left first right ihl ihr =>
      rcases List.mem_append.mp inside with before | after
      · obtain ⟨d, near, far, path, rfl⟩ := ihl before
        refine ⟨d, near, far, path ++ [⟨.left, c, first, right⟩], ?_⟩
        rw [plug_append]
        rfl
      · rcases List.mem_cons.mp after with rfl | after
        · obtain ⟨near, far, same⟩ := ColorTree.node_eq_make side c left right value
          exact ⟨c, near, far, [], same⟩
        · obtain ⟨d, near, far, path, rfl⟩ := ihr after
          refine ⟨d, near, far, path ++ [⟨.right, c, first, left⟩], ?_⟩
          rw [plug_append]
          rfl

theorem height_plug : path.length + tree.height ≤ (plug tree path).height := by
  induction path generalizing tree with
  | nil => simp
  | cons frame path ih =>
      refine le_trans ?_ ih
      obtain ⟨side, c, value, far⟩ := frame
      have under : tree.height + 1 ≤ (ColorTree.make side c tree value far).height := by
        cases side <;> simp only [ColorTree.make, ColorTree.height] <;> omega
      simp only [List.length_cons]
      omega

end Path

end RedBlack
