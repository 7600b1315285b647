import Sbf.RedBlackTree
import Mathlib.Data.Multiset.Bind
import Mathlib.Tactic.Abel

set_option autoImplicit false

/-! Trees in a shared memory: each element has links to its two children and to its parent, and
a colour. What a tree puts into the memory is a multiset of cells, one for each element, so a
write to one cell leaves the others as they are. -/

namespace RedBlack

structure NodeLinks (ι : Type) where
  left : Option ι
  right : Option ι
  parent : Option ι
  color : Color

variable {ι : Type}

namespace NodeLinks

def child (links : NodeLinks ι) : Side → Option ι
  | .left => links.left
  | .right => links.right

def setChild (links : NodeLinks ι) (side : Side) (child : Option ι) : NodeLinks ι :=
  match side with
  | .left => { links with left := child }
  | .right => { links with right := child }

/-- The links of an element with the child on a side first. -/
def around (side : Side) (near far parent : Option ι) (color : Color) : NodeLinks ι :=
  match side with
  | .left => ⟨near, far, parent, color⟩
  | .right => ⟨far, near, parent, color⟩

variable {side : Side} {near far up : Option ι} {c : Color}

@[simp] theorem child_around : (around side near far up c).child side = near := by
  cases side <;> rfl

@[simp] theorem child_around_opp : (around side near far up c).child side.opp = far := by
  cases side <;> rfl

@[simp] theorem parent_around : (around side near far up c).parent = up := by
  cases side <;> rfl

@[simp] theorem color_around : (around side near far up c).color = c := by
  cases side <;> rfl

@[simp] theorem setChild_around (child : Option ι) :
    (around side near far up c).setChild side child = around side child far up c := by
  cases side <;> rfl

@[simp] theorem setChild_around_opp (child : Option ι) :
    (around side near far up c).setChild side.opp child = around side near child up c := by
  cases side <;> rfl

@[simp] theorem setParent_around (parent : Option ι) :
    { around side near far up c with parent := parent } = around side near far parent c := by
  cases side <;> rfl

@[simp] theorem setColor_around (color : Color) :
    { around side near far up c with color := color } = around side near far up color := by
  cases side <;> rfl

end NodeLinks

/-- The cells of a memory: an address and the links there. -/
abbrev Cells (ι : Type) := Multiset (ι × NodeLinks ι)

namespace ColorTree

/-- The address of a tree: that of its root element. -/
def ptr : ColorTree ι → Option ι
  | leaf => none
  | node _ _ value _ => some value

/-- What the tree puts into the memory, under a parent. -/
def cells (parent : Option ι) : ColorTree ι → Cells ι
  | leaf => 0
  | node c left value right =>
      {(value, ⟨left.ptr, right.ptr, parent, c⟩)} +
        (left.cells (some value) + right.cells (some value))

variable {side : Side} {c : Color} {near far : ColorTree ι} {value : ι} {parent : Option ι}

@[simp] theorem ptr_leaf : (leaf : ColorTree ι).ptr = none := rfl

@[simp] theorem ptr_make : (make side c near value far).ptr = some value := by
  cases side <;> rfl

@[simp] theorem ptr_paint (tree : ColorTree ι) (d : Color) : (tree.paint d).ptr = tree.ptr := by
  cases tree <;> rfl

theorem ptr_none {tree : ColorTree ι} (none : tree.ptr = none) : tree = leaf := by
  cases tree with
  | leaf => rfl
  | node => cases none

/-- A tree with an address, opened on any side. -/
theorem open_ptr (side : Side) {tree : ColorTree ι} (here : tree.ptr = some value) :
    ∃ c near far, tree = make side c near value far := by
  cases tree with
  | leaf => cases here
  | node c left first right =>
      cases here
      obtain ⟨near, far, same⟩ := node_eq_make side c left right value
      exact ⟨c, near, far, same⟩

@[simp] theorem cells_leaf : (leaf : ColorTree ι).cells parent = 0 := rfl

theorem cells_make : (make side c near value far).cells parent =
    {(value, .around side near.ptr far.ptr parent c)} +
      (near.cells (some value) + far.cells (some value)) := by
  cases side with
  | left => rfl
  | right => exact congrArg ({_} + ·) (add_comm _ _)

/-- The addresses of the cells are the values, in any order. -/
theorem map_cells (tree : ColorTree ι) (toward : Side) (parent : Option ι) :
    (tree.cells parent).map Prod.fst = (tree.walk toward : Multiset ι) := by
  induction tree generalizing parent with
  | leaf => rfl
  | node c left value right ihl ihr =>
      cases toward with
      | left =>
          simp only [cells, Multiset.map_add, Multiset.map_singleton, ihl, ihr, walk,
            ← Multiset.coe_add, ← Multiset.cons_coe, ← Multiset.singleton_add]
          abel
      | right =>
          simp only [cells, Multiset.map_add, Multiset.map_singleton, ihl, ihr, walk,
            ← Multiset.coe_add, ← Multiset.cons_coe, ← Multiset.singleton_add]
          abel

end ColorTree

namespace Path

/-- The element right above the hole. -/
def top : Path ι → Option ι
  | [] => none
  | frame :: _ => some frame.value

/-- The address of the tree with the hole at an address. -/
def root (hole : Option ι) : Path ι → Option ι
  | [] => hole
  | frame :: path => root (some frame.value) path

/-- What the elements around the hole put into the memory. -/
def cells (hole : Option ι) : Path ι → Cells ι
  | [] => 0
  | frame :: path =>
      {(frame.value, .around frame.side hole frame.sibling.ptr (top path) frame.color)} +
        (frame.sibling.cells (some frame.value) + cells (some frame.value) path)

variable {path : Path ι} {tree far : ColorTree ι} {side : Side} {c : Color} {value : ι}
  {hole : Option ι}

@[simp] theorem top_nil : top ([] : Path ι) = none := rfl

@[simp] theorem top_cons : top (⟨side, c, value, far⟩ :: path) = some value := rfl

@[simp] theorem root_nil : root hole ([] : Path ι) = hole := rfl

@[simp] theorem root_cons :
    root hole (⟨side, c, value, far⟩ :: path) = root (some value) path := rfl

@[simp] theorem cells_nil : cells hole ([] : Path ι) = 0 := rfl

theorem cells_cons : cells hole (⟨side, c, value, far⟩ :: path) =
    {(value, .around side hole far.ptr (top path) c)} +
      (far.cells (some value) + cells (some value) path) := rfl

theorem isSome_root : (root (some value) path).isSome := by
  induction path generalizing value with
  | nil => rfl
  | cons frame path ih => exact ih

theorem ptr_plug : (plug tree path).ptr = root tree.ptr path := by
  induction path generalizing tree with
  | nil => rfl
  | cons frame path ih =>
      rw [plug, ih, ColorTree.ptr_make]
      rfl

theorem cells_plug : (plug tree path).cells none = cells tree.ptr path + tree.cells path.top := by
  induction path generalizing tree with
  | nil => exact (zero_add _).symm
  | cons frame path ih =>
      rw [plug, ih, ColorTree.cells_make, ColorTree.ptr_make, cells, top]
      abel

end Path

/-- A root and the links of every element. -/
structure LinkHeap (ι : Type) where
  root : Option ι
  entry : ι → NodeLinks ι

namespace LinkHeap

/-- The memory holds the cells, each at an address of its own. -/
def Holds (heap : LinkHeap ι) (cells : Cells ι) : Prop :=
  (∀ cell ∈ cells, heap.entry cell.1 = cell.2) ∧ (cells.map Prod.fst).Nodup

/-- The memory holds the tree under the root, and more cells beside it. -/
def Held (heap : LinkHeap ι) (tree : ColorTree ι) (beside : Cells ι) : Prop :=
  heap.root = tree.ptr ∧ heap.Holds (tree.cells none + beside)

section Reads

variable {heap : LinkHeap ι} {side : Side} {c : Color} {near far tree : ColorTree ι}
  {value other : ι}
  {path : Path ι} {cells beside : Cells ι} {links : NodeLinks ι}

theorem Holds.read (holds : heap.Holds ({(value, links)} + cells)) : heap.entry value = links :=
  holds.1 _ (Multiset.mem_add.mpr (Or.inl (Multiset.mem_singleton_self _)))

/-- The cells of a tree are at the addresses a walk meets. -/
theorem mem_walk_of_cells {up : Option ι} {cell : ι × NodeLinks ι} (inside : cell ∈ tree.cells up)
    (toward : Side) : cell.1 ∈ tree.walk toward := by
  rw [← Multiset.mem_coe, ← tree.map_cells toward up]
  exact Multiset.mem_map_of_mem _ inside

theorem Holds.congr (holds : heap.Holds cells) (same : cells = beside) : heap.Holds beside :=
  same ▸ holds

theorem Holds.mono (holds : heap.Holds (cells + beside)) : heap.Holds cells := by
  refine ⟨fun cell inside => holds.1 cell (Multiset.mem_add.mpr (Or.inl inside)), ?_⟩
  have nodup := holds.2
  rw [Multiset.map_add] at nodup
  exact (Multiset.nodup_add.mp nodup).1

theorem held_plug : heap.Held (Path.plug tree path) beside ↔
    heap.root = path.root tree.ptr ∧
      heap.Holds (path.cells tree.ptr + tree.cells path.top + beside) := by
  rw [Held, Path.ptr_plug, Path.cells_plug]

theorem held_make : heap.Held (Path.plug (.make side c near value far) path) beside ↔
    heap.root = path.root (some value) ∧
      heap.Holds ({(value, .around side near.ptr far.ptr path.top c)} +
        (path.cells (some value) + near.cells (some value) + far.cells (some value) + beside)) := by
  rw [held_plug, ColorTree.ptr_make, ColorTree.cells_make]
  refine and_congr_right fun _ => iff_of_eq (congrArg _ ?_)
  abel

theorem Held.down (held : heap.Held (Path.plug (.make side c near value far) path) beside) :
    heap.Held (Path.plug near (⟨side, c, value, far⟩ :: path)) beside := held

theorem Held.down_far (held : heap.Held (Path.plug (.make side c near value far) path) beside) :
    heap.Held (Path.plug far (⟨side.opp, c, value, near⟩ :: path)) beside :=
  Path.plug_far ▸ held

theorem Held.up (held : heap.Held (Path.plug near (⟨side, c, value, far⟩ :: path)) beside) :
    heap.Held (Path.plug (.make side c near value far) path) beside := held

theorem Held.up_far
    (held : heap.Held (Path.plug far (⟨side.opp, c, value, near⟩ :: path)) beside) :
    heap.Held (Path.plug (.make side c near value far) path) beside :=
  Path.plug_far ▸ held

/-- What is read at an element of the tree. -/
theorem Held.entry (held : heap.Held (Path.plug (.make side c near value far) path) beside) :
    heap.entry value = .around side near.ptr far.ptr path.top c :=
  (held_make.mp held).2.read

theorem Held.mono (held : heap.Held tree beside) : heap.Held tree 0 :=
  ⟨held.1, by
    rw [add_zero]
    exact held.2.mono⟩

/-- No element is in the tree twice, or in the tree and beside it. -/
theorem Held.nodup (held : heap.Held tree beside) (toward : Side) :
    (tree.walk toward).Nodup ∧ ∀ cell ∈ beside, cell.1 ∉ tree.walk toward := by
  have nodup := held.2.2
  rw [Multiset.map_add, tree.map_cells toward, Multiset.nodup_add] at nodup
  refine ⟨nodup.1, fun cell inside again => ?_⟩
  exact Multiset.disjoint_left.mp nodup.2.2 (Multiset.mem_coe.mpr again)
    (Multiset.mem_map_of_mem _ inside)

/-- No element is below itself. -/
theorem Held.not_mem (held : heap.Held (Path.plug (.make side c near value far) path) beside)
    (toward : Side) : value ∉ near.walk toward ∧ value ∉ far.walk toward := by
  have nodup := (held.nodup toward).1
  rw [Path.walk_plug, List.append_assoc] at nodup
  have inside := (List.nodup_append.mp (List.nodup_append.mp nodup).2.1).1
  rcases Side.eq_or_eq_opp side toward with rfl | rfl
  · rw [ColorTree.walk_make, List.nodup_middle, List.nodup_cons] at inside
    simpa [and_comm] using inside.1
  · rw [ColorTree.walk_make_opp, List.nodup_middle, List.nodup_cons] at inside
    simpa using inside.1

/-- The two children of an element are not the same element. -/
theorem Held.ptr_ne (held : heap.Held (Path.plug (.make side c near value far) path) beside)
    (there : far.ptr = some other) : near.ptr ≠ some other := by
  intro same
  obtain ⟨d, a, b, rfl⟩ := ColorTree.open_ptr side there
  obtain ⟨d', a', b', rfl⟩ := ColorTree.open_ptr side same
  have nodup := (held.nodup side).1
  rw [Path.walk_plug] at nodup
  simp [List.nodup_append] at nodup

/-- On which side of its parent a child is can be told by the left link, unless both children
are missing. -/
theorem Held.left_eq (held : heap.Held (Path.plug (.make side c near value far) path) beside)
    (there : near.ptr.isSome ∨ far.ptr.isSome) :
    (heap.entry value).child .left = near.ptr ↔ side = .left := by
  rw [held.entry]
  cases side with
  | left => simp [NodeLinks.around, NodeLinks.child]
  | right =>
      simp only [NodeLinks.around, NodeLinks.child, reduceCtorEq, iff_false]
      intro same
      obtain ⟨other, here⟩ : ∃ other, far.ptr = some other := by
        rw [same] at there
        rw [same]
        exact Option.isSome_iff_exists.mp (there.elim id id)
      exact held.ptr_ne here (same ▸ here)

end Reads

section Writes

variable [DecidableEq ι]

def write (heap : LinkHeap ι) (value : ι) (links : NodeLinks ι) : LinkHeap ι :=
  { heap with entry := Function.update heap.entry value links }

def setParent (heap : LinkHeap ι) (value : ι) (parent : Option ι) : LinkHeap ι :=
  heap.write value { heap.entry value with parent := parent }

def setColor (heap : LinkHeap ι) (value : ι) (color : Color) : LinkHeap ι :=
  heap.write value { heap.entry value with color := color }

def setChild (heap : LinkHeap ι) (value : ι) (side : Side) (child : Option ι) : LinkHeap ι :=
  heap.write value ((heap.entry value).setChild side child)

variable {heap : LinkHeap ι} {side : Side} {c : Color} {near far tree : ColorTree ι} {value : ι}
  {path : Path ι} {cells beside : Cells ι} {links : NodeLinks ι} {a b up : Option ι}

@[simp] theorem root_write : (heap.write value links).root = heap.root := rfl

@[simp] theorem root_setParent : (heap.setParent value up).root = heap.root := rfl

@[simp] theorem root_setColor : (heap.setColor value c).root = heap.root := rfl

@[simp] theorem root_setChild : (heap.setChild value side up).root = heap.root := rfl

theorem Holds.write (holds : heap.Holds ({(value, links)} + cells)) (new : NodeLinks ι) :
    (heap.write value new).Holds ({(value, new)} + cells) := by
  have nodup := holds.2
  simp only [Multiset.map_add, Multiset.map_singleton] at nodup
  constructor
  · intro cell inside
    rcases Multiset.mem_add.mp inside with here | inside
    · rw [Multiset.mem_singleton.mp here]
      exact Function.update_self ..
    · have other : cell.1 ≠ value := by
        intro same
        exact Multiset.disjoint_left.mp (Multiset.nodup_add.mp nodup).2.2
          (Multiset.mem_singleton.mpr same) (Multiset.mem_map_of_mem _ inside)
      exact (Function.update_of_ne other _ _).trans
        (holds.1 cell (Multiset.mem_add.mpr (Or.inr inside)))
  · simpa only [Multiset.map_add, Multiset.map_singleton] using nodup

/-- A cell at an address that holds none yet. -/
theorem Holds.alloc (holds : heap.Holds cells) (fresh : ∀ cell ∈ cells, cell.1 ≠ value)
    (new : NodeLinks ι) : (heap.write value new).Holds ({(value, new)} + cells) := by
  constructor
  · intro cell inside
    rcases Multiset.mem_add.mp inside with here | inside
    · rw [Multiset.mem_singleton.mp here]
      exact Function.update_self ..
    · exact (Function.update_of_ne (fresh cell inside) _ _).trans (holds.1 cell inside)
  · rw [Multiset.map_add, Multiset.map_singleton, Multiset.singleton_add, Multiset.nodup_cons]
    refine ⟨fun again => ?_, holds.2⟩
    obtain ⟨cell, inside, same⟩ := Multiset.mem_map.mp again
    exact fresh cell inside same

/-- What is written outside of the tree does not matter to it. -/
theorem Held.write (held : heap.Held tree 0) (outside : value ∉ tree.walk .right)
    (links : NodeLinks ι) : (heap.write value links).Held tree 0 := by
  refine ⟨held.1, fun cell inside => ?_, held.2.2⟩
  refine (Function.update_of_ne ?_ _ _).trans (held.2.1 cell inside)
  rintro same
  rw [add_zero] at inside
  exact outside (same ▸ mem_walk_of_cells inside .right)

theorem Holds.setParent (holds : heap.Holds ({(value, .around side a b up c)} + cells))
    (new : Option ι) :
    (heap.setParent value new).Holds ({(value, .around side a b new c)} + cells) := by
  rw [LinkHeap.setParent, holds.read, NodeLinks.setParent_around]
  exact holds.write _

theorem Holds.setColor (holds : heap.Holds ({(value, .around side a b up c)} + cells))
    (new : Color) :
    (heap.setColor value new).Holds ({(value, .around side a b up new)} + cells) := by
  rw [LinkHeap.setColor, holds.read, NodeLinks.setColor_around]
  exact holds.write _

theorem Holds.setChild (holds : heap.Holds ({(value, .around side a b up c)} + cells))
    (new : Option ι) :
    (heap.setChild value side new).Holds ({(value, .around side new b up c)} + cells) := by
  rw [LinkHeap.setChild, holds.read, NodeLinks.setChild_around]
  exact holds.write _

theorem Holds.setChild_opp (holds : heap.Holds ({(value, .around side a b up c)} + cells))
    (new : Option ι) :
    (heap.setChild value side.opp new).Holds ({(value, .around side a new up c)} + cells) := by
  rw [LinkHeap.setChild, holds.read, NodeLinks.setChild_around_opp]
  exact holds.write _

/-- An element of the tree gets another colour. -/
theorem Held.paint (held : heap.Held (Path.plug (.make side c near value far) path) beside)
    (new : Color) :
    (heap.setColor value new).Held (Path.plug (.make side new near value far) path) beside := by
  obtain ⟨root, holds⟩ := held_make.mp held
  exact held_make.mpr ⟨root, holds.setColor new⟩

end Writes

end LinkHeap

end RedBlack
