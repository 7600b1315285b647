import Sbf.TportHeader
import Sbf.TreeLinks

set_option autoImplicit false

/-! The red-black trees of systree.h as its macros leave them in memory. -/

namespace Sbf.SysTree

open RedBlack

variable {ι : Type}

def deref : Option ι → Except Fault ι
  | none => .error .null
  | some elm => .ok elm

/-- `tmp && RB_COLOR (tmp) == RB_RED` -/
def isRed (heap : LinkHeap ι) : Option ι → Bool
  | none => false
  | some elm => (heap.entry elm).color = .red

variable [DecidableEq ι]

/-- The side of a child that is compared with the left one first. -/
def sideOf (heap : LinkHeap ι) (parent : ι) (child : Option ι) : Side :=
  if (heap.entry parent).child .left = child then .left else .right

/-- `if (child) RB_PARENT (child) = parent` -/
def adopt (heap : LinkHeap ι) (child parent : Option ι) : LinkHeap ι :=
  match child with
  | none => heap
  | some child => heap.setParent child parent

/-- `if (elm) RB_COLOR (elm) = RB_BLACK` -/
def blacken (heap : LinkHeap ι) (elm : Option ι) : LinkHeap ι :=
  match elm with
  | none => heap
  | some elm => heap.setColor elm .black

/-- The link down to an element, in its parent or in the head, is given another target. -/
def relink (heap : LinkHeap ι) (parent : Option ι) (old : ι) (new : Option ι) : LinkHeap ι :=
  match parent with
  | none => { heap with root := new }
  | some parent => heap.setChild parent (sideOf heap parent (some old)) new

def setBlackRed (heap : LinkHeap ι) (black red : ι) : LinkHeap ι :=
  (heap.setColor black .black).setColor red .red

/-- The rotation towards a side: the child on the other side comes up. -/
def rotate (side : Side) (heap : LinkHeap ι) (elm : ι) : Except Fault (LinkHeap ι) := do
  let tmp ← deref ((heap.entry elm).child side.opp)
  let inner := (heap.entry tmp).child side
  let heap := adopt (heap.setChild elm side.opp inner) inner (some elm)
  let heap := heap.setParent tmp (heap.entry elm).parent
  let heap := relink heap (heap.entry elm).parent elm (some tmp)
  .ok ((heap.setChild tmp side (some elm)).setParent elm (some tmp))

def rotateLeft (heap : LinkHeap ι) (elm : ι) : Except Fault (LinkHeap ι) := rotate .left heap elm

def rotateRight (heap : LinkHeap ι) (elm : ι) : Except Fault (LinkHeap ι) := rotate .right heap elm

section Writes

variable {heap : LinkHeap ι} {side : Side} {c : Color} {near far tree : ColorTree ι} {value old : ι}
  {path : Path ι} {cells beside : Cells ι} {up : Option ι}

@[simp] theorem root_adopt (child : Option ι) : (adopt heap child up).root = heap.root := by
  cases child <;> rfl

omit [DecidableEq ι] in
theorem isRed_held (held : heap.Held (Path.plug tree path) beside) :
    isRed heap tree.ptr = (tree.color = .red : Bool) := by
  cases tree with
  | leaf => rfl
  | node c left value right =>
      have entry := @LinkHeap.Held.entry _ _ .left _ _ _ _ _ _ held
      simp only [ColorTree.ptr, isRed, entry, NodeLinks.color_around]
      rfl

theorem sideOf_held (held : heap.Held (Path.plug (.make side c near value far) path) beside)
    (there : near.ptr.isSome ∨ far.ptr.isSome) : sideOf heap value near.ptr = side := by
  have told := held.left_eq there
  unfold sideOf
  cases side with
  | left => rw [if_pos (told.mpr rfl)]
  | right => rw [if_neg (fun same => Side.noConfusion (told.mp same))]

theorem blacken_held (held : heap.Held (Path.plug tree path) beside) :
    (blacken heap tree.ptr).Held (Path.plug (tree.paint .black) path) beside := by
  cases tree with
  | leaf => exact held
  | node c left value right => exact @LinkHeap.Held.paint _ _ _ .left _ _ _ _ _ _ held .black

theorem holds_adopt (holds : heap.Holds (tree.cells up + cells)) (parent : Option ι) :
    (adopt heap tree.ptr parent).Holds (tree.cells parent + cells) := by
  cases tree with
  | leaf => exact holds
  | node c left value right =>
      rw [ColorTree.cells, add_assoc] at holds ⊢
      exact @LinkHeap.Holds.setParent _ _ _ .left _ _ _ _ _ _ holds parent

/-- The element above a hole, or the head, is given another element to point to. -/
theorem holds_relink {links : NodeLinks ι} (root : heap.root = path.root (some old))
    (holds : heap.Holds (path.cells (some old) + ({(old, links)} + cells))) (new : Option ι) :
    (relink heap path.top old new).root = path.root new ∧
      (relink heap path.top old new).Holds (path.cells new + ({(old, links)} + cells)) := by
  cases path with
  | nil => exact ⟨rfl, holds⟩
  | cons frame path =>
      obtain ⟨side, c, value, far⟩ := frame
      refine ⟨root, ?_⟩
      simp only [Path.cells_cons, Path.top_cons, relink, add_assoc] at holds ⊢
      have found : sideOf heap value (some old) = side := by
        rw [sideOf, holds.read]
        cases side with
        | left => exact if_pos rfl
        | right =>
            refine if_neg fun same => ?_
            change far.ptr = some old at same
            obtain ⟨d, a, b, rfl⟩ := ColorTree.open_ptr .left same
            have nodup := holds.2
            simp [ColorTree.cells_make, Multiset.nodup_add] at nodup
      rw [found]
      exact holds.setChild new

/-- A rotation brings up the child on the other side and keeps what is below in order. -/
theorem rotate_held {d : Color} {a b : ColorTree ι} {elm tmp : ι}
    (held : heap.Held (Path.plug (.make side c a elm (.make side d b tmp far)) path) beside) :
    ∃ after, rotate side heap elm = .ok after ∧
      after.Held (Path.plug (.make side d (.make side c a elm b) tmp far) path) beside := by
  obtain ⟨root, holds⟩ := LinkHeap.held_make.mp held
  have start : heap.Holds ({(elm, .around side a.ptr (some tmp) path.top c)} +
      ({(tmp, .around side b.ptr far.ptr (some elm) d)} +
        (path.cells (some elm) + a.cells (some elm) + b.cells (some tmp) +
          far.cells (some tmp) + beside))) := by
    refine holds.congr ?_
    rw [ColorTree.cells_make, ColorTree.ptr_make]
    abel
  have entryTmp := (start.congr (add_left_comm _ _ _)).read
  -- the writes one after the other, each with its cell in front
  have lowered := start.setChild_opp b.ptr
  have adopted : (adopt (heap.setChild elm side.opp b.ptr) b.ptr (some elm)).Holds
      (b.cells (some elm) + ({(elm, .around side a.ptr b.ptr path.top c)} +
        ({(tmp, .around side b.ptr far.ptr (some elm) d)} + (path.cells (some elm) +
          a.cells (some elm) + far.cells (some tmp) + beside)))) :=
    @holds_adopt _ _ _ _ _ (some tmp) (lowered.congr (by abel)) (some elm)
  generalize eq₁ : adopt (heap.setChild elm side.opp b.ptr) b.ptr (some elm) = one at adopted
  have up₁ : (one.entry elm).parent = path.top := by
    rw [(adopted.congr (add_left_comm _ _ _)).read, NodeLinks.parent_around]
  have raised : (one.setParent tmp path.top).Holds
      ({(tmp, .around side b.ptr far.ptr path.top d)} + (b.cells (some elm) +
        ({(elm, .around side a.ptr b.ptr path.top c)} + (path.cells (some elm) +
          a.cells (some elm) + far.cells (some tmp) + beside)))) :=
    LinkHeap.Holds.setParent (adopted.congr (by abel)) path.top
  generalize eq₂ : one.setParent tmp path.top = two at raised
  have up₂ : (two.entry elm).parent = path.top := by
    rw [(raised.congr (by abel : _ = {(elm, _)} + ({(tmp, _)} + (b.cells (some elm) +
      (path.cells (some elm) + a.cells (some elm) + far.cells (some tmp) + beside))))).read,
      NodeLinks.parent_around]
  have root₂ : two.root = path.root (some elm) := by
    rw [← eq₂, ← eq₁, LinkHeap.root_setParent, root_adopt, LinkHeap.root_setChild, root]
  obtain ⟨root₃, linked⟩ := @holds_relink _ _ _ elm path _ _ root₂
    (raised.congr (by abel : _ = path.cells (some elm) + ({(elm, _)} +
      ({(tmp, .around side b.ptr far.ptr path.top d)} + (b.cells (some elm) +
        a.cells (some elm) + far.cells (some tmp) + beside))))) (some tmp)
  have hung := (linked.congr (by abel : _ = {(tmp, _)} + (path.cells (some tmp) +
    ({(elm, _)} + (b.cells (some elm) + a.cells (some elm) + far.cells (some tmp) +
      beside))))).setChild (some elm)
  have done := (hung.congr (by abel : _ = {(elm, _)} + ({(tmp, _)} + (path.cells (some tmp) +
    (b.cells (some elm) + a.cells (some elm) + far.cells (some tmp) +
      beside))))).setParent (some tmp)
  refine ⟨_, ?_, LinkHeap.held_make.mpr ⟨?_, done.congr ?_⟩⟩
  · rw [rotate, start.read, NodeLinks.child_around_opp]
    change Except.ok _ = _
    rw [entryTmp, NodeLinks.child_around, eq₁, up₁, eq₂, up₂]
  · rw [LinkHeap.root_setParent, LinkHeap.root_setChild, root₃]
  · rw [ColorTree.cells_make, ColorTree.ptr_make]
    abel

end Writes

end Sbf.SysTree
