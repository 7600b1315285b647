import Sbf.SysTreeRemoveColor

set_option autoImplicit false

namespace Sbf.SysTree

open RedBlack

variable {ι : Type}

/-- The loop that goes down on one side as far as it can. -/
def outermost (side : Side) (heap : LinkHeap ι) : Nat → ι → Except Fault ι
  | 0, _ => .error .endless
  | fuel + 1, elm =>
      match (heap.entry elm).child side with
      | none => .ok elm
      | some child => outermost side heap fuel child

/-- The loop up to the root in which `RB_REMOVE` calls `RB_AUGMENT`, which is empty. -/
def augment (heap : LinkHeap ι) : Nat → Option ι → Except Fault Unit
  | _, none => .ok ()
  | 0, some _ => .error .endless
  | fuel + 1, some left => augment heap fuel (heap.entry left).parent

variable [DecidableEq ι]

/-- An element without a child on one side makes way for the child on the other. -/
def spliceOut (heap : LinkHeap ι) (elm : ι) (child : Option ι) : LinkHeap ι :=
  let parent := (heap.entry elm).parent
  relink (adopt heap child parent) parent elm child

/-- An element outside of the tree takes the place of one with a left child. -/
def takePlace (heap : LinkHeap ι) (old elm : ι) : Except Fault (LinkHeap ι) := do
  let heap := heap.write elm (heap.entry old)
  let heap := relink heap (heap.entry old).parent old (some elm)
  let heap := heap.setParent (← deref (heap.entry old).left) (some elm)
  .ok (adopt heap (heap.entry old).right (some elm))

/-- What `RB_REMOVE` does from its label `color` on. -/
def recolor (fuel : Nat) (heap : LinkHeap ι) (color : Color) (parent child : Option ι) :
    Except Fault (LinkHeap ι) :=
  if color = .black then removeColor fuel heap parent child else .ok heap

/-- `RB_REMOVE` -/
def remove (fuel : Nat) (heap : LinkHeap ι) (old : ι) : Except Fault (LinkHeap ι × ι) :=
  match (heap.entry old).left, (heap.entry old).right with
  | some _, some right => do
      let elm ← outermost .left heap fuel right
      let child := (heap.entry elm).right
      let parent := (heap.entry elm).parent
      let color := (heap.entry elm).color
      let heap := spliceOut heap elm child
      let parent := if (heap.entry elm).parent = some old then some elm else parent
      let heap ← takePlace heap old elm
      augment heap fuel parent
      .ok (← recolor fuel heap color parent child, old)
  | left, right => do
      let child := if left = none then right else left
      let parent := (heap.entry old).parent
      let color := (heap.entry old).color
      let heap := spliceOut heap old child
      .ok (← recolor fuel heap color parent child, old)

variable {heap : LinkHeap ι} {side : Side} {tree near far child : ColorTree ι} {c : Color}
  {elm old : ι} {path : Path ι} {cells beside : Cells ι} {blacks fuel : Nat}

omit [DecidableEq ι] in
/-- The loop down on a side ends at the element that a walk from that side meets first. -/
theorem outermost_held (held : heap.Held (Path.plug tree path) beside)
    (here : tree.ptr = some elm) (enough : tree.height ≤ fuel) : ∃ inner c value far,
    outermost side heap fuel elm = .ok value ∧
      tree = Path.plug (.make side c .leaf value far) inner ∧
      Path.behind side.opp inner = [] := by
  induction fuel generalizing tree path elm with
  | zero =>
      obtain ⟨c, near, far, rfl⟩ := ColorTree.open_ptr .left here
      cases enough
  | succ fuel ih =>
      obtain ⟨c, near, far, rfl⟩ := ColorTree.open_ptr side here
      cases under : near.ptr with
      | none =>
          cases ColorTree.ptr_none under
          refine ⟨[], c, elm, far, ?_, rfl, rfl⟩
          rw [outermost, held.entry, NodeLinks.child_around]
          rfl
      | some next =>
          have lower : near.height ≤ fuel := by
            have := @Path.height_plug _ [⟨side, c, elm, far⟩] near
            simp only [List.length_singleton, Path.plug_cons, Path.plug_nil] at this
            omega
          obtain ⟨inner, d, value, far', ran, rfl, none⟩ := ih held.down under lower
          refine ⟨inner ++ [⟨side, c, elm, far⟩], d, value, far', ?_, ?_, ?_⟩
          · rw [outermost, held.entry, NodeLinks.child_around, under]
            exact ran
          · rw [Path.plug_append, Path.plug_cons, Path.plug_nil]
          · simp [Path.behind_append, Path.behind, none, (Side.opp_ne side).symm]

omit [DecidableEq ι] in
theorem augment_held (held : heap.Held (Path.plug tree path) beside)
    (enough : path.length ≤ fuel) : augment heap fuel path.top = .ok () := by
  induction path generalizing tree fuel with
  | nil => exact augment.eq_1 heap fuel
  | cons frame path ih =>
      cases fuel with
      | zero => cases enough
      | succ fuel =>
          obtain ⟨side, c, value, far⟩ := frame
          rw [Path.top_cons, augment, held.up.entry, NodeLinks.parent_around]
          exact ih held.up (Nat.le_of_succ_le_succ enough)

/-- The child comes up to where the element was, whose own links stay. -/
theorem spliceOut_held
    (held : heap.Held (Path.plug (.make side c .leaf elm child) path) beside) :
    (spliceOut heap elm child.ptr).Held (Path.plug child path)
      ({(elm, .around side none child.ptr path.top c)} + beside) := by
  obtain ⟨root, holds⟩ := LinkHeap.held_make.mp held
  have adopted := @holds_adopt _ _ _ child _ (some elm)
    (holds.congr (by rw [ColorTree.cells_leaf, ColorTree.ptr_leaf]; abel : _ = _ +
      ({(elm, .around side none child.ptr path.top c)} + (path.cells (some elm) + beside))))
    path.top
  rw [spliceOut, held.entry, NodeLinks.parent_around]
  obtain ⟨root', linked⟩ := @holds_relink _ _ (adopt heap child.ptr path.top) elm path _ _
    ((root_adopt _).trans root)
    (adopted.congr (by abel : _ = path.cells (some elm) +
      ({(elm, .around side none child.ptr path.top c)} + (child.cells path.top + beside))))
    child.ptr
  refine LinkHeap.held_plug.mpr ⟨root', linked.congr ?_⟩
  abel

/-- An element beside the tree takes over the links of one in it, which is left beside. -/
theorem takePlace_held {links : NodeLinks ι}
    (held : heap.Held (Path.plug (.make .left c near old far) path) ({(elm, links)} + beside))
    (there : near.ptr.isSome) : ∃ after, takePlace heap old elm = .ok after ∧
      after.Held (Path.plug (.make .left c near elm far) path) beside := by
  obtain ⟨left, isLeft⟩ := Option.isSome_iff_exists.mp there
  obtain ⟨root, holds⟩ := LinkHeap.held_make.mp held
  generalize same : NodeLinks.around .left near.ptr far.ptr path.top c = around at holds
  have copied := (holds.congr (by abel : _ = {(elm, links)} + ({(old, around)} +
    (path.cells (some old) + near.cells (some old) + far.cells (some old) + beside)))).write around
  generalize eq₁ : heap.write elm around = one at copied
  have old₁ := (copied.congr (add_left_comm _ _ _)).read
  have root₁ : one.root = path.root (some old) := by
    rw [← eq₁, LinkHeap.root_write, root]
  obtain ⟨root₂, linked⟩ := holds_relink root₁
    (copied.congr (by abel : _ = path.cells (some old) + ({(old, around)} + ({(elm, around)} +
      (near.cells (some old) + far.cells (some old) + beside))))) (some elm)
  generalize eq₂ : relink one path.top old (some elm) = two at root₂ linked
  have old₂ := (linked.congr (add_left_comm _ _ _)).read
  have first := @holds_adopt _ _ _ near _ _ (linked.congr (by abel : _ = near.cells (some old) +
    ({(old, around)} + ({(elm, around)} + (path.cells (some elm) + far.cells (some old) +
      beside))))) (some elm)
  generalize eq₃ : adopt two near.ptr (some elm) = three at first
  have old₃ := (first.congr (add_left_comm _ _ _)).read
  have second := @holds_adopt _ _ _ far _ _ (first.congr (by abel : _ = far.cells (some old) +
    ({(elm, around)} + (path.cells (some elm) + near.cells (some elm) +
      (beside + {(old, around)}))))) (some elm)
  refine ⟨_, ?_, LinkHeap.held_make.mpr ⟨?_, @LinkHeap.Holds.mono _ _ _ ({(old, around)})
    (second.congr ?_)⟩⟩
  · have up : around.parent = path.top := by rw [← same, NodeLinks.parent_around]
    have leftward : around.left = some left := by rw [← same, ← isLeft]; rfl
    have rightward : around.right = far.ptr := by rw [← same]; rfl
    rw [isLeft] at eq₃
    rw [takePlace, held.entry, same, eq₁, old₁, up, eq₂, old₂, leftward]
    change Except.ok (adopt (adopt two (some left) (some elm))
      ((adopt two (some left) (some elm)).entry old).right (some elm)) = _
    rw [eq₃, old₃, rightward]
  · rw [root_adopt, ← eq₃, root_adopt, root₂]
  · rw [same]
    abel

omit [DecidableEq ι] in
/-- What taking out an element with at most one child leaves: a red-black tree if the element
was red, else a lack of one black node below the hole. -/
theorem splice_short (sound : RedBlackTree (Path.plug (.make side c .leaf elm child) path)) :
    match c with
    | .red => RedBlackTree (Path.plug child path)
    | .black => ∃ blacks, path.Balanced (blacks + 1) ∧
        (child.color = .black ∧ child.Balanced blacks ∨
          child.color = .red ∧ (child.paint .black).Balanced (blacks + 1)) := by
  obtain ⟨blacks, around, balanced, takes⟩ := Path.balanced_of_plug sound
  cases c with
  | red =>
      obtain ⟨-, black, -, balanced⟩ := ColorTree.balanced_red.mp balanced
      exact around.plug balanced (fun red => Color.noConfusion (black.symm.trans red))
  | black =>
      obtain ⟨below, rfl, -, balanced⟩ := balanced.of_black
      refine ⟨below, around, ?_⟩
      cases colored : child.color with
      | black => exact Or.inl ⟨rfl, balanced⟩
      | red => exact Or.inr ⟨rfl, balanced.blacken_red colored⟩

/-- The end of `RB_REMOVE`, once the element is out of the tree. -/
theorem recolor_held (held : heap.Held (Path.plug child path) beside)
    (sound : RedBlackTree (Path.plug (.make side c .leaf elm child) path))
    (enough : path.length < fuel) : ∃ after whole,
    recolor fuel heap c path.top child.ptr = .ok after ∧
      after.Held whole beside ∧ RedBlackTree whole ∧
      whole.walk .right = (Path.plug child path).walk .right := by
  have short := splice_short sound
  cases c with
  | red => exact ⟨heap, _, rfl, held, short, rfl⟩
  | black => exact removeColor_held fuel ⟨held, short⟩ (by omega) (fun _ => enough)

/-- `RB_REMOVE` of an element with at most one child. -/
theorem remove_one (held : heap.Held (Path.plug (.make side c .leaf old child) path) 0)
    (sound : RedBlackTree (Path.plug (.make side c .leaf old child) path))
    (enough : path.length < fuel) : ∃ after whole,
    remove fuel heap old = .ok (after, old) ∧ after.Held whole 0 ∧ RedBlackTree whole ∧
      whole.walk .right = (Path.plug child path).walk .right := by
  have out := (spliceOut_held held).mono
  obtain ⟨after, whole, ran, done, good, walked⟩ := recolor_held out sound enough
  refine ⟨after, whole, ?_, done, good, walked⟩
  cases side with
  | left =>
      simp only [remove, held.entry, NodeLinks.around, ColorTree.ptr_leaf]
      simp only [↓reduceIte, ran, bind, Except.bind]
  | right =>
      cases same : child.ptr with
      | none =>
          rw [same] at ran
          simp only [remove, held.entry, NodeLinks.around, ColorTree.ptr_leaf, same]
          simp only [↓reduceIte, ran, bind, Except.bind]
      | some value =>
          rw [same] at ran
          simp only [remove, held.entry, NodeLinks.around, ColorTree.ptr_leaf, same]
          simp only [reduceCtorEq, ↓reduceIte, ran, bind, Except.bind]

/-- `RB_REMOVE` of an element with two children, the first of the right subtree taking its
place. -/
theorem remove_two {right : ColorTree ι}
    (held : heap.Held (Path.plug (.make .left c near old right) path) 0)
    (sound : RedBlackTree (Path.plug (.make .left c near old right) path))
    (left : near.ptr.isSome) (there : right.ptr.isSome)
    (enough : (Path.plug (.make .left c near old right) path).height < fuel) : ∃ after whole,
    remove fuel heap old = .ok (after, old) ∧ after.Held whole 0 ∧ RedBlackTree whole ∧
      whole.walk .right = Path.behind .right path ++ (near.walk .right ++ right.walk .right) ++
        Path.ahead .right path := by
  obtain ⟨first, isFirst⟩ := Option.isSome_iff_exists.mp there
  obtain ⟨value, isLeft⟩ := Option.isSome_iff_exists.mp left
  have tall := @Path.height_plug _ (⟨.right, c, old, near⟩ :: path) right
  have wholly : Path.plug right (⟨.right, c, old, near⟩ :: path) =
      Path.plug (.make .left c near old right) path := rfl
  rw [wholly, List.length_cons] at tall
  obtain ⟨inner, d, elm, child, found, rfl, none⟩ :=
    @outermost_held _ _ .left _ _ _ _ fuel held.down_far isFirst (by omega)
  have deep := @Path.height_plug _ inner (.make .left d .leaf elm child)
  have there' := held.down_far
  rw [Side.opp_left, ← Path.plug_append] at there'
  have out := spliceOut_held there'
  have entryElm := there'.entry
  have read := (out.2.congr (add_left_comm _ _ _)).read
  rw [Path.plug_append] at out
  obtain ⟨next, taken, placed⟩ := takePlace_held (LinkHeap.Held.up_far out) left
  have onward := placed.down_far
  rw [Side.opp_left, ← Path.plug_append] at onward
  have parent_eq : (if Path.top (inner ++ ⟨.right, c, old, near⟩ :: path) = some old then some elm
      else Path.top (inner ++ ⟨.right, c, old, near⟩ :: path)) =
        Path.top (inner ++ ⟨.right, c, elm, near⟩ :: path) := by
    cases inner with
    | nil => exact if_pos rfl
    | cons frame inner =>
        refine if_neg fun same => ?_
        cases (Option.some.inj same)
        exact (held.not_mem .right).2 Path.mem_walk_plug
  have sound' : RedBlackTree (Path.plug (.make .left d .leaf elm child)
      (inner ++ ⟨.right, c, elm, near⟩ :: path)) := by
    rw [Path.plug_append]
    exact Path.revalue sound
  have room : (inner ++ (⟨.right, c, elm, near⟩ : Frame ι) :: path).length < fuel := by
    rw [List.length_append, List.length_cons]
    omega
  obtain ⟨after, whole, ran, done, good, walked⟩ := recolor_held onward sound' room
  refine ⟨after, whole, ?_, done, good, ?_⟩
  · have climbed := augment_held onward room.le
    simp only [remove, held.entry, NodeLinks.around, isLeft, isFirst]
    simp only [bind, Except.bind, found, entryElm, NodeLinks.around, read, parent_eq, taken, climbed,
      ran]
  · rw [walked, Path.walk_plug, @Path.walk_plug _ inner, Path.behind_append,
      Path.ahead_append]
    simp only [Side.opp_left] at none
    simp [Path.behind, Path.ahead, ColorTree.make, ColorTree.walk, none]

/-- `RB_REMOVE` of an element of the tree leaves a red-black tree of the others. -/
theorem remove_held (held : heap.Held (Path.plug (.make .left c near old far) path) 0)
    (sound : RedBlackTree (Path.plug (.make .left c near old far) path))
    (enough : (Path.plug (.make .left c near old far) path).height < fuel) : ∃ after whole,
    remove fuel heap old = .ok (after, old) ∧ after.Held whole 0 ∧ RedBlackTree whole ∧
      whole.walk .right = Path.behind .right path ++ (near.walk .right ++ far.walk .right) ++
        Path.ahead .right path := by
  have low := @Path.height_plug _ path (.make .left c near old far)
  cases left : near.ptr with
  | none =>
      cases ColorTree.ptr_none left
      obtain ⟨after, whole, ran, done, good, walked⟩ :=
        @remove_one _ _ _ _ _ _ _ _ fuel held sound (by omega)
      refine ⟨after, whole, ran, done, good, ?_⟩
      rw [walked, Path.walk_plug, ColorTree.walk_leaf, List.nil_append]
  | some value =>
      cases right : far.ptr with
      | none =>
          cases ColorTree.ptr_none right
          rw [← ColorTree.make_opp, Side.opp_left] at held sound
          obtain ⟨after, whole, ran, done, good, walked⟩ :=
            @remove_one _ _ _ _ _ _ _ _ fuel held sound (by omega)
          refine ⟨after, whole, ran, done, good, ?_⟩
          rw [walked, Path.walk_plug, ColorTree.walk_leaf, List.append_nil]
      | some other =>
          exact remove_two held sound (by rw [left]; rfl) (by rw [right]; rfl) enough

end Sbf.SysTree
