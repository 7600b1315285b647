import Sbf.SysTree

set_option autoImplicit false

namespace Sbf.SysTree

open RedBlack

variable {ι : Type} [DecidableEq ι]

/-- The body of the loop of `RB_INSERT_COLOR` where the parent is the child of `gparent` on a
side: the memory, and the element to go on with. -/
def insertColorSide (side : Side) (heap : LinkHeap ι) (elm parent gparent : ι) :
    Except Fault (LinkHeap ι × ι) :=
  let tmp := (heap.entry gparent).child side.opp
  if isRed heap tmp then
    .ok (setBlackRed (blacken heap tmp) parent gparent, gparent)
  else do
    let (heap, parent, elm) ←
      if (heap.entry parent).child side.opp = some elm then do
        let heap ← rotate side heap parent
        pure (heap, elm, parent)
      else pure (heap, parent, elm)
    let heap ← rotate side.opp (setBlackRed heap parent gparent) gparent
    pure (heap, elm)

/-- `RB_INSERT_COLOR` -/
def insertColor : Nat → LinkHeap ι → ι → Except Fault (LinkHeap ι)
  | 0, _, _ => .error .endless
  | fuel + 1, heap, elm =>
      match (heap.entry elm).parent with
      | some parent =>
          if (heap.entry parent).color = .red then do
            let gparent ← deref (heap.entry parent).parent
            let side := sideOf heap gparent (some parent)
            let (heap, elm) ← insertColorSide side heap elm parent gparent
            insertColor fuel heap elm
          else return heap.setColor (← deref heap.root) .black
      | none => return heap.setColor (← deref heap.root) .black

variable {heap : LinkHeap ι} {side inner : Side} {tree near far sibling uncle : ColorTree ι}
  {elm parent gparent : ι} {path : Path ι} {beside : Cells ι} {blacks : Nat}

/-- A red uncle: the two above become black, and the one over them red. -/
theorem insertColorSide_red
    (held : heap.Held (Path.plug (.make side .black
      (.make inner .red tree parent sibling) gparent uncle) path) beside)
    (red : uncle.color = .red) : ∃ after,
    insertColorSide side heap elm parent gparent = .ok (after, gparent) ∧
      after.Held (Path.plug (.make side .red (.make inner .black tree parent sibling) gparent
        (uncle.paint .black)) path) beside := by
  have isRed : isRed heap uncle.ptr = true := by
    rw [isRed_held held.down_far, red]
    rfl
  have one := (blacken_held held.down_far).up_far
  have two := (one.down.paint .black).up
  refine ⟨_, ?_, two.paint .red⟩
  rw [insertColorSide, held.entry, NodeLinks.child_around_opp]
  exact if_pos isRed

/-- The parent changes colours with the one above it and comes up. -/
theorem lift_held
    (held : heap.Held (Path.plug (.make side .black
      (.make side .red tree parent sibling) gparent uncle) path) beside) : ∃ after,
    rotate side.opp (setBlackRed heap parent gparent) gparent = .ok after ∧
      after.Held (Path.plug (.make side .black tree parent
        (.make side .red sibling gparent uncle)) path) beside := by
  have black := (held.down.paint .black).up
  have red := black.paint .red
  rw [← ColorTree.make_opp side .red, ← ColorTree.make_opp side .black] at red
  obtain ⟨after, ran, lifted⟩ := rotate_held red
  rw [ColorTree.make_opp, ColorTree.make_opp] at lifted
  exact ⟨after, ran, lifted⟩

/-- The element on the outer side: one rotation brings the parent up. -/
theorem insertColorSide_outer
    (held : heap.Held (Path.plug (.make side .black
      (.make side .red tree parent sibling) gparent uncle) path) beside)
    (black : uncle.color = .black) (here : tree.ptr = some elm) : ∃ after,
    insertColorSide side heap elm parent gparent = .ok (after, elm) ∧
      after.Held (Path.plug (.make side .black tree parent
        (.make side .red sibling gparent uncle)) path) beside := by
  have notRed : isRed heap uncle.ptr = false := by
    rw [isRed_held held.down_far, black]
    rfl
  obtain ⟨after, ran, lifted⟩ := lift_held held
  have outer : (heap.entry parent).child side.opp ≠ some elm := by
    rw [held.down.entry, NodeLinks.child_around_opp]
    exact fun same => held.down.ptr_ne same here
  refine ⟨after, ?_, lifted⟩
  simp only [insertColorSide, held.entry, NodeLinks.child_around_opp, notRed, Bool.false_eq_true,
    ↓reduceIte, outer, pure, Except.pure, bind, Except.bind, ran]

/-- The element on the inner side: it is brought up in two rotations. -/
theorem insertColorSide_inner
    (held : heap.Held (Path.plug (.make side .black
      (.make side .red sibling parent (.make side .red near elm far)) gparent uncle) path) beside)
    (black : uncle.color = .black) : ∃ after,
    insertColorSide side heap elm parent gparent = .ok (after, parent) ∧
      after.Held (Path.plug (.make side .black (.make side .red sibling parent near) elm
        (.make side .red far gparent uncle)) path) beside := by
  have notRed : isRed heap uncle.ptr = false := by
    rw [isRed_held held.down_far, black]
    rfl
  have inner : (heap.entry parent).child side.opp = some elm := by
    rw [held.down.entry, NodeLinks.child_around_opp, ColorTree.ptr_make]
  obtain ⟨one, first, turned⟩ := rotate_held held.down
  obtain ⟨after, second, lifted⟩ := lift_held turned.up
  refine ⟨after, ?_, lifted⟩
  simp only [insertColorSide, held.entry, NodeLinks.child_around_opp, notRed, Bool.false_eq_true,
    ↓reduceIte, inner, pure, Except.pure, bind, Except.bind, first, second]

/-- What the loop of `RB_INSERT_COLOR` starts each round with: the only fault the tree may
have is that the red node at the hole is under a red one. -/
structure Reddened (heap : LinkHeap ι) (tree : ColorTree ι) (path : Path ι) (beside : Cells ι) :
    Prop where
  held : heap.Held (Path.plug tree path) beside
  red : tree.color = .red
  balanced : ∃ blacks, tree.Balanced blacks ∧ path.Balanced blacks

/-- A round with a red parent leaves a shorter way to the root, or nothing more to do. -/
theorem insertColorSide_held {frame upper : Frame ι}
    (reddened : Reddened heap tree (frame :: upper :: path) beside)
    (red : frame.color = .red) (here : tree.ptr = some elm) : ∃ after elm' tree' path',
    insertColorSide upper.side heap elm frame.value upper.value = .ok (after, elm') ∧
      Reddened after tree' path' beside ∧ tree'.ptr = some elm' ∧
      path'.length ≤ path.length + 1 ∧
      (Path.plug tree' path').walk .right =
        (Path.plug tree (frame :: upper :: path)).walk .right := by
  obtain ⟨inner, c, parent, sibling⟩ := frame
  obtain ⟨side, d, gparent, uncle⟩ := upper
  cases (red : c = .red)
  obtain ⟨held, redTree, blacks, balanced, around⟩ := reddened
  obtain ⟨balancedSibling, blackSibling, takes, above⟩ := Path.balanced_red.mp around
  cases (takes : d = .black)
  obtain ⟨balancedUncle, upon⟩ := Path.balanced_black.mp above
  cases colored : uncle.color with
  | red =>
      obtain ⟨after, ran, held⟩ := @insertColorSide_red _ _ _ _ _ _ _ _ elm _ _ _ _ held colored
      have balanced' : (ColorTree.make side .red (.make inner .black tree parent sibling) gparent
          (uncle.paint .black)).Balanced (blacks + 1) :=
        ColorTree.balanced_red.mpr ⟨ColorTree.color_make, ColorTree.color_paint_black,
          ColorTree.balanced_black.mpr ⟨balanced, balancedSibling⟩,
          balancedUncle.blacken_red colored⟩
      refine ⟨after, gparent, _, path, ran, ⟨held, ColorTree.color_make, _, balanced', upon⟩,
        ColorTree.ptr_make, Nat.le_succ _, Path.walk_plug_congr ?_⟩
      cases side <;> cases inner <;> simp [ColorTree.make, ColorTree.walk]
  | black =>
      rcases Side.eq_or_eq_opp side inner with rfl | rfl
      · obtain ⟨after, ran, held⟩ := insertColorSide_outer held colored here
        have under : (ColorTree.make inner .red sibling gparent uncle).Balanced blacks :=
          ColorTree.balanced_red.mpr ⟨blackSibling, colored, balancedSibling, balancedUncle⟩
        refine ⟨after, elm, tree,
          ⟨inner, .black, parent, .make inner .red sibling gparent uncle⟩ :: path, ran,
          ⟨held, redTree, blacks, balanced, Path.balanced_black.mpr ⟨under, upon⟩⟩, here,
          Nat.le_refl _, ?_⟩
        rw [Path.plug_cons, Path.plug_cons, Path.plug_cons]
        refine Path.walk_plug_congr ?_
        cases inner <;> simp [ColorTree.make, ColorTree.walk]
      · obtain ⟨near, value, far, rfl⟩ := ColorTree.open_red side redTree
        cases (ColorTree.ptr_make.symm.trans here)
        obtain ⟨blackNear, blackFar, balancedNear, balancedFar⟩ :=
          ColorTree.balanced_red.mp balanced
        rw [Path.plug_cons, Path.plug_cons, ColorTree.make_opp] at held
        obtain ⟨after, ran, held⟩ := insertColorSide_inner held colored
        have under : (ColorTree.make side .red far gparent uncle).Balanced blacks :=
          ColorTree.balanced_red.mpr ⟨blackFar, colored, balancedFar, balancedUncle⟩
        have balanced' : (ColorTree.make side .red sibling parent near).Balanced blacks :=
          ColorTree.balanced_red.mpr ⟨blackSibling, blackNear, balancedSibling, balancedNear⟩
        refine ⟨after, parent, .make side .red sibling parent near,
          ⟨side, .black, elm, .make side .red far gparent uncle⟩ :: path, ran,
          ⟨held, ColorTree.color_make, blacks, balanced', Path.balanced_black.mpr ⟨under, upon⟩⟩,
          ColorTree.ptr_make, Nat.le_refl _, ?_⟩
        rw [Path.plug_cons, Path.plug_cons, Path.plug_cons]
        refine Path.walk_plug_congr ?_
        cases side <;> simp [ColorTree.make, ColorTree.walk]

/-- The root is made black at the end, which it is already unless the hole is the root. -/
theorem blacken_root {whole : ColorTree ι} (held : heap.Held whole beside) (here : whole.ptr.isSome) :
    ∃ after,
      (return heap.setColor (← deref heap.root) .black : Except Fault (LinkHeap ι)) = .ok after ∧
      after.Held (whole.paint .black) beside := by
  obtain ⟨root, isRoot⟩ := Option.isSome_iff_exists.mp here
  refine ⟨blacken heap whole.ptr, ?_, @blacken_held _ _ _ _ [] _ held⟩
  rw [held.1, isRoot]
  rfl

/-- `RB_INSERT_COLOR` ends with a red-black tree of the same elements in the same order, in a
number of rounds that the way to the root bounds. -/
theorem insertColor_held (fuel : Nat) (reddened : Reddened heap tree path beside)
    (here : tree.ptr = some elm) (enough : path.length < fuel) : ∃ after whole,
    insertColor fuel heap elm = .ok after ∧ after.Held whole beside ∧ RedBlackTree whole ∧
      whole.walk .right = (Path.plug tree path).walk .right := by
  induction fuel generalizing heap elm tree path with
  | zero => exact absurd enough (Nat.not_lt_zero _)
  | succ fuel ih =>
      obtain ⟨held, red, blacks, balanced, around⟩ := reddened
      have above : (heap.entry elm).parent = path.top := by
        obtain ⟨c, near, far, rfl⟩ := ColorTree.open_ptr .left here
        rw [held.entry, NodeLinks.parent_around]
      cases path with
      | nil =>
          obtain ⟨after, ran, done⟩ := blacken_root held (by rw [Path.plug_nil, here]; rfl)
          refine ⟨after, _, ?_, done, ⟨ColorTree.color_paint_black, balanced.blacken⟩,
            ColorTree.walk_paint _⟩
          rw [insertColor, above]
          exact ran
      | cons frame path =>
          obtain ⟨inner, c, parent, sibling⟩ := frame
          have entryParent := held.up.entry
          cases c with
          | black =>
              have sound := around.plug balanced (fun _ => rfl)
              obtain ⟨after, ran, done⟩ := blacken_root held (by
                rw [Path.ptr_plug, here]
                exact Path.isSome_root)
              rw [ColorTree.paint_of_black sound.1] at done
              refine ⟨after, _, ?_, done, sound, rfl⟩
              rw [insertColor, above]
              simp only [Path.top_cons, entryParent, NodeLinks.color_around, reduceCtorEq, ↓reduceIte]
              exact ran
          | red =>
              obtain ⟨side, gparent, uncle, path, rfl⟩ := (Path.balanced_red.mp around).2.2.1.black
              have side_eq : sideOf heap gparent (some parent) = side := by
                have found := sideOf_held held.up.up
                  (Or.inl (by rw [ColorTree.ptr_make]; rfl))
                rwa [ColorTree.ptr_make] at found
              obtain ⟨next, elm', tree', path', ran, onward, there, shorter, same⟩ :=
                insertColorSide_held ⟨held, red, blacks, balanced, around⟩ rfl here
              simp only [List.length_cons] at enough
              obtain ⟨after, whole, rest, done, sound, walked⟩ := ih onward there (by omega)
              refine ⟨after, whole, ?_, done, sound, walked.trans same⟩
              rw [insertColor, above]
              simp only [Path.top_cons, entryParent, NodeLinks.color_around, NodeLinks.parent_around,
                deref, side_eq, ↓reduceIte, bind, Except.bind, ran, rest]

end Sbf.SysTree
