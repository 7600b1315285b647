import Sbf.SysTree

set_option autoImplicit false

namespace Sbf.SysTree

open RedBlack

variable {ι : Type} [DecidableEq ι]

/-- A red sibling is brought up, after which the parent has a black one. -/
def blackSibling (side : Side) (heap : LinkHeap ι) (parent : ι) :
    Except Fault (LinkHeap ι × ι) := do
  let tmp ← deref ((heap.entry parent).child side.opp)
  if (heap.entry tmp).color = .red then do
    let heap ← rotate side (setBlackRed heap tmp parent) parent
    let tmp ← deref ((heap.entry parent).child side.opp)
    .ok (heap, tmp)
  else .ok (heap, tmp)

/-- A sibling whose outer child is not red gives way to its inner child. -/
def redOuter (side : Side) (heap : LinkHeap ι) (parent tmp : ι) : Except Fault (LinkHeap ι × ι) :=
  if isRed heap ((heap.entry tmp).child side.opp) then .ok (heap, tmp)
  else do
    let heap := (blacken heap ((heap.entry tmp).child side)).setColor tmp .red
    let heap ← rotate side.opp heap tmp
    let tmp ← deref ((heap.entry parent).child side.opp)
    .ok (heap, tmp)

/-- The body of the loop of `RB_REMOVE_COLOR` where the element is the child of `parent` on a
side: the memory, and whether the loop is left with the root as its element. -/
def removeColorSide (side : Side) (heap : LinkHeap ι) (parent : ι) :
    Except Fault (LinkHeap ι × Bool) := do
  let (heap, tmp) ← blackSibling side heap parent
  if !isRed heap (heap.entry tmp).left && !isRed heap (heap.entry tmp).right then
    .ok (heap.setColor tmp .red, false)
  else do
    let (heap, tmp) ← redOuter side heap parent tmp
    let heap := (heap.setColor tmp (heap.entry parent).color).setColor parent .black
    let heap := blacken heap ((heap.entry tmp).child side.opp)
    .ok (← rotate side heap parent, true)

/-- `RB_REMOVE_COLOR` -/
def removeColor : Nat → LinkHeap ι → Option ι → Option ι → Except Fault (LinkHeap ι)
  | 0, _, _, _ => .error .endless
  | fuel + 1, heap, parent, elm =>
      if isRed heap elm = false ∧ elm ≠ heap.root then do
        let parent ← deref parent
        let (heap, left) ← removeColorSide (sideOf heap parent elm) heap parent
        if left then .ok (blacken heap heap.root)
        else removeColor fuel heap (heap.entry parent).parent (some parent)
      else .ok (blacken heap elm)

variable {heap : LinkHeap ι} {side : Side} {tree near far sibling : ColorTree ι} {c : Color}
  {parent tmp : ι} {path : Path ι} {beside : Cells ι} {blacks : Nat}

theorem blackSibling_black
    (held : heap.Held (Path.plug (.make side c tree parent (.make side .black near tmp far)) path)
      beside) : blackSibling side heap parent = .ok (heap, tmp) := by
  rw [blackSibling, held.entry, NodeLinks.child_around_opp, ColorTree.ptr_make]
  simp only [deref, bind, Except.bind, held.down_far.entry, NodeLinks.color_around, reduceCtorEq,
    ↓reduceIte]

theorem blackSibling_red {a b : ColorTree ι} {value : ι}
    (held : heap.Held (Path.plug (.make side .black tree parent
      (.make side .red (.make side c a value b) tmp far)) path) beside) : ∃ after,
    blackSibling side heap parent = .ok (after, value) ∧
      after.Held (Path.plug (.make side .black
        (.make side .red tree parent (.make side c a value b)) tmp far) path) beside := by
  have black := (held.down_far.paint .black).up_far
  obtain ⟨after, ran, turned⟩ := rotate_held (black.paint .red)
  refine ⟨after, ?_, turned⟩
  rw [blackSibling, held.entry, NodeLinks.child_around_opp, ColorTree.ptr_make]
  simp only [deref, bind, Except.bind, held.down_far.entry, NodeLinks.color_around, ↓reduceIte,
    setBlackRed, ran, turned.down.entry, NodeLinks.child_around_opp, ColorTree.ptr_make]

theorem redOuter_red
    (held : heap.Held (Path.plug (.make side c tree parent (.make side .black near tmp far)) path)
      beside) (red : far.color = .red) : redOuter side heap parent tmp = .ok (heap, tmp) := by
  rw [redOuter, held.down_far.entry, NodeLinks.child_around_opp, isRed_held held.down_far.down_far, red]
  rfl

theorem redOuter_black {a b : ColorTree ι} {value : ι}
    (held : heap.Held (Path.plug (.make side c tree parent
      (.make side .black (.make side .red a value b) tmp far)) path) beside)
    (black : far.color = .black) : ∃ after,
    redOuter side heap parent tmp = .ok (after, value) ∧
      after.Held (Path.plug (.make side c tree parent
        (.make side .black a value (.make side .red b tmp far))) path) beside := by
  have outer : isRed heap far.ptr = false := by
    rw [isRed_held held.down_far.down_far, black]
    rfl
  have one := (blacken_held held.down_far.down).up
  rw [ColorTree.paint_make, ColorTree.ptr_make] at one
  have two := one.paint .red
  rw [← ColorTree.make_opp side .red, ← ColorTree.make_opp side .black] at two
  obtain ⟨after, ran, turned⟩ := rotate_held two
  rw [ColorTree.make_opp, ColorTree.make_opp] at turned
  have done := turned.up_far
  refine ⟨after, ?_, done⟩
  rw [redOuter, held.down_far.entry, NodeLinks.child_around_opp, outer]
  simp only [Bool.false_eq_true, ↓reduceIte, NodeLinks.child_around, ColorTree.ptr_make, bind,
    Except.bind, ran, deref, done.entry, NodeLinks.child_around_opp]

/-- With a red outer child the sibling takes the place and the colour of the parent. -/
theorem raise_held
    (held : heap.Held (Path.plug (.make side c tree parent (.make side .black near tmp far)) path)
      beside) : ∃ after,
    rotate side (blacken ((heap.setColor tmp (heap.entry parent).color).setColor parent .black)
      far.ptr) parent = .ok after ∧
      after.Held (Path.plug (.make side c (.make side .black tree parent near) tmp
        (far.paint .black)) path) beside := by
  rw [held.entry, NodeLinks.color_around]
  have one := (held.down_far.paint c).up_far
  have two := one.paint .black
  have three := (blacken_held two.down_far.down_far).up_far.up_far
  exact rotate_held three

/-- What the loop of `RB_REMOVE_COLOR` starts each round with: below the hole there is one black
node too few, which blackening the element makes good if it is red. -/
structure Lacking (heap : LinkHeap ι) (tree : ColorTree ι) (path : Path ι) (beside : Cells ι) :
    Prop where
  held : heap.Held (Path.plug tree path) beside
  short : ∃ blacks, path.Balanced (blacks + 1) ∧
    (tree.color = .black ∧ tree.Balanced blacks ∨
      tree.color = .red ∧ (tree.paint .black).Balanced (blacks + 1))

/-- Below a parent with a lack on one side, the other side has a sibling. -/
theorem blackSibling_held
    (held : heap.Held (Path.plug (.make side c tree parent sibling) path) beside)
    (around : Path.Balanced (⟨side, c, parent, sibling⟩ :: path) (blacks + 1)) :
    ∃ after d near tmp far path', blackSibling side heap parent = .ok (after, tmp) ∧
      after.Held (Path.plug (.make side d tree parent (.make side .black near tmp far)) path')
        beside ∧
      Path.Balanced (⟨side, d, parent, .make side .black near tmp far⟩ :: path') (blacks + 1) ∧
      (d = .black → path'.length ≤ path.length) ∧
      (Path.plug (.make side d tree parent (.make side .black near tmp far)) path').walk .right =
        (Path.plug (.make side c tree parent sibling) path).walk .right := by
  obtain ⟨d, near, tmp, far, rfl⟩ := around.1.open_succ side
  cases d with
  | black =>
      exact ⟨heap, c, near, tmp, far, path, blackSibling_black held, held, around,
        fun _ => le_rfl, rfl⟩
  | red =>
      cases c with
      | red => cases (Path.balanced_red.mp around).2.1.symm.trans ColorTree.color_make
      | black =>
          obtain ⟨balanced, above⟩ := Path.balanced_black.mp around
          obtain ⟨blackNear, blackFar, balancedNear, balancedFar⟩ :=
            ColorTree.balanced_red.mp balanced
          obtain ⟨d, a, value, b, rfl⟩ := balancedNear.open_succ side
          cases (ColorTree.color_make.symm.trans blackNear)
          obtain ⟨after, ran, turned⟩ := blackSibling_red held
          refine ⟨after, .red, a, value, b, ⟨side, .black, tmp, far⟩ :: path, ran, turned,
            Path.balanced_red.mpr ⟨balancedNear, ColorTree.color_make, rfl,
              Path.balanced_black.mpr ⟨balancedFar, above⟩⟩,
            fun black => Color.noConfusion black, ?_⟩
          rw [Path.plug_cons]
          refine Path.walk_plug_congr ?_
          cases side <;> simp [ColorTree.make, ColorTree.walk]

omit [DecidableEq ι] in
theorem noneRed_held (held : heap.Held (Path.plug (.make side c near tmp far) path) beside) :
    (!isRed heap (heap.entry tmp).left && !isRed heap (heap.entry tmp).right) =
      (near.color = .black ∧ far.color = .black : Bool) := by
  have nearRed := isRed_held held.down
  have farRed := isRed_held held.down_far
  rw [held.entry]
  cases side with
  | left =>
      simp only [NodeLinks.around, nearRed, farRed]
      cases near.color <;> cases far.color <;> rfl
  | right =>
      simp only [NodeLinks.around, nearRed, farRed]
      cases near.color <;> cases far.color <;> rfl

/-- A round either moves the lack up to the parent or ends with a red-black tree. -/
theorem removeColorSide_held
    (held : heap.Held (Path.plug tree (⟨side, c, parent, sibling⟩ :: path)) beside)
    (balanced : tree.Balanced blacks)
    (around : Path.Balanced (⟨side, c, parent, sibling⟩ :: path) (blacks + 1)) :
    (∃ after whole, removeColorSide side heap parent = .ok (after, true) ∧
      after.Held whole beside ∧ RedBlackTree whole ∧
      whole.walk .right = (Path.plug tree (⟨side, c, parent, sibling⟩ :: path)).walk .right) ∨
    ∃ after tree' path', removeColorSide side heap parent = .ok (after, false) ∧
      Lacking after tree' path' beside ∧ tree'.ptr = some parent ∧
      (tree'.color = .black → path'.length ≤ path.length) ∧
      (Path.plug tree' path').walk .right =
        (Path.plug tree (⟨side, c, parent, sibling⟩ :: path)).walk .right := by
  obtain ⟨one, d, near, tmp, far, path', first, held₁, around₁, shorter, walked₁⟩ :=
    blackSibling_held held.up around
  rw [Path.plug_cons, ← walked₁]
  have inside : near.Balanced blacks ∧ far.Balanced blacks := ColorTree.balanced_black.mp around₁.1
  have tested := noneRed_held held₁.down_far
  by_cases none : near.color = .black ∧ far.color = .black
  · refine Or.inr ⟨one.setColor tmp .red, .make side d tree parent (.make side .red near tmp far),
      path', ?_, ⟨(held₁.down_far.paint .red).up_far, ?_⟩, ColorTree.ptr_make, ?_, ?_⟩
    · rw [removeColorSide, first]
      simp only [bind, Except.bind, tested, none, and_self, decide_true, ↓reduceIte]
    · have redSibling : (ColorTree.make side .red near tmp far).Balanced blacks :=
        ColorTree.balanced_red.mpr ⟨none.1, none.2, inside⟩
      have blackened : (ColorTree.make side .black tree parent
          (.make side .red near tmp far)).Balanced (blacks + 1) :=
        ColorTree.balanced_black.mpr ⟨balanced, redSibling⟩
      cases d with
      | black =>
          exact ⟨blacks + 1, (Path.balanced_black.mp around₁).2,
            Or.inl ⟨ColorTree.color_make, blackened⟩⟩
      | red =>
          refine ⟨blacks, (Path.balanced_red.mp around₁).2.2.2,
            Or.inr ⟨ColorTree.color_make, ?_⟩⟩
          rwa [ColorTree.paint_make]
    · intro isBlack
      rw [ColorTree.color_make] at isBlack
      exact shorter isBlack
    · refine Path.walk_plug_congr ?_
      cases side <;> simp [ColorTree.make, ColorTree.walk]
  · refine Or.inl ?_
    -- the inner child comes up first where the outer one is not red
    obtain ⟨two, near', tmp', far', second, held₂, red, balanced₂, walked₂⟩ :
        ∃ two near' tmp' far', redOuter side one parent tmp = .ok (two, tmp') ∧
          two.Held (Path.plug (.make side d tree parent (.make side .black near' tmp' far')) path')
            beside ∧ far'.color = .red ∧ (near'.Balanced blacks ∧ far'.Balanced blacks) ∧
          (ColorTree.make side .black near' tmp' far').walk .right =
            (ColorTree.make side .black near tmp far).walk .right := by
      cases colored : far.color with
      | red => exact ⟨one, near, tmp, far, redOuter_red held₁ colored, held₁, colored, inside, rfl⟩
      | black =>
          have redNear : near.color = .red := by
            cases same : near.color with
            | red => rfl
            | black => exact absurd ⟨same, colored⟩ none
          obtain ⟨a, value, b, rfl⟩ := ColorTree.open_red side redNear
          obtain ⟨-, blackInner, balancedOuter, balancedInner⟩ := ColorTree.balanced_red.mp inside.1
          obtain ⟨two, second, held₂⟩ := redOuter_black held₁ colored
          refine ⟨two, a, value, .make side .red b tmp far, second, held₂, ColorTree.color_make,
            ⟨balancedOuter, ColorTree.balanced_red.mpr ⟨blackInner, colored, balancedInner,
              inside.2⟩⟩, ?_⟩
          cases side <;> simp [ColorTree.make, ColorTree.walk]
    obtain ⟨after, third, done⟩ := raise_held held₂
    refine ⟨after, _, ?_, done, ?_, ?_⟩
    · have target : ((two.setColor tmp' (two.entry parent).color).setColor parent
          .black).entry tmp' = .around side near'.ptr far'.ptr (some parent) d := by
        rw [held₂.entry, NodeLinks.color_around]
        exact LinkHeap.Held.entry ((held₂.down_far.paint d).up_far.paint .black).down_far
      rw [removeColorSide, first]
      simp only [bind, Except.bind, tested, none, decide_false, Bool.false_eq_true, ↓reduceIte,
        second, target, NodeLinks.child_around_opp, third]
    · have blackNear : (ColorTree.make side .black tree parent near').Balanced (blacks + 1) :=
        ColorTree.balanced_black.mpr ⟨balanced, balanced₂.1⟩
      have blackFar := balanced₂.2.blacken_red red
      cases d with
      | black =>
          exact (Path.balanced_black.mp around₁).2.plug
            (ColorTree.balanced_black.mpr ⟨blackNear, blackFar⟩)
            (fun isRed => Color.noConfusion (ColorTree.color_make.symm.trans isRed))
      | red =>
          obtain ⟨-, -, takes, above⟩ := Path.balanced_red.mp around₁
          exact above.plug (ColorTree.balanced_red.mpr
            ⟨ColorTree.color_make, ColorTree.color_paint_black, blackNear, blackFar⟩) (fun _ => takes)
    · have turned : (ColorTree.make side d (.make side .black tree parent near') tmp'
          (far'.paint .black)).walk .right =
            (ColorTree.make side d tree parent (.make side .black near' tmp' far')).walk .right := by
        cases side <;> simp [ColorTree.make, ColorTree.walk]
      have moved := @Path.walk_plug_congr _ (⟨side.opp, d, parent, tree⟩ :: path') _ _ _ walked₂
      rw [← Path.plug_far, ← Path.plug_far] at moved
      exact (Path.walk_plug_congr turned).trans moved

omit [DecidableEq ι] in
/-- An element below another is not the root. -/
theorem ne_root_of_held {frame : Frame ι}
    (held : heap.Held (Path.plug tree (frame :: path)) beside) : tree.ptr ≠ heap.root := by
  obtain ⟨root, isRoot⟩ := Option.isSome_iff_exists.mp
    (@Path.isSome_root _ path frame.value)
  rw [held.1, Path.ptr_plug]
  change tree.ptr ≠ path.root (some frame.value)
  rw [isRoot]
  intro same
  obtain ⟨c, near, far, rfl⟩ := ColorTree.open_ptr .left same
  -- the root has no parent
  have whole : (Path.plug (.make .left c near root far) (frame :: path)).ptr = some root := by
    rw [Path.ptr_plug]
    exact isRoot
  obtain ⟨d, near', far', top⟩ := ColorTree.open_ptr .left whole
  have above := held.entry
  rw [top] at held
  have alone := @LinkHeap.Held.entry _ _ _ _ _ _ _ [] _ held
  rw [above] at alone
  exact Option.some_ne_none frame.value (NodeLinks.mk.inj alone).2.2.1

/-- `RB_REMOVE_COLOR` ends with a red-black tree of the same elements in the same order, in a
number of rounds that the way to the root bounds. -/
theorem removeColor_held (fuel : Nat) (lacking : Lacking heap tree path beside)
    (started : 0 < fuel) (enough : tree.color = .black → path.length < fuel) : ∃ after whole,
    removeColor fuel heap path.top tree.ptr = .ok after ∧ after.Held whole beside ∧
      RedBlackTree whole ∧ whole.walk .right = (Path.plug tree path).walk .right := by
  induction fuel generalizing heap tree path with
  | zero => exact absurd started (Nat.lt_irrefl _)
  | succ fuel ih =>
      obtain ⟨held, blacks, around, ⟨black, balanced⟩ | ⟨red, balanced⟩⟩ := lacking
      · have notRed : isRed heap tree.ptr = false := by
          rw [isRed_held held, black]
          rfl
        cases path with
        | nil =>
            refine ⟨_, _, ?_, blacken_held held, ?_, ColorTree.walk_paint _⟩
            · rw [removeColor, if_neg]
              exact fun below => below.2 held.1.symm
            · rw [ColorTree.paint_of_black black]
              exact ⟨black, blacks, balanced⟩
        | cons frame path =>
            obtain ⟨side, c, parent, sibling⟩ := frame
            have found : sideOf heap parent tree.ptr = side := by
              obtain ⟨d, near, value, far, rfl⟩ := around.1.open_succ side
              exact sideOf_held held.up (Or.inr (by rw [ColorTree.ptr_make]; rfl))
            have tested : isRed heap tree.ptr = false ∧ tree.ptr ≠ heap.root :=
              ⟨notRed, ne_root_of_held held⟩
            rcases removeColorSide_held held balanced around with
              ⟨after, whole, ran, done, sound, walked⟩ |
              ⟨next, tree', path', ran, onward, here, shorter, walked⟩
            · refine ⟨_, _, ?_, @blacken_held _ _ _ _ [] _ done, ?_, ?_⟩
              · rw [removeColor, if_pos tested]
                simp only [Path.top_cons, deref, bind, Except.bind, found, ran, ↓reduceIte,
                  done.1]
              · rwa [ColorTree.paint_of_black sound.1]
              · rw [Path.plug_nil, ColorTree.walk_paint, walked]
            · have room := enough black
              simp only [List.length_cons] at room
              obtain ⟨after, whole, rest, done, sound, walked'⟩ := ih onward (by omega)
                (fun isBlack => by
                  have := shorter isBlack
                  omega)
              have above : (next.entry parent).parent = path'.top := by
                have there := onward.held
                obtain ⟨d, near, far, rfl⟩ := ColorTree.open_ptr .left here
                rw [there.entry, NodeLinks.parent_around]
              refine ⟨after, whole, ?_, done, sound, walked'.trans walked⟩
              rw [removeColor, if_pos tested]
              simp only [Path.top_cons, deref, bind, Except.bind, found, ran, above,
                Bool.false_eq_true, ↓reduceIte]
              rw [← here]
              exact rest
      · refine ⟨_, _, ?_, blacken_held held, ?_, ?_⟩
        · rw [removeColor, if_neg]
          intro below
          rw [isRed_held held, red] at below
          cases below.1
        · exact around.plug balanced (fun isRed =>
            Color.noConfusion (ColorTree.color_paint_black.symm.trans isRed))
        · exact Path.walk_plug_congr (ColorTree.walk_paint _)

end Sbf.SysTree
