import Sbf.SysTreeInsert
import Sbf.SysTreeRemove

set_option autoImplicit false

namespace Sbf.SysTree

open RedBlack

variable {ι κ : Type}

section Macros

variable (cmp : κ → κ → Int) (key : ι → κ) (heap : LinkHeap ι)

/-- The loop of `RB_FIND`. -/
def findFrom (elm : ι) : Nat → Option ι → Except Fault (Option ι)
  | _, none => .ok none
  | 0, some _ => .error .endless
  | fuel + 1, some tmp =>
      let comp := cmp (key elm) (key tmp)
      if comp < 0 then findFrom elm fuel (heap.entry tmp).left
      else if 0 < comp then findFrom elm fuel (heap.entry tmp).right
      else .ok (some tmp)

/-- `RB_FIND` -/
def find (fuel : Nat) (elm : ι) : Except Fault (Option ι) :=
  findFrom cmp key heap elm fuel heap.root

/-- The loop of `RB_NFIND`. -/
def nfindFrom (elm : ι) : Nat → Option ι → Option ι → Except Fault (Option ι)
  | _, res, none => .ok res
  | 0, _, some _ => .error .endless
  | fuel + 1, res, some tmp =>
      let comp := cmp (key elm) (key tmp)
      if comp < 0 then nfindFrom elm fuel (some tmp) (heap.entry tmp).left
      else if 0 < comp then nfindFrom elm fuel res (heap.entry tmp).right
      else .ok (some tmp)

/-- `RB_NFIND` -/
def nfind (fuel : Nat) (elm : ι) : Except Fault (Option ι) :=
  nfindFrom cmp key heap elm fuel none heap.root

/-- The loop of `RB_INSERT`: the element that is equal, or the parent of the place for the new
one and the last comparison. -/
def placeFrom (elm : ι) : Nat → Option ι → Int → Option ι → Except Fault (ι ⊕ Option ι × Int)
  | _, parent, comp, none => .ok (.inr (parent, comp))
  | 0, _, _, some _ => .error .endless
  | fuel + 1, _, _, some tmp =>
      let comp := cmp (key elm) (key tmp)
      if comp < 0 then placeFrom elm fuel (some tmp) comp (heap.entry tmp).left
      else if 0 < comp then placeFrom elm fuel (some tmp) comp (heap.entry tmp).right
      else .ok (.inl tmp)

/-- The loop of `RB_MINMAX` towards a side. -/
def minmaxFrom (side : Side) : Nat → Option ι → Option ι → Except Fault (Option ι)
  | _, parent, none => .ok parent
  | 0, _, some _ => .error .endless
  | fuel + 1, _, some tmp => minmaxFrom side fuel (some tmp) ((heap.entry tmp).child side)

/-- `RB_MINMAX`, to the left for a negative value -/
def minmax (fuel : Nat) (val : Int) : Except Fault (Option ι) :=
  minmaxFrom heap (if val < 0 then .left else .right) fuel none heap.root

end Macros

variable [DecidableEq ι]

/-- The links of a new element, which the parent or the head points to from now on. -/
def attach (heap : LinkHeap ι) (elm : ι) (parent : Option ι) (comp : Int) : LinkHeap ι :=
  let heap := heap.write elm ⟨none, none, parent, .red⟩
  match parent with
  | none => { heap with root := some elm }
  | some parent => heap.setChild parent (if comp < 0 then .left else .right) (some elm)

/-- `RB_INSERT` -/
def insert (cmp : κ → κ → Int) (key : ι → κ) (fuel : Nat) (heap : LinkHeap ι) (elm : ι) :
    Except Fault (LinkHeap ι × Option ι) := do
  match ← placeFrom cmp key heap elm fuel none 0 heap.root with
  | .inl tmp => .ok (heap, some tmp)
  | .inr (parent, comp) => .ok (← insertColor fuel (attach heap elm parent comp) elm, none)

/-- The loop of `RB_NEXT` up to the first parent that the element is not a child of on the
side. -/
def climb (side : Side) (heap : LinkHeap ι) : Nat → ι → Except Fault (Option ι)
  | 0, _ => .error .endless
  | fuel + 1, elm =>
      match (heap.entry elm).parent with
      | none => .ok none
      | some parent =>
          if (heap.entry parent).child side = some elm then climb side heap fuel parent
          else .ok (some parent)

/-- `RB_NEXT` with the sides as a parameter. -/
def step (side : Side) (heap : LinkHeap ι) (fuel : Nat) (elm : ι) : Except Fault (Option ι) :=
  match (heap.entry elm).child side with
  | some child => do
      .ok (some (← outermost side.opp heap fuel child))
  | none =>
      match (heap.entry elm).parent with
      | some parent =>
          if (heap.entry parent).child side.opp = some elm then .ok (some parent)
          else climb side heap fuel elm
      | none => climb side heap fuel elm

/-- `RB_NEXT` -/
def next (heap : LinkHeap ι) (fuel : Nat) (elm : ι) : Except Fault (Option ι) :=
  step .right heap fuel elm

/-- `RB_PREV` -/
def prev (heap : LinkHeap ι) (fuel : Nat) (elm : ι) : Except Fault (Option ι) :=
  step .left heap fuel elm

section Walks

variable {heap : LinkHeap ι} {side : Side} {tree near far : ColorTree ι} {c : Color} {elm : ι}
  {path : Path ι} {beside : Cells ι} {fuel : Nat}

omit [DecidableEq ι] in
/-- `RB_MINMAX` gives what a walk from the side meets first. -/
theorem minmaxFrom_held (held : heap.Held (Path.plug tree path) beside) (parent : Option ι)
    (enough : tree.height ≤ fuel) :
    minmaxFrom heap side fuel parent tree.ptr = .ok ((tree.walk side.opp).head?.or parent) := by
  induction fuel generalizing tree path parent with
  | zero =>
      cases tree with
      | leaf => rfl
      | node => cases enough
  | succ fuel ih =>
      cases here : tree.ptr with
      | none =>
          cases ColorTree.ptr_none here
          rfl
      | some elm =>
          obtain ⟨c, near, far, rfl⟩ := ColorTree.open_ptr side here
          have lower : near.height ≤ fuel := by
            have := @Path.height_plug _ [⟨side, c, elm, far⟩] near
            simp only [List.length_singleton, Path.plug_cons, Path.plug_nil] at this
            omega
          rw [minmaxFrom, held.entry, NodeLinks.child_around, ih held.down (some elm) lower,
            ColorTree.walk_make_opp]
          cases near.walk side.opp <;> rfl

/-- The loop up gives what a walk meets after the tree at the hole. -/
theorem climb_held (held : heap.Held (Path.plug tree path) beside) (here : tree.ptr = some elm)
    (enough : path.length < fuel) :
    climb side heap fuel elm = .ok (Path.ahead side path).head? := by
  induction fuel generalizing tree path elm with
  | zero => exact absurd enough (Nat.not_lt_zero _)
  | succ fuel ih =>
      obtain ⟨c, near, far, rfl⟩ := ColorTree.open_ptr .left here
      rw [climb, held.entry, NodeLinks.parent_around]
      cases path with
      | nil => rfl
      | cons frame path =>
          obtain ⟨inner, d, parent, sibling⟩ := frame
          simp only [List.length_cons] at enough
          simp only [Path.top_cons, held.up.entry, Path.ahead]
          rcases Side.eq_or_eq_opp side inner with rfl | rfl
          · rw [NodeLinks.child_around, if_pos ColorTree.ptr_make, if_pos rfl]
            exact ih held.up ColorTree.ptr_make (by omega)
          · have other : (NodeLinks.around side.opp (ColorTree.make .left c near elm far).ptr sibling.ptr
                (Path.top path) d).child side ≠ some elm := by
              have crossed := @NodeLinks.child_around_opp _ side.opp
                (ColorTree.make .left c near elm far).ptr sibling.ptr (Path.top path) d
              rw [Side.opp_opp] at crossed
              rw [crossed]
              exact fun same => held.up.ptr_ne same ColorTree.ptr_make
            rw [if_neg other, if_neg (Side.opp_ne side)]
            rfl

/-- `RB_NEXT` gives what a walk meets after the element, and `RB_PREV` the same on the other
side. -/
theorem step_held (held : heap.Held (Path.plug (.make side c near elm far) path) beside)
    (enough : (Path.plug (.make side c near elm far) path).height < fuel) :
    step side heap fuel elm = .ok (near.walk side ++ Path.ahead side path).head? := by
  have low := @Path.height_plug _ path (.make side c near elm far)
  rw [step, held.entry, NodeLinks.child_around, NodeLinks.parent_around]
  cases here : near.ptr with
  | some child =>
      have tall := @Path.height_plug _ (⟨side, c, elm, far⟩ :: path) near
      rw [Path.plug_cons, List.length_cons] at tall
      obtain ⟨inner, d, value, far', ran, rfl, none⟩ :=
        @outermost_held _ _ side.opp _ _ _ _ fuel held.down here (by omega)
      rw [Side.opp_opp] at none
      have first := @ColorTree.walk_make_opp _ side.opp d .leaf far' value
      rw [Side.opp_opp, ColorTree.walk_leaf, List.nil_append] at first
      simp only [ran, bind, Except.bind, Path.walk_plug, none, first, List.nil_append,
        List.cons_append, List.head?_cons]
  | none =>
      cases ColorTree.ptr_none here
      rw [ColorTree.walk_leaf, List.nil_append]
      have climbed := @climb_held _ _ _ side _ _ _ _ fuel held ColorTree.ptr_make (by omega)
      cases path with
      | nil => exact climbed
      | cons frame path =>
          obtain ⟨inner, d, parent, sibling⟩ := frame
          rw [climbed, Path.top_cons]
          simp only [held.up.entry]
          split
          · rename_i crossed
            rcases Side.eq_or_eq_opp side inner with rfl | rfl
            · rw [NodeLinks.child_around_opp] at crossed
              exact absurd ColorTree.ptr_make (held.up.ptr_ne crossed)
            · simp [Path.ahead]
          · rfl

/-- The new element is linked to the place of the hole. -/
theorem attach_held {comp : Int} (held : heap.Held (Path.plug .leaf path) 0)
    (fresh : elm ∉ (Path.plug .leaf path).walk .right)
    (told : ∀ frame ∈ path.head?, frame.side = if comp < 0 then .left else .right) :
    (attach heap elm path.top comp).Held (Path.plug (.make .left .red .leaf elm .leaf) path)
      0 := by
  have added := @LinkHeap.Holds.alloc _ _ _ elm _ held.2.mono
    (fun cell inside same => fresh (same ▸ LinkHeap.mem_walk_of_cells inside .right))
    (.around .left none none path.top .red)
  obtain ⟨root, -⟩ := LinkHeap.held_plug.mp held
  rw [Path.cells_plug, ColorTree.ptr_leaf, ColorTree.cells_leaf, add_zero] at added
  refine LinkHeap.held_make.mpr ?_
  simp only [ColorTree.ptr_leaf, ColorTree.cells_leaf, add_zero]
  cases path with
  | nil => exact ⟨rfl, added⟩
  | cons frame path =>
      obtain ⟨side, d, parent, sibling⟩ := frame
      have side_eq : side = if comp < 0 then .left else .right := told _ rfl
      refine ⟨root, ?_⟩
      simp only [Path.cells_cons, Path.top_cons, attach, ← side_eq] at added ⊢
      have linked := (added.congr (by abel : _ = {(parent, .around side none sibling.ptr
        (Path.top path) d)} + ({(elm, .around .left none none (some parent) .red)} +
          (sibling.cells (some parent) + Path.cells (some parent) path)))).setChild (some elm)
      refine linked.congr ?_
      abel

end Walks

section Keys

variable [LinearOrder κ] {cmp : κ → κ → Int} {key : ι → κ} {heap : LinkHeap ι} {tree : ColorTree ι}
  {elm : ι} {path : Path ι} {beside : Cells ι} {fuel : Nat}

/-- The comparison is one of keys in an order. -/
structure Orders (cmp : κ → κ → Int) : Prop where
  lt : ∀ left right, cmp left right < 0 ↔ left < right
  gt : ∀ left right, 0 < cmp left right ↔ right < left

/-- The elements are met in the order of their keys. -/
abbrev InOrder (key : ι → κ) (elms : List ι) : Prop :=
  elms.Pairwise (fun first later => key first < key later)

omit [DecidableEq ι] in
theorem InOrder.split {before after : List ι} (sorted : InOrder key (before ++ elm :: after)) :
    InOrder key before ∧ InOrder key after ∧ (∀ other ∈ before, key other < key elm) ∧
      ∀ other ∈ after, key elm < key other := by
  obtain ⟨sortedBefore, sortedAfter, across⟩ := List.pairwise_append.mp sorted
  obtain ⟨above, sortedAfter⟩ := List.pairwise_cons.mp sortedAfter
  exact ⟨sortedBefore, sortedAfter, fun other inside => across other inside elm
    List.mem_cons_self, above⟩

omit [DecidableEq ι] in
/-- `RB_FIND` finds what a search through the elements one by one finds. -/
theorem findFrom_held (orders : Orders cmp) (held : heap.Held (Path.plug tree path) beside)
    (sorted : InOrder key (tree.walk .right)) (enough : tree.height ≤ fuel) :
    findFrom cmp key heap elm fuel tree.ptr =
      .ok ((tree.walk .right).find? (fun other => key other = key elm)) := by
  induction tree generalizing path fuel with
  | leaf => exact findFrom.eq_1 ..
  | node c left tmp right ihl ihr =>
      cases fuel with
      | zero => cases enough
      | succ fuel =>
          have there : heap.Held (Path.plug (.make .left c left tmp right) path) beside := held
          simp only [ColorTree.height] at enough
          obtain ⟨sortedLeft, sortedRight, before, after⟩ := InOrder.split sorted
          rw [ColorTree.ptr, findFrom, there.entry]
          simp only [orders.lt, orders.gt, NodeLinks.around, ColorTree.walk, List.find?_append]
          rcases lt_trichotomy (key elm) (key tmp) with below | same | beyond
          · have none : (tmp :: right.walk .right).find? (fun other => key other = key elm) =
                none := by
              refine List.find?_eq_none.mpr fun other inside => ?_
              rcases List.mem_cons.mp inside with rfl | inside
              · simpa using below.ne'
              · simpa using (below.trans (after other inside)).ne'
            rw [if_pos below, none, Option.or_none]
            exact ihl there.down sortedLeft (by omega)
          · have none : (left.walk .right).find? (fun other => key other = key elm) = none := by
              refine List.find?_eq_none.mpr fun other inside => ?_
              simpa [same] using (before other inside).ne
            rw [if_neg same.not_lt, if_neg same.not_gt, none, Option.none_or,
              List.find?_cons_of_pos (by simp [same])]
          · have none : (left.walk .right).find? (fun other => key other = key elm) = none := by
              refine List.find?_eq_none.mpr fun other inside => ?_
              simpa using ((before other inside).trans beyond).ne
            rw [if_neg beyond.not_gt, if_pos beyond, none, Option.none_or,
              List.find?_cons_of_neg (by simpa using beyond.ne)]
            exact ihr there.down_far sortedRight (by omega)

omit [DecidableEq ι] in
/-- `RB_NFIND` finds the first element whose key is not smaller. -/
theorem nfindFrom_held (orders : Orders cmp) (held : heap.Held (Path.plug tree path) beside)
    (sorted : InOrder key (tree.walk .right)) (enough : tree.height ≤ fuel) (res : Option ι) :
    nfindFrom cmp key heap elm fuel res tree.ptr =
      .ok (((tree.walk .right).find? (fun other => key elm ≤ key other)).or res) := by
  induction tree generalizing path fuel res with
  | leaf => exact nfindFrom.eq_1 ..
  | node c left tmp right ihl ihr =>
      cases fuel with
      | zero => cases enough
      | succ fuel =>
          have there : heap.Held (Path.plug (.make .left c left tmp right) path) beside := held
          simp only [ColorTree.height] at enough
          obtain ⟨sortedLeft, sortedRight, before, after⟩ := InOrder.split sorted
          rw [ColorTree.ptr, nfindFrom, there.entry]
          simp only [orders.lt, orders.gt, NodeLinks.around, ColorTree.walk, List.find?_append]
          by_cases below : key elm < key tmp
          · rw [if_pos below, ihl there.down sortedLeft (by omega),
              List.find?_cons_of_pos (by simpa using below.le), Option.or_assoc]
            rfl
          · have none : (left.walk .right).find? (fun other => key elm ≤ key other) = none := by
              refine List.find?_eq_none.mpr fun other inside => ?_
              simpa using (before other inside).trans_le (not_lt.mp below)
            rw [if_neg below, none, Option.none_or]
            by_cases beyond : key tmp < key elm
            · rw [if_pos beyond, ihr there.down_far sortedRight (by omega),
                List.find?_cons_of_neg (by simpa using beyond)]
            · rw [if_neg beyond, List.find?_cons_of_pos (by simpa using not_lt.mp beyond)]
              rfl

omit [DecidableEq ι] in
/-- The loop of `RB_INSERT` finds an equal element, or the place between the smaller and the
larger ones. -/
theorem placeFrom_held (orders : Orders cmp) (held : heap.Held (Path.plug tree path) beside)
    (sorted : InOrder key (tree.walk .right)) (enough : tree.height ≤ fuel) (comp : Int)
    (told : ∀ frame ∈ path.head?, frame.side = if comp < 0 then .left else .right) :
    (∃ equal ∈ tree.walk .right, key equal = key elm ∧
      placeFrom cmp key heap elm fuel path.top comp tree.ptr = .ok (.inl equal)) ∨
    ∃ inner comp', placeFrom cmp key heap elm fuel path.top comp tree.ptr =
        .ok (.inr (Path.top (inner ++ path), comp')) ∧
      tree = Path.plug .leaf inner ∧
      (∀ frame ∈ (inner ++ path).head?, frame.side = if comp' < 0 then .left else .right) ∧
      (∀ other ∈ Path.behind .right inner, key other < key elm) ∧
      ∀ other ∈ Path.ahead .right inner, key elm < key other := by
  induction tree generalizing path fuel comp with
  | leaf =>
      refine Or.inr ⟨[], comp, placeFrom.eq_1 .., rfl, told, ?_, ?_⟩
      · exact fun _ inside => absurd inside List.not_mem_nil
      · exact fun _ inside => absurd inside List.not_mem_nil
  | node c left tmp right ihl ihr =>
      cases fuel with
      | zero => cases enough
      | succ fuel =>
          have there : heap.Held (Path.plug (.make .left c left tmp right) path) beside := held
          simp only [ColorTree.height] at enough
          obtain ⟨sortedLeft, sortedRight, before, after⟩ := InOrder.split sorted
          simp only [ColorTree.ptr, placeFrom, there.entry, orders.lt, orders.gt, NodeLinks.around]
          rcases lt_trichotomy (key elm) (key tmp) with below | same | beyond
          · rw [if_pos below]
            have told' : ∀ frame ∈ (⟨.left, c, tmp, right⟩ :: path : Path ι).head?,
                frame.side = if cmp (key elm) (key tmp) < 0 then .left else .right := by
              rintro _ ⟨⟩
              rw [if_pos ((orders.lt _ _).mpr below)]
            rcases @ihl _ fuel there.down sortedLeft (by omega) _ told' with
              ⟨equal, inside, same, ran⟩ | ⟨inner, comp', ran, rfl, told', smaller, larger⟩
            · exact Or.inl ⟨equal, List.mem_append_left _ inside, same, ran⟩
            · refine Or.inr ⟨inner ++ [⟨.left, c, tmp, right⟩], comp', ?_, ?_, ?_, ?_, ?_⟩
              · rw [List.append_assoc]
                exact ran
              · rw [Path.plug_append]
                rfl
              · rw [List.append_assoc]
                exact told'
              · rw [Path.behind_append]
                exact smaller
              · rw [Path.ahead_append]
                simp only [Path.ahead, reduceCtorEq, ↓reduceIte, List.append_nil]
                intro other inside
                rcases List.mem_append.mp inside with inside | inside
                · exact larger other inside
                · rcases List.mem_cons.mp inside with rfl | inside
                  · exact below
                  · exact below.trans (after other inside)
          · rw [if_neg same.not_lt, if_neg same.not_gt]
            exact Or.inl ⟨tmp, List.mem_append_right _ List.mem_cons_self, same.symm, rfl⟩
          · rw [if_neg beyond.not_gt, if_pos beyond]
            have told' : ∀ frame ∈ (⟨.right, c, tmp, left⟩ :: path : Path ι).head?,
                frame.side = if cmp (key elm) (key tmp) < 0 then .left else .right := by
              rintro _ ⟨⟩
              rw [if_neg (fun below => beyond.not_gt ((orders.lt _ _).mp below))]
            rcases @ihr _ fuel there.down_far sortedRight (by omega) _ told' with
              ⟨equal, inside, same, ran⟩ | ⟨inner, comp', ran, rfl, told', smaller, larger⟩
            · exact Or.inl ⟨equal, List.mem_append_right _ (List.mem_cons_of_mem _ inside), same,
                ran⟩
            · refine Or.inr ⟨inner ++ [⟨.right, c, tmp, left⟩], comp', ?_, ?_, ?_, ?_, ?_⟩
              · rw [List.append_assoc]
                exact ran
              · rw [Path.plug_append]
                rfl
              · rw [List.append_assoc]
                exact told'
              · rw [Path.behind_append]
                simp only [Path.behind, ↓reduceIte, List.nil_append]
                intro other inside
                rcases List.mem_append.mp inside with inside | inside
                · rcases List.mem_append.mp inside with inside | inside
                  · exact (before other inside).trans beyond
                  · rw [List.mem_singleton.mp inside]
                    exact beyond
                · exact smaller other inside
              · rw [Path.ahead_append]
                simp only [Path.ahead, ↓reduceIte, List.append_nil]
                exact larger

/-- `RB_INSERT` of an element whose key is in the tree gives the one that is there. -/
theorem insert_held {whole : ColorTree ι} (orders : Orders cmp) (held : heap.Held whole 0)
    (sound : RedBlackTree whole) (sorted : InOrder key (whole.walk .right))
    (enough : whole.height < fuel) :
    (∃ equal ∈ whole.walk .right, key equal = key elm ∧
      insert cmp key fuel heap elm = .ok (heap, some equal)) ∨
    ∃ after whole' before behind, insert cmp key fuel heap elm = .ok (after, none) ∧
      after.Held whole' 0 ∧ RedBlackTree whole' ∧
      whole.walk .right = before ++ behind ∧ whole'.walk .right = before ++ elm :: behind ∧
      (∀ other ∈ before, key other < key elm) ∧ ∀ other ∈ behind, key elm < key other := by
  rcases @placeFrom_held _ _ _ _ _ _ _ _ [] _ fuel orders held sorted enough.le 0
      (fun _ none => by cases none) with
    ⟨equal, inside, same, ran⟩ | ⟨inner, comp, ran, rfl, told, smaller, larger⟩
  · refine Or.inl ⟨equal, inside, same, ?_⟩
    rw [insert, held.1]
    simp only [Path.top_nil] at ran
    simp only [ran, bind, Except.bind]
  · refine Or.inr ?_
    rw [List.append_nil] at ran told
    have walked : (Path.plug .leaf inner).walk .right =
        Path.behind .right inner ++ Path.ahead .right inner := by
      rw [Path.walk_plug, ColorTree.walk_leaf, List.append_nil]
    have fresh : elm ∉ (Path.plug .leaf inner).walk .right := by
      rw [walked, List.mem_append]
      rintro (inside | inside)
      · exact lt_irrefl _ (smaller elm inside)
      · exact lt_irrefl _ (larger elm inside)
    obtain ⟨blacks, around, balanced, -⟩ := Path.balanced_of_plug sound
    cases (balanced : blacks = 0)
    have low := @Path.height_plug _ inner .leaf
    obtain ⟨after, whole', colored, done, good, walked'⟩ := insertColor_held fuel
      ⟨attach_held held fresh told, ColorTree.color_make, 0,
        ColorTree.balanced_red.mpr ⟨rfl, rfl, rfl, rfl⟩, around⟩ ColorTree.ptr_make (by omega)
    refine ⟨after, whole', Path.behind .right inner, Path.ahead .right inner, ?_, done, good,
      walked, ?_, smaller, larger⟩
    · rw [insert, held.1]
      simp only [Path.top_nil] at ran
      simp only [ran, bind, Except.bind, colored]
    · rw [walked', Path.walk_plug]
      simp [ColorTree.make, ColorTree.walk]

end Keys

end Sbf.SysTree
