import Mathlib.Data.List.Basic

set_option autoImplicit false

/-! Tail queues as duplicate-free lists: the successor of an element, and the
round trip of a loop that starts at one element, wraps at the end of the list
and stops when it is back at its start. -/
namespace Tailq

variable {α : Type} [DecidableEq α]

/-- The element behind `x`, if `x` is on the list and not its last element. -/
def next (l : List α) (x : α) : Option α :=
  (l.dropWhile (· ≠ x)).tail.head?

/-- The successor of `x` when the list is read as a ring. -/
def nextAround (l : List α) (x : α) : Option α :=
  match next l x with
  | some y => some y
  | none => l.head?

/-- The elements a `do … while (x != start)` loop visits from `x` on, or nothing
when the fuel runs out first. -/
def cycle (l : List α) (start : α) : Nat → α → Option (List α)
  | 0, _ => none
  | fuel + 1, x =>
      match nextAround l x with
      | none => none
      | some y => if y = start then some [x] else (cycle l start fuel y).map (x :: ·)

theorem dropWhile_to (front back : List α) (x : α) (fresh : x ∉ front) :
    (front ++ x :: back).dropWhile (· ≠ x) = x :: back := by
  induction front with
  | nil => simp
  | cons y front ih =>
      simp only [List.mem_cons, not_or] at fresh
      have other : y ≠ x := fun same => fresh.1 same.symm
      simpa [List.dropWhile_cons, other] using ih fresh.2

theorem next_split (front back : List α) (x : α) (fresh : x ∉ front) :
    next (front ++ x :: back) x = back.head? := by
  simp only [next, dropWhile_to front back x fresh, List.tail_cons]

theorem next_mem (l : List α) (x y : α) (successor : next l x = some y) : y ∈ l := by
  have inTail := List.mem_of_mem_head? (Option.mem_def.mpr successor)
  exact (List.dropWhile_suffix _).subset (List.mem_of_mem_tail inTail)

private theorem nextAround_inner (front back : List α) (x y : α) (fresh : x ∉ front) :
    nextAround (front ++ x :: y :: back) x = some y := by
  simp only [nextAround, next_split front (y :: back) x fresh, List.head?_cons]

private theorem nextAround_last (front : List α) (x : α) (fresh : x ∉ front) :
    nextAround (front ++ [x]) x = (front ++ [x]).head? := by
  simp only [nextAround, next_split front [] x fresh, List.head?_nil]

theorem cycle_stop (l : List α) (start x : α) (fuel : Nat)
    (closing : nextAround l x = some start) : cycle l start (fuel + 1) x = some [x] := by
  simp only [cycle, closing, ↓reduceIte]

theorem cycle_step (l : List α) (start x y : α) (fuel : Nat)
    (successor : nextAround l x = some y) (other : y ≠ start) :
    cycle l start (fuel + 1) x = (cycle l start fuel y).map (x :: ·) := by
  simp only [cycle, successor, if_neg other]

omit [DecidableEq α] in
private theorem fresh_of_nodup {front back : List α} {x : α}
    (distinct : (front ++ x :: back).Nodup) : x ∉ front :=
  fun member => (List.nodup_append.mp distinct).2.2 x member x (by simp) rfl

/-- The run up to the start, once the loop has wrapped to the front. -/
private theorem cycle_front (seen rest back : List α) (x start : α) (fuel : Nat)
    (distinct : (seen ++ x :: (rest ++ start :: back)).Nodup) (enough : rest.length < fuel) :
    cycle (seen ++ x :: (rest ++ start :: back)) start fuel x = some (x :: rest) := by
  have fresh := fresh_of_nodup distinct
  induction rest generalizing seen x fuel with
  | nil =>
      obtain ⟨fuel, rfl⟩ : ∃ n, fuel = n + 1 := ⟨fuel - 1, by simp at enough; omega⟩
      exact cycle_stop _ _ _ _ (nextAround_inner seen back x start fresh)
  | cons y rest ih =>
      obtain ⟨fuel, rfl⟩ : ∃ n, fuel = n + 1 := ⟨fuel - 1, by simp at enough; omega⟩
      have split : seen ++ x :: (y :: rest ++ start :: back) =
          (seen ++ [x]) ++ y :: (rest ++ start :: back) := by simp
      have around : nextAround (seen ++ x :: (y :: rest ++ start :: back)) x = some y :=
        nextAround_inner seen _ x y fresh
      have other : y ≠ start := by
        rintro rfl
        have right := (List.nodup_append.mp distinct).2.1
        simp at right
      rw [split] at distinct
      have step := ih (seen ++ [x]) y fuel distinct (by simp at enough; omega)
        (fresh_of_nodup distinct)
      rw [cycle_step _ _ _ _ _ around other, split, step, Option.map_some]

/-- From an element at or behind the start the loop runs to the end of the list,
wraps, and stops in front of its start. -/
private theorem cycle_back (front seen rest : List α) (x start : α) (fuel : Nat)
    (placed : ∃ between, seen ++ [x] = start :: between)
    (distinct : (front ++ (seen ++ x :: rest)).Nodup)
    (enough : rest.length + front.length < fuel) :
    cycle (front ++ (seen ++ x :: rest)) start fuel x = some (x :: (rest ++ front)) := by
  induction rest generalizing seen x fuel with
  | nil =>
      obtain ⟨fuel, rfl⟩ : ∃ n, fuel = n + 1 := ⟨fuel - 1, by simp at enough; omega⟩
      obtain ⟨between, shape⟩ := placed
      have around : nextAround (front ++ (seen ++ [x])) x = (front ++ (seen ++ [x])).head? := by
        have fresh : x ∉ front ++ seen := by
          rw [← List.append_assoc] at distinct
          exact fresh_of_nodup distinct
        simpa only [List.append_assoc] using nextAround_last (front ++ seen) x fresh
      cases front with
      | nil =>
          rw [List.nil_append, shape, List.head?_cons, ← shape, ← List.nil_append (seen ++ [x])]
            at around
          exact cycle_stop _ _ _ _ around
      | cons y front =>
          rw [shape] at around distinct ⊢
          have other : y ≠ start := by
            rintro rfl
            simp at distinct
          have wrapped := cycle_front [] front between y start fuel distinct
            (by simp at enough; omega)
          rw [cycle_step _ _ _ _ _ around other]
          simpa using wrapped
  | cons y rest ih =>
      obtain ⟨fuel, rfl⟩ : ∃ n, fuel = n + 1 := ⟨fuel - 1, by simp at enough; omega⟩
      obtain ⟨between, shape⟩ := placed
      have around : nextAround (front ++ (seen ++ x :: y :: rest)) x = some y := by
        have fresh : x ∉ front ++ seen := by
          rw [← List.append_assoc] at distinct
          exact fresh_of_nodup distinct
        simpa only [List.append_assoc] using nextAround_inner (front ++ seen) rest x y fresh
      have split : front ++ (seen ++ x :: y :: rest) = front ++ ((seen ++ [x]) ++ y :: rest) := by
        simp
      have other : y ≠ start := by
        intro same
        rw [split, shape, same] at distinct
        have right := (List.nodup_append.mp distinct).2.1
        simp at right
      rw [split] at distinct
      have step := ih (seen ++ [x]) y fuel ⟨between ++ [y], by rw [shape]; rfl⟩ distinct
        (by simp at enough; omega)
      rw [cycle_step _ _ _ _ _ around other, split, step, Option.map_some, List.cons_append]

/-- One loop visits the whole list, rotated to its start, with as much fuel as
the list is long. -/
theorem cycle_rotation (front back : List α) (start : α)
    (distinct : (front ++ start :: back).Nodup) :
    cycle (front ++ start :: back) start (front ++ start :: back).length start =
      some (start :: (back ++ front)) := by
  have run := cycle_back front [] back start start (front ++ start :: back).length
    ⟨[], rfl⟩ (by simpa using distinct)
    (by simp only [List.length_append, List.length_cons]; omega)
  simpa only [List.nil_append] using run

/-- Every element is visited exactly once. -/
theorem cycle_perm (l : List α) (start : α) (distinct : l.Nodup) (member : start ∈ l) :
    ∃ visited, cycle l start l.length start = some visited ∧ visited.Perm l := by
  obtain ⟨front, back, rfl⟩ := List.append_of_mem member
  have rotated : (start :: back ++ front).Perm (front ++ start :: back) := List.perm_append_comm
  exact ⟨_, cycle_rotation front back start distinct, rotated⟩

/-- A loop visits its starting point first. -/
theorem cycle_head {l : List α} {start x : α} {fuel : Nat} {visited : List α}
    (run : cycle l start fuel x = some visited) : visited.head? = some x := by
  cases fuel with
  | zero => cases run
  | succ fuel =>
      unfold cycle at run
      split at run
      case h_1 => cases run
      case h_2 y around =>
          split at run
          case isTrue =>
              cases run
              rfl
          case isFalse =>
              cases rest : cycle l start fuel y with
              | none =>
                  rw [rest] at run
                  cases run
              | some more =>
                  rw [rest] at run
                  cases run
                  rfl

end Tailq
