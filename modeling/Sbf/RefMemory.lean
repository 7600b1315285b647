import Sbf.RbTree

set_option autoImplicit false

/-! Objects with reference counts, next to what their counts should be: the numbers of
references that somebody holds. -/

/-- Objects by their addresses, each with its count. Addresses are given out in order and
never again. The last three are history: the addresses, in order, of every reference
taken, of every reference dropped and of every object freed. -/
structure RefMemory (α : Type) where
  objects : RbTree Nat (Nat × α)
  fresh : Nat
  taken : List Nat
  dropped : List Nat
  freed : List Nat

namespace RefMemory

variable {α : Type}

def empty : RefMemory α := ⟨.empty, 0, [], [], []⟩

/-- The object at an address. -/
def find (memory : RefMemory α) (id : Nat) : Option α := (memory.objects.find id).map (·.2)

/-- How many objects have a property. -/
def tally (memory : RefMemory α) (p : α → Bool) : Nat :=
  memory.objects.count (fun _ entry => p entry.2)

/-- A new object with one reference, at the next address. -/
def obtain (object : α) (memory : RefMemory α) : RefMemory α :=
  { memory with
    objects := memory.objects.set memory.fresh (1, object)
    fresh := memory.fresh + 1
    taken := memory.taken ++ [memory.fresh] }

/-- Change an object in place. -/
def modify (f : α → α) (id : Nat) (memory : RefMemory α) : Option (RefMemory α) :=
  (memory.objects.find id).map (fun entry =>
    { memory with objects := memory.objects.set id (entry.1, f entry.2) })

/-- Take another reference. -/
def addRef (id : Nat) (memory : RefMemory α) : Option (RefMemory α) :=
  (memory.objects.find id).map (fun entry =>
    { memory with
      objects := memory.objects.set id (entry.1 + 1, entry.2)
      taken := memory.taken ++ [id] })

/-- Drop a reference. The last one frees the object, which is handed out. -/
def drop (id : Nat) (memory : RefMemory α) : Option (RefMemory α × Option α) :=
  (memory.objects.find id).map (fun entry =>
    if entry.1 = 1 then
      ({ memory with
        objects := memory.objects.erase id
        dropped := memory.dropped ++ [id]
        freed := memory.freed ++ [id] }, some entry.2)
    else
      ({ memory with
        objects := memory.objects.set id (entry.1 - 1, entry.2)
        dropped := memory.dropped ++ [id] }, none))

/-- Every count is the number of references, an object is there as long as it has one,
no reference was dropped twice, and what has no reference was freed once. -/
structure Sound (memory : RefMemory α) (refs : Nat → Nat) : Prop where
  counted : ∀ id entry, memory.objects.find id = some entry → entry.1 = refs id ∧ 0 < refs id
  missing : ∀ id, memory.objects.find id = none → refs id = 0
  fresh : ∀ id, memory.fresh ≤ id → memory.objects.find id = none
  dropped : ∀ id, memory.taken.count id = memory.dropped.count id + refs id
  freed : ∀ id, memory.freed.count id = if id < memory.fresh ∧ refs id = 0 then 1 else 0

/-- The same objects, whatever their counts. -/
structure Same (before after : RefMemory α) : Prop where
  find : ∀ id, after.find id = before.find id
  tally : ∀ p, after.tally p = before.tally p
  fresh : after.fresh = before.fresh

theorem empty_sound : (empty : RefMemory α).Sound (fun _ => 0) where
  counted id entry found := by cases found
  missing _ _ := rfl
  fresh _ _ := rfl
  dropped _ := rfl
  freed id := by simp [empty]

/-- An object at its place, with its count, and the history as it then is. -/
def put (memory : RefMemory α) (id count : Nat) (object : α) (taken dropped : List Nat) :
    RefMemory α :=
  { memory with objects := memory.objects.set id (count, object), taken := taken, dropped := dropped }

/-- An object gone with its last reference. -/
def remove (memory : RefMemory α) (id : Nat) : RefMemory α :=
  { memory with
    objects := memory.objects.erase id
    dropped := memory.dropped ++ [id]
    freed := memory.freed ++ [id] }

section Put

variable {memory : RefMemory α} {id count : Nat} {object : α}
  (found : memory.objects.find id = some (count, object))
include found

theorem find_entry : memory.find id = some object := by simp only [find, found, Option.map_some]

theorem modify_entry (f : α → α) : memory.modify f id =
    some (memory.put id count (f object) memory.taken memory.dropped) := by
  simp only [modify, found, Option.map_some, put]

theorem addRef_entry : memory.addRef id =
    some (memory.put id (count + 1) object (memory.taken ++ [id]) memory.dropped) := by
  simp only [addRef, found, Option.map_some, put]

theorem drop_more (more : count ≠ 1) : memory.drop id =
    some (memory.put id (count - 1) object memory.taken (memory.dropped ++ [id]), none) := by
  simp only [drop, found, Option.map_some, if_neg more, put]

theorem drop_last (last : count = 1) : memory.drop id =
    some (memory.remove id, some object) := by
  simp only [drop, found, Option.map_some, if_pos last, remove]

omit found in
theorem find_put (count' : Nat) (object' : α) (taken dropped : List Nat) (other : Nat) :
    (memory.put id count' object' taken dropped).find other =
      if other = id then some object' else memory.find other := by
  simp only [find, put, RbTree.find_set]
  split <;> rfl

theorem tally_put (count' : Nat) (object' : α) (taken dropped : List Nat) (p : α → Bool)
    (same : p object' = p object) :
    (memory.put id count' object' taken dropped).tally p = memory.tally p := by
  have counts := memory.objects.count_set (fun _ entry => p entry.2) id (count', object')
  rw [found] at counts
  simp only [Option.elim_some, same] at counts
  exact Nat.add_right_cancel counts

theorem put_same (count' : Nat) (taken dropped : List Nat) :
    Same memory (memory.put id count' object taken dropped) where
  find other := by
    rw [find_put]
    split
    · rename_i here
      rw [here, find_entry found]
    · rfl
  tally p := tally_put found count' object taken dropped p rfl
  fresh := rfl

end Put

section Sound

variable {memory : RefMemory α} {refs refs' : Nat → Nat} (sound : memory.Sound refs)
include sound

/-- What somebody refers to is there. -/
theorem Sound.entry {id : Nat} (held : 0 < refs id) :
    ∃ object, memory.objects.find id = some (refs id, object) := by
  cases found : memory.objects.find id with
  | none => exact absurd (sound.missing id found) (by omega)
  | some entry =>
      obtain ⟨same, _⟩ := sound.counted id entry found
      exact ⟨entry.2, by rw [← same]⟩

theorem Sound.find_isSome (id : Nat) : (memory.find id).isSome ↔ 0 < refs id := by
  constructor
  · intro there
    cases found : memory.objects.find id with
    | none => simp [find, found] at there
    | some entry => exact (sound.counted id entry found).2
  · intro held
    obtain ⟨object, found⟩ := sound.entry held
    rw [find_entry found]
    rfl

theorem Sound.lt_fresh {id : Nat} (held : 0 < refs id) : id < memory.fresh := by
  by_contra beyond
  have nothing := sound.missing id (sound.fresh id (Nat.not_lt.mp beyond))
  omega

theorem Sound.congr (same : ∀ id, refs' id = refs id) : memory.Sound refs' := by
  have equal : refs' = refs := funext same
  rwa [equal]

theorem Sound.obtain (object : α)
    (more : ∀ id, refs' id = refs id + if id = memory.fresh then 1 else 0) :
    (memory.obtain object).Sound refs' := by
  have absent := sound.fresh memory.fresh (Nat.le_refl _)
  have zero := sound.missing memory.fresh absent
  refine ⟨?_, ?_, ?_, ?_, ?_⟩
  · apply RbTree.forall_set
    · rw [more, zero, if_pos rfl]
      exact ⟨rfl, Nat.one_pos⟩
    · intro other entry elsewhere found
      rw [more, if_neg elsewhere]
      exact sound.counted other entry found
  · intro id missing
    simp only [RefMemory.obtain, RbTree.find_set] at missing
    split at missing
    · cases missing
    · rename_i elsewhere
      rw [more, if_neg elsewhere, sound.missing id missing]
  · intro id beyond
    simp only [RefMemory.obtain] at beyond
    simp only [RefMemory.obtain, RbTree.find_set]
    rw [if_neg (by omega)]
    exact sound.fresh id (by omega)
  · intro id
    have before := sound.dropped id
    simp only [RefMemory.obtain, List.count_append, List.count_singleton, more, beq_iff_eq]
    simp only [eq_comm (a := memory.fresh)]
    omega
  · intro id
    have before := sound.freed id
    simp only [RefMemory.obtain]
    rw [before, more]
    by_cases here : id = memory.fresh
    · subst here
      simp
    · simp only [here, if_false, Nat.add_zero]
      have edge : id < memory.fresh + 1 ↔ id < memory.fresh := by omega
      simp only [edge]

omit sound in
theorem find_obtain (object : α) (id : Nat) :
    (memory.obtain object).find id = if id = memory.fresh then some object else memory.find id := by
  simp only [find, RefMemory.obtain, RbTree.find_set]
  split <;> rfl

theorem Sound.tally_obtain (object : α) (p : α → Bool) :
    (memory.obtain object).tally p = memory.tally p + (p object).toNat := by
  have counts := memory.objects.count_set (fun _ entry => p entry.2) memory.fresh (1, object)
  rw [sound.fresh memory.fresh (Nat.le_refl _)] at counts
  exact counts

/-- An object that keeps a reference stays, with the count that it then has. -/
theorem Sound.put {id : Nat} (held : 0 < refs id) (kept : 0 < refs' id)
    (others : ∀ other, other ≠ id → refs' other = refs other) (object : α)
    (taken dropped : List Nat)
    (balance : ∀ other, taken.count other = dropped.count other + refs' other) :
    (memory.put id (refs' id) object taken dropped).Sound refs' where
  counted := by
    apply RbTree.forall_set
    · exact ⟨rfl, kept⟩
    · intro other entry elsewhere old
      rw [others other elsewhere]
      exact sound.counted other entry old
  missing other missing := by
    simp only [RefMemory.put, RbTree.find_set] at missing
    split at missing
    · cases missing
    · rename_i elsewhere
      rw [others other elsewhere, sound.missing other missing]
  fresh other beyond := by
    have differs : other ≠ id := by
      rintro rfl
      exact absurd (sound.lt_fresh held) (Nat.not_lt.mpr beyond)
    simp only [RefMemory.put, RbTree.find_set, if_neg differs]
    exact sound.fresh other beyond
  dropped := balance
  freed other := by
    refine (sound.freed other).trans (if_congr ?_ rfl rfl)
    by_cases here : other = id
    · subst here
      have before : refs other ≠ 0 := Nat.ne_of_gt held
      have after : refs' other ≠ 0 := Nat.ne_of_gt kept
      simp only [before, after, and_false]
    · rw [others other here]
      exact Iff.rfl

theorem Sound.modify (id : Nat) (held : 0 < refs id) (f : α → α) :
    ∃ after object, memory.find id = some object ∧ memory.modify f id = some after ∧
      after.Sound refs ∧
      (∀ other, after.find other = if other = id then some (f object) else memory.find other) ∧
      (∀ p, p (f object) = p object → after.tally p = memory.tally p) ∧
      after.fresh = memory.fresh := by
  obtain ⟨object, found⟩ := sound.entry held
  exact ⟨_, object, find_entry found, modify_entry found f,
    sound.put held held (fun _ _ => rfl) _ _ _ sound.dropped, find_put _ _ _ _,
    fun p => tally_put found _ _ _ _ p, rfl⟩

theorem Sound.addRef (id : Nat) (refs' : Nat → Nat) (held : 0 < refs id)
    (more : ∀ other, refs' other = refs other + if other = id then 1 else 0) :
    ∃ after, memory.addRef id = some after ∧ after.Sound refs' ∧ Same memory after := by
  obtain ⟨object, found⟩ := sound.entry held
  have here : refs' id = refs id + 1 := by rw [more, if_pos rfl]
  refine ⟨_, addRef_entry found, ?_, put_same found _ _ _⟩
  rw [← here]
  refine sound.put held (by omega) ?_ _ _ _ ?_
  · intro other elsewhere
    rw [more, if_neg elsewhere, Nat.add_zero]
  · intro other
    have before := sound.dropped other
    simp only [List.count_append, List.count_singleton, more, beq_iff_eq]
    simp only [eq_comm (a := id)]
    omega

/-- A reference is dropped: the object stays for the others, or goes with the last. -/
theorem Sound.drop (id : Nat) (refs' : Nat → Nat) (held : 0 < refs id)
    (less : ∀ other, refs other = refs' other + if other = id then 1 else 0) :
    ∃ after object, memory.find id = some object ∧ after.Sound refs' ∧
      after.fresh = memory.fresh ∧
      ((0 < refs' id ∧ memory.drop id = some (after, none) ∧ Same memory after) ∨
        (refs' id = 0 ∧ memory.drop id = some (after, some object) ∧
          (∀ other, after.find other = if other = id then none else memory.find other) ∧
          ∀ p, after.tally p + (p object).toNat = memory.tally p)) := by
  obtain ⟨object, found⟩ := sound.entry held
  have here := less id
  rw [if_pos rfl] at here
  have others : ∀ other, other ≠ id → refs' other = refs other := by
    intro other elsewhere
    rw [less other, if_neg elsewhere, Nat.add_zero]
  have balance : ∀ other, memory.taken.count other =
      (memory.dropped ++ [id]).count other + refs' other := by
    intro other
    have before := sound.dropped other
    have fewer := less other
    simp only [List.count_append, List.count_singleton, beq_iff_eq]
    simp only [eq_comm (a := id)]
    omega
  by_cases last : refs' id = 0
  · refine ⟨memory.remove id, object, find_entry found, ⟨?_, ?_, ?_, balance, ?_⟩, rfl,
      Or.inr ⟨last, drop_last found (by omega), ?_, ?_⟩⟩
    · intro other entry old
      obtain ⟨elsewhere, old⟩ := RbTree.find_erase_some old
      rw [others other elsewhere]
      exact sound.counted other entry old
    · intro other missing
      by_cases same : other = id
      · rw [same, last]
      · rw [remove, RbTree.find_erase, if_neg same] at missing
        rw [others other same, sound.missing other missing]
    · intro other beyond
      rw [remove, RbTree.find_erase]
      split
      · rfl
      · exact sound.fresh other beyond
    · intro other
      simp only [remove]
      rw [List.count_append, List.count_singleton, sound.freed other]
      by_cases same : other = id
      · subst same
        have within := sound.lt_fresh held
        have positive : refs other ≠ 0 := by omega
        simp [positive, last, within]
      · simp [Ne.symm same, others other same]
    · intro other
      simp only [find, remove, RbTree.find_erase]
      split <;> rfl
    · intro p
      have counts := memory.objects.count_erase (fun _ entry => p entry.2) id
      rw [found] at counts
      exact counts
  · have less_one : refs id - 1 = refs' id := by omega
    have positive : 0 < refs' id := Nat.pos_of_ne_zero last
    have kept := sound.put held positive others object memory.taken (memory.dropped ++ [id]) balance
    have dropped := drop_more found (by omega)
    rw [less_one] at dropped
    exact ⟨_, object, find_entry found, kept, rfl,
      Or.inl ⟨positive, dropped, put_same found _ _ _⟩⟩

end Sound

end RefMemory
