import Mathlib.Data.List.Find
import Mathlib.Order.Defs.LinearOrder

set_option autoImplicit false

/-! Search trees as tables with their entries in key order: the shape of a
balanced tree is not observable, the order of its traversal is. -/

structure RbTree (κ ν : Type) [LinearOrder κ] where
  entries : List (κ × ν)
  sorted : entries.Pairwise (fun left right => left.1 < right.1)

namespace RbTree

variable {κ ν μ : Type} [LinearOrder κ]

def empty : RbTree κ ν := ⟨[], .nil⟩

/-- The value under a key in a list of entries. -/
def lookup (entries : List (κ × ν)) (key : κ) : Option ν :=
  (entries.find? (·.1 = key)).map (·.2)

/-- One pass down to the place of the key; an entry that is there is replaced. -/
def place (key : κ) (value : ν) : List (κ × ν) → List (κ × ν)
  | [] => [(key, value)]
  | entry :: rest =>
      if key < entry.1 then (key, value) :: entry :: rest
      else if entry.1 < key then entry :: place key value rest
      else (key, value) :: rest

theorem place_keys (key : κ) (value : ν) (entries : List (κ × ν)) (entry : κ × ν)
    (member : entry ∈ place key value entries) : entry.1 = key ∨ entry ∈ entries := by
  induction entries with
  | nil => exact Or.inl (by rw [List.mem_singleton.mp member])
  | cons first rest ih =>
      simp only [place] at member
      split at member
      · rcases List.mem_cons.mp member with rfl | inside
        · exact Or.inl rfl
        · exact Or.inr inside
      · split at member
        · rcases List.mem_cons.mp member with rfl | inside
          · exact Or.inr List.mem_cons_self
          · exact (ih inside).imp_right (List.mem_cons_of_mem _)
        · rcases List.mem_cons.mp member with rfl | inside
          · exact Or.inl rfl
          · exact Or.inr (List.mem_cons_of_mem _ inside)

theorem place_sorted (key : κ) (value : ν) (entries : List (κ × ν))
    (sorted : entries.Pairwise (fun left right => left.1 < right.1)) :
    (place key value entries).Pairwise (fun left right => left.1 < right.1) := by
  induction sorted with
  | nil => exact List.pairwise_singleton _ _
  | @cons first rest above sorted ih =>
      simp only [place]
      split
      · rename_i before
        refine .cons ?_ (.cons above sorted)
        rintro entry member
        rcases List.mem_cons.mp member with rfl | inside
        · exact before
        · exact lt_trans before (above entry inside)
      · split
        · rename_i behind
          refine .cons ?_ ih
          intro entry member
          rcases place_keys key value rest entry member with here | inside
          · rw [here]
            exact behind
          · exact above entry inside
        · rename_i before behind
          have same : key = first.1 := le_antisymm (not_lt.mp behind) (not_lt.mp before)
          exact .cons (fun entry inside => same ▸ above entry inside) sorted

theorem lookup_place (key other : κ) (value : ν) (entries : List (κ × ν)) :
    lookup (place key value entries) other =
      if other = key then some value else lookup entries other := by
  induction entries with
  | nil =>
      by_cases here : other = key
      · simp [place, lookup, here]
      · simp [place, lookup, here, Ne.symm here]
  | cons first rest ih =>
      simp only [place]
      split
      · by_cases here : other = key
        · simp [lookup, here]
        · simp [lookup, here, Ne.symm here]
      · split
        · rename_i behind
          by_cases front : first.1 = other
          · have differs : other ≠ key := fun here => absurd behind (by simp [front, here])
            simp [lookup, front, differs]
          · simpa [lookup, front] using ih
        · rename_i before behind
          have same : first.1 = key := le_antisymm (not_lt.mp before) (not_lt.mp behind)
          by_cases here : other = key
          · simp [lookup, here]
          · simp [lookup, here, same, Ne.symm here]

/-- `RB_FIND` -/
def find (tree : RbTree κ ν) (key : κ) : Option ν := lookup tree.entries key

/-- The tree with a key at a value: an insertion, or a change of what is there. -/
def set (tree : RbTree κ ν) (key : κ) (value : ν) : RbTree κ ν :=
  ⟨place key value tree.entries, place_sorted key value tree.entries tree.sorted⟩

/-- `RB_INSERT`, which leaves an entry that is there as it is. -/
def insert (tree : RbTree κ ν) (key : κ) (value : ν) : RbTree κ ν :=
  if (tree.find key).isSome then tree else tree.set key value

/-- All values changed in place. -/
def map (tree : RbTree κ ν) (f : ν → μ) : RbTree κ μ :=
  ⟨tree.entries.map (fun entry => (entry.1, f entry.2)), by
    rw [List.pairwise_map]
    exact tree.sorted⟩

theorem find_set (tree : RbTree κ ν) (key other : κ) (value : ν) :
    (tree.set key value).find other = if other = key then some value else tree.find other :=
  lookup_place key other value tree.entries

@[simp] theorem find_set_self (tree : RbTree κ ν) (key : κ) (value : ν) :
    (tree.set key value).find key = some value := by rw [find_set, if_pos rfl]

/-- What is found after a change is the new value or was there before. -/
theorem find_set_some {tree : RbTree κ ν} {key other : κ} {value found : ν}
    (result : (tree.set key value).find other = some found) :
    (other = key ∧ found = value) ∨ (other ≠ key ∧ tree.find other = some found) := by
  rw [find_set] at result
  split at result
  · rename_i here
    exact Or.inl ⟨here, (Option.some.inj result).symm⟩
  · rename_i elsewhere
    exact Or.inr ⟨elsewhere, result⟩

/-- What holds of the new value and of what is found elsewhere holds of all entries. -/
theorem forall_set {tree : RbTree κ ν} {key : κ} {value : ν} {p : κ → ν → Prop} (here : p key value)
    (others : ∀ other found, other ≠ key → tree.find other = some found → p other found)
    (other : κ) (found : ν) (result : (tree.set key value).find other = some found) :
    p other found := by
  rcases find_set_some result with ⟨rfl, rfl⟩ | ⟨elsewhere, old⟩
  · exact here
  · exact others other found elsewhere old

theorem isSome_set {tree : RbTree κ ν} {other : κ} (there : (tree.find other).isSome) (key : κ)
    (value : ν) : ((tree.set key value).find other).isSome := by
  rw [find_set]
  split
  · rfl
  · exact there

theorem insert_none {tree : RbTree κ ν} {key : κ} (absent : tree.find key = none) (value : ν) :
    tree.insert key value = tree.set key value := by
  simp [insert, absent]

theorem find_map (tree : RbTree κ ν) (f : ν → μ) (key : κ) :
    (tree.map f).find key = (tree.find key).map f := by
  simp only [find, lookup, map, List.find?_map, Option.map_map]
  rfl

/-- `RB_REMOVE`, by key. -/
def erase (tree : RbTree κ ν) (key : κ) : RbTree κ ν :=
  ⟨tree.entries.filter (·.1 ≠ key), tree.sorted.filter _⟩

theorem find_erase (tree : RbTree κ ν) (key other : κ) :
    (tree.erase key).find other = if other = key then none else tree.find other := by
  simp only [find, lookup, erase, List.find?_filter]
  by_cases here : other = key
  · rw [if_pos here, Option.map_eq_none_iff, List.find?_eq_none]
    intro entry _
    simp [here]
  · rw [if_neg here]
    congr 1
    apply List.find?_congr
    intro entry _
    by_cases same : entry.1 = other
    · simp [same, here]
    · simp [same]

theorem mem_entries_iff (entries : List (κ × ν))
    (sorted : entries.Pairwise (fun left right => left.1 < right.1)) (key : κ) (value : ν) :
    (key, value) ∈ entries ↔ lookup entries key = some value := by
  induction sorted with
  | nil => simp [lookup]
  | @cons first rest above sorted ih =>
      by_cases here : first.1 = key
      · have behind : (key, value) ∉ rest := fun member =>
          absurd (above _ member) (by simp [here])
        have head : lookup (first :: rest) key = some first.2 := by
          simp [lookup, here]
        rw [List.mem_cons, head]
        constructor
        · rintro (rfl | member)
          · rfl
          · exact absurd member behind
        · intro same
          exact Or.inl (Prod.ext here.symm (Option.some.inj same).symm)
      · have skip : lookup (first :: rest) key = lookup rest key := by
          simp [lookup, here]
        rw [List.mem_cons, skip, ← ih]
        exact or_iff_right (fun same => here (by rw [← same]))

/-- `RB_MIN` -/
def min (tree : RbTree κ ν) : Option (κ × ν) := tree.entries.head?

theorem find_min {tree : RbTree κ ν} {key : κ} {value : ν} (least : tree.min = some (key, value)) :
    tree.find key = some value :=
  (mem_entries_iff tree.entries tree.sorted key value).mp (List.mem_of_head? least)

theorem min_le {tree : RbTree κ ν} {key other : κ} {value found : ν}
    (least : tree.min = some (key, value)) (result : tree.find other = some found) : key ≤ other := by
  have member := (mem_entries_iff tree.entries tree.sorted other found).mpr result
  have sorted := tree.sorted
  obtain ⟨rest, shape⟩ := List.head?_eq_some_iff.mp least
  rw [shape] at member sorted
  rcases List.mem_cons.mp member with same | behind
  · cases same
    exact le_refl _
  · exact le_of_lt ((List.pairwise_cons.mp sorted).1 _ behind)

theorem find_of_min_none {tree : RbTree κ ν} (empty : tree.min = none) (key : κ) :
    tree.find key = none := by
  rw [find, lookup, List.head?_eq_none_iff.mp empty]
  rfl

/-- What holds of everything in a table can be decided entry by entry. -/
theorem forall_find_iff (tree : RbTree κ ν) (p : κ → ν → Prop) :
    (∀ key value, tree.find key = some value → p key value) ↔
      ∀ entry ∈ tree.entries, p entry.1 entry.2 := by
  constructor
  · intro each entry member
    exact each entry.1 entry.2 ((mem_entries_iff tree.entries tree.sorted _ _).mp member)
  · intro each key value found
    exact each (key, value) ((mem_entries_iff tree.entries tree.sorted _ _).mpr found)

instance (tree : RbTree κ ν) (p : κ → ν → Prop) [∀ key value, Decidable (p key value)] :
    Decidable (∀ key value, tree.find key = some value → p key value) :=
  decidable_of_iff _ (tree.forall_find_iff p).symm

/-- A table is what it finds. -/
theorem ext_find {left right : RbTree κ ν} (same : ∀ key, left.find key = right.find key) :
    left = right := by
  obtain ⟨entries, sorted⟩ := left
  obtain ⟨entries', sorted'⟩ := right
  congr 1
  have members : ∀ entry, entry ∈ entries ↔ entry ∈ entries' := by
    rintro ⟨key, value⟩
    rw [mem_entries_iff entries sorted, mem_entries_iff entries' sorted']
    exact Eq.congr_left (same key)
  have distinct : ∀ {table : List (κ × ν)},
      table.Pairwise (fun left right => left.1 < right.1) → table.Nodup :=
    fun ordered => ordered.imp (fun before same => ne_of_lt before (congrArg Prod.fst same))
  exact ((List.perm_ext_iff_of_nodup (distinct sorted) (distinct sorted')).mpr members).eq_of_pairwise
    (fun left right _ _ before behind => absurd before (not_lt_of_gt behind)) sorted sorted'

@[simp] theorem set_set (tree : RbTree κ ν) (key : κ) (first second : ν) :
    (tree.set key first).set key second = tree.set key second :=
  ext_find (fun other => by simp only [find_set]; split <;> rfl)

@[simp] theorem erase_set (tree : RbTree κ ν) (key : κ) (value : ν) :
    (tree.set key value).erase key = tree.erase key :=
  ext_find (fun other => by simp only [find_erase, find_set]; split <;> rfl)

theorem find_erase_some {tree : RbTree κ ν} {key other : κ} {found : ν}
    (result : (tree.erase key).find other = some found) :
    other ≠ key ∧ tree.find other = some found := by
  rw [find_erase] at result
  split at result
  · cases result
  · rename_i elsewhere
    exact ⟨elsewhere, result⟩

/-- How many entries have a property. -/
def count (tree : RbTree κ ν) (p : κ → ν → Bool) : Nat :=
  tree.entries.countP (fun entry => p entry.1 entry.2)

theorem count_place (p : κ → ν → Bool) (key : κ) (value : ν) (entries : List (κ × ν))
    (sorted : entries.Pairwise (fun left right => left.1 < right.1)) :
    (place key value entries).countP (fun entry => p entry.1 entry.2) +
        ((lookup entries key).elim 0 (fun old => (p key old).toNat)) =
      entries.countP (fun entry => p entry.1 entry.2) + (p key value).toNat := by
  have absent : ∀ rest : List (κ × ν), (∀ entry ∈ rest, key < entry.1) → lookup rest key = none := by
    intro rest above
    simp only [lookup, Option.map_eq_none_iff, List.find?_eq_none, decide_eq_true_eq]
    exact fun entry member same => absurd (above entry member) (same ▸ lt_irrefl _)
  have one : ∀ (front : κ × ν) (rest : List (κ × ν)),
      (front :: rest).countP (fun entry => p entry.1 entry.2) =
        rest.countP (fun entry => p entry.1 entry.2) + (p front.1 front.2).toNat := by
    intro front rest
    rw [List.countP_cons]
    cases p front.1 front.2 <;> rfl
  induction sorted with
  | nil => simp [place, lookup, one]
  | @cons first rest above sorted ih =>
      simp only [place]
      split
      · rename_i before
        rw [absent (first :: rest) (by
          intro entry member
          rcases List.mem_cons.mp member with rfl | inside
          · exact before
          · exact lt_trans before (above entry inside)), one]
        rfl
      · split
        · rename_i behind
          have skip : lookup (first :: rest) key = lookup rest key := by
            simp [lookup, ne_of_lt behind]
          rw [one, one, skip]
          omega
        · rename_i before behind
          have same : first.1 = key := le_antisymm (not_lt.mp before) (not_lt.mp behind)
          have here : lookup (first :: rest) key = some first.2 := by
            simp [lookup, same]
          rw [one, one, here, same]
          simp only [Option.elim_some]
          omega

/-- Setting a key counts its new value in place of its old one. -/
theorem count_set (tree : RbTree κ ν) (p : κ → ν → Bool) (key : κ) (value : ν) :
    (tree.set key value).count p + ((tree.find key).elim 0 (fun old => (p key old).toNat)) =
      tree.count p + (p key value).toNat :=
  count_place p key value tree.entries tree.sorted

theorem count_erase (tree : RbTree κ ν) (p : κ → ν → Bool) (key : κ) :
    (tree.erase key).count p + ((tree.find key).elim 0 (fun old => (p key old).toNat)) =
      tree.count p := by
  obtain ⟨entries, sorted⟩ := tree
  simp only [count, erase, find]
  induction sorted with
  | nil => rfl
  | @cons first rest above sorted ih =>
      by_cases same : first.1 = key
      · have kept : rest.filter (·.1 ≠ key) = rest := by
          apply List.filter_eq_self.mpr
          intro entry member
          have behind := above entry member
          rw [same] at behind
          simpa using (ne_of_gt behind)
        have here : lookup (first :: rest) key = some first.2 := by
          simp [lookup, same]
        rw [List.filter_cons_of_neg (by simp [same]), kept, here, List.countP_cons, same]
        simp only [Option.elim_some]
        cases p key first.2 <;> rfl
      · have skip : lookup (first :: rest) key = lookup rest key := by
          simp [lookup, same]
        rw [List.filter_cons_of_pos (by simp [same]), skip, List.countP_cons, List.countP_cons, ← ih]
        omega

theorem count_eq_zero {tree : RbTree κ ν} {p : κ → ν → Bool}
    (none_found : ∀ key value, tree.find key = some value → p key value = false) :
    tree.count p = 0 := by
  refine List.countP_eq_zero.mpr ?_
  rintro ⟨key, value⟩ member
  rw [none_found key value ((mem_entries_iff tree.entries tree.sorted key value).mp member)]
  exact Bool.false_ne_true

/-- What a traversal emits for one key is emitted at its entry. -/
theorem traversal_at (tree : RbTree κ ν) (emit : ν → List μ) (key : κ) :
    ((tree.entries.flatMap (fun entry => (emit entry.2).map (entry.1, ·))).filter
      (·.1 = key)).map (·.2) = ((tree.find key).map emit).getD [] := by
  obtain ⟨entries, sorted⟩ := tree
  simp only [find]
  induction sorted with
  | nil => rfl
  | @cons first rest above sorted ih =>
      rw [List.flatMap_cons, List.filter_append, List.map_append, ih]
      by_cases here : first.1 = key
      · have others : lookup rest key = none := by
          simp only [lookup, Option.map_eq_none_iff, List.find?_eq_none, decide_eq_true_eq]
          intro entry member same
          exact absurd (above entry member) (by rw [here, same]; exact lt_irrefl key)
        rw [others]
        simp [lookup, here, List.filter_map, Function.comp_def]
      · simp [lookup, here]

end RbTree
