import Sbf.KeyValue

set_option autoImplicit false

namespace Sbf

open Octets

def dot : UInt8 := 46

namespace Properties

/-- `key + prefixlen + 1`, when the key begins with the prefix and a dot. -/
def strip (prefix_ key : CString) : Option CString :=
  if key.chars.take prefix_.chars.length = prefix_.chars ∧
      key.chars[prefix_.chars.length]? = some dot then
    some ⟨key.chars.drop (prefix_.chars.length + 1),
      fun zero => key.plain (List.mem_of_mem_drop zero)⟩
  else none

/-- The body of the loop of `sbfProperties_filter`. -/
def filterKey (prefix_ : CString) (new : KeyValue) (item : CString × CString) : KeyValue :=
  match strip prefix_ item.1 with
  | some rest => new.put rest item.2
  | none => if new.get item.1 = none then new.put item.1 item.2 else new

/-- The table that `sbfProperties_filter` makes: the loop goes through the keys in order. -/
def filter (table : KeyValue) (prefix_ : CString) : KeyValue :=
  table.entries.foldl (filterKey prefix_) .empty

/-- `prefix.key` -/
def under (prefix_ key : CString) : CString := prefix_.join dot (by decide) key

theorem strip_eq_some {prefix_ key rest : CString} :
    strip prefix_ key = some rest ↔ key = under prefix_ rest := by
  constructor
  · intro stripped
    unfold strip at stripped
    split at stripped
    case isFalse => cases stripped
    case isTrue begins =>
        cases stripped
        apply CString.ext
        obtain ⟨inside, char⟩ := List.getElem?_eq_some_iff.mp begins.2
        calc key.chars = key.chars.take prefix_.chars.length ++
              key.chars.drop prefix_.chars.length := (List.take_append_drop _ _).symm
          _ = _ := by rw [begins.1, List.drop_eq_getElem_cons inside, char]; rfl
  · intro same
    subst same
    have front : (under prefix_ rest).chars.take prefix_.chars.length = prefix_.chars := by
      simp only [under, CString.join_chars, List.take_left]
    have char : (under prefix_ rest).chars[prefix_.chars.length]? = some dot := by
      simp only [under, CString.join_chars, Nat.le_refl, List.getElem?_append_right, Nat.sub_self,
        List.getElem?_cons_zero]
    rw [strip, if_pos ⟨front, char⟩, Option.some.injEq]
    apply CString.ext
    change (prefix_.chars ++ dot :: rest.chars).drop (prefix_.chars.length + 1) = rest.chars
    simp

theorem under_inj {prefix_ left right : CString} :
    under prefix_ left = under prefix_ right ↔ left = right := by
  constructor
  · intro same
    have stripped : strip prefix_ (under prefix_ left) = some left := strip_eq_some.mpr rfl
    rw [same, strip_eq_some.mpr rfl] at stripped
    exact (Option.some.inj stripped).symm
  · intro same
    rw [same]

/-- What the keys that were visited say about a key of the result. -/
def value (prefix_ : CString) (items : List (CString × CString)) (key : CString) :
    Option CString :=
  (RbTree.lookup items (under prefix_ key)).or
    (if strip prefix_ key = none then RbTree.lookup items key else none)

theorem lookup_concat {items : List (CString × CString)} {item : CString × CString}
    (key : CString) :
    RbTree.lookup (items ++ [item]) key =
      (RbTree.lookup items key).or (if item.1 = key then some item.2 else none) := by
  rw [RbTree.lookup, List.find?_append, Option.map_or]
  congr 1
  by_cases here : item.1 = key
  · simp [here]
  · simp [here]

/-- One more key, wherever it sorts: with a prefix it overwrites, without one it gives way. -/
theorem filterKey_value {prefix_ : CString} {items : List (CString × CString)}
    {item : CString × CString} {new : KeyValue} (fresh : RbTree.lookup items item.1 = none)
    (visited : ∀ key, new.get key = value prefix_ items key) (key : CString) :
    (filterKey prefix_ new item).get key = value prefix_ (items ++ [item]) key := by
  cases stripped : strip prefix_ item.1 with
  | some rest =>
      have name : item.1 = under prefix_ rest := strip_eq_some.mp stripped
      simp only [filterKey, stripped, KeyValue.get_put, value, lookup_concat]
      by_cases here : key = rest
      · rw [if_pos here, here, ← name, fresh]
        simp
      · have elsewhere : item.1 ≠ under prefix_ key := by
          rw [name]
          intro same
          exact here (under_inj.mp same).symm
        rw [if_neg here, if_neg elsewhere, Option.or_none, visited, value]
        split
        case isFalse => rfl
        case isTrue plain =>
            have apart : item.1 ≠ key := by
              intro same
              rw [← same, stripped] at plain
              cases plain
            rw [if_neg apart, Option.or_none]
  | none =>
      have unprefixed : ∀ other, item.1 ≠ under prefix_ other := by
        intro other same
        rw [strip_eq_some.mpr same] at stripped
        cases stripped
      simp only [filterKey, stripped, value, lookup_concat, if_neg (unprefixed _), Option.or_none]
      by_cases here : item.1 = key
      · subst here
        rw [if_pos stripped, fresh]
        have before := visited item.1
        rw [value, if_pos stripped, fresh, Option.or_none] at before
        cases taken : new.get item.1 with
        | none =>
            rw [if_pos rfl, KeyValue.get_put, if_pos rfl, ← before, taken]
            simp
        | some old =>
            rw [if_neg nofun, taken, ← before, taken]
            rfl
      · have others : (if new.get item.1 = none then new.put item.1 item.2 else new).get key =
            new.get key := by
          split
          case isTrue => rw [KeyValue.get_put, if_neg (fun same => here same.symm)]
          case isFalse => rfl
        rw [others, visited, value, if_neg here, Option.or_none]

/-- The loop over any keys that are distinct. -/
theorem foldl_value (prefix_ : CString) (items : List (CString × CString))
    (sorted : items.Pairwise (fun left right => left.1 < right.1)) (key : CString) :
    (items.foldl (filterKey prefix_) .empty).get key = value prefix_ items key := by
  induction items using List.reverseRecOn generalizing key with
  | nil =>
      rw [value]
      split <;> rfl
  | append_singleton items item ih =>
      obtain ⟨front, _, below⟩ := List.pairwise_append.mp sorted
      have fresh : RbTree.lookup items item.1 = none := by
        rw [RbTree.lookup, Option.map_eq_none_iff, List.find?_eq_none]
        intro entry member
        have less := below entry member item (List.mem_singleton.mpr rfl)
        simpa using ne_of_lt less
      rw [List.foldl_append]
      exact filterKey_value fresh (ih front) key

/-- The value under the prefix goes before the general one. -/
theorem get_filter (table : KeyValue) (prefix_ key : CString) :
    (filter table prefix_).get key =
      (table.get (under prefix_ key)).or
        (if strip prefix_ key = none then table.get key else none) :=
  foldl_value prefix_ table.entries table.sorted key

theorem strip_eq_none {prefix_ key : CString} :
    strip prefix_ key = none ↔ ¬ (prefix_.chars ++ [dot]).isPrefixOf key.chars = true := by
  rw [List.isPrefixOf_iff_prefix, Option.eq_none_iff_forall_ne_some]
  constructor
  · intro plain begins
    obtain ⟨rest, whole⟩ := begins
    have visible : 0 ∉ rest := by
      intro zero
      apply key.plain
      rw [← whole]
      exact List.mem_append_right _ zero
    apply plain ⟨rest, visible⟩
    rw [strip_eq_some]
    apply CString.ext
    rw [← whole, List.append_assoc]
    rfl
  · intro plain rest stripped
    apply plain
    refine ⟨rest.chars, ?_⟩
    rw [strip_eq_some.mp stripped, List.append_assoc]
    rfl

/-- `sbfProperties_filter` -/
def filterAt (table : Nat) (prefix_ : CString) (tables : Tables) : Except Fault (Nat × Tables) := do
  let contents ← tables.heap.read table
  return tables.create (filter contents prefix_)

/-- The loop of `sbfProperties_filterN`, with the prefixes up to the null. -/
def filterNFrom (table new : Nat) : List CString → Tables → Except Fault (Nat × Tables)
  | [], tables => .ok (new, tables)
  | prefix_ :: rest, tables => do
      let (filtered, tables) ← filterAt new prefix_ tables
      let tables ← if new ≠ table then tables.destroy new else .ok tables
      filterNFrom table filtered rest tables

/-- `sbfProperties_filterN` -/
def filterN (table : Nat) (prefixes : List CString) (tables : Tables) :
    Except Fault (Nat × Tables) :=
  filterNFrom table table prefixes tables

theorem filterAt_ok {tables : Tables} {table : Nat} {contents : KeyValue}
    (found : tables.heap.find table = some contents) (prefix_ : CString) :
    filterAt table prefix_ tables = .ok (tables.create (filter contents prefix_)) := by
  rw [filterAt, Heap.read_some found]
  rfl

/-- From a table that the loop has made: it is replaced, and nothing else is touched. -/
theorem filterNFrom_made (table : Nat) {old : Tables} (contents : KeyValue) (next new : Nat)
    (prefixes : List CString) (sound : old.Sound) (before : table < old.fresh)
    (placed : old.fresh ≤ new) (ahead : new < next) :
    ∃ id fresh, filterNFrom table new prefixes ⟨old.heap.set new contents, next⟩ =
        .ok (id, ⟨old.heap.set id (prefixes.foldl filter contents), fresh⟩) ∧
      old.fresh ≤ id ∧ id < fresh := by
  induction prefixes generalizing contents next new with
  | nil => exact ⟨new, next, rfl, placed, ahead⟩
  | cons prefix_ rest ih =>
      obtain ⟨id, fresh, run, further⟩ := ih (filter contents prefix_) (next + 1) next
        (Nat.le_of_lt (Nat.lt_of_le_of_lt placed ahead))
        (Nat.lt_succ_self next)
      refine ⟨id, fresh, ?_, further⟩
      have other : new ≠ table := Nat.ne_of_gt (Nat.lt_of_lt_of_le before placed)
      have replaced : ((old.heap.set new contents).set next (filter contents prefix_)).erase new =
          old.heap.set next (filter contents prefix_) := by
        apply RbTree.ext_find
        intro key
        rw [RbTree.find_erase, RbTree.find_set, RbTree.find_set, RbTree.find_set]
        by_cases here : key = new
        · rw [if_pos here, if_neg (by omega), here, sound new placed]
        · rw [if_neg here, if_neg here]
      have still : Heap.read ((old.heap.set new contents).set next (filter contents prefix_)) new =
          .ok contents := by
        apply Heap.read_some
        rw [RbTree.find_set, if_neg (Nat.ne_of_lt ahead), RbTree.find_set_self]
      rw [filterNFrom, filterAt_ok (RbTree.find_set_self _ _ _)]
      simp only [Tables.create, Tables.destroy, bind, Except.bind, if_pos other, still, pure,
        Except.pure, replaced]
      exact run

/-- With any prefixes at all the result is a new table; the others are as they were. -/
theorem filterN_ok {tables : Tables} {table : Nat} {contents : KeyValue}
    {prefixes : List CString} (sound : tables.Sound)
    (found : tables.heap.find table = some contents) (given : prefixes ≠ []) :
    ∃ id fresh, filterN table prefixes tables =
        .ok (id, ⟨tables.heap.set id (prefixes.foldl filter contents), fresh⟩) ∧
      tables.fresh ≤ id ∧ id < fresh := by
  have before : table < tables.fresh := by
    by_contra behind
    rw [sound table (Nat.le_of_not_lt behind)] at found
    cases found
  cases prefixes with
  | nil => exact absurd rfl given
  | cons prefix_ rest =>
      obtain ⟨id, fresh, run, further⟩ := filterNFrom_made table
        (filter contents prefix_) _ _ rest sound before (Nat.le_refl tables.fresh)
        (Nat.lt_succ_self tables.fresh)
      refine ⟨id, fresh, ?_, further⟩
      rw [filterN, filterNFrom, filterAt_ok found]
      simp only [Tables.create, bind, Except.bind, ne_eq, not_true_eq_false, ↓reduceIte]
      exact run

/-- The specific value goes before the general one, whatever the order of the keys, and
several prefixes are filtered by from the left; the table itself stays, and only the result
is added to it. -/
theorem filter_filterN :
    (∀ (table : KeyValue) (prefix_ key : CString),
      (filter table prefix_).get key =
        (table.get (prefix_.join dot (by decide) key)).or
          (if (prefix_.chars ++ [dot]).isPrefixOf key.chars then none else table.get key)) ∧
    ∀ (tables : Tables) (table : Nat) (contents : KeyValue) (prefixes : List CString),
      tables.Sound → tables.heap.find table = some contents → prefixes ≠ [] →
      ∃ id fresh, filterN table prefixes tables =
          .ok (id, ⟨tables.heap.set id (prefixes.foldl filter contents), fresh⟩) ∧
        tables.heap.find id = none := by
  constructor
  · intro table prefix_ key
    rw [get_filter]
    congr 1
    by_cases plain : strip prefix_ key = none
    · rw [if_pos plain, if_neg (strip_eq_none.mp plain)]
    · rw [if_neg plain, if_pos (not_not.mp (mt strip_eq_none.mpr plain))]
  · intro tables table contents prefixes sound found given
    obtain ⟨id, fresh, run, above, _⟩ := filterN_ok sound found given
    exact ⟨id, fresh, run, sound id above⟩

theorem letter_plain : 0 ∉ ([97] : Bytes) := by decide

theorem dotted_plain : 0 ∉ ([98, 46, 97] : Bytes) := by decide

theorem one_plain : 0 ∉ ([49] : Bytes) := by decide

theorem two_plain : 0 ∉ ([50] : Bytes) := by decide

/-- `a=1` and `b.a=2` -/
def general : KeyValue :=
  (KeyValue.put .empty ⟨[97], letter_plain⟩ ⟨[49], one_plain⟩).put
    ⟨[98, 46, 97], dotted_plain⟩ ⟨[50], two_plain⟩

theorem general_sound : Tables.Sound ⟨RbTree.empty.set 0 general, 1⟩ := by
  intro id behind
  have other : id ≠ 0 := Nat.ne_of_gt behind
  rw [RbTree.find_set, if_neg other]
  rfl

theorem filter_filterN_general :
    ∃ id fresh, filterN 0 [⟨[98], by decide⟩] ⟨RbTree.empty.set 0 general, 1⟩ =
        .ok (id, ⟨(RbTree.empty.set 0 general).set id
          ([⟨[98], by decide⟩].foldl filter general), fresh⟩) ∧
      (filter general ⟨[98], by decide⟩).get ⟨[97], by decide⟩ = some ⟨[50], by decide⟩ := by
  obtain ⟨id, fresh, run, _⟩ := filter_filterN.2 _ 0 general [⟨[98], by decide⟩] general_sound
    (RbTree.find_set_self _ _ _) (by decide)
  exact ⟨id, fresh, run, by decide⟩

end Properties

end Sbf
