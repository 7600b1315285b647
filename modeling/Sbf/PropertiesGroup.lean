import Sbf.FirstSeen
import Sbf.PropertiesFilter

set_option autoImplicit false

namespace Sbf

open Octets

namespace Properties

variable {σ : Type}

/-- `sbfPropertiesGroupCb`, with what it does to its closure. -/
abbrev GroupCb (σ : Type) := CString → KeyValue → σ → Int × σ

/-- The loop of `sbfProperties_getGroup` from one key on, with the names found so far;
`list` has room for `size` of them. -/
def getGroupFrom (table : Nat) (group : CString) (size : Nat) (cb : GroupCb σ) :
    List (CString × CString) → List CString → Tables → σ → Except Fault (Int × Tables × σ)
  | [], _, tables, closure => .ok (0, tables, closure)
  | item :: rest, list, tables, closure =>
      match strip group item.1 with
      | none => getGroupFrom table group size cb rest list tables closure
      | some behind =>
          let name := behind.upTo dot
          if name ∈ list then getGroupFrom table group size cb rest list tables closure
          else if list.length < size then do
            let (filtered, tables) ← filterN table [group, name] tables
            let contents ← tables.heap.read filtered
            let (error, closure) := cb name contents closure
            let tables ← tables.destroy filtered
            if error ≠ 0 then .ok (error, tables, closure)
            else getGroupFrom table group size cb rest (list ++ [name]) tables closure
          else .error .outside

/-- `sbfProperties_getGroup` -/
def getGroup (table : Nat) (group : CString) (cb : GroupCb σ) (tables : Tables) (closure : σ) :
    Except Fault (Int × Tables × σ) := do
  let contents ← tables.heap.read table
  if contents.size = 0 then .ok (0, tables, closure)
  else getGroupFrom table group contents.size cb contents.entries [] tables closure

/-- The calls of a callback, up to the first one that fails. -/
def callEach (cb : GroupCb σ) : List (CString × KeyValue) → σ → Int × σ
  | [], closure => (0, closure)
  | (name, filtered) :: rest, closure =>
      if (cb name filtered closure).1 ≠ 0 then cb name filtered closure
      else callEach cb rest (cb name filtered closure).2

/-- The first components behind the group, key by key. -/
def components (group : CString) (items : List (CString × CString)) : List CString :=
  items.filterMap (fun item => (strip group item.1).map (·.upTo dot))

/-- Only the counter of addresses has moved. -/
def Kept (before after : Tables) : Prop := after.heap = before.heap ∧ after.Sound

/-- One call: the filtered table is there for the callback and gone after it. -/
theorem filterN_destroy {tables : Tables} {table : Nat} {contents : KeyValue}
    (prefixes : List CString) (sound : tables.Sound)
    (found : tables.heap.find table = some contents) (given : prefixes ≠ []) :
    ∃ id made after, filterN table prefixes tables = .ok (id, made) ∧
      made.heap.read id = .ok (prefixes.foldl filter contents) ∧
      made.destroy id = .ok after ∧ Kept tables after := by
  obtain ⟨id, fresh, run, above, below⟩ := filterN_ok sound found given
  have there : Heap.read (tables.heap.set id (prefixes.foldl filter contents)) id =
      .ok (prefixes.foldl filter contents) := Heap.read_some (RbTree.find_set_self _ _ _)
  have gone := Tables.erase_set (sound id above) (prefixes.foldl filter contents)
  refine ⟨id, _, ⟨tables.heap, fresh⟩, run, there, ?_, rfl, ?_⟩
  · simp only [Tables.destroy, there, bind, Except.bind, gone, pure, Except.pure]
  · intro key behind
    exact sound key (Nat.le_trans above (Nat.le_trans (Nat.le_of_lt below) behind))

/-- The loop calls back for the components it has not seen, and leaves the tables alone: by
induction on the keys that are left. -/
theorem getGroupFrom_calls {table : Nat} {contents : KeyValue} (group : CString) (size : Nat)
    (cb : GroupCb σ) (items : List (CString × CString)) (list : List CString) {tables : Tables}
    (closure : σ) (sound : tables.Sound) (found : tables.heap.find table = some contents)
    (room : list.length + items.length ≤ size) :
    ∃ after, getGroupFrom table group size cb items list tables closure =
        .ok ((callEach cb ((List.firstSeen list (components group items)).map
            (fun name => (name, [group, name].foldl filter contents))) closure).1, after,
          (callEach cb ((List.firstSeen list (components group items)).map
            (fun name => (name, [group, name].foldl filter contents))) closure).2) ∧
      Kept tables after := by
  induction items generalizing list tables closure with
  | nil => exact ⟨tables, rfl, rfl, sound⟩
  | cons item rest ih =>
      rw [List.length_cons] at room
      rw [getGroupFrom]
      cases stripped : strip group item.1 with
      | none =>
          have skip : components group (item :: rest) = components group rest := by
            simp only [components, List.filterMap_cons, stripped, Option.map_none]
          rw [skip]
          exact ih _ _ sound found (by omega)
      | some behind =>
          have next : components group (item :: rest) =
              behind.upTo dot :: components group rest := by
            simp only [components, List.filterMap_cons, stripped, Option.map_some]
          rw [next, List.firstSeen]
          dsimp only
          split
          case isTrue => exact ih _ _ sound found (by omega)
          case isFalse =>
              rw [if_pos (show list.length < size by omega)]
              obtain ⟨id, made, after, run, there, destroyed, kept⟩ :=
                filterN_destroy [group, behind.upTo dot] sound found (by simp)
              simp only [run, bind, Except.bind, there, destroyed, List.map_cons, callEach]
              split
              case isTrue => exact ⟨after, rfl, kept⟩
              case isFalse =>
                  obtain ⟨last, further, keptLast⟩ := ih (list ++ [behind.upTo dot])
                    (cb (behind.upTo dot)
                      ([group, behind.upTo dot].foldl filter contents) closure).2 kept.2
                    (by rw [kept.1]; exact found)
                    (by rw [List.length_append, List.length_singleton]; omega)
                  exact ⟨last, further, keptLast.1.trans kept.1, keptLast.2⟩

/-- Each group is visited once: the callback is called for the distinct components behind
the group in the order in which they first appear, each time with the table filtered by the
group and by the component, until it returns an error. -/
theorem getGroup_once (table : Nat) (group : CString) (cb : GroupCb σ) (tables : Tables)
    (closure : σ) (contents : KeyValue) (sound : tables.Sound)
    (found : tables.heap.find table = some contents) :
    ∃ names : List CString, names.Nodup ∧
      (∀ name, name ∈ names ↔ ∃ key value rest, contents.get key = some value ∧
        key = group.join dot (by decide) rest ∧ name = rest.upTo dot) ∧
      names.Pairwise (fun left right => (components group contents.entries).idxOf left <
        (components group contents.entries).idxOf right) ∧
      ∃ after, getGroup table group cb tables closure =
          .ok ((callEach cb (names.map
              (fun name => (name, [group, name].foldl filter contents))) closure).1, after,
            (callEach cb (names.map
              (fun name => (name, [group, name].foldl filter contents))) closure).2) ∧
        after.heap = tables.heap := by
  refine ⟨List.firstSeen [] (components group contents.entries), List.nodup_firstSeen _ _, ?_,
    List.firstSeen_order _ _, ?_⟩
  · intro name
    rw [List.mem_firstSeen, components, List.mem_filterMap]
    constructor
    · intro inside
      obtain ⟨⟨item, member, made⟩, _⟩ := inside
      obtain ⟨rest, stripped, rfl⟩ := Option.map_eq_some_iff.mp made
      exact ⟨item.1, item.2, rest,
        (RbTree.mem_entries_iff contents.entries contents.sorted _ _).mp member,
        strip_eq_some.mp stripped, rfl⟩
    · intro named
      obtain ⟨key, value, rest, there, joined, rfl⟩ := named
      refine ⟨⟨(key, value),
        (RbTree.mem_entries_iff contents.entries contents.sorted _ _).mpr there, ?_⟩,
        List.not_mem_nil⟩
      rw [strip_eq_some.mpr joined, Option.map_some]
  · rw [getGroup, Heap.read_some found]
    simp only [bind, Except.bind]
    split
    case isTrue empty =>
        have nothing : contents.entries = [] := List.length_eq_zero_iff.mp empty
        rw [nothing]
        exact ⟨tables, rfl, rfl⟩
    case isFalse =>
        obtain ⟨after, run, kept⟩ := getGroupFrom_calls group contents.size cb
          contents.entries [] closure sound found
          (by simp [KeyValue.size])
        exact ⟨after, run, kept.1⟩

theorem getGroup_once_general :
    ∃ names : List CString, names.Nodup ∧ ⟨[97], by decide⟩ ∈ names ∧
      ∃ after, getGroup 0 ⟨[98], by decide⟩ (fun name _ seen => (0, seen ++ [name]))
          ⟨RbTree.empty.set 0 general, 1⟩ [] =
        .ok ((callEach (fun name _ seen => (0, seen ++ [name])) (names.map (fun name =>
            (name, [⟨[98], by decide⟩, name].foldl filter general))) []).1, after,
          (callEach (fun name _ seen => (0, seen ++ [name])) (names.map (fun name =>
            (name, [⟨[98], by decide⟩, name].foldl filter general))) []).2) := by
  obtain ⟨names, distinct, named, _, after, run, _⟩ := getGroup_once 0 ⟨[98], by decide⟩
    (fun name _ seen => (0, seen ++ [name])) ⟨RbTree.empty.set 0 general, 1⟩ [] general general_sound
    (RbTree.find_set_self _ _ _)
  have member : ⟨[97], by decide⟩ ∈ names :=
    (named _).mpr ⟨⟨[98, 46, 97], by decide⟩, ⟨[50], by decide⟩, ⟨[97], by decide⟩,
      by decide, rfl, by decide⟩
  exact ⟨names, distinct, member, after, run⟩

end Properties

end Sbf
