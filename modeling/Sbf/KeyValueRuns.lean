import Sbf.KeyValueItems

set_option autoImplicit false

namespace Sbf

open Octets RedBlack

namespace CLibrary

/-- The address behind all that are in use. -/
def behind (live : List Nat) : Nat := live.foldr (fun address next => max (address + 1) next) 0

theorem lt_behind {live : List Nat} {address : Nat} (inside : address ∈ live) :
    address < behind live := by
  induction live with
  | nil => cases inside
  | cons first rest ih =>
      rw [behind, List.foldr_cons]
      rcases List.mem_cons.mp inside with rfl | inside
      · omega
      · have there := ih inside
        rw [behind] at there
        omega

def plain : CLibrary where
  strcmp := fun left right => if left < right then -1 else if right < left then 1 else 0
  orders := by
    constructor
    · intro left right
      by_cases less : left < right
      · simp [less]
      · by_cases more : right < left <;> simp [less, more]
    · intro left right
      by_cases less : left < right
      · simp [less, less.not_gt]
      · by_cases more : right < left <;> simp [less, more]
  calloc := behind
  fresh := fun _ inside => Nat.lt_irrefl _ (lt_behind inside)
  garbage := fun _ => ⟨.empty, 7, []⟩
  links := fun item => ⟨some item, none, some item, .red⟩

end CLibrary

namespace KeyValueItems

/-- What is asked of a table; `keys` is a walk over it. -/
inductive Op where
  | put (key value : CString)
  | remove (key : CString)
  | get (key : CString)
  | size
  | keys

inductive Answer where
  | value (found : Option CString)
  | size (mSize : UInt32)
  | keys (names : List CString)
deriving DecidableEq

/-- One call, with what it returns. -/
def perform (c : CLibrary) (fuel rounds : Nat) (op : Op) : Step Fault KeyValueItems Answer :=
  fun table =>
    match op with
    | .put key value => do .ok (← table.put c fuel key value, [])
    | .remove key => do .ok (← table.remove c fuel key, [])
    | .get key => do .ok (table, [.value (← table.get c fuel key)])
    | .size => .ok (table, [.size table.mSize])
    | .keys => do .ok (table, [.keys (← table.keys fuel rounds)])

/-- What the calls mean on a table of strings. -/
def listed (op : Op) : Step Unit KeyValue Answer := fun map =>
  match op with
  | .put key value => .ok (map.put key value, [])
  | .remove key => .ok (map.remove key, [])
  | .get key => .ok (map, [.value (map.get key)])
  | .size => .ok (map, [.size (UInt32.ofNat map.size)])
  | .keys => .ok (map, [.keys (map.entries.map (·.1))])

variable (c : CLibrary) {fuel rounds count : Nat} {table : KeyValueItems}
  {index : RbTree CString ItemPtr} {map map' : KeyValue} {op : Op} {out : List Answer}

namespace Represents

theorem entries (represents : table.Represents index map) :
    map.entries = index.entries.map (fun entry => (entry.1, (table.item entry.2).value)) := by
  rw [represents.values]
  rfl

theorem find_of_mem {entry : CString × ItemPtr} (inside : entry ∈ index.entries) :
    index.find entry.1 = some entry.2 :=
  (RbTree.mem_entries_iff _ index.sorted _ _).mp inside

/-- The items in the order of the tree are the blocks in use. -/
theorem blocks (represents : table.Represents index map) :
    (index.entries.map (·.2)).Perm (table.live.map .block) := by
  have distinct : (index.entries.map (·.2)).Nodup := by
    rw [List.Nodup, List.pairwise_map]
    refine (List.Pairwise.and_mem.mp index.sorted).imp ?_
    rintro first later ⟨inside, behind, less⟩ same
    have here := represents.tree.key_of_find (find_of_mem inside)
    have there := represents.tree.key_of_find (find_of_mem behind)
    exact less.ne (here.symm.trans ((congrArg table.mKey same).trans there))
  refine (List.perm_ext_iff_of_nodup distinct
    (represents.nodup.map fun _ _ => ItemPtr.block.inj)).mpr fun item => ?_
  constructor
  · intro listed
    obtain ⟨entry, inside, rfl⟩ := List.mem_map.mp listed
    obtain ⟨address, there, same⟩ := represents.block (find_of_mem inside)
    exact List.mem_map.mpr ⟨address, there, same.symm⟩
  · intro inside
    obtain ⟨address, there, rfl⟩ := List.mem_map.mp inside
    have found := (represents.live _).mpr ⟨address, there, rfl⟩
    exact List.mem_map.mpr ⟨_, (RbTree.mem_entries_iff _ index.sorted _ _).mpr found, rfl⟩

/-- One block is in use for each key. -/
theorem live_length (represents : table.Represents index map) :
    table.live.length = map.size := by
  have same := represents.blocks.length_eq
  rw [List.length_map, List.length_map] at same
  rw [KeyValue.size, represents.entries, List.length_map, same]

end Represents

theorem keysFrom_ok {start : Option ItemPtr} {items : List ItemPtr}
    (walked : SysTree.foreachFrom .right table.mTree fuel rounds start = .ok items) :
    table.keysFrom fuel rounds start = .ok (items.map table.mKey) := by
  induction rounds generalizing start items with
  | zero =>
      cases start with
      | none =>
          cases walked
          rfl
      | some item => cases walked
  | succ rounds ih =>
      cases start with
      | none =>
          cases walked
          rfl
      | some item =>
          rw [SysTree.foreachFrom] at walked
          rw [keysFrom, SysTree.next]
          cases moved : SysTree.step .right table.mTree fuel item with
          | error failure =>
              rw [moved] at walked
              cases walked
          | ok after =>
              rw [moved] at walked
              simp only [bind, Except.bind] at walked ⊢
              cases onward : SysTree.foreachFrom .right table.mTree fuel rounds after with
              | error failure =>
                  rw [onward] at walked
                  cases walked
              | ok rest =>
                  rw [onward] at walked
                  cases walked
                  rw [ih onward]
                  rfl

namespace Represents

/-- A walk meets the keys in their order. -/
theorem keys (represents : table.Represents index map)
    (enough : 2 * Nat.log 2 (index.entries.length + 1) < fuel)
    (room : index.entries.length ≤ rounds) :
    table.keys fuel rounds = .ok (map.entries.map (·.1)) := by
  have walked := (SysTree.foreach_represents represents.tree enough room).1
  have first := SysTree.minmax_represents represents.tree (-1) enough
  rw [SysTree.foreach, first] at walked
  rw [KeyValueItems.keys, first]
  refine (keysFrom_ok walked).trans ?_
  rw [represents.entries, List.map_map, List.map_map]
  congr 1
  refine List.map_congr_left fun entry inside => ?_
  exact represents.tree.key_of_find (find_of_mem inside)

end Represents

/-- The memory holds the table, with at most so many items. -/
def Related (count : Nat) (table : KeyValueItems) (map : KeyValue) : Prop :=
  ∃ index, table.Represents index map ∧ index.entries.length ≤ count

theorem related_create : Related 0 (create c) RbTree.empty :=
  ⟨RbTree.empty, create_represents c, Nat.le_refl _⟩

/-- Each call answers as the table of strings. -/
theorem perform_refines (related : Related count table map)
    (enough : 2 * Nat.log 2 (count + 1) < fuel) (room : count ≤ rounds)
    (ran : listed op map = .ok (map', out)) : ∃ after,
    perform c fuel rounds op table = .ok (after, out) ∧ Related (count + 1) after map' := by
  obtain ⟨index, represents, few⟩ := related
  have enough := SysTree.room_of_le few enough
  cases op with
  | put key value =>
      cases ran
      obtain ⟨after, index', ran, done, grown⟩ := represents.put c enough key value
      refine ⟨after, ?_, index', done, by omega⟩
      simp only [perform, ran, bind, Except.bind]
  | remove key =>
      cases ran
      obtain ⟨after, ran, done, fewer⟩ := represents.remove c enough key
      refine ⟨after, ?_, _, done, by omega⟩
      simp only [perform, ran, bind, Except.bind]
  | get key =>
      cases ran
      refine ⟨table, ?_, index, represents, by omega⟩
      simp only [perform, represents.get c enough, bind, Except.bind]
  | size =>
      cases ran
      refine ⟨table, ?_, index, represents, by omega⟩
      rw [perform, represents.size, KeyValue.size, represents.entries, List.length_map]
  | keys =>
      cases ran
      refine ⟨table, ?_, index, represents, by omega⟩
      simp only [perform, represents.keys enough (few.trans room), bind, Except.bind]

/-- So does a run of calls, from any table in memory. -/
theorem run_related (ops : List Op) (related : Related count table map)
    (enough : 2 * Nat.log 2 (count + ops.length + 1) < fuel) (room : count + ops.length ≤ rounds)
    (ran : Step.all (ops.map listed) map = .ok (map', out)) : ∃ after,
    Step.all (ops.map (perform c fuel rounds)) table = .ok (after, out) ∧
      Related (count + ops.length) after map' := by
  refine Step.all_refines (fun below related ran => ?_) (Nat.le_refl _) related ran
  exact perform_refines c related (SysTree.room_of_le below.le enough) (below.le.trans room) ran

/-- `free` of all blocks that are in use. -/
theorem free_all {items : List ItemPtr} (all : items.Perm (table.live.map .block)) :
    ∃ last, items.foldlM (free c) table = .ok last ∧ last.live = [] := by
  induction items generalizing table with
  | nil =>
      refine ⟨table, rfl, ?_⟩
      simpa using all.symm.eq_nil
  | cons item rest ih =>
      obtain ⟨address, inside, rfl⟩ := List.mem_map.mp (all.subset List.mem_cons_self)
      have others : rest.Perm ((table.live.erase address).map .block) :=
        (all.trans ((List.perm_cons_erase inside).map _)).cons_inv
      obtain ⟨last, ran, done⟩ := @ih
        { table with
          mTree := table.mTree.write (.block address) (c.links (.block address))
          item := Function.update table.item (.block address) (c.garbage (.block address))
          live := table.live.erase address } others
      refine ⟨last, ?_, done⟩
      rw [List.foldlM_cons, free, if_pos inside]
      exact ran

/-- `sbfKeyValue_destroy` frees every block that is in use, each once. -/
theorem Represents.destroy (represents : table.Represents index map)
    (enough : 2 * Nat.log 2 (index.entries.length + 1) < fuel)
    (room : index.entries.length ≤ rounds) : ∃ last,
    table.destroy c fuel rounds = .ok last ∧ last.live = [] := by
  obtain ⟨tree, visited, -⟩ := SysTree.foreachSafe_represents (fun item => some (c.links item))
    represents.tree enough room
  obtain ⟨last, freed, done⟩ := @free_all c { table with mTree := tree } _ represents.blocks
  refine ⟨last, ?_, done⟩
  simp only [KeyValueItems.destroy, visited, bind, Except.bind]
  exact freed

section Copies

/-- A table that is built up from a sorted list of entries. -/
theorem find_putAll {entries : List (CString × CString)}
    (sorted : entries.Pairwise (fun first later => first.1 < later.1)) (start : KeyValue)
    (key : CString) :
    KeyValue.get (entries.foldl (fun map entry => KeyValue.put map entry.1 entry.2) start) key =
      (RbTree.lookup entries key).or (start.get key) := by
  induction sorted generalizing start with
  | nil => rfl
  | @cons first rest above _ ih =>
      rw [List.foldl_cons, ih, KeyValue.get_put]
      by_cases here : key = first.1
      · have behind : RbTree.lookup rest key = none := by
          rw [RbTree.lookup, Option.map_eq_none_iff, List.find?_eq_none]
          intro entry inside
          rw [here]
          simpa using (above entry inside).ne'
        rw [if_pos here, behind]
        simp [RbTree.lookup, here]
      · rw [if_neg here]
        simp [RbTree.lookup, Ne.symm here]

theorem putAll_entries (map : KeyValue) :
    map.entries.foldl (fun map entry => KeyValue.put map entry.1 entry.2) RbTree.empty = map := by
  refine RbTree.ext_find fun key => ?_
  exact (find_putAll map.sorted RbTree.empty key).trans (Option.or_none ..)

variable {copied : KeyValueItems} {index' : RbTree CString ItemPtr}

/-- The loop of `sbfKeyValue_copy`. -/
theorem copy_loop (represents : table.Represents index map) {limit : Nat}
    (enough : 2 * Nat.log 2 (limit + 1) < fuel) {entries : List (CString × ItemPtr)}
    (inside : ∀ entry ∈ entries, entry ∈ index.entries) (start : copied.Represents index' map')
    (few : index'.entries.length + entries.length ≤ limit) : ∃ after last,
    (entries.map (·.2)).foldlM (fun copy item => do
      copy.put c fuel (table.mKey item) (← table.getValue item)) copied = .ok after ∧
    after.Represents last (entries.foldl
      (fun map entry => KeyValue.put map entry.1 (table.item entry.2).value) map') ∧
    last.entries.length ≤ limit := by
  induction entries generalizing copied index' map' with
  | nil => exact ⟨copied, index', rfl, start, few⟩
  | cons entry rest ih =>
      have found := Represents.find_of_mem (inside entry List.mem_cons_self)
      rw [List.length_cons] at few
      obtain ⟨next, index'', ran, done, grown⟩ := start.put c
        (SysTree.room_of_le (by omega) enough) entry.1 (table.item entry.2).value
      obtain ⟨after, last, onward, finish, low⟩ :=
        ih (fun other behind => inside other (List.mem_cons_of_mem _ behind)) done (by omega)
      refine ⟨after, last, ?_, finish, low⟩
      rw [List.map_cons, List.foldlM_cons, represents.getValue found,
        represents.tree.key_of_find found]
      simp only [bind, Except.bind, ran]
      exact onward

/-- `sbfKeyValue_copy` makes a table with the same contents. -/
theorem Represents.copy (represents : table.Represents index map)
    (enough : 2 * Nat.log 2 (index.entries.length + 1) < fuel)
    (room : index.entries.length ≤ rounds) : ∃ copied last,
    table.copy c fuel rounds = .ok copied ∧ copied.Represents last map ∧
      last.entries.length ≤ index.entries.length := by
  have walked := (SysTree.foreach_represents represents.tree enough room).1
  obtain ⟨after, last, ran, done, few⟩ := copy_loop c represents enough (fun _ inside => inside)
    (create_represents c) (by simp [RbTree.empty])
  refine ⟨after, last, ?_, ?_, few⟩
  · simp only [KeyValueItems.copy, walked, bind, Except.bind]
    exact ran
  · have whole := putAll_entries map
    rw [represents.entries, List.foldl_map] at whole
    rwa [whole] at done

end Copies

theorem letter_plain {letter : UInt8} (visible : letter ≠ 0) : 0 ∉ [letter] := by
  simpa using visible.symm

def nameA : CString := ⟨[97], letter_plain (by decide)⟩

def nameB : CString := ⟨[98], letter_plain (by decide)⟩

/-- Two keys, one of which gets a second value, and the other one goes. -/
def twoKeys : List Op :=
  [.put nameB nameA, .put nameA nameA, .put nameA nameB, .get nameA, .keys, .remove nameB,
    .get nameB, .size]

/-- Any calls on a table that starts empty answer as the table of strings would, in loops of
logarithmic length; one block is in use for each key, and `sbfKeyValue_destroy` frees them all,
each once. -/
theorem keyValue_run_refines (ops : List Op) (enough : 2 * Nat.log 2 (ops.length + 1) < fuel)
    (room : ops.length ≤ rounds)
    (ran : Step.all (ops.map listed) RbTree.empty = .ok (map, out)) : ∃ after last,
    Step.all (ops.map (perform c fuel rounds)) (create c) = .ok (after, out) ∧
      after.live.length = map.size ∧ after.live.Nodup ∧
      after.destroy c fuel rounds = .ok last ∧ last.live = [] := by
  obtain ⟨after, done, index, represents, few⟩ := run_related c ops (related_create c)
    (by rwa [Nat.zero_add]) ((Nat.zero_add _).trans_le room) ran
  rw [Nat.zero_add] at few
  obtain ⟨last, freed, nothing⟩ := represents.destroy c (SysTree.room_of_le few enough)
    (few.trans room)
  exact ⟨after, last, done, represents.live_length, represents.nodup, freed, nothing⟩

theorem keyValue_run_refines_twoKeys : ∃ after last,
    Step.all (twoKeys.map (perform .plain 8 8)) (create .plain) =
        .ok (after, [.value (some nameB), .keys [nameA, nameB], .value none, .size 1]) ∧
      after.live.length = 1 ∧ after.destroy .plain 8 8 = .ok last ∧ last.live = [] := by
  obtain ⟨map, ran, size⟩ : ∃ map, Step.all (twoKeys.map listed) RbTree.empty =
      .ok (map, [.value (some nameB), .keys [nameA, nameB], .value none, .size 1]) ∧
        map.size = 1 := ⟨_, rfl, rfl⟩
  obtain ⟨after, last, done, live, -, freed, nothing⟩ := keyValue_run_refines .plain twoKeys
    (by decide : 2 * Nat.log 2 (twoKeys.length + 1) < 8) (by decide : twoKeys.length ≤ 8) ran
  exact ⟨after, last, done, live.trans size, freed, nothing⟩

/-- A copy answers any further calls as the table of strings that it was taken from, and can be
destroyed. -/
theorem keyValue_run_copy (ops more : List Op) {answers : List Answer}
    (enough : 2 * Nat.log 2 (ops.length + more.length + 1) < fuel)
    (room : ops.length + more.length ≤ rounds)
    (ran : Step.all (ops.map listed) RbTree.empty = .ok (map, out))
    (onward : Step.all (more.map listed) map = .ok (map', answers)) : ∃ after copied done last,
    Step.all (ops.map (perform c fuel rounds)) (create c) = .ok (after, out) ∧
      after.copy c fuel rounds = .ok copied ∧ copied.live.length = map.size ∧
      Step.all (more.map (perform c fuel rounds)) copied = .ok (done, answers) ∧
      done.destroy c fuel rounds = .ok last ∧ last.live = [] := by
  have shorter : 0 + ops.length ≤ ops.length + more.length := by omega
  obtain ⟨after, first, index, represents, few⟩ := run_related c ops (related_create c)
    (SysTree.room_of_le shorter enough) (shorter.trans room) ran
  rw [Nat.zero_add] at few
  obtain ⟨copied, index', made, same, small⟩ := represents.copy c
    (SysTree.room_of_le (few.trans (Nat.le_add_right _ _)) enough)
    (few.trans ((Nat.le_add_right _ _).trans room))
  obtain ⟨done, second, last, finish, low⟩ := run_related c more
    ⟨index', same, small.trans few⟩ enough room onward
  obtain ⟨last, freed, nothing⟩ := finish.destroy c (SysTree.room_of_le low enough)
    (low.trans room)
  exact ⟨after, copied, done, last, first, made, same.live_length, second, freed, nothing⟩

theorem keyValue_run_copy_twoKeys : ∃ after copied done last,
    Step.all (twoKeys.map (perform .plain 8 12)) (create .plain) =
        .ok (after, [.value (some nameB), .keys [nameA, nameB], .value none, .size 1]) ∧
      after.copy .plain 8 12 = .ok copied ∧ copied.live.length = 1 ∧
      Step.all (([.put nameB nameB, .keys] : List Op).map (perform .plain 8 12)) copied =
        .ok (done, [.keys [nameA, nameB]]) ∧
      done.destroy .plain 8 12 = .ok last ∧ last.live = [] := by
  obtain ⟨map, map', ran, size, onward⟩ : ∃ map map', Step.all (twoKeys.map listed) RbTree.empty =
      .ok (map, [.value (some nameB), .keys [nameA, nameB], .value none, .size 1]) ∧
        map.size = 1 ∧ Step.all (([.put nameB nameB, .keys] : List Op).map listed) map =
          .ok (map', [.keys [nameA, nameB]]) := ⟨_, _, rfl, rfl, rfl⟩
  obtain ⟨after, copied, done, last, first, made, live, second, freed, nothing⟩ :=
    keyValue_run_copy .plain twoKeys [.put nameB nameB, .keys]
      (by decide : 2 * Nat.log 2 (twoKeys.length + 2 + 1) < 8)
      (by decide : twoKeys.length + 2 ≤ 12) ran onward
  exact ⟨after, copied, done, last, first, made, live.trans size, second, freed, nothing⟩

end KeyValueItems

end Sbf
