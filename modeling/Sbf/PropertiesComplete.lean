import Sbf.PropertiesLines

set_option autoImplicit false

namespace Sbf

open Octets

namespace Properties

/-- The lines of a file that end with a newline. -/
def linesOf (content : CString) : List CString :=
  (splitLines content.chars).1.pmap (fun line visible => ⟨line, visible⟩)
    (splitLines_chars content.plain).1

/-- What is behind the last newline. -/
def restOf (content : CString) : CString :=
  ⟨(splitLines content.chars).2, (splitLines_chars content.plain).2⟩

/-- All lines, the last one with or without a newline. -/
def allLines (content : CString) : List CString :=
  linesOf content ++ (if (restOf content).chars = [] then [] else [restOf content])

/-- What is known of a key behind a line. -/
def lastStep (key : CString) (found : Option CString) (line : CString) : Option CString :=
  match entry line with
  | .assign other value => if key = other then some value else found
  | _ => found

/-- What the last line with a key says. -/
def lastValue (lines : List CString) (key : CString) : Option CString :=
  lines.foldl (lastStep key) none

/-- A file is loaded completely. -/
structure LoadsAs (lines : List CString) (result : Option KeyValue) : Prop where
  succeeds : result.isSome = true ↔ ∀ line ∈ lines, entry line ≠ .malformed
  maps : ∀ table, result = some table → ∀ key, table.get key = lastValue lines key

/-- The table of a file that was read, unless there was an error. -/
def outcome (done : Option LoadError × KeyValue) : Option KeyValue :=
  match done.1 with
  | some _ => none
  | none => some done.2

theorem outcome_some {done : Option LoadError × KeyValue} {error : LoadError}
    (failed : done.1 = some error) : outcome done = none := by rw [outcome, failed]

theorem outcome_none {done : Option LoadError × KeyValue} (ends : done.1 = none) :
    outcome done = some done.2 := by rw [outcome, ends]

/-- Each line of a file with what is read of it. -/
def linesRead (BUFSIZ grown : Nat) (content : CString) : List (CString × CString) :=
  (linesOf content).zip (seen BUFSIZ grown (linesOf content)) ++
    (if (restOf content).chars = [] then [] else [(restOf content, .empty)])

/-- What is not read does not matter: if a line is malformed, one that is read is; otherwise the
part that is read of a line is not malformed, and for each key the last line with it is read
whole, or nothing is read of it but white space and the lines in front say the same. -/
structure Harmless (lines : List (CString × CString)) : Prop where
  refuses : (∃ line ∈ lines, entry line.1 = .malformed) → ∃ line ∈ lines, entry line.2 = .malformed
  accepts : (∀ line ∈ lines, entry line.1 ≠ .malformed) → ∀ line ∈ lines, entry line.2 ≠ .malformed
  last : (∀ line ∈ lines, entry line.1 ≠ .malformed) →
    ∀ front line back key value, lines = front ++ line :: back →
      entry line.1 = .assign key value →
      (∀ later ∈ back, ∀ other, entry later.1 ≠ .assign key other) →
      line.2 = line.1 ∨ (entry line.2 = .skip ∧ lastValue (front.map Prod.snd) key = some value)

theorem entryOf_assign {s key value : CString} :
    entryOf s = .assign key value ↔ s.chars.head? ≠ some comment ∧ key.chars ≠ [] ∧
      equals ∉ key.chars ∧ s.chars = key.chars ++ equals :: value.chars := by
  constructor
  · intro assigned
    unfold entryOf at assigned
    split at assigned
    case isTrue => cases assigned
    case isFalse text =>
        cases behind : s.behind equals with
        | none =>
            rw [behind] at assigned
            cases assigned
        | some rest =>
            rw [behind] at assigned
            dsimp only at assigned
            split at assigned
            case isTrue => cases assigned
            case isFalse named =>
                cases assigned
                have cut := CString.cut_behind behind
                refine ⟨fun here => text (Or.inr here), ?_, CString.upTo_absent s equals, cut⟩
                intro nothing
                rw [nothing] at cut
                exact named (by rw [cut]; rfl)
  · intro shape
    obtain ⟨plain, named, absent, cut⟩ := shape
    have text : ¬ (s.chars = [] ∨ s.chars.head? = some comment) := by
      intro skipped
      cases skipped with
      | inl nothing =>
          rw [nothing] at cut
          exact absurd cut.symm (by simp)
      | inr here => exact plain here
    have first : s.chars.head? ≠ some equals := by
      intro here
      obtain ⟨c, rest, shape⟩ := List.exists_cons_of_ne_nil named
      rw [cut, shape] at here
      have same : c = equals := by simpa using here
      rw [shape, same] at absent
      exact absent List.mem_cons_self
    rw [entryOf, if_neg text, CString.behind_cut absent cut]
    simp only [if_neg first, CString.upTo_cut value absent cut]

/-- What is read of a line is behind its white space what is read of the text there. -/
theorem skipSpace_first (line : CString) (count : Nat) :
    ∃ left, skipSpace (line.first count) = (skipSpace line).first left ∧
      (left < (skipSpace line).chars.length ∨ line.first count = line ∨
        (skipSpace line).chars = []) := by
  have chars : ∀ (text : Bytes) (count : Nat), ∃ left,
      (text.take count).dropWhile isSpace = (text.dropWhile isSpace).take left ∧
      (left < (text.dropWhile isSpace).length ∨ text.take count = text ∨
        text.dropWhile isSpace = []) := by
    intro text
    induction text with
    | nil =>
        intro count
        exact ⟨0, by simp, Or.inr (Or.inl (by simp))⟩
    | cons c text ih =>
        intro count
        cases count with
        | zero =>
            refine ⟨0, by simp, ?_⟩
            by_cases nothing : (c :: text).dropWhile isSpace = []
            · exact Or.inr (Or.inr nothing)
            · exact Or.inl (List.length_pos_iff.mpr nothing)
        | succ count =>
            by_cases blank : isSpace c = true
            · obtain ⟨left, same, ends⟩ := ih count
              rw [List.take_succ_cons, List.dropWhile_cons_of_pos blank,
                List.dropWhile_cons_of_pos blank]
              refine ⟨left, same, ?_⟩
              cases ends with
              | inl short => exact Or.inl short
              | inr more =>
                  right
                  cases more with
                  | inl whole => exact Or.inl (by rw [whole])
                  | inr nothing => exact Or.inr nothing
            · rw [List.take_succ_cons, List.dropWhile_cons_of_neg blank,
                List.dropWhile_cons_of_neg blank]
              refine ⟨count + 1, by rw [List.take_succ_cons], ?_⟩
              by_cases short : count < text.length
              · exact Or.inl (Nat.succ_lt_succ short)
              · right
                left
                rw [List.take_of_length_le (Nat.le_of_not_lt short)]
  obtain ⟨left, same, ends⟩ := chars line.chars count
  refine ⟨left, CString.ext same, ?_⟩
  cases ends with
  | inl short => exact Or.inl short
  | inr more =>
      right
      cases more with
      | inl whole => exact Or.inl (CString.ext whole)
      | inr nothing => exact Or.inr nothing

/-- A part of a line that assigns has the line's key, and its value only if it is the line. -/
theorem entry_first {line key value : CString} {count : Nat}
    (assigned : entry (line.first count) = .assign key value) :
    ∃ whole, entry line = .assign key whole ∧ (value = whole → line.first count = line) := by
  obtain ⟨left, same, ends⟩ := skipSpace_first line count
  rw [entry, same, entryOf_assign] at assigned
  obtain ⟨plain, named, absent, cut⟩ := assigned
  have split : (skipSpace line).chars = key.chars ++ equals ::
      (value.chars ++ (skipSpace line).chars.drop left) := by
    calc (skipSpace line).chars =
          (skipSpace line).chars.take left ++ (skipSpace line).chars.drop left :=
        (List.take_append_drop _ _).symm
      _ = _ := by
        have shown : (skipSpace line).chars.take left = key.chars ++ equals :: value.chars := cut
        rw [shown, List.append_assoc, List.cons_append]
  have visible : 0 ∉ value.chars ++ (skipSpace line).chars.drop left := by
    intro zero
    apply (skipSpace line).plain
    rw [split]
    exact List.mem_append_right _ (List.mem_cons_of_mem _ zero)
  obtain ⟨c, front, shape⟩ := List.exists_cons_of_ne_nil named
  refine ⟨⟨_, visible⟩, ?_, ?_⟩
  · rw [entry, entryOf_assign]
    refine ⟨?_, named, absent, split⟩
    rw [cut, shape] at plain
    rw [split, shape]
    exact plain
  · intro equal
    have nothing : (skipSpace line).chars.drop left = [] := by
      have chars : value.chars = value.chars ++ (skipSpace line).chars.drop left :=
        congrArg CString.chars equal
      simpa using chars
    have long := List.drop_eq_nil_iff.mp nothing
    cases ends with
    | inl short => omega
    | inr more =>
        cases more with
        | inl whole => exact whole
        | inr empty =>
            rw [empty, shape] at split
            cases split

section Values

variable {key value : CString} {line : CString} {lines : List CString}

theorem lastStep_assign (found : Option CString) (assigned : entry line = .assign key value) :
    lastStep key found line = some value := by
  rw [lastStep, assigned]
  exact if_pos rfl

theorem lastStep_other (found : Option CString) (other : ∀ v, entry line ≠ .assign key v) :
    lastStep key found line = found := by
  unfold lastStep
  split
  case h_1 k v assigned =>
      split
      case isTrue same => exact absurd assigned (same ▸ other v)
      case isFalse => rfl
  case h_2 => rfl

/-- Lines without a key say nothing of it. -/
theorem foldl_other (found : Option CString)
    (others : ∀ line ∈ lines, ∀ v, entry line ≠ .assign key v) :
    lines.foldl (lastStep key) found = found := by
  induction lines with
  | nil => rfl
  | cons line lines ih =>
      rw [List.foldl_cons, lastStep_other found (others line List.mem_cons_self)]
      exact ih (fun line' member => others line' (List.mem_cons_of_mem _ member))

theorem lastValue_last {front back : List CString} (assigned : entry line = .assign key value)
    (others : ∀ later ∈ back, ∀ v, entry later ≠ .assign key v) :
    lastValue (front ++ line :: back) key = some value := by
  rw [lastValue, List.foldl_append, List.foldl_cons, foldl_other _ others,
    lastStep_assign _ assigned]

/-- A table after lines that are all right holds for each key the value of its last line. -/
theorem readLines_get (path : CString) (n : Nat) (table : KeyValue)
    (good : ∀ line ∈ lines, entry line ≠ .malformed) :
    (readLines path lines n table).1 = none ∧
      ∀ key, (readLines path lines n table).2.get key =
        lines.foldl (lastStep key) (table.get key) := by
  induction lines generalizing n table with
  | nil => exact ⟨rfl, fun _ => rfl⟩
  | cons line lines ih =>
      have rest : ∀ line' ∈ lines, entry line' ≠ .malformed :=
        fun line' member => good line' (List.mem_cons_of_mem _ member)
      rw [readLines]
      cases kind : entry line with
      | skip =>
          obtain ⟨none_, each⟩ := ih (n + 1) table rest
          refine ⟨none_, ?_⟩
          intro key
          rw [List.foldl_cons, lastStep, kind]
          exact each key
      | malformed => exact absurd kind (good line List.mem_cons_self)
      | assign other value =>
          obtain ⟨none_, each⟩ := ih (n + 1) (table.put other value) rest
          refine ⟨none_, ?_⟩
          intro key
          rw [List.foldl_cons, lastStep, kind]
          exact (each key).trans (by rw [KeyValue.get_put])

theorem readLines_fails (path : CString) (n : Nat) (table : KeyValue)
    (bad : ∃ line ∈ lines, entry line = .malformed) :
    ∃ error, (readLines path lines n table).1 = some error := by
  induction lines generalizing n table with
  | nil =>
      obtain ⟨line, member, _⟩ := bad
      cases member
  | cons line lines ih =>
      rw [readLines]
      have behind : entry line ≠ .malformed → ∃ line' ∈ lines, entry line' = .malformed := by
        intro good
        obtain ⟨line', member, malformed⟩ := bad
        cases List.mem_cons.mp member with
        | inl here => exact absurd (here ▸ malformed) good
        | inr inside => exact ⟨line', inside, malformed⟩
      cases kind : entry line with
      | skip =>
          apply ih
          apply behind
          rw [kind]
          intro same
          cases same
      | malformed => exact ⟨_, rfl⟩
      | assign other value =>
          apply ih
          apply behind
          rw [kind]
          intro same
          cases same

end Values

section Pairs

variable {pairs : List (CString × CString)}
  (parts : ∀ pair ∈ pairs, ∃ count, pair.2 = pair.1.first count)
include parts

/-- Where nothing assigns a key, no part does. -/
theorem parts_other {key : CString} {pair : CString × CString} (member : pair ∈ pairs)
    (other : ∀ v, entry pair.1 ≠ .assign key v) (v : CString) :
    entry pair.2 ≠ .assign key v := by
  obtain ⟨count, part⟩ := parts pair member
  intro assigned
  rw [part] at assigned
  obtain ⟨whole, assigned, _⟩ := entry_first assigned
  exact other whole assigned

omit parts in
/-- Every key has a last line, or none. -/
theorem last_cases (key : CString) :
    (∀ pair ∈ pairs, ∀ v, entry pair.1 ≠ .assign key v) ∨
    ∃ front pair back value, pairs = front ++ pair :: back ∧
      entry pair.1 = .assign key value ∧
      ∀ later ∈ back, ∀ v, entry later.1 ≠ .assign key v := by
  induction pairs with
  | nil => exact Or.inl nofun
  | cons pair pairs ih =>
      cases ih with
      | inr found =>
          obtain ⟨front, other, back, value, shape, rest⟩ := found
          exact Or.inr ⟨pair :: front, other, back, value, by rw [shape]; rfl, rest⟩
      | inl others =>
          by_cases here : ∃ value, entry pair.1 = .assign key value
          · obtain ⟨value, assigned⟩ := here
            exact Or.inr ⟨[], pair, pairs, value, rfl, assigned, others⟩
          · left
            intro other member v
            cases List.mem_cons.mp member with
            | inl same =>
                rw [same]
                exact fun assigned => here ⟨v, assigned⟩
            | inr behind => exact others other behind v

/-- What the parts say of a key whose last line is known. -/
theorem lastValue_parts {key value : CString} {front back : List (CString × CString)}
    {pair : CString × CString} (shape : pairs = front ++ pair :: back)
    (assigned : entry pair.1 = .assign key value)
    (others : ∀ later ∈ back, ∀ v, entry later.1 ≠ .assign key v)
    (good : entry pair.2 ≠ .malformed) :
    lastValue (pairs.map Prod.snd) key = some value ↔
      pair.2 = pair.1 ∨ (entry pair.2 = .skip ∧ lastValue (front.map Prod.snd) key = some value) := by
  have member : pair ∈ pairs := by
    rw [shape]
    exact List.mem_append_right _ List.mem_cons_self
  have later : ∀ line ∈ back.map Prod.snd, ∀ v, entry line ≠ .assign key v := by
    intro line inside
    obtain ⟨other, behind, rfl⟩ := List.mem_map.mp inside
    have known : other ∈ pairs := by
      rw [shape]
      exact List.mem_append_right _ (List.mem_cons_of_mem _ behind)
    exact parts_other parts known (others other behind)
  have value_ : lastValue (pairs.map Prod.snd) key =
      lastStep key (lastValue (front.map Prod.snd) key) pair.2 := by
    rw [shape, List.map_append, List.map_cons, lastValue, List.foldl_append, List.foldl_cons,
      foldl_other _ later]
    rfl
  rw [value_]
  obtain ⟨count, part⟩ := parts pair member
  cases kind : entry pair.2 with
  | malformed => exact absurd kind good
  | skip =>
      have other : pair.2 ≠ pair.1 := by
        intro same
        rw [same, assigned] at kind
        cases kind
      rw [lastStep_other _ (by rw [kind]; nofun)]
      simp [other]
  | assign other shown =>
      have kind_ := kind
      rw [part] at kind_
      obtain ⟨whole, assigned_, equal⟩ := entry_first kind_
      rw [assigned] at assigned_
      cases assigned_
      rw [lastStep_assign _ kind]
      constructor
      · intro same
        exact Or.inl (part.trans (equal (Option.some.inj same)))
      · intro cases_
        cases cases_ with
        | inl same =>
            rw [same, assigned] at kind
            cases kind
            rfl
        | inr skipped => cases skipped.1

/-- Loading what is read is loading all of it just when the rest does not matter. -/
theorem harmless_iff (path : CString) :
    LoadsAs (pairs.map Prod.fst) (outcome (readLines path (pairs.map Prod.snd) 0 .empty)) ↔
      Harmless pairs := by
  by_cases bad : ∃ line ∈ pairs.map Prod.snd, entry line = .malformed
  · obtain ⟨error, failed⟩ := readLines_fails path 0 .empty bad
    rw [outcome_some failed]
    obtain ⟨line, inside, malformed⟩ := bad
    obtain ⟨pair, member, rfl⟩ := List.mem_map.mp inside
    constructor
    · intro loads
      have some_bad : ∃ pair ∈ pairs, entry pair.1 = .malformed := by
        by_contra none_
        have good : ∀ line ∈ pairs.map Prod.fst, entry line ≠ .malformed := by
          intro line inside bad
          obtain ⟨other, there, rfl⟩ := List.mem_map.mp inside
          exact none_ ⟨other, there, bad⟩
        exact absurd (loads.succeeds.mpr good) (by simp)
      obtain ⟨other, there, bad⟩ := some_bad
      exact ⟨fun _ => ⟨pair, member, malformed⟩, fun good => absurd bad (good other there),
        fun good => absurd bad (good other there)⟩
    · intro harmless
      refine ⟨?_, nofun⟩
      constructor
      · intro isSome
        cases isSome
      · intro good
        have accepts := harmless.accepts
          (fun other there => good _ (List.mem_map_of_mem there)) pair member
        exact absurd malformed accepts
  · have good : ∀ line ∈ pairs.map Prod.snd, entry line ≠ .malformed :=
      fun line inside malformed => bad ⟨line, inside, malformed⟩
    obtain ⟨none_, each⟩ := readLines_get path 0 .empty good
    rw [outcome_none none_]
    have values : ∀ key, (readLines path (pairs.map Prod.snd) 0 .empty).2.get key =
        lastValue (pairs.map Prod.snd) key := each
    constructor
    · intro loads
      have all : ∀ line ∈ pairs.map Prod.fst, entry line ≠ .malformed := loads.succeeds.mp rfl
      refine ⟨?_, fun _ pair member => good _ (List.mem_map_of_mem member), ?_⟩
      · intro refused
        obtain ⟨pair, member, malformed⟩ := refused
        exact absurd malformed (all _ (List.mem_map_of_mem member))
      · intro _ front pair back key value shape assigned others
        have member : pair ∈ pairs := by
          rw [shape]
          exact List.mem_append_right _ List.mem_cons_self
        rw [← lastValue_parts parts shape assigned others (good _ (List.mem_map_of_mem member)),
          ← values, loads.maps _ rfl key, shape, List.map_append, List.map_cons]
        apply lastValue_last assigned
        intro line inside
        obtain ⟨later, behind, rfl⟩ := List.mem_map.mp inside
        exact others later behind
    · intro harmless
      have all : ∀ pair ∈ pairs, entry pair.1 ≠ .malformed := by
        intro pair member malformed
        obtain ⟨other, there, bad_⟩ := harmless.refuses ⟨pair, member, malformed⟩
        exact good _ (List.mem_map_of_mem there) bad_
      refine ⟨?_, ?_⟩
      · constructor
        · intro _ line inside
          obtain ⟨pair, member, rfl⟩ := List.mem_map.mp inside
          exact all pair member
        · intro _
          rfl
      · intro table same key
        cases same
        rw [values]
        cases last_cases key with
        | inl others =>
            have nothing : lastValue (pairs.map Prod.fst) key = none := by
              apply foldl_other
              intro line inside
              obtain ⟨pair, member, rfl⟩ := List.mem_map.mp inside
              exact others pair member
            rw [nothing]
            apply foldl_other
            intro line inside
            obtain ⟨pair, member, rfl⟩ := List.mem_map.mp inside
            exact parts_other parts member (others pair member)
        | inr found =>
            obtain ⟨front, pair, back, value, shape, assigned, others⟩ := found
            have member : pair ∈ pairs := by
              rw [shape]
              exact List.mem_append_right _ List.mem_cons_self
            have full : lastValue (pairs.map Prod.fst) key = some value := by
              rw [shape, List.map_append, List.map_cons]
              apply lastValue_last assigned
              intro line inside
              obtain ⟨later, behind, rfl⟩ := List.mem_map.mp inside
              exact others later behind
            rw [full, lastValue_parts parts shape assigned others
              (good _ (List.mem_map_of_mem member))]
            exact harmless.last all front pair back key value shape assigned others

end Pairs

/-- An empty line at the end does nothing. -/
theorem readLines_empty (path : CString) (lines : List CString) (n : Nat) (table : KeyValue) :
    readLines path (lines ++ [.empty]) n table = readLines path lines n table := by
  induction lines generalizing n table with
  | nil => rfl
  | cons line lines ih =>
      rw [List.cons_append, readLines, readLines]
      cases entry line with
      | skip => exact ih (n + 1) table
      | malformed => rfl
      | assign key value => exact ih (n + 1) (table.put key value)

/-- No part of a line includes a file if the line does not. -/
theorem isInclude_first {line : CString} (count : Nat)
    (plain : isInclude (skipSpace line) = false) :
    isInclude (skipSpace (line.first count)) = false := by
  obtain ⟨left, same, _⟩ := skipSpace_first line count
  have longer : ∀ word : Bytes, word.length = 8 →
      ((skipSpace line).first left).chars.take 8 = word → (skipSpace line).chars.take 8 = word := by
    intro word size begins
    have chars : ((skipSpace line).first left).chars = (skipSpace line).chars.take left := rfl
    rw [chars, List.take_take] at begins
    have long : 8 ≤ left := by
      have counted := congrArg List.length begins
      rw [List.length_take, size] at counted
      omega
    rw [Nat.min_eq_left long] at begins
    exact begins
  rw [same]
  simp only [isInclude, Bool.or_eq_false_iff, decide_eq_false_iff_not] at plain ⊢
  exact ⟨fun begins => plain.1 (longer _ rfl begins), fun begins => plain.2 (longer _ rfl begins)⟩

theorem seen_length (BUFSIZ grown : Nat) (lines : List CString) :
    (seen BUFSIZ grown lines).length = lines.length := by
  induction lines generalizing grown with
  | nil => rfl
  | cons line lines ih => rw [seen, List.length_cons, List.length_cons, ih]

theorem seen_parts (BUFSIZ grown : Nat) (lines : List CString) :
    ∀ pair ∈ lines.zip (seen BUFSIZ grown lines), ∃ count, pair.2 = pair.1.first count := by
  induction lines generalizing grown with
  | nil => exact nofun
  | cons line lines ih =>
      intro pair member
      rw [seen, List.zip_cons_cons] at member
      cases List.mem_cons.mp member with
      | inl here => exact ⟨_, by rw [here]⟩
      | inr behind => exact ih _ pair behind

theorem linesRead_parts (BUFSIZ grown : Nat) (content : CString) :
    ∀ pair ∈ linesRead BUFSIZ grown content, ∃ count, pair.2 = pair.1.first count := by
  intro pair member
  cases List.mem_append.mp member with
  | inl inside => exact seen_parts BUFSIZ grown _ pair inside
  | inr last =>
      split at last
      case isTrue => cases last
      case isFalse =>
          rw [List.mem_singleton.mp last]
          exact ⟨0, rfl⟩

theorem linesRead_fst (BUFSIZ grown : Nat) (content : CString) :
    (linesRead BUFSIZ grown content).map Prod.fst = allLines content := by
  rw [linesRead, allLines, List.map_append, List.map_fst_zip (Nat.le_of_eq (seen_length ..).symm)]
  split <;> rfl

theorem linesRead_snd (BUFSIZ grown : Nat) (path content : CString) :
    readLines path ((linesRead BUFSIZ grown content).map Prod.snd) 0 .empty =
      readLines path (seen BUFSIZ grown (linesOf content)) 0 .empty := by
  rw [linesRead, List.map_append, List.map_snd_zip (Nat.le_of_eq (seen_length ..))]
  split
  case isTrue => rw [List.map_nil, List.append_nil]
  case isFalse => exact readLines_empty path _ 0 .empty

theorem linesOf_chars (content : CString) :
    (linesOf content).map CString.chars = (splitLines content.chars).1 := by
  rw [linesOf, List.map_pmap]
  exact List.pmap_eq_self.mpr (fun _ _ => rfl)

theorem linesOf_length (content : CString) :
    (linesOf content).length ≤ content.chars.length := by
  have counted : ∀ (lines : List Bytes) (rest : Bytes),
      lines.length ≤ (joinLines lines rest).length := by
    intro lines rest
    induction lines with
    | nil => exact Nat.zero_le _
    | cons line lines ih =>
        have size : (joinLines (line :: lines) rest).length =
            line.length + ((joinLines lines rest).length + 1) := List.length_append
        rw [size, List.length_cons]
        omega
  have joined := counted (splitLines content.chars).1 (splitLines content.chars).2
  rw [joinLines_split, ← linesOf_chars, List.length_map] at joined
  exact joined

/-- What `sbfProperties_load` makes of a file that includes nothing. -/
theorem load_seen {BUFSIZ : Nat} (large : 1 < BUFSIZ) (system : FileSystem) (depth : Nat)
    (file content : CString) (there : system.content file = some content.chars)
    (nothing : ∀ line ∈ allLines content, isInclude (skipSpace line) = false)
    (buffer : LineBuffer) (notFreed : buffer.status ≠ .freed) :
    ∃ error after, load BUFSIZ system (depth + 1) file buffer =
      .ok (outcome (readLines file (seen BUFSIZ buffer.ready.grown (linesOf content)) 0 .empty),
        error, after) := by
  have plain := splitLines_plain content.chars
  have each : ∀ line ∈ linesOf content, newline ∉ line.chars := by
    intro line member
    apply plain.1
    rw [← linesOf_chars]
    exact List.mem_map_of_mem member
  have seenPlain : ∀ line ∈ seen BUFSIZ buffer.ready.grown (linesOf content),
      isInclude (skipSpace line) = false := by
    intro line member
    have pairs : line ∈ ((linesOf content).zip
        (seen BUFSIZ buffer.ready.grown (linesOf content))).map Prod.snd := by
      rw [List.map_snd_zip (Nat.le_of_eq (seen_length ..))]
      exact member
    obtain ⟨pair, inside, rfl⟩ := List.mem_map.mp pairs
    obtain ⟨count, part⟩ := seen_parts BUFSIZ _ _ pair inside
    rw [part]
    exact isInclude_first count (nothing pair.1
      (List.mem_append_left _ (List.of_mem_zip inside).1))
  obtain ⟨after, run⟩ := loadLines_seen large system (loadFile BUFSIZ system depth) file
    (linesOf content) (splitLines content.chars).2 each plain.2 (content.chars.length + 1) 0
    .empty buffer notFreed seenPlain (Nat.lt_succ_of_le (linesOf_length content))
  rw [linesOf_chars, joinLines_split] at run
  simp only [load, loadFile, there, run, bind, Except.bind, outcome]
  cases (readLines file (seen BUFSIZ buffer.ready.grown (linesOf content)) 0 .empty).1 with
  | none => exact ⟨_, _, rfl⟩
  | some error => exact ⟨_, _, rfl⟩

/-- A file is loaded completely just when what is not read of it does not matter, as long as
the memory of the line reader was not freed by an earlier call. -/
theorem load_complete_iff {BUFSIZ : Nat} (standard : 256 ≤ BUFSIZ) (system : FileSystem)
    (depth : Nat) (file content : CString) (there : system.content file = some content.chars)
    (nothing : ∀ line ∈ allLines content, isInclude (skipSpace line) = false)
    (buffer : LineBuffer) :
    (∃ result error after, load BUFSIZ system (depth + 1) file buffer = .ok (result, error, after) ∧
      LoadsAs (allLines content) result) ↔
    buffer.status ≠ .freed ∧ Harmless (linesRead BUFSIZ buffer.ready.grown content) := by
  have large : 1 < BUFSIZ := by omega
  have whole := harmless_iff (linesRead_parts BUFSIZ buffer.ready.grown content) file
  rw [linesRead_fst, linesRead_snd] at whole
  constructor
  · intro loads
    obtain ⟨result, error, after, run, complete⟩ := loads
    have notFreed : buffer.status ≠ .freed := by
      intro freed
      rw [load, loadFile, there] at run
      simp only [loadLines, LineBuffer.fgetln, if_pos freed, bind, Except.bind] at run
      cases run
    obtain ⟨error', after', run'⟩ := load_seen large system depth file content there nothing buffer notFreed
    rw [run] at run'
    cases run'
    exact ⟨notFreed, whole.mp complete⟩
  · intro condition
    obtain ⟨notFreed, harmless⟩ := condition
    obtain ⟨error, after, run⟩ := load_seen large system depth file content there nothing buffer notFreed
    exact ⟨_, error, after, run, whole.mpr harmless⟩

/-- A file system where every file has the same content. -/
def FileSystem.constant (content : CString) : FileSystem := ⟨fun _ => some content.chars, id⟩

/-- A comment and a key, each on its line. -/
def terminated : CString := ⟨[35, 10, 97, 61, 49, 10], by decide⟩

theorem load_complete_terminated :
    (∃ result error after, load 256 (.constant terminated) 1 .empty .unused =
        .ok (result, error, after) ∧ LoadsAs (allLines terminated) result) ↔
      LineBuffer.unused.status ≠ .freed ∧
        Harmless (linesRead 256 LineBuffer.unused.ready.grown terminated) :=
  load_complete_iff (Nat.le_refl 256) (.constant terminated) 0 .empty terminated rfl (by decide)
    .unused

/-- The same key on a last line without a newline. -/
def unterminated : CString := ⟨[97, 61, 49], by decide⟩

/-- The last line is left out if it has no newline. -/
theorem load_unterminated :
    ∃ error after, load 256 (.constant unterminated) 1 .empty .unused =
        .ok (some .empty, error, after) ∧
      ¬ LoadsAs (allLines unterminated) (some .empty) := by
  obtain ⟨error, after, run⟩ := load_seen (by decide : 1 < 256) (.constant unterminated) 0
    .empty unterminated rfl (by decide) .unused (by decide)
  refine ⟨error, after, run, ?_⟩
  intro loads
  have said := loads.maps _ rfl ⟨[97], by decide⟩
  exact absurd said (by decide)

end Properties

end Sbf
