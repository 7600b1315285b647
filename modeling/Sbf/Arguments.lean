import Mathlib.Algebra.Group.Nat.Defs
import Sbf.Octets
import Sbf.Terminated

set_option autoImplicit false

namespace Sbf.Arguments

open Octets

/-- `INT_MAX` -/
def intMax : Nat := 2 ^ 31 - 1

/-- `argc` and `argv`; `argc` is an `int`. -/
structure Argv where
  argv : List CString
  counted : argv.length ≤ intMax
  deriving DecidableEq

/-- What `sbfArguments_unpack` can do wrong: read outside of the buffer, take more from a
length than it has, count behind the end of an `int`, or never leave its loop. -/
inductive Stop where
  | outside
  | wrapped
  | overflow
  | endless
  deriving DecidableEq, Repr

namespace Argv

@[ext] theorem ext {left right : Argv} (same : left.argv = right.argv) : left = right := by
  cases left
  cases right
  cases same
  rfl

/-- An `argc` of zero, and `argv` null. -/
def empty : Argv := ⟨[], Nat.zero_le _⟩

/-- One more string, with `(*argc)++`. -/
def append (args : Argv) (s : CString) : Except Stop Argv :=
  if room : args.argv.length < intMax then
    .ok ⟨args.argv ++ [s], by rw [List.length_append]; exact room⟩
  else .error .overflow

end Argv

/-- The loop of `sbfArguments_pack`: `xrealloc` keeps what is there, and `memcpy` takes
`strlen (argv[i]) + 1` bytes, the terminator with them. Memory is there for what is packed, so
its size is a `size_t`. -/
def packLoop (buf : Bytes) : List CString → Bytes
  | [] => buf
  | s :: rest => packLoop (buf ++ (s.chars ++ [0])) rest

/-- `sbfArguments_pack`, by the `*len` bytes of `*buf`. -/
def pack (args : Argv) : Bytes :=
  if args.argv.length = 0 then [] else packLoop [] args.argv

/-- The string at `start`, which has to end inside the buffer. -/
def stringAt (memory : Bytes) (start : Nat) : Option CString :=
  if 0 ∈ memory.drop start then
    some ⟨(memory.drop start).takeWhile (· ≠ 0), fun zero => by
      simpa using List.mem_takeWhile_imp zero⟩
  else none

/-- The loop of `sbfArguments_unpack`; `buf` is where in the buffer the pointer has got to. -/
def unpackLoop (memory : Bytes) : Nat → Nat → Nat → Argv → Except Stop Argv
  | 0, _, _, _ => .error .endless
  | fuel + 1, buf, len, args =>
      if len = 0 then .ok args
      else
        match memory[buf + len - 1]? with
        | none => .error .outside
        | some last =>
            if last ≠ 0 then .ok args
            else
              match stringAt memory buf with
              | none => .error .outside
              | some s =>
                  let size := s.chars.length + 1
                  match args.append s with
                  | .error stop => .error stop
                  | .ok args =>
                      if len < size then .error .wrapped
                      else unpackLoop memory fuel (buf + size) (len - size) args

/-- `sbfArguments_unpack` of a buffer and its length. Each round takes at least a byte. -/
def unpack (memory : Bytes) : Except Stop Argv :=
  unpackLoop memory (memory.length + 1) 0 memory.length .empty

/-- Strings with their terminators. -/
def packed (strings : List CString) : Bytes := Terminated.join 0 (strings.map CString.chars)

section Pack

theorem packed_cons (s : CString) (rest : List CString) :
    packed (s :: rest) = s.chars ++ 0 :: packed rest := by
  rw [packed, List.map_cons, Terminated.join_cons]
  rfl

theorem packLoop_packed (buf : Bytes) (strings : List CString) :
    packLoop buf strings = buf ++ packed strings := by
  induction strings generalizing buf with
  | nil => rw [packLoop, packed, List.map_nil, Terminated.join_nil, List.append_nil]
  | cons s rest ih =>
      rw [packLoop, ih, packed_cons, List.append_assoc, List.append_assoc]
      rfl

theorem pack_packed (args : Argv) : pack args = packed args.argv := by
  rw [pack]
  split
  · rename_i nothing
    rw [List.length_eq_zero_iff.mp nothing]
    rfl
  · rw [packLoop_packed, List.nil_append]

theorem packed_count (strings : List CString) : (packed strings).count 0 = strings.length := by
  rw [packed, Terminated.count_join, List.length_map]
  intro part member
  obtain ⟨s, -, rfl⟩ := List.mem_map.mp member
  exact s.plain

theorem length_le_packed (strings : List CString) : strings.length ≤ (packed strings).length := by
  have each := Terminated.length_le_join (0 : UInt8) (strings.map CString.chars)
  rwa [List.length_map] at each

/-- What is packed is empty or ends in a zero. -/
theorem packed_ended (strings : List CString) :
    packed strings = [] ∨ (packed strings).getLast? = some 0 := by
  cases strings with
  | nil => exact Or.inl rfl
  | cons s rest => exact Or.inr (Terminated.getLast?_join 0 (List.cons_ne_nil _ _))

/-- And every such buffer is the packed form of some strings. -/
theorem exists_packed {buf : Bytes} (ended : buf = [] ∨ buf.getLast? = some 0) :
    ∃ strings, packed strings = buf := by
  obtain ⟨parts, plain, joined⟩ := Terminated.exists_join ended
  refine ⟨parts.pmap CString.mk plain, ?_⟩
  rw [packed, List.map_pmap, List.pmap_eq_map, List.map_id', joined]

end Pack

section Unpack

/-- The string that a part of the buffer begins with. -/
theorem stringAt_front (front rest : Bytes) (s : CString) :
    stringAt (front ++ (s.chars ++ 0 :: rest)) front.length = some s := by
  have inside : 0 ∈ s.chars ++ 0 :: rest := List.mem_append_right _ List.mem_cons_self
  simp only [stringAt, List.drop_left, if_pos inside, Option.some.injEq]
  apply CString.ext
  exact takeWhile_terminated s.chars rest s.plain

/-- The last byte of what is left is the last byte of the buffer. -/
theorem last_byte (front : Bytes) {rest : Bytes} (some_ : rest ≠ []) :
    (front ++ rest)[front.length + rest.length - 1]? = rest.getLast? := by
  have positive := List.length_pos_iff.mpr some_
  rw [List.getLast?_eq_getElem?, List.getElem?_append_right (by omega)]
  congr 1
  omega

/-- One round of the loop, in front of what is packed. -/
theorem unpackLoop_cons (front : Bytes) (s : CString) (rest : List CString) (fuel : Nat)
    (args : Argv) :
    unpackLoop (front ++ packed (s :: rest)) (fuel + 1) front.length (packed (s :: rest)).length
        args =
      match args.append s with
      | .error stop => .error stop
      | .ok args =>
          unpackLoop ((front ++ (s.chars ++ [0])) ++ packed rest) fuel
            (front ++ (s.chars ++ [0])).length (packed rest).length args := by
  have some_ : packed (s :: rest) ≠ [] := by
    rw [packed_cons]
    exact List.append_ne_nil_of_right_ne_nil _ (List.cons_ne_nil _ _)
  have long : (packed (s :: rest)).length = s.chars.length + 1 + (packed rest).length := by
    rw [packed_cons, List.length_append, List.length_cons]
    omega
  have last : (front ++ packed (s :: rest))[front.length + (packed (s :: rest)).length - 1]? =
      some 0 := by
    rw [last_byte front some_]
    exact (packed_ended (s :: rest)).resolve_left some_
  have read : stringAt (front ++ packed (s :: rest)) front.length = some s := by
    rw [packed_cons]
    exact stringAt_front front (packed rest) s
  have moved : front ++ packed (s :: rest) = (front ++ (s.chars ++ [0])) ++ packed rest := by
    rw [packed_cons, List.append_assoc, List.append_assoc]
    rfl
  have left : (packed (s :: rest)).length - (s.chars.length + 1) = (packed rest).length := by omega
  have reached : front.length + (s.chars.length + 1) = (front ++ (s.chars ++ [0])).length := by
    rw [List.length_append, List.length_append, List.length_singleton]
  rw [unpackLoop, if_neg (by omega), last]
  dsimp only
  rw [if_neg (fun differs => differs rfl), read]
  dsimp only
  cases args.append s with
  | error stop => rfl
  | ok args =>
      dsimp only
      rw [if_neg (by omega), left, reached, moved]

/-- The loop takes all strings that are packed, as long as they can be counted. -/
theorem unpackLoop_packed (front : Bytes) (strings : List CString) (fuel : Nat) (args : Argv)
    (enough : strings.length < fuel) :
    unpackLoop (front ++ packed strings) fuel front.length (packed strings).length args =
      if counted : args.argv.length + strings.length ≤ intMax then
        .ok ⟨args.argv ++ strings, by rw [List.length_append]; exact counted⟩
      else .error .overflow := by
  induction strings generalizing front fuel args with
  | nil =>
      obtain ⟨fuel, rfl⟩ := Nat.exists_eq_succ_of_ne_zero (Nat.ne_of_gt enough)
      have counted : args.argv.length + ([] : List CString).length ≤ intMax := args.counted
      have nothing : (packed []).length = 0 := rfl
      rw [unpackLoop, if_pos nothing, dif_pos counted, Except.ok.injEq]
      apply Argv.ext
      exact (List.append_nil _).symm
  | cons s rest ih =>
      rw [List.length_cons] at enough
      obtain ⟨fuel, rfl⟩ := Nat.exists_eq_succ_of_ne_zero (by omega : fuel ≠ 0)
      rw [unpackLoop_cons]
      by_cases room : args.argv.length < intMax
      · rw [Argv.append, dif_pos room]
        dsimp only
        rw [ih _ fuel _ (by omega)]
        have same : args.argv.length + 1 + rest.length = args.argv.length + (s :: rest).length := by
          rw [List.length_cons]
          omega
        simp only [List.length_append, List.length_singleton, same, List.append_assoc,
          List.singleton_append]
      · rw [Argv.append, dif_neg room, dif_neg]
        rw [List.length_cons]
        omega

theorem unpack_packed (strings : List CString) :
    unpack (packed strings) =
      if counted : strings.length ≤ intMax then .ok ⟨strings, counted⟩ else .error .overflow := by
  have taken := unpackLoop_packed [] strings ((packed strings).length + 1) .empty
    (Nat.lt_succ_of_le (length_le_packed strings))
  have none_ : Argv.empty.argv.length + strings.length = strings.length := Nat.zero_add _
  rw [List.nil_append, List.length_nil] at taken
  rw [unpack, taken]
  by_cases counted : strings.length ≤ intMax
  · rw [dif_pos (none_.le.trans counted), dif_pos counted]
    rfl
  · rw [dif_neg fun fits => counted (none_.ge.trans fits), dif_neg counted]

/-- A buffer without a zero at its end has no strings. -/
theorem unpack_unended {buf : Bytes} (unended : ¬ (buf = [] ∨ buf.getLast? = some 0)) :
    unpack buf = .ok .empty := by
  obtain ⟨some_, differs⟩ := not_or.mp unended
  have read := last_byte [] some_
  rw [List.nil_append, List.length_nil, List.getLast?_eq_some_getLast some_] at read
  rw [unpack, unpackLoop, if_neg (by rwa [List.length_eq_zero_iff]), read]
  dsimp only
  rw [if_pos]
  intro zero
  rw [List.getLast?_eq_some_getLast some_, zero] at differs
  exact differs rfl

end Unpack

/-- `sbfArguments_unpack` takes back what `sbfArguments_pack` has made, and the other way round
for the buffers that end in a zero and have no more zeros than an `int` counts. It never reads
outside of the buffer, and ends. -/
theorem unpack_pack_inverse :
    (∀ args, unpack (pack args) = .ok args) ∧
    (∀ buf, (∃ args, unpack buf = .ok args ∧ pack args = buf) ↔
      (buf = [] ∨ buf.getLast? = some 0) ∧ buf.count 0 ≤ intMax) ∧
    (∀ buf, ¬ (buf = [] ∨ buf.getLast? = some 0) → unpack buf = .ok .empty) ∧
    ∀ buf stop, unpack buf = .error stop → stop = .overflow ∧ intMax < buf.count 0 := by
  refine ⟨?_, ?_, fun buf => unpack_unended, ?_⟩
  · intro args
    rw [pack_packed, unpack_packed, dif_pos args.counted]
  · intro buf
    constructor
    · rintro ⟨args, -, made⟩
      rw [pack_packed] at made
      subst made
      rw [packed_count]
      exact ⟨packed_ended args.argv, args.counted⟩
    · rintro ⟨ended, counted⟩
      obtain ⟨strings, rfl⟩ := exists_packed ended
      rw [packed_count] at counted
      refine ⟨⟨strings, counted⟩, ?_, pack_packed _⟩
      rw [unpack_packed, dif_pos counted]
  · intro buf stop stopped
    by_cases ended : buf = [] ∨ buf.getLast? = some 0
    · obtain ⟨strings, rfl⟩ := exists_packed ended
      rw [unpack_packed] at stopped
      split at stopped
      · cases stopped
      · rename_i uncounted
        cases stopped
        rw [packed_count]
        exact ⟨rfl, Nat.not_le.mp uncounted⟩
    · rw [unpack_unended ended] at stopped
      cases stopped

/-- `a`, an empty string and `b`. -/
example : (unpack [97, 0, 0, 98, 0]).map (fun args => args.argv.map CString.chars) =
    .ok [[97], [], [98]] := by rfl

/-- Zeros alone are empty strings. -/
theorem packed_replicate (count : Nat) :
    packed (List.replicate count .empty) = List.replicate count 0 := by
  induction count with
  | zero => rfl
  | succ count ih =>
      rw [List.replicate_succ, packed_cons, ih, List.replicate_succ]
      rfl

/-- 2 ^ 31 zeros stand for one empty string more than an `int` counts. -/
theorem unpack_overflow :
    (List.replicate (2 ^ 31) (0 : UInt8)).getLast? = some 0 ∧
      unpack (List.replicate (2 ^ 31) 0) = .error .overflow ∧
      ¬ ∃ args, unpack (List.replicate (2 ^ 31) 0) = .ok args ∧
        pack args = List.replicate (2 ^ 31) 0 := by
  have uncounted : ¬ (List.replicate (2 ^ 31) CString.empty).length ≤ intMax := by
    rw [List.length_replicate, intMax]
    omega
  have stopped : unpack (List.replicate (2 ^ 31) 0) = .error .overflow := by
    rw [← packed_replicate, unpack_packed, dif_neg uncounted]
  refine ⟨?_, stopped, ?_⟩
  · rw [← packed_replicate]
    apply (packed_ended _).resolve_left
    intro nothing
    have long := length_le_packed (List.replicate (2 ^ 31) CString.empty)
    rw [nothing, List.length_replicate, List.length_nil] at long
    omega
  · rintro ⟨args, ran, -⟩
    rw [stopped] at ran
    cases ran

end Sbf.Arguments
