import Mathlib.Data.List.TakeWhile
import Mathlib.Tactic.Ring
import Sbf.TportHeader

set_option autoImplicit false

namespace Sbf

open Octets

def newline : UInt8 := 10

/-- A file that is read: what is left of it, and `feof`. -/
structure File where
  rest : Bytes
  eof : Bool
  deriving DecidableEq, Repr

namespace File

/-- Up to the first newline, that included. -/
def firstLine : Bytes → Bytes
  | [] => []
  | c :: rest => if c = newline then [c] else c :: firstLine rest

/-- `fgets` with a buffer of `n` bytes; the end of the file is noticed by a read that comes
to it. -/
def fgets (n : Nat) (f : File) : Option Bytes × File :=
  if f.rest = [] then (none, { f with eof := true })
  else
    let chars := firstLine (f.rest.take (n - 1))
    let atEnd := decide (chars.getLast? ≠ some newline ∧ chars.length < n - 1)
    (some chars, ⟨f.rest.drop chars.length, f.eof || atEnd⟩)

end File

/-- What became of the memory of `fgetln`'s static `buf`. -/
inductive BufferStatus where
  | null
  | live
  | freed
  deriving DecidableEq, Repr

/-- The static variables of `fgetln`: the memory at `buf`, whatever it holds before it is
written, and how often `bufsiz` has grown. -/
structure LineBuffer where
  mem : Nat → UInt8
  grown : Nat
  status : BufferStatus

namespace LineBuffer

/-- Before the first call of `fgetln`. -/
def unused : LineBuffer := ⟨fun _ => 0, 0, .null⟩

/-- `bufsiz` -/
def bufsiz (BUFSIZ : Nat) (buffer : LineBuffer) : Nat := BUFSIZ * (buffer.grown + 1)

/-- Characters and the zero behind them, from a place on. -/
def write (mem : Nat → UInt8) (start : Nat) (chars : Bytes) : Nat → UInt8 := fun i =>
  if i < start then mem i else ((chars ++ [0])[i - start]?).getD (mem i)

/-- The buffer after characters were read to a place. -/
def put (buffer : LineBuffer) (start : Nat) (chars : Bytes) : LineBuffer :=
  { buffer with mem := write buffer.mem start chars }

/-- The first `len` bytes. -/
def line (buffer : LineBuffer) (len : Nat) : Bytes := (List.range len).map buffer.mem

/-- What the buffer holds behind a text of some length and its zero. -/
def behind (BUFSIZ : Nat) (buffer : LineBuffer) (length : Nat) : Bytes :=
  (List.range (buffer.bufsiz BUFSIZ - (length + 1))).map (fun k => buffer.mem (length + (k + 1)))

/-- `strchr` from a place on, with the number of bytes up to the end of the memory. -/
def strchr (mem : Nat → UInt8) (c : UInt8) : Nat → Nat → Option Nat
  | 0, _ => none
  | fuel + 1, i =>
      if mem i = c then some i else if mem i = 0 then none else strchr mem c fuel (i + 1)

/-- The loop of `fgetln`, where `len` is the place of the characters that were read last. -/
def fill (BUFSIZ : Nat) : Nat → Nat → LineBuffer → File →
    Except Fault (Nat × LineBuffer × File)
  | 0, _, _, _ => .error .endless
  | fuel + 1, len, buffer, f =>
      match strchr buffer.mem newline (buffer.bufsiz BUFSIZ - len) len with
      | some ptr => .ok (ptr + 1, buffer, f)
      | none =>
          match f.fgets BUFSIZ with
          | (none, f) => .ok (buffer.bufsiz BUFSIZ, buffer, f)
          | (some chars, f) =>
              fill BUFSIZ fuel (buffer.bufsiz BUFSIZ)
                { buffer with
                  mem := write buffer.mem (buffer.bufsiz BUFSIZ) chars
                  grown := buffer.grown + 1 } f

/-- The buffer as a call finds it. -/
def ready (buffer : LineBuffer) : LineBuffer :=
  { buffer with
    grown := if buffer.status = .null then 0 else buffer.grown
    status := .live }

/-- `fgetln`, with the length of the line that starts at `buf`, or nothing for a null pointer. -/
def fgetln (BUFSIZ : Nat) (buffer : LineBuffer) (f : File) :
    Except Fault (Option Nat × LineBuffer × File) :=
  if buffer.status = .freed then .error .freed
  else
    match f.fgets (buffer.ready.bufsiz BUFSIZ) with
    | (none, f) => .ok (none, buffer.ready, f)
    | (some chars, f) =>
        (fill BUFSIZ (f.rest.length + 2) 0 (buffer.ready.put 0 chars) f).map
          (fun done => (some done.1, done.2))

end LineBuffer

section Reads

open File LineBuffer

variable {text more : Bytes}

theorem firstLine_cut (plain : newline ∉ text) :
    firstLine (text ++ newline :: more) = text ++ [newline] := by
  induction text with
  | nil => rfl
  | cons c text ih =>
      simp only [List.mem_cons, not_or] at plain
      rw [List.cons_append, firstLine, if_neg (fun same => plain.1 same.symm), ih plain.2]
      rfl

theorem firstLine_plain (plain : newline ∉ text) : firstLine text = text := by
  induction text with
  | nil => rfl
  | cons c text ih =>
      simp only [List.mem_cons, not_or] at plain
      rw [firstLine, if_neg (fun same => plain.1 same.symm), ih plain.2]

theorem write_before (mem : Nat → UInt8) {start i : Nat} (chars : Bytes) (before : i < start) :
    write mem start chars i = mem i := if_pos before

theorem write_inside (mem : Nat → UInt8) (start : Nat) {chars : Bytes} {i : Nat}
    (inside : i < chars.length) : write mem start chars (start + i) = chars[i] := by
  rw [write, if_neg (by omega), Nat.add_sub_cancel_left, List.getElem?_append_left inside,
    List.getElem?_eq_getElem inside, Option.getD_some]

theorem write_end (mem : Nat → UInt8) (start : Nat) (chars : Bytes) :
    write mem start chars (start + chars.length) = 0 := by
  rw [write, if_neg (by omega), Nat.add_sub_cancel_left,
    List.getElem?_append_right (Nat.le_refl _), Nat.sub_self]
  rfl

/-- The search in what was just written finds the newline that ends it. -/
theorem strchr_cut (mem : Nat → UInt8) (start : Nat) {text : Bytes} (plain : newline ∉ text)
    (visible : 0 ∉ text) (fuel : Nat) (enough : text.length < fuel) :
    strchr (write mem start (text ++ [newline])) newline fuel start =
      some (start + text.length) := by
  have steps : ∀ (left seen : Nat) (fuel : Nat), seen + left = text.length → left < fuel →
      strchr (write mem start (text ++ [newline])) newline fuel (start + seen) =
        some (start + text.length) := by
    intro left
    induction left with
    | zero =>
        intro seen fuel all enough
        obtain ⟨fuel, rfl⟩ : ∃ n, fuel = n + 1 := ⟨fuel - 1, by omega⟩
        have here : write mem start (text ++ [newline]) (start + seen) = newline := by
          rw [write_inside mem start (by simp; omega)]
          simp [show seen = text.length by omega]
        rw [strchr, if_pos here]
        congr 2
    | succ left ih =>
        intro seen fuel all enough
        obtain ⟨fuel, rfl⟩ : ∃ n, fuel = n + 1 := ⟨fuel - 1, by omega⟩
        have inside : seen < text.length := by omega
        have here : write mem start (text ++ [newline]) (start + seen) = text[seen] := by
          rw [write_inside mem start (by simp; omega), List.getElem_append_left inside]
        have other : text[seen] ≠ newline := fun same => plain (same ▸ List.getElem_mem inside)
        have nonzero : text[seen] ≠ 0 := fun same => visible (same ▸ List.getElem_mem inside)
        rw [strchr, here, if_neg other, if_neg nonzero, Nat.add_assoc]
        exact ih (seen + 1) fuel (by omega) (by omega)
  exact steps text.length 0 fuel (by omega) enough

/-- Without a newline the search ends at the zero, or at the end of the memory. -/
theorem strchr_plain (mem : Nat → UInt8) (start : Nat) {text : Bytes} (plain : newline ∉ text)
    (fuel : Nat) : strchr (write mem start text) newline fuel start = none := by
  have steps : ∀ (fuel seen : Nat), seen ≤ text.length →
      strchr (write mem start text) newline fuel (start + seen) = none := by
    intro fuel
    induction fuel with
    | zero =>
        intro seen _
        rfl
    | succ fuel ih =>
        intro seen room
        by_cases inside : seen < text.length
        · have here : write mem start text (start + seen) = text[seen] :=
            write_inside mem start inside
          have other : text[seen] ≠ newline :=
            fun same => plain (same ▸ List.getElem_mem inside)
          rw [strchr, here, if_neg other]
          split
          case isTrue => rfl
          case isFalse =>
              rw [Nat.add_assoc]
              exact ih (seen + 1) inside
        · have last : seen = text.length := Nat.le_antisymm room (Nat.le_of_not_lt inside)
          rw [last, strchr, write_end, if_neg (by decide), if_pos rfl]
  exact steps fuel 0 (Nat.zero_le _)

/-- A whole line is read with its newline. -/
theorem fgets_whole (n : Nat) (eof : Bool) (plain : newline ∉ text)
    (room : text.length + 1 < n) :
    (File.mk (text ++ newline :: more) eof).fgets n = (some (text ++ [newline]), ⟨more, eof⟩) := by
  have window : (text ++ newline :: more).take (n - 1) =
      text ++ newline :: more.take (n - 1 - text.length - 1) := by
    obtain ⟨left, shape⟩ : ∃ left, n - 1 = text.length + (left + 1) :=
      ⟨n - 1 - text.length - 1, by omega⟩
    rw [shape, List.take_length_add_append, List.take_succ_cons]
    congr 3
    omega
  have behind : (text ++ newline :: more).drop (text ++ [newline]).length = more := by
    have regroup : text ++ newline :: more = (text ++ [newline]) ++ more := by simp
    rw [regroup, List.drop_left]
  have nonempty : text ++ newline :: more ≠ [] := by simp
  simp only [File.fgets, if_neg nonempty, window, firstLine_cut plain, behind,
    List.getLast?_append, List.getLast?_singleton]
  simp

/-- A part of a line that fills the buffer is read without the end of the file in sight. -/
theorem fgets_part (n : Nat) (eof : Bool) {part : Bytes} (more : Bytes) (plain : newline ∉ part)
    (fills : part.length = n - 1) (some_room : 1 < n) :
    (File.mk (part ++ more) eof).fgets n = (some part, ⟨more, eof⟩) := by
  have nonempty : part ++ more ≠ [] := by
    intro nothing
    rw [(List.append_eq_nil_iff.mp nothing).1] at fills
    simp at fills
    omega
  have window : (part ++ more).take (n - 1) = part := by rw [← fills, List.take_left]
  simp only [File.fgets, if_neg nonempty, window, firstLine_plain plain, List.drop_left]
  simp [fills]

/-- A part of a line with the end of the file behind it. -/
theorem fgets_last (n : Nat) (eof : Bool) {part : Bytes} (plain : newline ∉ part)
    (nonempty : part ≠ []) (short : part.length < n - 1) :
    (File.mk part eof).fgets n = (some part, ⟨[], true⟩) := by
  have window : part.take (n - 1) = part := List.take_of_length_le (Nat.le_of_lt short)
  have unended : part.getLast? ≠ some newline := by
    intro last
    exact plain (List.mem_of_getLast? last)
  simp only [File.fgets, if_neg nonempty, window, firstLine_plain plain, List.drop_length]
  simp [unended, short]

theorem fgets_end (n : Nat) (eof : Bool) :
    (File.mk [] eof).fgets n = (none, ⟨[], true⟩) := rfl

theorem line_write (buffer : LineBuffer) (mem : Nat → UInt8) {chars : Bytes}
    (written : ∀ i, i < chars.length → buffer.mem i = write mem 0 chars i) :
    buffer.line chars.length = chars := by
  apply List.ext_getElem
  · simp [LineBuffer.line]
  · intro i _ inside
    have here := write_inside mem 0 inside
    rw [Nat.zero_add] at here
    simp only [LineBuffer.line, List.getElem_map, List.getElem_range, written i inside, here]

theorem line_put (buffer : LineBuffer) (chars : Bytes) :
    (buffer.put 0 chars).line chars.length = chars :=
  line_write _ buffer.mem (fun _ _ => rfl)

/-- The bytes of a line in front of a place, there, and behind it. -/
theorem line_cut (buffer : LineBuffer) {front size : Nat} (inside : front < size) :
    buffer.line size = buffer.line front ++ buffer.mem front ::
      (List.range (size - (front + 1))).map (fun k => buffer.mem (front + (k + 1))) := by
  have split : size = front + (size - (front + 1) + 1) := by omega
  conv_lhs => rw [split]
  simp only [LineBuffer.line, List.range_add, List.range_succ_eq_map, List.map_append,
    List.map_cons, List.map_map, Nat.add_zero]
  rfl

/-- The whole buffer after a text without a newline was read. -/
theorem line_put_behind {BUFSIZ : Nat} (buffer : LineBuffer) {text : Bytes}
    (room : text.length < buffer.bufsiz BUFSIZ) :
    (buffer.put 0 text).line (buffer.bufsiz BUFSIZ) =
      text ++ 0 :: buffer.behind BUFSIZ text.length := by
  have zero : (buffer.put 0 text).mem text.length = 0 := by
    have terminated := write_end buffer.mem 0 text
    rw [Nat.zero_add] at terminated
    exact terminated
  rw [line_cut _ room, line_put, zero, LineBuffer.behind]
  congr 2
  apply List.map_congr_left
  intro k _
  have outside : ¬ text.length + (k + 1) < 0 := Nat.not_lt_zero _
  simp [LineBuffer.put, write, outside]

theorem line_put_newline (buffer : LineBuffer) (text : Bytes) :
    (buffer.put 0 (text ++ [newline])).line (text.length + 1) = text ++ [newline] := by
  have whole := line_put buffer (text ++ [newline])
  rw [List.length_append, List.length_singleton] at whole
  exact whole

section Calls

variable {BUFSIZ : Nat} (large : 1 < BUFSIZ) {buffer : LineBuffer} {eof : Bool}
include large

theorem bufsiz_large (buffer : LineBuffer) : 1 < buffer.bufsiz BUFSIZ :=
  Nat.lt_of_lt_of_le large (Nat.le_mul_of_pos_right BUFSIZ (Nat.succ_pos _))

omit large in
theorem bufsiz_grow (mem : Nat → UInt8) :
    { buffer with mem := mem, grown := buffer.grown + 1 }.bufsiz BUFSIZ =
      buffer.bufsiz BUFSIZ + BUFSIZ := by
  simp only [LineBuffer.bufsiz]
  ring

/-- The rest of a long line is read piece by piece, each behind the room there was before. -/
theorem fill_long (text : Bytes) (buffer : LineBuffer) (fuel : Nat) (plain : newline ∉ text)
    (visible : 0 ∉ text) (len : Nat)
    (unended : strchr buffer.mem newline (buffer.bufsiz BUFSIZ - len) len = none)
    (enough : text.length + 2 ≤ fuel) :
    ∃ size after, fill BUFSIZ fuel len buffer ⟨text ++ newline :: more, eof⟩ =
        .ok (size, after, ⟨more, eof⟩) ∧
      buffer.bufsiz BUFSIZ < size ∧
      (∀ i, i < buffer.bufsiz BUFSIZ → after.mem i = buffer.mem i) ∧
      after.status = buffer.status ∧
      after.grown = buffer.grown + (text.length / (BUFSIZ - 1) + 1) := by
  induction fuel generalizing text len buffer with
  | zero => omega
  | succ fuel ih =>
      rw [fill, unended]
      by_cases short : text.length + 1 < BUFSIZ
      · obtain ⟨fuel, rfl⟩ : ∃ n, fuel = n + 1 := ⟨fuel - 1, by omega⟩
        rw [fgets_whole BUFSIZ eof plain short]
        have found := strchr_cut buffer.mem (buffer.bufsiz BUFSIZ) plain visible BUFSIZ
          (by omega)
        simp only [fill, bufsiz_grow, Nat.add_sub_cancel_left, found]
        refine ⟨_, _, rfl, by omega, ?_, rfl, ?_⟩
        · intro i before
          exact write_before _ _ before
        · rw [Nat.div_eq_of_lt (by omega)]
      · have split : text = text.take (BUFSIZ - 1) ++ text.drop (BUFSIZ - 1) :=
          (List.take_append_drop _ _).symm
        have fills : (text.take (BUFSIZ - 1)).length = BUFSIZ - 1 := by
          rw [List.length_take]
          omega
        have partPlain : newline ∉ text.take (BUFSIZ - 1) :=
          fun inside => plain (List.mem_of_mem_take inside)
        have read := fgets_part BUFSIZ eof (text.drop (BUFSIZ - 1) ++ newline :: more)
          partPlain fills large
        rw [← List.append_assoc, ← split] at read
        rw [read]
        dsimp only
        have rest : (text.drop (BUFSIZ - 1)).length = text.length - (BUFSIZ - 1) :=
          List.length_drop
        obtain ⟨size, after, run, above, kept, status, grown⟩ :=
          ih (text.drop (BUFSIZ - 1)) { buffer with
              mem := write buffer.mem (buffer.bufsiz BUFSIZ) (text.take (BUFSIZ - 1))
              grown := buffer.grown + 1 }
            (fun inside => plain (List.mem_of_mem_drop inside))
            (fun inside => visible (List.mem_of_mem_drop inside)) (buffer.bufsiz BUFSIZ)
            (strchr_plain _ _ partPlain _) (by omega)
        rw [bufsiz_grow] at above kept
        refine ⟨size, after, run, by omega, ?_, status, ?_⟩
        · intro i before
          rw [kept i (by omega)]
          exact write_before _ _ before
        · rw [grown, rest]
          have one : text.length / (BUFSIZ - 1) =
              (text.length - (BUFSIZ - 1)) / (BUFSIZ - 1) + 1 :=
            Nat.div_eq_sub_div (by omega) (by omega)
          dsimp only
          omega

/-- Without a newline the loop ends at the end of the file. -/
theorem fill_last (text : Bytes) (buffer : LineBuffer) (eof : Bool) (fuel : Nat)
    (plain : newline ∉ text) (len : Nat)
    (unended : strchr buffer.mem newline (buffer.bufsiz BUFSIZ - len) len = none)
    (enough : text.length + 2 ≤ fuel) :
    ∃ size after, fill BUFSIZ fuel len buffer ⟨text, eof⟩ = .ok (size, after, ⟨[], true⟩) ∧
      after.status = buffer.status := by
  induction fuel generalizing text len buffer eof with
  | zero => omega
  | succ fuel ih =>
      rw [fill, unended]
      by_cases empty : text = []
      · subst empty
        exact ⟨_, _, rfl, rfl⟩
      · have positive : 0 < text.length := List.length_pos_iff.mpr empty
        by_cases short : text.length < BUFSIZ - 1
        · rw [fgets_last BUFSIZ eof plain empty short]
          exact ih [] _ true List.not_mem_nil _ (strchr_plain _ _ plain _)
            (by simp only [List.length_nil]; omega)
        · have fills : (text.take (BUFSIZ - 1)).length = BUFSIZ - 1 := by
            rw [List.length_take]
            omega
          have partPlain : newline ∉ text.take (BUFSIZ - 1) :=
            fun inside => plain (List.mem_of_mem_take inside)
          have read := fgets_part BUFSIZ eof (text.drop (BUFSIZ - 1)) partPlain fills large
          rw [List.take_append_drop] at read
          rw [read]
          exact ih _ _ eof (fun inside => plain (List.mem_of_mem_drop inside)) _
            (strchr_plain _ _ partPlain _) (by rw [List.length_drop]; omega)

omit large in
/-- A line that fits with its newline is returned as it is in the file. -/
theorem fgetln_whole (eof : Bool) (more : Bytes) (notFreed : buffer.status ≠ .freed)
    (plain : newline ∉ text) (visible : 0 ∉ text)
    (room : text.length + 1 < buffer.ready.bufsiz BUFSIZ) :
    buffer.fgetln BUFSIZ ⟨text ++ newline :: more, eof⟩ =
      .ok (some (text.length + 1), buffer.ready.put 0 (text ++ [newline]), ⟨more, eof⟩) := by
  have found : strchr (buffer.ready.put 0 (text ++ [newline])).mem newline
      ((buffer.ready.put 0 (text ++ [newline])).bufsiz BUFSIZ - 0) 0 = some (0 + text.length) :=
    strchr_cut buffer.ready.mem 0 plain visible _ (Nat.lt_of_succ_lt room)
  rw [fgetln, if_neg notFreed, fgets_whole _ eof plain room]
  dsimp only
  rw [fill, found, Nat.zero_add]
  rfl

/-- A longer line comes with a zero behind as much of it as there was room for. -/
theorem fgetln_long (eof : Bool) (more : Bytes) (notFreed : buffer.status ≠ .freed)
    (plain : newline ∉ text) (visible : 0 ∉ text) (long : buffer.ready.bufsiz BUFSIZ ≤ text.length + 1) :
    ∃ size after behind, buffer.fgetln BUFSIZ ⟨text ++ newline :: more, eof⟩ =
        .ok (some size, after, ⟨more, eof⟩) ∧
      after.line size = text.take (buffer.ready.bufsiz BUFSIZ - 1) ++ 0 :: behind ∧
      after.status = .live ∧
      after.grown = buffer.ready.grown +
        ((text.length - (buffer.ready.bufsiz BUFSIZ - 1)) / (BUFSIZ - 1) + 1) := by
  have wide := bufsiz_large large buffer.ready
  let part := text.take (buffer.ready.bufsiz BUFSIZ - 1)
  let rest := text.drop (buffer.ready.bufsiz BUFSIZ - 1)
  have fills : part.length = buffer.ready.bufsiz BUFSIZ - 1 := by
    rw [List.length_take]
    omega
  have partPlain : newline ∉ part := fun inside => plain (List.mem_of_mem_take inside)
  have read := fgets_part (buffer.ready.bufsiz BUFSIZ) eof (rest ++ newline :: more) partPlain
    fills wide
  have regroup : part ++ (rest ++ newline :: more) = text ++ newline :: more := by
    rw [← List.append_assoc, List.take_append_drop]
  rw [regroup] at read
  obtain ⟨size, after, run, above, kept, status, grown⟩ := fill_long large rest
    (buffer.ready.put 0 part)
    ((rest ++ newline :: more).length + 2)
    (fun inside => plain (List.mem_of_mem_drop inside))
    (fun inside => visible (List.mem_of_mem_drop inside)) 0
    (strchr_plain buffer.ready.mem 0 partPlain _)
    (by rw [List.length_append]; omega)
  refine ⟨size, after, (List.range (size - (part.length + 1))).map
    (fun k => after.mem (part.length + (k + 1))), ?_, ?_, status, ?_⟩
  · rw [fgetln, if_neg notFreed, read]
    dsimp only
    rw [run]
    rfl
  · have wideSize : part.length + 1 < size := by
      have bound : buffer.ready.bufsiz BUFSIZ < size := above
      omega
    have front : after.line part.length = part := by
      apply line_write _ buffer.ready.mem
      intro i inside
      exact kept i (show i < buffer.ready.bufsiz BUFSIZ by omega)
    have zero : after.mem part.length = 0 := by
      rw [kept part.length (show part.length < buffer.ready.bufsiz BUFSIZ by omega)]
      have terminated := write_end buffer.ready.mem 0 part
      rw [Nat.zero_add] at terminated
      exact terminated
    rw [line_cut after (Nat.lt_of_succ_lt wideSize), front, zero]
  · rw [grown, List.length_drop]
    rfl

/-- What is left of a file without a newline, if it fits: the length is that of the buffer. -/
theorem fgetln_unended (eof : Bool) (notFreed : buffer.status ≠ .freed) (plain : newline ∉ text)
    (nonempty : text ≠ []) (room : text.length < buffer.ready.bufsiz BUFSIZ) :
    buffer.fgetln BUFSIZ ⟨text, eof⟩ =
      .ok (some (buffer.ready.bufsiz BUFSIZ), buffer.ready.put 0 text, ⟨[], true⟩) := by
  have unended : strchr (buffer.ready.put 0 text).mem newline
      ((buffer.ready.put 0 text).bufsiz BUFSIZ - 0) 0 = none :=
    strchr_plain buffer.ready.mem 0 plain _
  rw [fgetln, if_neg notFreed]
  by_cases short : text.length < buffer.ready.bufsiz BUFSIZ - 1
  · rw [fgets_last _ eof plain nonempty short]
    dsimp only
    rw [fill, unended]
    rfl
  · have wide := bufsiz_large large buffer.ready
    have read := fgets_part (buffer.ready.bufsiz BUFSIZ) eof [] plain (by omega) wide
    rw [List.append_nil] at read
    rw [read]
    dsimp only
    rw [fill, unended]
    rfl

/-- What is left of a file without a newline is read to the end. -/
theorem fgetln_last (eof : Bool) (notFreed : buffer.status ≠ .freed) (plain : newline ∉ text)
    (nonempty : text ≠ []) :
    ∃ size after, buffer.fgetln BUFSIZ ⟨text, eof⟩ = .ok (some size, after, ⟨[], true⟩) ∧
      after.status = .live := by
  have wide := bufsiz_large large buffer.ready
  by_cases short : text.length < buffer.ready.bufsiz BUFSIZ - 1
  · obtain ⟨size, after, run, status⟩ := fill_last large []
      (buffer.ready.put 0 text) true 2 List.not_mem_nil 0
      (strchr_plain buffer.ready.mem 0 plain _) (Nat.le_refl _)
    refine ⟨size, after, ?_, status⟩
    rw [fgetln, if_neg notFreed, fgets_last _ eof plain nonempty short]
    dsimp only
    rw [List.length_nil, run]
    rfl
  · have fills : (text.take (buffer.ready.bufsiz BUFSIZ - 1)).length =
        buffer.ready.bufsiz BUFSIZ - 1 := by
      rw [List.length_take]
      omega
    have partPlain : newline ∉ text.take (buffer.ready.bufsiz BUFSIZ - 1) :=
      fun inside => plain (List.mem_of_mem_take inside)
    have read := fgets_part (buffer.ready.bufsiz BUFSIZ) eof
      (text.drop (buffer.ready.bufsiz BUFSIZ - 1)) partPlain fills wide
    rw [List.take_append_drop] at read
    obtain ⟨size, after, run, status⟩ := fill_last large
      (text.drop (buffer.ready.bufsiz BUFSIZ - 1))
      (buffer.ready.put 0 (text.take (buffer.ready.bufsiz BUFSIZ - 1))) eof
      ((text.drop (buffer.ready.bufsiz BUFSIZ - 1)).length + 2)
      (fun inside => plain (List.mem_of_mem_drop inside)) 0
      (strchr_plain buffer.ready.mem 0 partPlain _)
      (Nat.le_refl _)
    refine ⟨size, after, ?_, status⟩
    rw [fgetln, if_neg notFreed, read]
    dsimp only
    rw [run]
    rfl

omit large in
theorem fgetln_end (eof : Bool) (notFreed : buffer.status ≠ .freed) :
    buffer.fgetln BUFSIZ ⟨[], eof⟩ = .ok (none, buffer.ready, ⟨[], true⟩) := by
  rw [fgetln, if_neg notFreed, fgets_end]

end Calls

end Reads

end Sbf
