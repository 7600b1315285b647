import Sbf.CsvUnended
import Sbf.PropertiesLines

set_option autoImplicit false

namespace Sbf

open Octets

namespace CsvParser

section Calls

variable (charSigned : Bool) (separator : UInt8) (BUFSIZ : Nat)

/-- The calls of `sbfCsvParser_next` up to the one that reports the end of the file. -/
def calls : Nat → LineBuffer → File → Option UInt32 → Except Fault (List Result)
  | 0, _, _, _ => .error .endless
  | n + 1, buffer, f, line => do
      let (result, buffer, f, line) ← next charSigned separator BUFSIZ buffer f line
      if result = .enoent then return [.enoent]
      let others ← calls n buffer f line
      return result :: others

/-- What the lines of a file are by themselves: the fields of each line that is not blank. -/
def records : List Bytes → Except Fault (List Result)
  | [] => .ok [.enoent]
  | line :: lines =>
      if skipBlanks line = [] then records lines
      else do
        let result ← parse charSigned separator (skipBlanks line)
        let others ← records lines
        return result :: others

/-- The buffer after lines that fit. -/
def afterLines (buffer : LineBuffer) (lines : List Bytes) : LineBuffer :=
  lines.foldl (fun buffer line => buffer.ready.put 0 (line ++ [newline])) buffer

/-- The lines of a file fit into the buffer, and what the buffer holds behind a last line
without a newline only goes on with the field in which that ends. -/
structure Readable (buffer : LineBuffer) (lines : List Bytes) (last : Bytes) : Prop where
  notFreed : buffer.status ≠ .freed
  fits : ∀ line ∈ lines ++ [last], line.length + 1 < buffer.ready.bufsiz BUFSIZ
  ends : last ≠ [] → skipBlanks last ≠ [] ∧
    Settled charSigned separator (last.length + 1) (skipBlanks last)
      (dropNewline (0 :: (afterLines buffer lines).ready.behind BUFSIZ last.length))

variable {charSigned separator BUFSIZ}

theorem ready_notFreed (chars : Bytes) {buffer : LineBuffer} :
    (buffer.ready.put 0 chars).status ≠ .freed := by
  intro freed
  cases freed

theorem parse_enoent (text : Bytes) : parse charSigned separator text ≠ .ok .enoent := by
  unfold parse
  cases readFields charSigned separator (text.length + 1) text [] with
  | error fault => simp [Except.map]
  | ok found => cases found <;> simp [Except.map]

theorem joinLines_length (lines : List Bytes) (last : Bytes) :
    lines.length + last.length ≤ (joinLines lines last).length := by
  induction lines with
  | nil => simp [joinLines]
  | cons line lines ih =>
      have size : (joinLines (line :: lines) last).length =
          line.length + ((joinLines lines last).length + 1) := List.length_append
      rw [size, List.length_cons]
      omega

theorem splitLines_length (text : Bytes) : (splitLines text).1.length ≤ text.length := by
  have joined := joinLines_length (splitLines text).1 (splitLines text).2
  rw [joinLines_split] at joined
  omega

variable (charSigned separator BUFSIZ) in
/-- What is left to do behind a call. -/
def further (n : Nat) (call : Result × LineBuffer × File × Option UInt32) :
    Except Fault (List Result) :=
  if call.1 = .enoent then .ok [.enoent]
  else (calls charSigned separator BUFSIZ n call.2.1 call.2.2.1 call.2.2.2).map (call.1 :: ·)

theorem calls_succ (n : Nat) (buffer : LineBuffer) (f : File) (line : Option UInt32) :
    calls charSigned separator BUFSIZ (n + 1) buffer f line =
      (nextLine charSigned separator BUFSIZ (f.rest.length + 1) buffer f line).bind
        (further charSigned separator BUFSIZ n) := by
  rw [calls, next]
  congr 1

theorem calls_end {buffer : LineBuffer} (notFreed : buffer.status ≠ .freed) (eof : Bool)
    (line : Option UInt32) (n fuel : Nat) :
    (nextLine charSigned separator BUFSIZ (fuel + 1) buffer ⟨[], eof⟩ line).bind
        (further charSigned separator BUFSIZ n) = .ok [.enoent] := by
  rw [nextLine, fgetln_end eof notFreed]
  rfl

/-- A line that was parsed, and the calls behind it. -/
theorem further_parse (text : Bytes) (buffer : LineBuffer) (f : File) (line : Option UInt32)
    (n : Nat) :
    ((parse charSigned separator text).map fun result => (result, buffer, f, line)).bind
        (further charSigned separator BUFSIZ n) =
      (parse charSigned separator text).bind fun result =>
        (calls charSigned separator BUFSIZ n buffer f line).map (result :: ·) := by
  cases parsed : parse charSigned separator text with
  | error fault => rfl
  | ok result =>
      have other : result ≠ .enoent := by
        intro same
        exact parse_enoent text (same ▸ parsed)
      exact if_neg other

theorem records_cons {line : Bytes} (lines : List Bytes) (visible : skipBlanks line ≠ []) :
    records charSigned separator (line :: lines) =
      (parse charSigned separator (skipBlanks line)).bind fun result =>
        (records charSigned separator lines).map (result :: ·) := by
  rw [records, if_neg visible]
  cases parse charSigned separator (skipBlanks line) with
  | error fault => rfl
  | ok result => cases records charSigned separator lines <;> rfl

theorem records_empty (lines : List Bytes) :
    records charSigned separator (lines ++ [[]]) = records charSigned separator lines := by
  induction lines with
  | nil => rfl
  | cons line lines ih => rw [List.cons_append, records, records, ih]

/-- The end of a file: the last line if there is one, then `ENOENT`. -/
theorem calls_last (large : 1 < BUFSIZ) {buffer : LineBuffer} {last : Bytes}
    (plain : newline ∉ last)
    (readable : Readable charSigned separator BUFSIZ buffer [] last) (eof : Bool)
    (line : Option UInt32) (n fuel : Nat) (enough : 0 < n) :
    (nextLine charSigned separator BUFSIZ (fuel + 1) buffer ⟨last, eof⟩ line).bind
        (further charSigned separator BUFSIZ n) = records charSigned separator [last] := by
  by_cases nonempty : last = []
  · subst nonempty
    exact calls_end readable.notFreed eof line n fuel
  · obtain ⟨visible, settled⟩ := readable.ends nonempty
    have room := readable.fits last (List.mem_append_right _ List.mem_cons_self)
    have run := fgetln_unended large eof readable.notFreed plain nonempty (Nat.lt_of_succ_lt room)
    obtain ⟨left, dropped, each⟩ :=
      dropNewline_zero (buffer.ready.behind BUFSIZ last.length)
    have settled_ : Settled charSigned separator (last.length + 1) (skipBlanks last)
        (0 :: left) := by
      rw [← dropped]
      exact settled
    have trimmed : trim ((buffer.ready.put 0 last).line (buffer.ready.bufsiz BUFSIZ)) =
        skipBlanks last ++ 0 :: left := by
      obtain ⟨c, rest, starts⟩ := List.exists_cons_of_ne_nil visible
      rw [line_put_behind buffer.ready (Nat.lt_of_succ_lt room), trim,
        skipBlanks_append _ starts, ← List.cons_append, each, starts]
    have inside : skipBlanks last ++ 0 :: left ≠ [] := by simp
    have parsed : nextLine charSigned separator BUFSIZ (fuel + 1) buffer ⟨last, eof⟩ line =
        (parse charSigned separator (skipBlanks last)).map fun result =>
          (result, buffer.ready.put 0 last, ⟨[], true⟩, line.map (· + 1)) := by
      rw [nextLine, run]
      simp only [bind, Except.bind, trimmed, if_neg inside, parse_settled charSigned separator settled_]
      cases parse charSigned separator (skipBlanks last) <;> rfl
    obtain ⟨n, rfl⟩ : ∃ k, n = k + 1 := ⟨n - 1, by omega⟩
    have live : (buffer.ready.put 0 last).status ≠ .freed := ready_notFreed _
    rw [parsed, further_parse, records_cons [] visible, calls_succ, calls_end live]
    rfl

/-- The calls on a file whose lines fit. -/
theorem calls_lines (large : 1 < BUFSIZ) (lines : List Bytes) {buffer : LineBuffer} {last : Bytes}
    (plain : ∀ line ∈ lines ++ [last], newline ∉ line) (visible : ∀ line ∈ lines, 0 ∉ line)
    (readable : Readable charSigned separator BUFSIZ buffer lines last) (eof : Bool)
    (line : Option UInt32) (n fuel : Nat) (enough : lines.length < n)
    (enough' : lines.length < fuel) :
    (nextLine charSigned separator BUFSIZ fuel buffer ⟨joinLines lines last, eof⟩ line).bind
        (further charSigned separator BUFSIZ n) =
      records charSigned separator (lines ++ [last]) := by
  induction lines generalizing buffer line n fuel with
  | nil =>
      obtain ⟨fuel, rfl⟩ : ∃ k, fuel = k + 1 := ⟨fuel - 1, by omega⟩
      exact calls_last large (plain last List.mem_cons_self) readable eof line n fuel enough
  | cons first lines ih =>
      rw [List.length_cons] at enough enough'
      obtain ⟨fuel, rfl⟩ : ∃ k, fuel = k + 1 := ⟨fuel - 1, by omega⟩
      obtain ⟨n, rfl⟩ : ∃ k, n = k + 1 := ⟨n - 1, by omega⟩
      have joined : joinLines (first :: lines) last = first ++ newline :: joinLines lines last := rfl
      have room := readable.fits first List.mem_cons_self
      have rest : Readable charSigned separator BUFSIZ
          (buffer.ready.put 0 (first ++ [newline])) lines last :=
        ⟨ready_notFreed _, fun line member => readable.fits line (List.mem_cons_of_mem _ member),
          readable.ends⟩
      have behind := ih (fun line member => plain line (List.mem_cons_of_mem _ member))
        (fun line member => visible line (List.mem_cons_of_mem _ member)) rest
        (line.map (· + 1))
      rw [joined, nextLine_whole charSigned separator fuel eof _ line readable.notFreed
        (plain first List.mem_cons_self) (visible first List.mem_cons_self) room,
        List.cons_append]
      by_cases blank : skipBlanks first = []
      · rw [if_pos blank, records, if_pos blank]
        exact behind (n + 1) fuel (by omega) (by omega)
      · have size := joinLines_length lines last
        rw [if_neg blank, further_parse, records_cons _ blank, calls_succ]
        dsimp only
        rw [behind n _ (by omega) (by omega)]

variable (charSigned separator BUFSIZ) in
/-- All that the calls on a file return. -/
def results (buffer : LineBuffer) (content : Bytes) (line : Option UInt32) :
    Except Fault (List Result) :=
  calls charSigned separator BUFSIZ (content.length + 2) buffer ⟨content, false⟩ line

theorem results_records (large : 1 < BUFSIZ) (content : CString) (buffer : LineBuffer)
    (line : Option UInt32)
    (readable : Readable charSigned separator BUFSIZ buffer (splitLines content.chars).1
      (splitLines content.chars).2) :
    results charSigned separator BUFSIZ buffer content.chars line =
      records charSigned separator
        ((splitLines content.chars).1 ++ [(splitLines content.chars).2]) := by
  have size := splitLines_length content.chars
  have plain := splitLines_plain content.chars
  have each : ∀ line ∈ (splitLines content.chars).1 ++ [(splitLines content.chars).2],
      newline ∉ line := by
    intro line member
    cases List.mem_append.mp member with
    | inl inside => exact plain.1 line inside
    | inr last => exact List.mem_singleton.mp last ▸ plain.2
  have run := calls_lines large _ each (splitLines_chars content.plain).1 readable false line
    (content.chars.length + 1) (content.chars.length + 1) (by omega) (by omega)
  rw [joinLines_split] at run
  rw [results, calls_succ]
  exact run

/-- Each record is that of its own line, and the results are the same with a newline at the end
of the file. -/
theorem results_own (large : 1 < BUFSIZ) (content : CString) (buffer : LineBuffer)
    (line : Option UInt32)
    (readable : Readable charSigned separator BUFSIZ buffer (splitLines content.chars).1
      (splitLines content.chars).2) :
    results charSigned separator BUFSIZ buffer content.chars line =
        records charSigned separator
          ((splitLines content.chars).1 ++ [(splitLines content.chars).2]) ∧
      results charSigned separator BUFSIZ buffer (content.chars ++ [newline]) line =
        results charSigned separator BUFSIZ buffer content.chars line := by
  have first := results_records large content buffer line readable
  have visible : 0 ∉ content.chars ++ [newline] := by
    rw [List.mem_append]
    simp only [not_or]
    exact ⟨content.plain, by decide⟩
  have split := splitLines_newline content.chars
  have fits : Readable charSigned separator BUFSIZ buffer
      (splitLines (content.chars ++ [newline])).1 (splitLines (content.chars ++ [newline])).2 := by
    rw [split]
    refine ⟨readable.notFreed, ?_, fun none_ => absurd rfl none_⟩
    intro line member
    cases List.mem_append.mp member with
    | inl inside => exact readable.fits line inside
    | inr last =>
        rw [List.mem_singleton.mp last]
        exact bufsiz_large large buffer.ready
  have second := results_records large ⟨content.chars ++ [newline], visible⟩ buffer line fits
  refine ⟨first, ?_⟩
  rw [first, second, split, records_empty]

/-- `a,b`, and `c` on a last line without a newline. -/
def unendedLine : CString := ⟨[97, 44, 98, 10, 99], by decide⟩

theorem unendedLine_readable :
    Readable true 44 256 .unused (splitLines unendedLine.chars).1
      (splitLines unendedLine.chars).2 := by
  have split : splitLines unendedLine.chars = ([[97, 44, 98]], [99]) := rfl
  rw [split]
  refine ⟨by decide, by decide, ?_⟩
  intro _
  refine ⟨by decide, ?_⟩
  have absent : (44 : UInt8) ∉
      dropNewline (0 :: (afterLines .unused [[97, 44, 98]]).ready.behind 256 1) := by
    decide +kernel
  exact (goesOn_bare true 44).mpr absent

theorem results_own_unended :
    results true 44 256 .unused unendedLine.chars none =
        records true 44 ((splitLines unendedLine.chars).1 ++ [(splitLines unendedLine.chars).2]) ∧
      results true 44 256 .unused (unendedLine.chars ++ [newline]) none =
        results true 44 256 .unused unendedLine.chars none :=
  results_own (by decide) unendedLine .unused none unendedLine_readable

/-- Without its newline the line `"c"` is refused; and a line `c` without its newline has another
field behind the line `aa,b` than behind the line `aaab`. -/
theorem results_unended :
    results true 44 256 .unused [34, 99, 34, 10] none = .ok [.fields [⟨[99], by decide⟩], .enoent] ∧
    results true 44 256 .unused [34, 99, 34] none = .ok [.einval, .enoent] ∧
    results true 44 256 .unused [97, 97, 97, 98, 10, 99] none =
      .ok [.fields [⟨[97, 97, 97, 98], by decide⟩], .fields [⟨[99], by decide⟩], .enoent] ∧
    results true 44 256 .unused [97, 97, 44, 98, 10, 99] none =
      .ok [.fields [⟨[97, 97], by decide⟩, ⟨[98], by decide⟩],
        .fields [⟨[99], by decide⟩, ⟨[98, 10], by decide⟩], .enoent] := by
  decide +kernel

end Calls

end CsvParser

end Sbf
