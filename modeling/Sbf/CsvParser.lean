import Mathlib.Data.List.DropRight
import Sbf.LineReader
import Sbf.StringParts

set_option autoImplicit false

namespace Sbf

open Octets

namespace CsvParser

def quote : UInt8 := 34

/-- A space or a tab. -/
def isBlank (c : UInt8) : Bool := c == 32 || c == 9

def skipBlanks (text : Bytes) : Bytes := text.dropWhile isBlank

/-- The string in a piece of memory: what is in front of the first zero. -/
def string (memory : Bytes) : CString :=
  ⟨memory.takeWhile (· ≠ 0), fun zero => by
    have kept : decide ((0 : UInt8) ≠ 0) = true :=
      List.mem_takeWhile_imp (p := fun c : UInt8 => decide (c ≠ 0)) zero
    simp at kept⟩

theorem string_plain (s : CString) : string s.chars = s := by
  apply CString.ext
  apply List.takeWhile_eq_self_iff.mpr
  intro c member
  apply decide_eq_true
  intro zero
  exact s.plain (zero ▸ member)

/-- What `sbfCsvParser_next` returns. -/
inductive Result where
  | fields (fields : List CString)
  | enoent
  | einval
  deriving DecidableEq

/-- `sbfCsvParserAdd`, where `nfields` is a 32-bit word: when it wraps, the field is stored
outside of the array. -/
def add (fields : List CString) (field : CString) : Except Fault (List CString) :=
  if fields.length + 1 < 2 ^ 32 then .ok (fields ++ [field]) else .error .outside

section Parser

variable (charSigned : Bool) (separator : UInt8)

/-- `buf[off] == separator`: the first is a `char`, and negative from 128 on if that is
signed; the second is a `u_char`. -/
def isSeparator (c : UInt8) : Bool := c == separator && !(charSigned && decide (128 ≤ c))

/-- Behind the quote that ends a field: the field, whether a comma was seen, and the rest. -/
def closeQuote (next : Bytes) (rest : Bytes) : Option (Bytes × Bool × Bytes) :=
  match skipBlanks rest with
  | [] => some (next, false, [])
  | c :: rest =>
      if isSeparator charSigned separator c then some (next, !rest.isEmpty, rest) else none

/-- The loop over the characters of a field. -/
def readField (quoted : Bool) : Bytes → Bytes → Option (Bytes × Bool × Bytes)
  | next, [] => some (next, false, [])
  | next, c :: rest =>
      if !quoted && c == separator then
        some (next.rdropWhile (· == 32), true, rest)
      else if quoted && c == quote then
        match rest with
        | [] => some (next, false, [])
        | d :: more =>
            if d ≠ quote then closeQuote charSigned separator next (d :: more)
            else readField quoted (next ++ [c]) more
      else readField quoted (next ++ [c]) rest

/-- What was read of a field has no influence on what is behind its quote. -/
theorem closeQuote_next (next other rest : Bytes) :
    closeQuote charSigned separator other rest =
      (closeQuote charSigned separator next rest).map fun found => (other, found.2) := by
  unfold closeQuote
  split
  case h_1 => rfl
  case h_2 => split <;> rfl

theorem closeQuote_field {next rest field : Bytes} {behind : Bool × Bytes}
    (closed : closeQuote charSigned separator next rest = some (field, behind)) :
    field = next := by
  unfold closeQuote at closed
  split at closed
  case h_1 =>
      cases closed
      rfl
  case h_2 =>
      split at closed
      case isTrue =>
          cases closed
          rfl
      case isFalse => cases closed

theorem readField_separator (next rest : Bytes) :
    readField charSigned separator false next (separator :: rest) =
      some (next.rdropWhile (· == 32), true, rest) := by
  rw [readField.eq_def]
  simp

theorem readField_quote (next rest : Bytes) :
    readField charSigned separator true next (quote :: quote :: rest) =
      readField charSigned separator true (next ++ [quote]) rest := by
  rw [readField.eq_def]
  simp

/-- The first quote of two that are not next to each other ends the field. -/
theorem readField_close (next : Bytes) {rest : Bytes} (single : rest.head? ≠ some quote) :
    readField charSigned separator true next (quote :: rest) =
      closeQuote charSigned separator next rest := by
  rw [readField.eq_def]
  cases rest with
  | nil => simp [closeQuote, skipBlanks]
  | cons d rest =>
      have other : d ≠ quote := by simpa using single
      simp [other]

/-- Any other character is one of the field. -/
theorem readField_char (quoted : Bool) (next : Bytes) {c : UInt8} (rest : Bytes)
    (inside : c ≠ if quoted then quote else separator) :
    readField charSigned separator quoted next (c :: rest) =
      readField charSigned separator quoted (next ++ [c]) rest := by
  rw [readField.eq_def]
  cases quoted with
  | false => simp_all
  | true => simp_all

/-- The loop over the fields of a line, with those in front. -/
def readFields : Nat → Bytes → List CString → Except Fault (Option (List CString))
  | 0, _, _ => .error .endless
  | fuel + 1, text, fields =>
      match skipBlanks text with
      | [] => (add fields .empty).map some
      | c :: rest =>
          let quoted := c == quote
          match readField charSigned separator quoted [] (if quoted then rest else c :: rest) with
          | none => .ok none
          | some (next, comma, text) => do
              let fields ← add fields (string next)
              if comma then readFields fuel text fields else return some fields

theorem readFields_end (fuel : Nat) (fields : List CString) :
    readFields charSigned separator (fuel + 1) [] fields = (add fields .empty).map some := rfl

theorem readFields_fails (fuel : Nat) {text : Bytes} (fields : List CString) {c : UInt8}
    {rest : Bytes} (starts : skipBlanks text = c :: rest)
    (fails : readField charSigned separator (c == quote) []
      (if c == quote then rest else c :: rest) = none) :
    readFields charSigned separator (fuel + 1) text fields = .ok none := by
  simp only [readFields, starts, fails]

theorem readFields_field (fuel : Nat) {text : Bytes} (fields : List CString) {c : UInt8}
    {rest : Bytes} {next : Bytes} {comma : Bool} {more : Bytes}
    (starts : skipBlanks text = c :: rest)
    (read : readField charSigned separator (c == quote) []
      (if c == quote then rest else c :: rest) = some (next, comma, more)) :
    readFields charSigned separator (fuel + 1) text fields =
      (add fields (string next)).bind fun fields =>
        if comma then readFields charSigned separator fuel more fields else .ok (some fields) := by
  simp only [readFields, starts, read]
  rfl

def dropNewline (text : Bytes) : Bytes :=
  if text.getLast? = some newline then text.dropLast else text

/-- A line behind its blanks, without a newline at its end. -/
def trim (line : Bytes) : Bytes := dropNewline (skipBlanks line)

/-- The fields of a line. -/
def parse (text : Bytes) : Except Fault Result :=
  (readFields charSigned separator (text.length + 1) text []).map fun
    | some fields => .fields fields
    | none => .einval

/-- `sbfCsvParser_next`, with the count of lines at `line` unless that is null. -/
def nextLine (BUFSIZ : Nat) : Nat → LineBuffer → File → Option UInt32 →
    Except Fault (Result × LineBuffer × File × Option UInt32)
  | 0, _, _, _ => .error .endless
  | fuel + 1, buffer, f, line => do
      let (len, buffer, f) ← buffer.fgetln BUFSIZ f
      match len with
      | none => return (.enoent, buffer, f, line)
      | some len =>
          let line := line.map (· + 1)
          let text := trim (buffer.line len)
          if text = [] then nextLine BUFSIZ fuel buffer f line
          else
            let result ← parse charSigned separator text
            return (result, buffer, f, line)

/-- A line is at least one character. -/
def next (BUFSIZ : Nat) (buffer : LineBuffer) (f : File) (line : Option UInt32) :
    Except Fault (Result × LineBuffer × File × Option UInt32) :=
  nextLine charSigned separator BUFSIZ (f.rest.length + 1) buffer f line

theorem skipBlanks_newline (text : Bytes) :
    skipBlanks (text ++ [newline]) = skipBlanks text ++ [newline] := by
  induction text with
  | nil => rfl
  | cons c text ih =>
      by_cases blank : isBlank c = true
      · rw [skipBlanks, skipBlanks, List.cons_append, List.dropWhile_cons_of_pos blank,
          List.dropWhile_cons_of_pos blank]
        exact ih
      · rw [skipBlanks, skipBlanks, List.cons_append, List.dropWhile_cons_of_neg blank,
          List.dropWhile_cons_of_neg blank]
        rfl

theorem trim_newline (text : Bytes) : trim (text ++ [newline]) = skipBlanks text := by
  rw [trim, skipBlanks_newline, dropNewline, List.getLast?_concat, if_pos rfl, List.dropLast_concat]

/-- A line that fits into the buffer with its newline is parsed as it is in the file. -/
theorem nextLine_whole {BUFSIZ : Nat} {buffer : LineBuffer} (fuel : Nat) (eof : Bool)
    {text : Bytes} (more : Bytes) (line : Option UInt32) (notFreed : buffer.status ≠ .freed)
    (plain : newline ∉ text) (visible : 0 ∉ text)
    (room : text.length + 1 < buffer.ready.bufsiz BUFSIZ) :
    nextLine charSigned separator BUFSIZ (fuel + 1) buffer ⟨text ++ newline :: more, eof⟩ line =
      if skipBlanks text = [] then
        nextLine charSigned separator BUFSIZ fuel (buffer.ready.put 0 (text ++ [newline]))
          ⟨more, eof⟩ (line.map (· + 1))
      else (parse charSigned separator (skipBlanks text)).map fun result =>
        (result, buffer.ready.put 0 (text ++ [newline]), ⟨more, eof⟩, line.map (· + 1)) := by
  rw [nextLine, fgetln_whole eof more notFreed plain visible room]
  simp only [bind, Except.bind, line_put_newline, trim_newline]
  split
  case isTrue => rfl
  case isFalse => cases parse charSigned separator (skipBlanks text) <;> rfl

theorem nextLine_freed (BUFSIZ : Nat) {buffer : LineBuffer} (fuel : Nat) (f : File)
    (line : Option UInt32) (freed : buffer.status = .freed) :
    nextLine charSigned separator BUFSIZ (fuel + 1) buffer f line = .error .freed := by
  rw [nextLine, LineBuffer.fgetln, if_pos freed]
  rfl

end Parser

end CsvParser

end Sbf
