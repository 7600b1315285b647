import Mathlib.Data.List.DropRight
import Sbf.KeyValue
import Sbf.LineReader

set_option autoImplicit false

namespace Sbf

open Octets

namespace LineBuffer

/-- `free` of the memory at `buf`. -/
def free (buffer : LineBuffer) : Except Fault LineBuffer :=
  match buffer.status with
  | .freed => .error .freed
  | _ => .ok { buffer with status := .freed }

/-- `line[i] = '\0'` -/
def cut (buffer : LineBuffer) (i : Nat) : LineBuffer :=
  { buffer with mem := Function.update buffer.mem i 0 }

/-- The loop that takes the newlines off the end of a line. -/
def chomp : Nat → LineBuffer → Nat × LineBuffer
  | 0, buffer => (0, buffer)
  | linelen + 1, buffer =>
      if buffer.mem linelen = newline then chomp linelen (buffer.cut linelen)
      else (linelen + 1, buffer)

/-- The string at `buf`, within a line. -/
def text (buffer : LineBuffer) (linelen : Nat) : CString :=
  ⟨(buffer.line linelen).takeWhile (· ≠ 0), fun zero => by
    have kept : decide ((0 : UInt8) ≠ 0) = true :=
      List.mem_takeWhile_imp (p := fun c : UInt8 => decide (c ≠ 0)) zero
    exact absurd kept (by decide)⟩

theorem text_chars (buffer : LineBuffer) (linelen : Nat) :
    (buffer.text linelen).chars = (buffer.line linelen).takeWhile (· ≠ 0) := rfl

end LineBuffer

namespace Properties

def equals : UInt8 := 61

def comment : UInt8 := 35

def quote : UInt8 := 34

/-- What `sbfPropertiesLoadFile` reports, with the path and the number of the line. -/
inductive LoadError where
  | open_ (path : CString)
  | quote (path : CString) (n : Nat)
  | tooLong (path : CString) (n : Nat)
  | key (path : CString) (n : Nat)
  deriving DecidableEq

/-- `s` behind its white space. -/
def skipSpace (s : CString) : CString :=
  ⟨s.chars.dropWhile isSpace, fun zero => s.plain ((List.dropWhile_suffix _).subset zero)⟩

/-- `s + n`, inside the string. -/
def advance (s : CString) (n : Nat) : CString :=
  ⟨s.chars.drop n, fun zero => s.plain (List.mem_of_mem_drop zero)⟩

/-- `s[strlen (s) - 1] = '\0'` -/
def dropLast (s : CString) : CString :=
  ⟨s.chars.dropLast, fun zero => s.plain (List.dropLast_subset _ zero)⟩

/-- `include` and the blank or tab behind it. -/
def isInclude (s : CString) : Bool :=
  s.chars.take 8 = [105, 110, 99, 108, 117, 100, 101, 32] ||
    s.chars.take 8 = [105, 110, 99, 108, 117, 100, 101, 9]

/-- A line by what is behind its white space. -/
inductive Entry where
  | skip
  | malformed
  | assign (key value : CString)
  deriving DecidableEq

/-- The end of the loop's body in `sbfPropertiesLoadFile`, for a line that includes nothing. -/
def entryOf (s : CString) : Entry :=
  if s.chars = [] ∨ s.chars.head? = some comment then .skip
  else
    match s.behind equals with
    | none => .malformed
    | some value =>
        if s.chars.head? = some equals then .malformed else .assign (s.upTo equals) value

/-- What a file may refer to outside: other files, and `dirname`. -/
structure FileSystem where
  content : CString → Option Bytes
  dirname : CString → CString

/-- `PATH_MAX` -/
def pathMax : Nat := 4096

section Load

variable (BUFSIZ : Nat) (system : FileSystem)

/-- What loading a file leads to: an error, the table, and the buffer for the next one. -/
abbrev Loaded := Except Fault (Option LoadError × KeyValue × LineBuffer)

/-- `fail`, where `line` is not null. -/
def fail (error : LoadError) (table : KeyValue) (buffer : LineBuffer) : Loaded := do
  let buffer ← buffer.free
  return (some error, table, buffer)

theorem slash_visible : slash ≠ 0 := by decide

/-- The path of an included file, unless it is too long. -/
def includePath (path s : CString) : Option CString :=
  if s.chars.head? ≠ some slash then
    let next := (system.dirname path).join slash slash_visible s
    if pathMax ≤ next.chars.length then none else some next
  else some s

/-- The loop of `sbfPropertiesLoadFile`; `load` is the function itself, for included files. -/
def loadLines (load : CString → KeyValue → LineBuffer → Loaded) (path : CString) :
    Nat → File → Nat → KeyValue → LineBuffer → Loaded
  | 0, _, _, _, _ => .error .endless
  | fuel + 1, f, n, table, buffer => do
      let (line, buffer, f) ← buffer.fgetln BUFSIZ f
      if f.eof then
        match line with
        | none => .ok (none, table, buffer)
        | some _ => do
            let buffer ← buffer.free
            return (none, table, buffer)
      else
        match line with
        | none => .error .null
        | some linelen =>
            let (linelen, buffer) := buffer.chomp linelen
            let s := skipSpace (buffer.text linelen)
            if isInclude s then
              let s := skipSpace (advance s 8)
              if s.chars.head? ≠ some quote ∨ s.chars.getLast? ≠ some quote then
                fail (.quote path (n + 1)) table buffer
              else
                match includePath system path (dropLast (advance s 1)) with
                | none => fail (.tooLong path (n + 1)) table buffer
                | some next => do
                    let (error, table, buffer) ← load next table buffer
                    match error with
                    | some error => fail error table buffer
                    | none => loadLines load path fuel f (n + 1) table buffer
            else
              match entryOf s with
              | .skip => loadLines load path fuel f (n + 1) table buffer
              | .malformed => fail (.key path (n + 1)) table buffer
              | .assign key value =>
                  loadLines load path fuel f (n + 1) (table.put key value)
                    (buffer.cut ((buffer.text linelen).chars.length - value.chars.length - 1))

/-- `sbfPropertiesLoadFile`, down to some depth of included files. -/
def loadFile : Nat → CString → KeyValue → LineBuffer → Loaded
  | 0, _, _, _ => .error .endless
  | depth + 1, path, table, buffer =>
      match system.content path with
      | none => .ok (some (.open_ path), table, buffer)
      | some content =>
          loadLines BUFSIZ system (loadFile depth) path (content.length + 1) ⟨content, false⟩ 0
            table buffer

/-- `sbfProperties_load`, with the table unless it is null. -/
def load (depth : Nat) (file : CString) (buffer : LineBuffer) :
    Except Fault (Option KeyValue × Option LoadError × LineBuffer) := do
  let (error, table, buffer) ← loadFile BUFSIZ system depth file .empty buffer
  match error with
  | some error => return (none, some error, buffer)
  | none => return (some table, none, buffer)

end Load

end Properties

end Sbf
