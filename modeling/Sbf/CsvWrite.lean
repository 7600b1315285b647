import Sbf.CsvParser

set_option autoImplicit false

namespace Sbf

open Octets

namespace CsvParser

/-- A separator of a record: none of the characters that mean something else. -/
structure Separator where
  char : UInt8
  notQuote : char ≠ quote
  notBlank : isBlank char = false
  notNewline : char ≠ newline
  visible : char ≠ 0

/-- A field that can be written as it is. -/
structure Bare (separator : Separator) (field : Bytes) : Prop where
  noQuote : quote ∉ field
  noSeparator : separator.char ∉ field
  first : ∀ c ∈ field.head?, isBlank c = false
  last : ∀ c ∈ field.getLast?, isBlank c = false

/-- A field without a newline, and how it is written. -/
structure Written (separator : Separator) where
  field : CString
  quoted : Bool
  oneLine : newline ∉ field.chars
  bare : quoted = false → Bare separator field.chars

/-- Every quote twice. -/
def double : Bytes → Bytes
  | [] => []
  | c :: rest => if c = quote then quote :: quote :: double rest else c :: double rest

section Writer

variable {separator : Separator}

/-- A field as it stands in a record. -/
def Written.text (written : Written separator) : Bytes :=
  if written.quoted then quote :: (double written.field.chars ++ [quote])
  else written.field.chars

/-- The fields of a record, joined with the separator. -/
def write : List (Written separator) → Bytes
  | [] => []
  | [last] => last.text
  | one :: other :: rest => one.text ++ separator.char :: write (other :: rest)

/-- Behind a quoted field the separator has to be one for `char` too, and it must not be the
last character of the line. -/
def Separated (charSigned : Bool) : List (Written separator) → Prop
  | [] => True
  | [_] => True
  | one :: other :: rest =>
      (one.quoted = true →
        (charSigned = true → separator.char < 128) ∧ write (other :: rest) ≠ []) ∧
      Separated charSigned (other :: rest)

instance Separated.decidable (charSigned : Bool) :
    ∀ record : List (Written separator), Decidable (Separated charSigned record)
  | [] => .isTrue trivial
  | [_] => .isTrue trivial
  | one :: other :: rest =>
      have := Separated.decidable charSigned (other :: rest)
      inferInstanceAs (Decidable
        ((one.quoted = true →
          (charSigned = true → separator.char < 128) ∧ write (other :: rest) ≠ []) ∧
        Separated charSigned (other :: rest)))

end Writer

section Fields

variable {separator : UInt8}

/-- Characters that are not the separator are those of a bare field. -/
theorem readField_plain (charSigned : Bool) (next : Bytes) {chars : Bytes} (rest : Bytes)
    (plain : separator ∉ chars) :
    readField charSigned separator false next (chars ++ rest) =
      readField charSigned separator false (next ++ chars) rest := by
  induction chars generalizing next with
  | nil => simp
  | cons c chars ih =>
      simp only [List.mem_cons, not_or] at plain
      rw [List.cons_append, readField_char charSigned separator false next _ (Ne.symm plain.1), ih (next ++ [c]) plain.2,
        List.append_assoc, List.singleton_append]

/-- A quoted field ends at the first quote that is not doubled. -/
theorem readField_double (charSigned : Bool) (separator : UInt8) (next chars rest : Bytes) :
    readField charSigned separator true next (double chars ++ rest) =
      readField charSigned separator true (next ++ chars) rest := by
  induction chars generalizing next with
  | nil => simp [double]
  | cons c chars ih =>
      have step : readField charSigned separator true next (double (c :: chars) ++ rest) =
          readField charSigned separator true (next ++ [c]) (double chars ++ rest) := by
        by_cases here : c = quote
        · subst here
          rw [double, if_pos rfl]
          exact readField_quote charSigned separator next _
        · rw [double, if_neg here]
          exact readField_char charSigned separator true next _ here
      rw [step, ih (next ++ [c]), List.append_assoc, List.singleton_append]

/-- Nothing is skipped in front of a character that is not blank. -/
theorem skipBlanks_solid {text : Bytes} (solid : ∀ c ∈ text.head?, isBlank c = false) :
    skipBlanks text = text := by
  cases text with
  | nil => rfl
  | cons c rest => exact List.dropWhile_cons_of_neg (by simp [solid c rfl])

end Fields

section Records

variable (charSigned : Bool) {separator : Separator}

theorem head_append {first : Bytes} {c : UInt8} (rest : Bytes) :
    ∀ d ∈ (first ++ c :: rest).head?, d ∈ first.head? ∨ d = c := by
  intro d found
  cases first with
  | nil =>
      right
      exact (Option.some.inj found).symm
  | cons e first => exact Or.inl found

/-- A bare field in front of a separator. -/
theorem readFields_bare (fuel : Nat) {field : CString} (bare : Bare separator field.chars)
    (more : Bytes) (fields : List CString) :
    readFields charSigned separator.char (fuel + 1)
        (field.chars ++ separator.char :: more) fields =
      (add fields field).bind fun fields =>
        readFields charSigned separator.char fuel more fields := by
  obtain ⟨c, rest, shape⟩ : ∃ c rest, field.chars ++ separator.char :: more = c :: rest :=
    List.exists_cons_of_ne_nil (by simp)
  have head : c ∈ field.chars.head? ∨ c = separator.char := by
    apply head_append more
    rw [shape]
    rfl
  have solid : isBlank c = false := by
    cases head with
    | inl first => exact bare.first c first
    | inr same => exact same ▸ separator.notBlank
  have unquoted : (c == quote) = false := by
    apply beq_eq_false_iff_ne.mpr
    intro same
    subst same
    cases head with
    | inl first => exact bare.noQuote (List.mem_of_head? first)
    | inr same => exact separator.notQuote same.symm
  have trimmed : field.chars.rdropWhile (· == 32) = field.chars := by
    rw [List.rdropWhile_eq_self_iff]
    intro nonempty last
    have blank := bare.last _ (List.getLast?_eq_getLast_of_ne_nil nonempty)
    rw [isBlank, Bool.or_eq_false_iff] at blank
    rw [blank.1] at last
    cases last
  have starts : skipBlanks (field.chars ++ separator.char :: more) = c :: rest := by
    rw [shape]
    exact skipBlanks_solid (by simpa using solid)
  have read : readField charSigned separator.char (c == quote) []
      (if c == quote then rest else c :: rest) = some (field.chars, true, more) := by
    rw [unquoted]
    simp only [Bool.false_eq_true, ↓reduceIte]
    rw [← shape, readField_plain charSigned [] _ bare.noSeparator, List.nil_append, readField_separator,
      trimmed]
  rw [readFields_field charSigned separator.char fuel fields starts read, string_plain]
  rfl

/-- A bare field at the end of the line. -/
theorem readFields_bare_end (fuel : Nat) {field : CString} (bare : Bare separator field.chars)
    (fields : List CString) :
    readFields charSigned separator.char (fuel + 1) field.chars fields =
      (add fields field).map some := by
  cases shape : field.chars with
  | nil =>
      have same : field = .empty := CString.ext shape
      rw [readFields_end, same]
  | cons c rest =>
      have first : c ∈ field.chars.head? := by
        rw [shape]
        rfl
      have unquoted : (c == quote) = false := by
        apply beq_eq_false_iff_ne.mpr
        intro same
        exact bare.noQuote (same ▸ List.mem_of_head? first)
      have starts : skipBlanks (c :: rest) = c :: rest :=
        skipBlanks_solid (by simpa using bare.first c first)
      have read : readField charSigned separator.char (c == quote) []
          (if c == quote then rest else c :: rest) = some (field.chars, false, []) := by
        rw [unquoted]
        simp only [Bool.false_eq_true, ↓reduceIte]
        have all := readField_plain charSigned [] [] bare.noSeparator
        rw [List.append_nil, List.nil_append] at all
        rw [← shape, all, readField]
      rw [readFields_field charSigned separator.char fuel fields starts read, string_plain]
      cases add fields field <;> rfl

/-- A quoted field, whatever is behind it. -/
theorem readFields_quoted (separator : Separator) (fuel : Nat) (field : CString) (tail : Bytes)
    (single : tail.head? ≠ some quote) (fields : List CString) :
    readFields charSigned separator.char (fuel + 1)
        (quote :: (double field.chars ++ [quote]) ++ tail) fields =
      match closeQuote charSigned separator.char field.chars tail with
      | none => .ok none
      | some (_, comma, more) =>
          (add fields field).bind fun fields =>
            if comma then readFields charSigned separator.char fuel more fields
            else .ok (some fields) := by
  have starts : skipBlanks (quote :: (double field.chars ++ [quote]) ++ tail) =
      quote :: (double field.chars ++ quote :: tail) := by
    rw [List.cons_append, List.append_assoc]
    apply skipBlanks_solid
    intro c first
    cases first
    rfl
  have read : readField charSigned separator.char (quote == quote) []
      (if quote == quote then double field.chars ++ quote :: tail
        else quote :: (double field.chars ++ quote :: tail)) =
      closeQuote charSigned separator.char field.chars tail := by
    rw [beq_self_eq_true, if_pos rfl, readField_double, List.nil_append,
      readField_close charSigned separator.char _ single]
  cases closed : closeQuote charSigned separator.char field.chars tail with
  | none =>
      rw [closed] at read
      exact readFields_fails charSigned separator.char fuel fields starts read
  | some found =>
      obtain ⟨next, comma, more⟩ := found
      have same := closeQuote_field charSigned separator.char closed
      rw [closed] at read
      rw [readFields_field charSigned separator.char fuel fields starts read, same, string_plain]

theorem isSeparator_self :
    isSeparator charSigned separator.char separator.char = true ↔
      (charSigned = true → separator.char < 128) := by
  cases charSigned with
  | false => simp [isSeparator]
  | true => simp [isSeparator]

/-- A field at the end of the line. -/
theorem readFields_last (fuel : Nat) (last : Written separator) (fields : List CString) :
    readFields charSigned separator.char (fuel + 1) last.text fields =
      (add fields last.field).map some := by
  unfold Written.text
  split
  case isTrue =>
      have quoted := readFields_quoted charSigned separator fuel last.field [] (by decide) fields
      rw [List.append_nil] at quoted
      rw [quoted]
      cases add fields last.field <;> rfl
  case isFalse plain =>
      exact readFields_bare_end charSigned fuel (last.bare (Bool.eq_false_of_not_eq_true plain))
        fields

/-- A field with others behind it. -/
theorem readFields_one (fuel : Nat) (one : Written separator) (more : Bytes)
    (fields : List CString) :
    readFields charSigned separator.char (fuel + 1) (one.text ++ separator.char :: more) fields =
      if one.quoted = true ∧ ¬ (charSigned = true → separator.char < 128) then .ok none
      else (add fields one.field).bind fun fields =>
        if one.quoted = true ∧ more = [] then .ok (some fields)
        else readFields charSigned separator.char fuel more fields := by
  unfold Written.text
  split
  case isTrue quoted =>
      have single : (separator.char :: more).head? ≠ some quote := by
        intro same
        exact separator.notQuote (Option.some.inj same)
      have here : skipBlanks (separator.char :: more) = separator.char :: more := by
        apply skipBlanks_solid
        intro c first
        cases first
        exact separator.notBlank
      rw [readFields_quoted charSigned separator fuel one.field _ single, closeQuote, here]
      simp only [quoted, true_and]
      by_cases narrow : charSigned = true → separator.char < 128
      · rw [if_neg (not_not_intro narrow)]
        rw [(isSeparator_self charSigned).mpr narrow]
        cases more with
        | nil => rfl
        | cons c more => rfl
      · have wide : isSeparator charSigned separator.char separator.char = false := by
          apply Bool.eq_false_of_not_eq_true
          intro same
          exact narrow ((isSeparator_self charSigned).mp same)
        rw [if_pos narrow, wide]
        rfl
  case isFalse plain =>
      have bare := one.bare (Bool.eq_false_of_not_eq_true plain)
      rw [if_neg (fun both => plain both.1), readFields_bare charSigned fuel bare]
      congr 1
      funext fields
      rw [if_neg (fun both => plain both.1)]

theorem add_eq {fields : List CString} {field : CString} :
    add fields field =
      if fields.length + 1 < 2 ^ 32 then .ok (fields ++ [field]) else .error .outside := rfl

/-- The fields of a record are read back just when it is separated and they can be counted. -/
theorem readFields_write (record : List (Written separator)) (nonempty : record ≠ [])
    (fuel : Nat) (enough : (write record).length < fuel) (fields : List CString) :
    readFields charSigned separator.char fuel (write record) fields =
        .ok (some (fields ++ record.map Written.field)) ↔
      Separated charSigned record ∧ fields.length + record.length < 2 ^ 32 := by
  induction record generalizing fuel fields with
  | nil => exact absurd rfl nonempty
  | cons one rest ih =>
      obtain ⟨fuel, rfl⟩ : ∃ n, fuel = n + 1 := ⟨fuel - 1, by omega⟩
      cases rest with
      | nil =>
          rw [write, readFields_last, add_eq]
          simp only [Separated, true_and, List.length_singleton, List.map_cons, List.map_nil]
          split
          case isTrue room => exact ⟨fun _ => room, fun _ => rfl⟩
          case isFalse full =>
              constructor
              · intro read
                cases read
              · intro room
                exact absurd room full
      | cons other rest =>
          rw [write, List.length_append, List.length_cons] at enough
          have behind := ih (List.cons_ne_nil other rest) fuel (by omega) (fields ++ [one.field])
          rw [List.append_assoc, List.singleton_append, List.length_append,
            List.length_singleton] at behind
          rw [write, readFields_one, Separated, List.map_cons, List.length_cons, add_eq]
          by_cases narrow : one.quoted = true → charSigned = true → separator.char < 128
          · rw [if_neg (by simpa using narrow)]
            by_cases room : fields.length + 1 < 2 ^ 32
            · rw [if_pos room]
              dsimp only [Except.bind]
              by_cases lost : one.quoted = true ∧ write (other :: rest) = []
              · rw [if_pos lost]
                simp [lost.1, lost.2]
              · rw [if_neg lost, behind]
                simp only [not_and] at lost
                constructor
                · intro read
                  exact ⟨⟨fun quoted => ⟨narrow quoted, lost quoted⟩, read.1⟩, by omega⟩
                · intro whole
                  exact ⟨whole.1.2, by omega⟩
            · rw [if_neg room]
              constructor
              · intro read
                cases read
              · intro whole
                omega
          · have both : one.quoted = true ∧ ¬ (charSigned = true → separator.char < 128) := by
              simpa using narrow
            rw [if_pos both]
            constructor
            · intro read
              cases read
            · intro whole
              exact absurd (whole.1.1 both.1).1 both.2

theorem parse_write (record : List (Written separator)) (nonempty : record ≠ []) :
    parse charSigned separator.char (write record) =
        .ok (.fields (record.map Written.field)) ↔
      Separated charSigned record ∧ record.length < 2 ^ 32 := by
  have all := readFields_write charSigned record nonempty ((write record).length + 1)
    (Nat.lt_succ_self _) []
  rw [List.nil_append, List.length_nil, Nat.zero_add] at all
  rw [← all, parse]
  cases readFields charSigned separator.char ((write record).length + 1) (write record) [] with
  | error fault => simp [Except.map]
  | ok result =>
      cases result with
      | none => simp [Except.map]
      | some fields => simp [Except.map]

section Absent

omit charSigned

variable {c : UInt8} (notQuote : c ≠ quote)
include notQuote

theorem double_absent {chars : Bytes} (absent : c ∉ chars) : c ∉ double chars := by
  induction chars with
  | nil => exact List.not_mem_nil
  | cons d chars ih =>
      simp only [List.mem_cons, not_or] at absent
      rw [double]
      split
      case isTrue =>
          simp only [List.mem_cons, not_or]
          exact ⟨notQuote, notQuote, ih absent.2⟩
      case isFalse =>
          simp only [List.mem_cons, not_or]
          exact ⟨absent.1, ih absent.2⟩

theorem Written.text_absent {written : Written separator} (absent : c ∉ written.field.chars) :
    c ∉ written.text := by
  unfold Written.text
  split
  case isTrue =>
      simp only [List.mem_cons, List.mem_append, List.not_mem_nil, or_false, not_or]
      exact ⟨notQuote, double_absent notQuote absent, notQuote⟩
  case isFalse => exact absent

/-- A record has only quotes, separators and the characters of its fields. -/
theorem write_absent (notSeparator : c ≠ separator.char) {record : List (Written separator)}
    (absent : ∀ written ∈ record, c ∉ written.field.chars) : c ∉ write record := by
  induction record with
  | nil => exact List.not_mem_nil
  | cons one rest ih =>
      have first := Written.text_absent notQuote (absent one List.mem_cons_self)
      cases rest with
      | nil => exact first
      | cons other rest =>
          rw [write, List.mem_append, List.mem_cons]
          simp only [not_or]
          exact ⟨first, notSeparator,
            ih (fun written member => absent written (List.mem_cons_of_mem _ member))⟩

end Absent

omit charSigned in
theorem Written.text_first (written : Written separator) :
    ∀ c ∈ written.text.head?, isBlank c = false := by
  intro c first
  unfold Written.text at first
  split at first
  case isTrue =>
      cases first
      rfl
  case isFalse plain => exact (written.bare (Bool.eq_false_of_not_eq_true plain)).first c first

omit charSigned in
/-- No blank is in front of a record. -/
theorem write_first (record : List (Written separator)) :
    ∀ c ∈ (write record).head?, isBlank c = false := by
  intro c first
  cases record with
  | nil => cases first
  | cons one rest =>
      cases rest with
      | nil => exact one.text_first c first
      | cons other rest =>
          rw [write] at first
          cases head_append _ c first with
          | inl inside => exact one.text_first c inside
          | inr same => exact same ▸ separator.notBlank

/-- A record is read back just when no quoted field is followed by nothing but a separator, or
by a separator that is no `char`, and the memory of the line reader was not freed. -/
theorem next_write_iff {BUFSIZ : Nat} (record : List (Written separator))
    (nonempty : record ≠ []) (visible : write record ≠ []) (buffer : LineBuffer)
    (room : (write record).length + 1 < buffer.ready.bufsiz BUFSIZ) (more : Bytes) (eof : Bool)
    (line : Option UInt32) :
    (∃ after, next charSigned separator.char BUFSIZ buffer
        ⟨write record ++ newline :: more, eof⟩ line =
      .ok (.fields (record.map Written.field), after)) ↔
    buffer.status ≠ .freed ∧ Separated charSigned record ∧ record.length < 2 ^ 32 := by
  rw [next]
  by_cases notFreed : buffer.status ≠ .freed
  · have plain : newline ∉ write record :=
      write_absent (by decide) (Ne.symm separator.notNewline) (fun written _ => written.oneLine)
    have terminated : 0 ∉ write record :=
      write_absent (by decide) (Ne.symm separator.visible)
        (fun written _ => written.field.plain)
    rw [nextLine_whole charSigned separator.char _ eof more line notFreed plain terminated room,
      skipBlanks_solid (write_first record), if_neg visible,
      ← parse_write charSigned record nonempty]
    cases parse charSigned separator.char (write record) with
    | error fault => simp [Except.map]
    | ok result => simp [Except.map, notFreed]
  · rw [nextLine_freed charSigned separator.char BUFSIZ _ _ _ (not_not.mp notFreed)]
    constructor
    · intro read
      obtain ⟨_, impossible⟩ := read
      cases impossible
    · intro fine
      exact absurd fine.1 notFreed

def comma : Separator := ⟨44, by decide, by decide, by decide, by decide⟩

theorem letter_visible : (0 : UInt8) ∉ [(97 : UInt8)] := by decide

def letter : CString := ⟨[97], letter_visible⟩

theorem letter_oneLine : newline ∉ letter.chars := by decide

theorem letter_bare : Bare comma letter.chars where
  noQuote := by decide
  noSeparator := by decide
  first := by
    intro c here
    cases here
    rfl
  last := by
    intro c here
    cases here
    rfl

theorem empty_bare (separator : Separator) : Bare separator [] :=
  ⟨List.not_mem_nil, List.not_mem_nil, nofun, nofun⟩

def bareLetter : Written comma := ⟨letter, false, letter_oneLine, fun _ => letter_bare⟩

def quotedLetter : Written comma := ⟨letter, true, letter_oneLine, fun _ => letter_bare⟩

def bareEmpty : Written comma := ⟨.empty, false, List.not_mem_nil, fun _ => empty_bare comma⟩

/-- `a,"a"` -/
def bareQuoted : List (Written comma) := [bareLetter, quotedLetter]

theorem next_write_bareQuoted :
    (∃ after, next true 44 256 .unused ⟨[97, 44, 34, 97, 34, 10], false⟩ none =
      .ok (.fields [letter, letter], after)) ↔
    LineBuffer.unused.status ≠ .freed ∧ Separated true bareQuoted ∧ bareQuoted.length < 2 ^ 32 :=
  next_write_iff true bareQuoted (by decide) (by decide) .unused (by decide) [] false none

/-- `"a",` -/
def quotedEmpty : List (Written comma) := [quotedLetter, bareEmpty]

/-- An empty field at the end of the line is lost behind a quoted one. -/
theorem next_loses :
    write quotedEmpty = [34, 97, 34, 44] ∧
    (∃ after, next true 44 256 .unused ⟨[34, 97, 34, 44, 10], false⟩ none =
      .ok (.fields [letter], after, ⟨[], false⟩, none)) ∧
    quotedEmpty.map Written.field ≠ [letter] := by
  have line : [34, 97, 34, 44, 10] = write quotedEmpty ++ newline :: [] := rfl
  have parsed : parse true 44 (write quotedEmpty) = .ok (.fields [letter]) := rfl
  refine ⟨rfl, ⟨LineBuffer.unused.ready.put 0 [34, 97, 34, 44, 10], ?_⟩, by decide⟩
  rw [next, line, nextLine_whole true 44 _ false [] none (by decide) (by decide) (by decide)
    (by decide), if_neg (by decide), skipBlanks_solid (write_first quotedEmpty), parsed]
  rfl

end Records

end CsvParser

end Sbf
