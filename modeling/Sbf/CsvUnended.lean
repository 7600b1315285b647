import Sbf.CsvWrite

set_option autoImplicit false

namespace Sbf

open Octets

namespace CsvParser

section Appended

variable (charSigned : Bool) (separator : UInt8)

theorem skipBlanks_append {text : Bytes} {c : UInt8} {rest : Bytes} (extra : Bytes)
    (starts : skipBlanks text = c :: rest) :
    skipBlanks (text ++ extra) = c :: (rest ++ extra) := by
  have shape : text.dropWhile isBlank = c :: rest := starts
  rw [skipBlanks, List.dropWhile_append, shape]
  rfl

theorem skipBlanks_short {text : Bytes} {c : UInt8} {rest : Bytes}
    (starts : skipBlanks text = c :: rest) : rest.length < text.length := by
  have size : (text.dropWhile isBlank).length ≤ text.length :=
    (List.dropWhile_suffix isBlank).length_le
  have same : text.dropWhile isBlank = c :: rest := starts
  rw [same, List.length_cons] at size
  exact size

/-- What is read in front of more fields does not depend on the end of the line. -/
theorem closeQuote_more {next rest field more : Bytes} (extra : Bytes)
    (read : closeQuote charSigned separator next rest = some (field, true, more)) :
    closeQuote charSigned separator next (rest ++ extra) = some (field, true, more ++ extra) ∧
      more.length < rest.length := by
  unfold closeQuote at read
  split at read
  case h_1 => cases read
  case h_2 c behind starts =>
      split at read
      case isFalse => cases read
      case isTrue here =>
          have shape := skipBlanks_append extra starts
          obtain ⟨found, others, rest_⟩ : next = field ∧ (!behind.isEmpty) = true ∧ behind = more := by
            simpa using read
          subst found
          subst rest_
          refine ⟨?_, skipBlanks_short starts⟩
          rw [closeQuote, shape]
          have nonempty : (!(behind ++ extra).isEmpty) = true := by
            cases behind with
            | nil => cases others
            | cons => rfl
          simp [here, nonempty]

theorem closeQuote_fails {next rest : Bytes} (extra : Bytes)
    (fails : closeQuote charSigned separator next rest = none) :
    closeQuote charSigned separator next (rest ++ extra) = none := by
  unfold closeQuote at fails
  split at fails
  case h_1 => cases fails
  case h_2 c behind starts =>
      split at fails
      case isTrue => cases fails
      case isFalse other =>
          rw [closeQuote, skipBlanks_append extra starts]
          simp [other]

omit charSigned in
/-- Neither the separator of a bare field nor a quote in a quoted one. -/
theorem readField_inside {quoted : Bool} {c : UInt8}
    (notSeparator : ¬ (!quoted && c == separator) = true)
    (notQuote : ¬ (quoted && c == quote) = true) : c ≠ if quoted then quote else separator := by
  cases quoted with
  | false => simpa using notSeparator
  | true => simpa using notQuote

theorem readField_more {quoted : Bool} {next text field more : Bytes} (extra : Bytes)
    (read : readField charSigned separator quoted next text = some (field, true, more)) :
    readField charSigned separator quoted next (text ++ extra) =
        some (field, true, more ++ extra) ∧ more.length < text.length := by
  fun_induction readField charSigned separator quoted next text with
  | case1 next => cases read
  | case2 next c rest here =>
      obtain ⟨rfl, rfl⟩ : quoted = false ∧ c = separator := by simpa using here
      cases read
      exact ⟨readField_separator charSigned c next (more ++ extra), Nat.lt_succ_self _⟩
  | case3 next c _ _ => cases read
  | case4 next c _ here d rest single =>
      obtain ⟨rfl, rfl⟩ : quoted = true ∧ c = quote := by simpa using here
      obtain ⟨closed, short⟩ := closeQuote_more charSigned separator extra read
      have other : (d :: rest ++ extra).head? ≠ some quote := by simpa using single
      refine ⟨?_, Nat.lt_succ_of_lt short⟩
      exact (readField_close charSigned separator next other).trans closed
  | case5 next c _ here d rest double_ ih =>
      obtain ⟨rfl, rfl⟩ : quoted = true ∧ c = quote := by simpa using here
      obtain rfl : d = quote := not_not.mp double_
      obtain ⟨same, short⟩ := ih read
      refine ⟨?_, Nat.lt_succ_of_lt (Nat.lt_succ_of_lt short)⟩
      exact (readField_quote charSigned separator next (rest ++ extra)).trans same
  | case6 next c rest notSeparator notQuote ih =>
      obtain ⟨same, short⟩ := ih read
      refine ⟨?_, Nat.lt_succ_of_lt short⟩
      exact (readField_char charSigned separator quoted next (rest ++ extra)
        (readField_inside separator notSeparator notQuote)).trans same

theorem readField_fails {quoted : Bool} {next text : Bytes} (extra : Bytes)
    (fails : readField charSigned separator quoted next text = none) :
    readField charSigned separator quoted next (text ++ extra) = none := by
  fun_induction readField charSigned separator quoted next text with
  | case1 next => cases fails
  | case2 next c rest here => cases fails
  | case3 next c _ _ => cases fails
  | case4 next c _ here d rest single =>
      obtain ⟨rfl, rfl⟩ : quoted = true ∧ c = quote := by simpa using here
      have other : (d :: rest ++ extra).head? ≠ some quote := by simpa using single
      exact (readField_close charSigned separator next other).trans
        (closeQuote_fails charSigned separator extra fails)
  | case5 next c _ here d rest double_ ih =>
      obtain ⟨rfl, rfl⟩ : quoted = true ∧ c = quote := by simpa using here
      obtain rfl : d = quote := not_not.mp double_
      exact (readField_quote charSigned separator next (rest ++ extra)).trans (ih fails)
  | case6 next c rest notSeparator notQuote ih =>
      exact (readField_char charSigned separator quoted next (rest ++ extra)
        (readField_inside separator notSeparator notQuote)).trans (ih fails)

/-- A bare field at the end of the line has all that is left of it. -/
theorem readField_rest {next text field more : Bytes}
    (read : readField charSigned separator false next text = some (field, false, more)) :
    separator ∉ text ∧ field = next ++ text := by
  induction text generalizing next with
  | nil =>
      rw [readField] at read
      cases read
      exact ⟨List.not_mem_nil, (List.append_nil _).symm⟩
  | cons c text ih =>
      by_cases here : c = separator
      · rw [here, readField_separator] at read
        cases read
      · rw [readField_char charSigned separator false next text here] at read
        obtain ⟨absent, same⟩ := ih read
        refine ⟨?_, ?_⟩
        · simp only [List.mem_cons, not_or]
          exact ⟨Ne.symm here, absent⟩
        · rw [same, List.append_assoc, List.singleton_append]

/-- Whatever was read of a field before, its end is the same. -/
theorem readField_next {quoted : Bool} {next text field more : Bytes}
    (read : readField charSigned separator quoted next text = some (field, false, more)) :
    ∃ tail, field = next ++ tail ∧ ∀ other,
      readField charSigned separator quoted other text = some (other ++ tail, false, more) := by
  fun_induction readField charSigned separator quoted next text with
  | case1 next =>
      cases read
      exact ⟨[], by simp, fun other => by rw [readField, List.append_nil]⟩
  | case2 next c rest here => cases read
  | case3 next c _ here =>
      obtain ⟨rfl, rfl⟩ : quoted = true ∧ c = quote := by simpa using here
      cases read
      refine ⟨[], by simp, ?_⟩
      intro other
      rw [readField_close charSigned separator other (by decide), List.append_nil]
      rfl
  | case4 next c _ here d rest single =>
      obtain ⟨rfl, rfl⟩ : quoted = true ∧ c = quote := by simpa using here
      have other_ : (d :: rest).head? ≠ some quote := by simpa using single
      have same := closeQuote_field charSigned separator read
      refine ⟨[], by simp [same], ?_⟩
      intro other
      rw [readField_close charSigned separator other other_,
        closeQuote_next charSigned separator next, read, List.append_nil]
      rfl
  | case5 next c _ here d rest double_ ih =>
      obtain ⟨rfl, rfl⟩ : quoted = true ∧ c = quote := by simpa using here
      obtain rfl : d = quote := not_not.mp double_
      obtain ⟨tail, same, each⟩ := ih read
      refine ⟨quote :: tail, by rw [same]; simp, ?_⟩
      intro other
      rw [readField_quote charSigned separator other rest, each (other ++ [quote]), List.append_assoc,
        List.singleton_append]
  | case6 next c rest notSeparator notQuote ih =>
      obtain ⟨tail, same, each⟩ := ih read
      refine ⟨c :: tail, by rw [same]; simp, ?_⟩
      intro other
      rw [readField_char charSigned separator quoted other rest
        (readField_inside separator notSeparator notQuote), each (other ++ [c]),
        List.append_assoc, List.singleton_append]

/-- A field goes on to the end of a piece of memory. -/
def GoesOn (quoted : Bool) (memory : Bytes) : Prop :=
  ∃ next more, readField charSigned separator quoted [] memory = some (next, false, more)

theorem goesOn_bare {memory : Bytes} :
    GoesOn charSigned separator false memory ↔ separator ∉ memory := by
  constructor
  · intro goes
    obtain ⟨next, more, read⟩ := goes
    exact (readField_rest charSigned separator read).1
  · intro absent
    have read := readField_plain charSigned [] [] absent
    rw [List.append_nil, readField] at read
    exact ⟨_, _, read⟩

/-- The field in which a line ends goes on to the end of the memory behind the line: a bare
field, or a quoted one whose quotes are all doubled so far. A line that is refused has none. -/
def Settled : Nat → Bytes → Bytes → Prop
  | 0, _, _ => False
  | fuel + 1, text, behind =>
      match skipBlanks text with
      | [] => GoesOn charSigned separator false behind
      | c :: rest =>
          match readField charSigned separator (c == quote) []
              (if c == quote then rest else c :: rest) with
          | none => True
          | some (_, true, more) => Settled fuel more behind
          | some (_, false, _) =>
              if c = quote then
                (∃ chars, rest = double chars) ∧ GoesOn charSigned separator true behind
              else GoesOn charSigned separator false behind

theorem string_zero (next tail : Bytes) : string (next ++ 0 :: tail) = string next := by
  apply CString.ext
  change (next ++ 0 :: tail).takeWhile (fun c => decide (c ≠ 0)) =
    next.takeWhile (fun c => decide (c ≠ 0))
  induction next with
  | nil => rfl
  | cons c next ih =>
      rw [List.cons_append, List.takeWhile_cons, List.takeWhile_cons]
      split
      case isTrue => rw [ih]
      case isFalse => rfl

theorem string_nil : string [] = .empty := rfl

theorem quote_visible : (0 : UInt8) ≠ quote := by decide

/-- A zero is one of the field's characters, as long as it is no separator. -/
theorem GoesOn.read {quoted : Bool} {left : Bytes}
    (goes : GoesOn charSigned separator quoted (0 :: left)) (next : Bytes) :
    ∃ tail more, readField charSigned separator quoted next (0 :: left) =
      some (next ++ 0 :: tail, false, more) := by
  obtain ⟨found, more, read⟩ := goes
  have inside : (0 : UInt8) ≠ if quoted then quote else separator := by
    cases quoted with
    | true => exact quote_visible
    | false =>
        intro same
        have zero : separator = 0 := same.symm
        subst zero
        rw [readField_separator] at read
        cases read
  rw [readField_char charSigned separator quoted [] left inside] at read
  obtain ⟨tail, _, each⟩ := readField_next charSigned separator read
  refine ⟨tail, more, ?_⟩
  rw [readField_char charSigned separator quoted next left inside, each, List.append_assoc,
    List.singleton_append]

/-- The fields of a line are the same with memory behind it in which its last field goes on. -/
theorem readFields_settled (left : Bytes) (n : Nat) (text : Bytes)
    (settled : Settled charSigned separator n text (0 :: left)) (fuel fuel' : Nat)
    (enough : text.length < fuel) (enough' : text.length < fuel') (fields : List CString) :
    readFields charSigned separator fuel' (text ++ 0 :: left) fields =
      readFields charSigned separator fuel text fields := by
  induction n generalizing text fuel fuel' fields with
  | zero => exact settled.elim
  | succ n ih =>
      obtain ⟨fuel, rfl⟩ : ∃ k, fuel = k + 1 := ⟨fuel - 1, by omega⟩
      obtain ⟨fuel', rfl⟩ : ∃ k, fuel' = k + 1 := ⟨fuel' - 1, by omega⟩
      rw [Settled] at settled
      cases starts : skipBlanks text with
      | nil =>
          rw [starts] at settled
          obtain ⟨tail, more, read⟩ := GoesOn.read charSigned separator settled []
          have starts' : skipBlanks (text ++ 0 :: left) = 0 :: left := by
            have nothing : text.dropWhile isBlank = [] := starts
            rw [skipBlanks, List.dropWhile_append, nothing]
            rfl
          have ends : readFields charSigned separator (fuel + 1) text fields =
              (add fields .empty).map some := by
            simp only [readFields, starts]
          rw [ends, readFields_field charSigned separator fuel' fields starts' read, string_zero,
            string_nil]
          cases add fields .empty <;> rfl
      | cons c rest =>
          rw [starts] at settled
          have starts' := skipBlanks_append (0 :: left) starts
          have moved : (if c == quote then rest ++ 0 :: left else c :: (rest ++ 0 :: left)) =
              (if c == quote then rest else c :: rest) ++ 0 :: left := by
            split <;> rfl
          cases read : readField charSigned separator (c == quote) []
              (if c == quote then rest else c :: rest) with
          | none =>
              have read' := readField_fails charSigned separator (0 :: left) read
              rw [← moved] at read'
              rw [readFields_fails charSigned separator fuel fields starts read,
                readFields_fails charSigned separator fuel' fields starts' read']
          | some found =>
              obtain ⟨field, comma, more⟩ := found
              simp only [read] at settled
              rw [readFields_field charSigned separator fuel fields starts read]
              cases comma with
              | true =>
                  obtain ⟨read', short⟩ := readField_more charSigned separator (0 :: left) read
                  rw [← moved] at read'
                  rw [readFields_field charSigned separator fuel' fields starts' read']
                  have line := skipBlanks_short starts
                  have size : more.length < text.length := by
                    split at short
                    case isTrue => exact Nat.lt_trans short line
                    case isFalse =>
                        rw [List.length_cons] at short
                        omega
                  congr 1
                  funext fields
                  exact ih more settled fuel fuel' (by omega) (by omega) fields
              | false =>
                  dsimp only at settled
                  have read' : ∃ tail more', readField charSigned separator (c == quote) []
                      (if c == quote then rest ++ 0 :: left else c :: (rest ++ 0 :: left)) =
                        some (field ++ 0 :: tail, false, more') := by
                    cases quoted : c == quote with
                    | true =>
                        rw [if_pos (eq_of_beq quoted)] at settled
                        obtain ⟨chars, same⟩ := settled.1
                        subst same
                        rw [quoted, if_pos rfl] at read
                        have open_ := readField_double charSigned separator [] chars []
                        rw [List.append_nil, List.nil_append, read, readField] at open_
                        cases open_
                        obtain ⟨tail, more', goes⟩ :=
                          GoesOn.read charSigned separator settled.2 field
                        refine ⟨tail, more', ?_⟩
                        rw [if_pos rfl, readField_double, List.nil_append]
                        exact goes
                    | false =>
                        rw [if_neg (ne_of_beq_false quoted)] at settled
                        rw [quoted] at read
                        obtain ⟨absent, same⟩ := readField_rest charSigned separator read
                        subst same
                        obtain ⟨tail, more', goes⟩ :=
                          GoesOn.read charSigned separator settled (c :: rest)
                        refine ⟨tail, more', ?_⟩
                        rw [← List.cons_append] 
                        exact (readField_plain charSigned [] (0 :: left) absent).trans goes
                  obtain ⟨tail, more', read'⟩ := read'
                  rw [readFields_field charSigned separator fuel' fields starts' read',
                    string_zero]
                  rfl

theorem parse_settled {left : Bytes} {n : Nat} {text : Bytes}
    (settled : Settled charSigned separator n text (0 :: left)) :
    parse charSigned separator (text ++ 0 :: left) = parse charSigned separator text := by
  rw [parse, parse, readFields_settled charSigned separator left n text settled (text.length + 1)
    ((text ++ 0 :: left).length + 1) (Nat.lt_succ_self _)
    (by rw [List.length_append]; omega) []]

theorem dropNewline_zero (behind : Bytes) :
    ∃ left, dropNewline (0 :: behind) = 0 :: left ∧
      ∀ text, dropNewline (text ++ 0 :: behind) = text ++ 0 :: left := by
  have last : ∀ text : Bytes, (text ++ 0 :: behind).getLast? = (0 :: behind).getLast? := by
    intro text
    rw [List.getLast?_append, Option.or_of_isSome (by simp)]
  by_cases newline_ : (0 :: behind).getLast? = some newline
  · cases behind with
    | nil => exact absurd newline_ (by decide)
    | cons c behind =>
        refine ⟨(c :: behind).dropLast, ?_, ?_⟩
        · rw [dropNewline, if_pos newline_]
          rfl
        · intro text
          rw [dropNewline, last, if_pos newline_, List.dropLast_append_of_ne_nil (by simp)]
          rfl
  · refine ⟨behind, ?_, ?_⟩
    · rw [dropNewline, if_neg newline_]
    · intro text
      rw [dropNewline, last, if_neg newline_]

end Appended

end CsvParser

end Sbf
