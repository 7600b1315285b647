import Sbf.PropertiesLoad

set_option autoImplicit false

namespace Sbf

open Octets

/-- The lines of a text that end with a newline, and what is behind the last one. -/
def splitLines : Bytes → List Bytes × Bytes
  | [] => ([], [])
  | c :: rest =>
      if c = newline then ([] :: (splitLines rest).1, (splitLines rest).2)
      else
        match (splitLines rest).1 with
        | [] => ([], c :: (splitLines rest).2)
        | line :: lines => ((c :: line) :: lines, (splitLines rest).2)

/-- Lines with their newlines, and a rest. -/
def joinLines (lines : List Bytes) (rest : Bytes) : Bytes :=
  lines.foldr (fun line more => line ++ newline :: more) rest

theorem joinLines_split (text : Bytes) :
    joinLines (splitLines text).1 (splitLines text).2 = text := by
  induction text with
  | nil => rfl
  | cons c rest ih =>
      rw [splitLines]
      split
      case isTrue here =>
          rw [here]
          exact congrArg (newline :: ·) ih
      case isFalse =>
          cases lines : (splitLines rest).1 with
          | nil =>
              rw [lines] at ih
              exact congrArg (c :: ·) ih
          | cons line more =>
              rw [lines] at ih
              exact congrArg (c :: ·) ih

theorem splitLines_plain (text : Bytes) :
    (∀ line ∈ (splitLines text).1, newline ∉ line) ∧ newline ∉ (splitLines text).2 := by
  induction text with
  | nil => exact ⟨nofun, List.not_mem_nil⟩
  | cons c rest ih =>
      obtain ⟨each, last⟩ := ih
      rw [splitLines]
      split
      case isTrue =>
          refine ⟨?_, last⟩
          intro line member
          cases List.mem_cons.mp member with
          | inl here =>
              rw [here]
              exact List.not_mem_nil
          | inr behind => exact each line behind
      case isFalse other =>
          have fresh : ∀ {text : Bytes}, newline ∉ text → newline ∉ c :: text := by
            intro text plain inside
            cases List.mem_cons.mp inside with
            | inl here => exact other here.symm
            | inr behind => exact plain behind
          cases lines : (splitLines rest).1 with
          | nil => exact ⟨nofun, fresh last⟩
          | cons line more =>
              rw [lines] at each
              refine ⟨?_, last⟩
              intro line' member
              cases List.mem_cons.mp member with
              | inl here =>
                  rw [here]
                  exact fresh (each line List.mem_cons_self)
              | inr behind => exact each line' (List.mem_cons_of_mem _ behind)

/-- A newline ends the last line. -/
theorem splitLines_newline (text : Bytes) :
    splitLines (text ++ [newline]) = ((splitLines text).1 ++ [(splitLines text).2], []) := by
  induction text with
  | nil => rfl
  | cons c rest ih =>
      rw [List.cons_append, splitLines, ih, splitLines]
      split
      case isTrue => rfl
      case isFalse => cases (splitLines rest).1 <;> rfl

/-- The characters of the lines and of the rest are those of the text. -/
theorem splitLines_chars {text : Bytes} {c : UInt8} (absent : c ∉ text) :
    (∀ line ∈ (splitLines text).1, c ∉ line) ∧ c ∉ (splitLines text).2 := by
  have joined := joinLines_split text
  have inside : ∀ (lines : List Bytes) (rest : Bytes), c ∉ joinLines lines rest →
      (∀ line ∈ lines, c ∉ line) ∧ c ∉ rest := by
    intro lines rest
    induction lines with
    | nil =>
        intro none_
        exact ⟨nofun, none_⟩
    | cons line lines ih =>
        intro none_
        have parts : c ∉ line ∧ c ∉ joinLines lines rest := by
          constructor
          · intro here
            exact none_ (List.mem_append_left _ here)
          · intro here
            exact none_ (List.mem_append_right _ (List.mem_cons_of_mem _ here))
        obtain ⟨each, last⟩ := ih parts.2
        refine ⟨?_, last⟩
        intro other member
        cases List.mem_cons.mp member with
        | inl here =>
            rw [here]
            exact parts.1
        | inr behind => exact each other behind
  exact inside _ _ (joined.symm ▸ absent)

namespace LineBuffer

/-- A line without the newlines at its end. -/
theorem chomp_line (linelen : Nat) (buffer : LineBuffer) :
    (buffer.chomp linelen).2.line (buffer.chomp linelen).1 =
        (buffer.line linelen).rdropWhile (fun c => decide (c = newline)) ∧
      (buffer.chomp linelen).2.status = buffer.status ∧
      (buffer.chomp linelen).2.grown = buffer.grown := by
  induction linelen generalizing buffer with
  | zero => exact ⟨rfl, rfl, rfl⟩
  | succ linelen ih =>
      have last : buffer.line (linelen + 1) = buffer.line linelen ++ [buffer.mem linelen] := by
        simp [line, List.range_succ]
      rw [chomp, last]
      split
      case isTrue here =>
          have same : (buffer.cut linelen).line linelen = buffer.line linelen := by
            apply List.map_congr_left
            intro i inside
            exact Function.update_of_ne (Nat.ne_of_lt (List.mem_range.mp inside)) ..
          rw [List.rdropWhile_concat_pos _ _ _ (by simpa using here), ← same]
          exact ih (buffer.cut linelen)
      case isFalse other =>
          rw [List.rdropWhile_concat_neg _ _ _ (by simpa using other)]
          exact ⟨last, rfl, rfl⟩

/-- A text without newlines is what is left of it and its newline. -/
theorem rdropWhile_whole {text : Bytes} (plain : newline ∉ text) :
    (text ++ [newline]).rdropWhile (fun c => decide (c = newline)) = text := by
  rw [List.rdropWhile_concat_pos _ _ _ (by simp), List.rdropWhile_eq_self_iff]
  intro nonempty last
  exact plain (of_decide_eq_true last ▸ List.getLast_mem nonempty)

/-- A zero in a line stays, with all that is in front of it. -/
theorem rdropWhile_zero (part behind : Bytes) :
    ∃ rest, (part ++ 0 :: behind).rdropWhile (fun c => decide (c = newline)) =
      part ++ 0 :: rest := by
  induction behind using List.reverseRecOn with
  | nil =>
      refine ⟨[], ?_⟩
      rw [List.rdropWhile_concat_neg _ _ _ (by decide)]
  | append_singleton behind c ih =>
      have regroup : part ++ 0 :: (behind ++ [c]) = (part ++ 0 :: behind) ++ [c] := by simp
      rw [regroup]
      by_cases here : c = newline
      · rw [List.rdropWhile_concat_pos _ _ _ (by simpa using here)]
        exact ih
      · rw [List.rdropWhile_concat_neg _ _ _ (by simpa using here)]
        exact ⟨behind ++ [c], by simp⟩

/-- The buffer after a line: it has grown for as many pieces as the line needed. -/
def grownBy (BUFSIZ grown length : Nat) : Nat :=
  if length + 1 < BUFSIZ * (grown + 1) then grown
  else grown + ((length - (BUFSIZ * (grown + 1) - 1)) / (BUFSIZ - 1) + 1)

/-- A line as the loop of `sbfPropertiesLoadFile` sees it: as much of it as the buffer had room
for when it was read. -/
theorem fgetln_text {BUFSIZ : Nat} (large : 1 < BUFSIZ) {buffer : LineBuffer} (eof : Bool)
    {line : Bytes} (more : Bytes) (notFreed : buffer.status ≠ .freed) (plain : newline ∉ line)
    (visible : 0 ∉ line) :
    ∃ size read, buffer.fgetln BUFSIZ ⟨line ++ newline :: more, eof⟩ =
        .ok (some size, read, ⟨more, eof⟩) ∧
      ((read.chomp size).2.text (read.chomp size).1).chars =
        line.take (BUFSIZ * (buffer.ready.grown + 1) - 1) ∧
      (read.chomp size).2.status = .live ∧
      (read.chomp size).2.grown = grownBy BUFSIZ buffer.ready.grown line.length := by
  by_cases room : line.length + 1 < buffer.ready.bufsiz BUFSIZ
  · have run := fgetln_whole eof more notFreed plain visible room
    obtain ⟨kept, sameStatus, sameGrown⟩ :=
      chomp_line (line.length + 1) (buffer.ready.put 0 (line ++ [newline]))
    refine ⟨_, _, run, ?_, sameStatus, ?_⟩
    · have short : line.length ≤ BUFSIZ * (buffer.ready.grown + 1) - 1 := by
        simp only [bufsiz] at room
        omega
      have all : ∀ c ∈ line, decide (c ≠ 0) = true := by
        intro c inside
        apply decide_eq_true
        intro zero
        exact visible (zero ▸ inside)
      rw [text_chars, kept, line_put_newline, rdropWhile_whole plain, List.take_of_length_le short]
      exact List.takeWhile_eq_self_iff.mpr all
    · rw [sameGrown, grownBy]
      exact (if_pos room).symm
  · obtain ⟨size, read, behind, run, whole, status, grown⟩ := fgetln_long large eof more
      notFreed plain visible (Nat.le_of_not_lt room)
    obtain ⟨kept, sameStatus, sameGrown⟩ := chomp_line size read
    refine ⟨size, read, run, ?_, sameStatus.trans status, ?_⟩
    · obtain ⟨rest, dropped⟩ :=
        rdropWhile_zero (line.take (buffer.ready.bufsiz BUFSIZ - 1)) behind
      rw [text_chars, kept, whole, dropped]
      exact takeWhile_terminated _ _ (fun inside => visible (List.mem_of_mem_take inside))
    · rw [sameGrown, grown, grownBy]
      exact (if_neg room).symm

end LineBuffer

namespace Properties

/-- A line of a file as `sbfPropertiesLoadFile` reads it, if it includes nothing. -/
def entry (line : CString) : Entry := entryOf (skipSpace line)

/-- What the lines of a file do to the table, up to the first one that is malformed; the
number is that of the lines in front. -/
def readLines (path : CString) : List CString → Nat → KeyValue → Option LoadError × KeyValue
  | [], _, table => (none, table)
  | line :: lines, n, table =>
      match entry line with
      | .skip => readLines path lines (n + 1) table
      | .malformed => (some (.key path (n + 1)), table)
      | .assign key value => readLines path lines (n + 1) (table.put key value)

/-- The lines as a buffer shows them that has grown so often when the first one is read. -/
def seen (BUFSIZ : Nat) : Nat → List CString → List CString
  | _, [] => []
  | grown, line :: lines =>
      line.first (BUFSIZ * (grown + 1) - 1) ::
        seen BUFSIZ (LineBuffer.grownBy BUFSIZ grown line.chars.length) lines

/-- The loop over the lines of a file that includes nothing: what is behind the last newline
is left out. -/
theorem loadLines_seen {BUFSIZ : Nat} (large : 1 < BUFSIZ) (system : FileSystem)
    (load : CString → KeyValue → LineBuffer → Loaded) (path : CString) (lines : List CString)
    (rest : Bytes) (plain : ∀ line ∈ lines, newline ∉ line.chars) (restPlain : newline ∉ rest)
    (fuel n : Nat) (table : KeyValue) (buffer : LineBuffer) (notFreed : buffer.status ≠ .freed)
    (nothing : ∀ line ∈ seen BUFSIZ buffer.ready.grown lines, isInclude (skipSpace line) = false)
    (enough : lines.length < fuel) :
    ∃ after, loadLines BUFSIZ system load path fuel
        ⟨joinLines (lines.map CString.chars) rest, false⟩ n table buffer =
      .ok ((readLines path (seen BUFSIZ buffer.ready.grown lines) n table).1,
        (readLines path (seen BUFSIZ buffer.ready.grown lines) n table).2, after) := by
  induction lines generalizing fuel n table buffer with
  | nil =>
      obtain ⟨fuel, rfl⟩ : ∃ k, fuel = k + 1 := ⟨fuel - 1, by simp at enough; omega⟩
      have all : joinLines (([] : List CString).map CString.chars) rest = rest := rfl
      rw [all, loadLines]
      by_cases nonempty : rest = []
      · subst nonempty
        exact ⟨buffer.ready, by simp only [fgetln_end false notFreed, bind, Except.bind]; rfl⟩
      · obtain ⟨size, after, run, status⟩ := fgetln_last large false notFreed restPlain nonempty
        refine ⟨{ after with status := .freed }, ?_⟩
        simp only [run, bind, Except.bind, LineBuffer.free, status]
        rfl
  | cons line lines ih =>
      obtain ⟨fuel, rfl⟩ : ∃ k, fuel = k + 1 := ⟨fuel - 1, by simp at enough; omega⟩
      rw [List.length_cons] at enough
      have all : joinLines ((line :: lines).map CString.chars) rest =
          line.chars ++ newline :: joinLines (lines.map CString.chars) rest := rfl
      obtain ⟨size, read, run, shown, status, grown⟩ := LineBuffer.fgetln_text large false
        (joinLines (lines.map CString.chars) rest) notFreed (plain line List.mem_cons_self)
        line.plain
      let first := line.first (BUFSIZ * (buffer.ready.grown + 1) - 1)
      have same : (read.chomp size).2.text (read.chomp size).1 = first := CString.ext shown
      have unfolded : seen BUFSIZ buffer.ready.grown (line :: lines) = first ::
          seen BUFSIZ (LineBuffer.grownBy BUFSIZ buffer.ready.grown line.chars.length) lines := rfl
      rw [unfolded] at nothing
      have plainHere : isInclude (skipSpace first) = false := nothing first List.mem_cons_self
      have next : ∀ (buffer' : LineBuffer) (table' : KeyValue), buffer'.status = .live →
          buffer'.grown = LineBuffer.grownBy BUFSIZ buffer.ready.grown line.chars.length →
          ∃ after, loadLines BUFSIZ system load path fuel
              ⟨joinLines (lines.map CString.chars) rest, false⟩ (n + 1) table' buffer' =
            .ok ((readLines path (seen BUFSIZ
                (LineBuffer.grownBy BUFSIZ buffer.ready.grown line.chars.length) lines)
                (n + 1) table').1,
              (readLines path (seen BUFSIZ
                (LineBuffer.grownBy BUFSIZ buffer.ready.grown line.chars.length) lines)
                (n + 1) table').2, after) := by
        intro buffer' table' live sameGrown
        have ready : buffer'.ready.grown =
            LineBuffer.grownBy BUFSIZ buffer.ready.grown line.chars.length := by
          rw [LineBuffer.ready, live]
          exact sameGrown
        have further := ih (fun line' member => plain line' (List.mem_cons_of_mem _ member))
          fuel (n + 1) table' buffer' (by rw [live]; decide)
          (by
            rw [ready]
            exact fun line' member => nothing line' (List.mem_cons_of_mem _ member))
          (by omega)
        rw [ready] at further
        exact further
      rw [all, unfolded, loadLines, readLines, entry]
      simp only [run, bind, Except.bind, same, plainHere, Bool.false_eq_true, ↓reduceIte]
      cases entryOf (skipSpace first) with
      | skip => exact next _ table status grown
      | malformed =>
          refine ⟨{ (read.chomp size).2 with status := .freed }, ?_⟩
          simp only [fail, LineBuffer.free, status]
          rfl
      | assign key value => exact next _ (table.put key value) status grown

end Properties

end Sbf
