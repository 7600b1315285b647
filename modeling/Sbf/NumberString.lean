import Sbf.NumberText

set_option autoImplicit false

namespace Sbf

open Octets

namespace NumberString

/-- `sbfNumberString_toInt64`, with the string and the error where there are any. -/
def toInt64 (s : Option CString) (min max : Int64) : Int64 × Option String :=
  match s with
  | none => (0, some "is empty")
  | some s =>
      if s.chars = [] then (0, some "is empty")
      else if max < min then (0, some "has min larger than max")
      else
        let (errno, n, _) := strtoll s.chars
        if errno = some .einval then (0, some "is invalid")
        else if errno = some .erange ∧ n = Int64.minValue ∨ n < min then
          (0, some "is too small")
        else if errno = some .erange ∧ n = Int64.maxValue ∨ max < n then
          (0, some "is too large")
        else (n, none)

/-- The number in front of a string, and zero where there is none. -/
def front (s : CString) : Int :=
  match readNumeral 10 s.chars with
  | none => 0
  | some (numeral, _) => numeral.toInt 10

/-- The string is a decimal integer to its end. -/
def Whole (s : CString) : Prop := ∃ numeral, Spelled 10 s.chars numeral []

theorem whole_iff (s : CString) :
    Whole s ↔ ∃ numeral, readNumeral 10 s.chars = some (numeral, []) := by
  simp only [Whole, readNumeral_ten_iff, List.head?_nil, Option.mem_def, reduceCtorEq,
    IsEmpty.forall_iff, implies_true, and_true]

/-- The string is a decimal integer to its end, with the value `n`. -/
def IsInteger (s : CString) (n : Int) : Prop :=
  ∃ numeral, Spelled 10 s.chars numeral [] ∧ numeral.toInt 10 = n

theorem isInteger_iff (s : CString) (n : Int) : IsInteger s n ↔ Whole s ∧ front s = n := by
  constructor
  · intro integer
    obtain ⟨numeral, spelled, value⟩ := integer
    have read := readNumeral_ten_iff.mpr ⟨spelled, nofun⟩
    refine ⟨⟨numeral, spelled⟩, ?_⟩
    rw [front, read]
    exact value
  · intro both
    obtain ⟨⟨numeral, spelled⟩, value⟩ := both
    have read := readNumeral_ten_iff.mpr ⟨spelled, nofun⟩
    refine ⟨numeral, spelled, ?_⟩
    rw [front, read] at value
    exact value

theorem strtoll_fits {s : CString} (low : -2 ^ 63 ≤ front s) (high : front s < 2 ^ 63) :
    ∃ rest, strtoll s.chars = (none, Int64.ofInt (front s), rest) := by
  cases read : readNumeral 10 s.chars with
  | none => exact ⟨s.chars, by simp [strtoll, front, read]⟩
  | some both =>
      obtain ⟨numeral, rest⟩ := both
      simp only [front, read] at low high
      refine ⟨rest, ?_⟩
      simp only [strtoll, front, read]
      rw [if_neg (by omega), if_neg (by omega)]

theorem strtoll_below {s : CString} (low : front s < -2 ^ 63) :
    ∃ rest, strtoll s.chars = (some .erange, Int64.minValue, rest) := by
  cases read : readNumeral 10 s.chars with
  | none =>
      rw [front, read] at low
      exact absurd low (by decide)
  | some both =>
      obtain ⟨numeral, rest⟩ := both
      simp only [front, read] at low
      exact ⟨rest, by simp only [strtoll, read, if_pos low]⟩

theorem strtoll_above {s : CString} (high : 2 ^ 63 ≤ front s) :
    ∃ rest, strtoll s.chars = (some .erange, Int64.maxValue, rest) := by
  cases read : readNumeral 10 s.chars with
  | none =>
      rw [front, read] at high
      exact absurd high (by decide)
  | some both =>
      obtain ⟨numeral, rest⟩ := both
      simp only [front, read] at high
      refine ⟨rest, ?_⟩
      simp only [strtoll, read]
      rw [if_neg (by omega), if_pos high]

section Verdicts

variable {s : CString} {min max : Int64}

theorem toInt64_inside (some_ : s.chars ≠ []) (low : min.toInt ≤ front s)
    (high : front s ≤ max.toInt) : toInt64 (some s) min max = (Int64.ofInt (front s), none) := by
  have least := min.le_toInt
  have most := max.toInt_lt
  obtain ⟨rest, run⟩ := strtoll_fits (s := s) (by omega) (by omega)
  have value : (Int64.ofInt (front s)).toInt = front s :=
    Int64.toInt_ofInt_of_le (by omega) (by omega)
  have notLess : ¬ Int64.ofInt (front s) < min := by
    rw [Int64.lt_iff_toInt_lt, value]
    omega
  have notMore : ¬ max < Int64.ofInt (front s) := by
    rw [Int64.lt_iff_toInt_lt, value]
    omega
  have sorted : ¬ max < min := by
    rw [Int64.lt_iff_toInt_lt]
    omega
  simp [toInt64, some_, sorted, run, notLess, notMore]

theorem toInt64_outside (some_ : s.chars ≠ []) (ordered : min ≤ max)
    (outside : front s < min.toInt ∨ max.toInt < front s) :
    ∃ error, toInt64 (some s) min max = (0, some error) := by
  have least := min.le_toInt
  have most := max.toInt_lt
  have sorted : ¬ max < min := by
    rw [Int64.lt_iff_toInt_lt]
    exact Int.not_lt.mpr (Int64.le_iff_toInt_le.mp ordered)
  by_cases low : front s < -2 ^ 63
  · obtain ⟨rest, run⟩ := strtoll_below low
    exact ⟨_, by simp [toInt64, some_, sorted, run]; rfl⟩
  · by_cases high : 2 ^ 63 ≤ front s
    · obtain ⟨rest, run⟩ := strtoll_above high
      by_cases below : Int64.maxValue < min
      · exact ⟨_, by simp [toInt64, some_, sorted, run, below]; rfl⟩
      · exact ⟨_, by simp [toInt64, some_, sorted, run, below]; rfl⟩
    · obtain ⟨rest, run⟩ := strtoll_fits (s := s) (by omega) (by omega)
      have value : (Int64.ofInt (front s)).toInt = front s :=
        Int64.toInt_ofInt_of_le (by omega) (by omega)
      by_cases below : Int64.ofInt (front s) < min
      · exact ⟨_, by simp [toInt64, some_, sorted, run, below]; rfl⟩
      · have above : max < Int64.ofInt (front s) := by
          rw [Int64.lt_iff_toInt_lt, value] at below ⊢
          omega
        exact ⟨_, by simp [toInt64, some_, sorted, run, below, above]; rfl⟩

end Verdicts

/-- The integers of a range are returned without an error, and nothing else is. -/
def Exact (s : CString) (min max : Int64) : Prop :=
  (∀ n, toInt64 (some s) min max = (n, none) ↔
    IsInteger s n.toInt ∧ min.toInt ≤ n.toInt ∧ n.toInt ≤ max.toInt) ∧
  ((∀ n, IsInteger s n → ¬ (min.toInt ≤ n ∧ n ≤ max.toInt)) →
    ∃ error, toInt64 (some s) min max = (0, some error))

/-- The end of a string is not looked at: it is read right just when it is an integer to
its end, or is refused for the number in front of it. -/
theorem toInt64_exact_iff (s : CString) (min max : Int64) (ordered : min ≤ max) :
    Exact s min max ↔
      Whole s ∨ s.chars = [] ∨ ¬ (min.toInt ≤ front s ∧ front s ≤ max.toInt) := by
  by_cases empty : s.chars = []
  · have refused : toInt64 (some s) min max = (0, some "is empty") := by simp [toInt64, empty]
    have none_ : ∀ n, ¬ IsInteger s n := by
      intro n integer
      obtain ⟨numeral, read⟩ := (whole_iff s).mp ((isInteger_iff s n).mp integer).1
      rw [empty] at read
      cases read
    refine iff_of_true ⟨?_, fun _ => ⟨_, refused⟩⟩ (Or.inr (Or.inl empty))
    intro n
    rw [refused]
    exact iff_of_false nofun (fun integer => none_ _ integer.1)
  · by_cases inside : min.toInt ≤ front s ∧ front s ≤ max.toInt
    · have least := min.le_toInt
      have most := max.toInt_lt
      have run := toInt64_inside empty inside.1 inside.2
      have value : (Int64.ofInt (front s)).toInt = front s :=
        Int64.toInt_ofInt_of_le (by omega) (by omega)
      constructor
      · intro exact_
        have integer := ((exact_.1 _).mp run).1
        exact Or.inl ((isInteger_iff s _).mp integer).1
      · intro either
        have whole : Whole s := by
          cases either with
          | inl whole => exact whole
          | inr others => exact absurd inside (others.resolve_left empty)
        refine ⟨?_, ?_⟩
        · intro n
          rw [run, isInteger_iff, Prod.mk.injEq]
          constructor
          · intro same
            rw [← same.1, value]
            exact ⟨⟨whole, rfl⟩, inside⟩
          · intro integer
            refine ⟨?_, rfl⟩
            rw [integer.1.2, Int64.ofInt_toInt]
        · intro none_
          have integer : IsInteger s (front s) := (isInteger_iff s _).mpr ⟨whole, rfl⟩
          exact absurd inside (none_ _ integer)
    · obtain ⟨error, run⟩ := toInt64_outside empty ordered (by omega)
      refine iff_of_true ⟨?_, fun _ => ⟨error, run⟩⟩ (Or.inr (Or.inr inside))
      intro n
      rw [run]
      refine iff_of_false nofun ?_
      intro integer
      have value := ((isInteger_iff s _).mp integer.1).2
      exact inside (value ▸ integer.2)

/-- `-1` in the whole range. -/
theorem toInt64_exact_limit :
    (Int64.minValue : Int64) ≤ Int64.maxValue ∧
      Exact ⟨[45, 49], by decide⟩ Int64.minValue Int64.maxValue := by
  refine ⟨by decide, ?_⟩
  have whole : Whole ⟨[45, 49], by decide⟩ := (whole_iff _).mpr ⟨⟨true, [49]⟩, by decide⟩
  exact (toInt64_exact_iff _ _ _ (by decide)).mpr (Or.inl whole)

/-- `1x` is taken for 1, and `x` for 0. -/
theorem toInt64_inexact :
    toInt64 (some ⟨[49, 120], by decide⟩) 0 9 = (1, none) ∧
      toInt64 (some ⟨[120], by decide⟩) 0 9 = (0, none) ∧
      ¬ Exact ⟨[49, 120], by decide⟩ 0 9 ∧ ¬ Exact ⟨[120], by decide⟩ 0 9 := by
  have partly : ¬ ∃ numeral, readNumeral 10 [49, 120] = some (numeral, []) := by
    intro whole
    obtain ⟨numeral, read⟩ := whole
    have rest : readNumeral 10 [49, 120] = some (⟨false, [49]⟩, [120]) := by decide
    rw [rest] at read
    cases read
  have not_ : ¬ ∃ numeral, readNumeral 10 [120] = some (numeral, []) := by
    intro whole
    obtain ⟨numeral, read⟩ := whole
    cases read
  have first : toInt64 (some ⟨[49, 120], by decide⟩) 0 9 = (1, none) := by decide
  have second : toInt64 (some ⟨[120], by decide⟩) 0 9 = (0, none) := by decide
  refine ⟨first, second, ?_, ?_⟩
  · intro exact_
    have integer := ((exact_.1 1).mp first).1
    exact partly ((whole_iff _).mp ((isInteger_iff _ _).mp integer).1)
  · intro exact_
    have integer := ((exact_.1 0).mp second).1
    exact not_ ((whole_iff _).mp ((isInteger_iff _ _).mp integer).1)

end NumberString

end Sbf
