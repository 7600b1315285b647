import Mathlib.Data.List.Lex
import Mathlib.Order.Nat
import Sbf.Octets

set_option autoImplicit false

/-! Cutting C strings at a character, and their order. -/
namespace Octets

/-- `isspace` in the `C` locale. -/
def isSpace (c : UInt8) : Bool := c == 32 || (9 ≤ c && c ≤ 13)

def comma : UInt8 := 44

namespace CString

variable {s front : CString} {stop : UInt8}

theorem upTo_absent (s : CString) (stop : UInt8) : stop ∉ (s.upTo stop).chars := by
  intro member
  have kept : decide (stop ≠ stop) = true :=
    List.mem_takeWhile_imp (p := fun c => decide (c ≠ stop)) member
  simp at kept

/-- The text in front of a first separator. -/
theorem upTo_cut (rest : CString) (absent : stop ∉ front.chars)
    (cut : s.chars = front.chars ++ stop :: rest.chars) : s.upTo stop = front := by
  apply ext
  have all : ∀ c ∈ front.chars, decide (c ≠ stop) = true := by
    intro c member
    apply decide_eq_true
    intro same
    rw [same] at member
    exact absent member
  change s.chars.takeWhile (fun c => decide (c ≠ stop)) = front.chars
  rw [cut, List.takeWhile_append_of_pos all]
  simp

theorem behind_cut {rest : CString} (absent : stop ∉ front.chars)
    (cut : s.chars = front.chars ++ stop :: rest.chars) : s.behind stop = some rest := by
  have member : stop ∈ s.chars := by
    rw [cut]
    exact List.mem_append_right _ List.mem_cons_self
  have all : ∀ c ∈ front.chars, decide (c ≠ stop) = true := by
    intro c inside
    apply decide_eq_true
    intro same
    rw [same] at inside
    exact absent inside
  rw [behind, if_pos member, Option.some.injEq]
  apply ext
  change (s.chars.dropWhile (fun c => decide (c ≠ stop))).tail = rest.chars
  rw [cut, List.dropWhile_append_of_pos all]
  simp

theorem upTo_whole (none_ : s.behind stop = none) : s.upTo stop = s := by
  apply ext
  change s.chars.takeWhile (fun c => decide (c ≠ stop)) = s.chars
  rw [List.takeWhile_eq_self_iff]
  intro c member
  unfold behind at none_
  split at none_
  case isTrue => cases none_
  case isFalse absent =>
      rw [decide_eq_true_eq]
      exact fun same => absent (same ▸ member)

/-- A string with a separator in it is what is in front of it, it, and what is behind it. -/
theorem cut_behind {rest : CString} (cut : s.behind stop = some rest) :
    s.chars = (s.upTo stop).chars ++ stop :: rest.chars := by
  unfold behind at cut
  split at cut
  case isFalse => cases cut
  case isTrue member =>
      cases cut
      have split := List.takeWhile_append_dropWhile (p := fun c => decide (c ≠ stop)) (l := s.chars)
      have found : ∃ c more, s.chars.dropWhile (fun c => decide (c ≠ stop)) = c :: more := by
        apply List.exists_cons_of_ne_nil
        intro nothing
        have every := List.dropWhile_eq_nil_iff.mp nothing stop member
        simp at every
      obtain ⟨c, more, shape⟩ := found
      have head := List.head?_dropWhile_not (fun c => decide (c ≠ stop)) s.chars
      rw [shape] at head
      have same : c = stop := by simpa using head
      subst same
      rw [shape] at split
      change s.chars = s.chars.takeWhile (fun other => decide (other ≠ c)) ++
        c :: (s.chars.dropWhile (fun other => decide (other ≠ c))).tail
      rw [shape]
      exact split.symm

theorem mem_of_mem_splitOn {text part : Bytes} {stop c : UInt8} (member : part ∈ text.splitOn stop)
    (inside : c ∈ part) : c ∈ text := by
  induction text generalizing part with
  | nil =>
      rw [List.splitOn_nil, List.mem_singleton] at member
      rwa [member] at inside
  | cons first rest ih =>
      rw [List.splitOn_cons_eq_if_modifyHead] at member
      split at member
      case isTrue =>
          cases List.mem_cons.mp member with
          | inl same =>
              rw [same] at inside
              cases inside
          | inr later => exact List.mem_cons_of_mem _ (ih later inside)
      case isFalse =>
          cases shape : rest.splitOn stop with
          | nil => exact absurd shape (List.splitOn_ne_nil _ _)
          | cons front parts =>
              rw [shape, List.modifyHead_cons] at member
              cases List.mem_cons.mp member with
              | inl same =>
                  rw [same] at inside
                  cases List.mem_cons.mp inside with
                  | inl here => exact here ▸ List.mem_cons_self
                  | inr later =>
                      exact List.mem_cons_of_mem _ (ih (shape ▸ List.mem_cons_self) later)
              | inr later =>
                  exact List.mem_cons_of_mem _ (ih (shape ▸ List.mem_cons_of_mem _ later) inside)

theorem mem_splitOn_of_mem {text : Bytes} {stop c : UInt8} (inside : c ∈ text) (other : c ≠ stop) :
    ∃ part ∈ text.splitOn stop, c ∈ part := by
  induction text with
  | nil => cases inside
  | cons first rest ih =>
      rw [List.splitOn_cons_eq_if_modifyHead]
      cases List.mem_cons.mp inside with
      | inl here =>
          rw [if_neg (by rw [beq_iff_eq]; exact here ▸ other)]
          cases shape : rest.splitOn stop with
          | nil => exact absurd shape (List.splitOn_ne_nil _ _)
          | cons front parts =>
              exact ⟨first :: front, List.mem_cons_self, here ▸ List.mem_cons_self⟩
      | inr later =>
          obtain ⟨part, member, found⟩ := ih later
          split
          case isTrue => exact ⟨part, List.mem_cons_of_mem _ member, found⟩
          case isFalse =>
              cases shape : rest.splitOn stop with
              | nil => exact absurd shape (List.splitOn_ne_nil _ _)
              | cons front parts =>
                  rw [shape] at member
                  cases List.mem_cons.mp member with
                  | inl same =>
                      subst same
                      exact ⟨first :: part, List.mem_cons_self, List.mem_cons_of_mem _ found⟩
                  | inr behind => exact ⟨part, List.mem_cons_of_mem _ behind, found⟩

/-- What `strsep` finds, one part after the other. -/
def split (s : CString) (stop : UInt8) : List CString :=
  (s.chars.splitOn stop).pmap CString.mk fun _ member zero =>
    s.plain (mem_of_mem_splitOn member zero)

/-- The first characters. -/
def first (s : CString) (count : Nat) : CString :=
  ⟨s.chars.take count, fun zero => s.plain (List.mem_of_mem_take zero)⟩

/-- The characters as `strcmp` compares them: unsigned. -/
def codes (s : CString) : List Nat := s.chars.map UInt8.toNat

theorem codes_inj : Function.Injective codes := by
  intro left right same
  apply ext
  exact List.map_injective_iff.mpr (fun _ _ => UInt8.toNat_inj.mp) same

/-- The order of `strcmp`. -/
instance : LinearOrder CString := LinearOrder.lift' codes codes_inj

/-- The sign of `strcmp`. -/
def strcmp (left right : CString) : Ordering := Ord.compare left right

theorem strcmp_eq {left right : CString} : strcmp left right = .eq ↔ left = right :=
  compare_eq_iff_eq

end CString

end Octets
