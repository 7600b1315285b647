import Sbf.TportAssemble

set_option autoImplicit false

namespace Sbf

open Octets

/-- The fragments `count + 1, count + 2, …` up to the only one marked as last. -/
inductive Fragment.Run : Nat → List Fragment → Prop
  | last (count : Nat) (fragment : Fragment) (number : fragment.hdr.mFragNum.toNat = count + 1)
      (marked : fragment.hdr.isLastFragment = true) : Run count [fragment]
  | more (count : Nat) (fragment : Fragment) (rest : List Fragment)
      (number : fragment.hdr.mFragNum.toNat = count + 1)
      (unmarked : fragment.hdr.isLastFragment = false) (later : Run (count + 1) rest) :
      Run count (fragment :: rest)

/-- The message that fragments make up. -/
def Fragment.message (fragments : List Fragment) : Bytes := fragments.flatMap (·.payload)

namespace Reassembly

/-- Whatever arrives, the state holds some number of fragments. -/
theorem assemble_holds (topic : Reassembly) (count : Nat) (got : Bytes) (fragment : Fragment)
    (holds : topic.Holds count got) :
    ∃ count' got', (Tport.assemble topic fragment.hdr fragment.payload).2.Holds count' got' := by
  by_cases follows : fragment.hdr.mFragNum.toNat = count + 1
  · have step := Tport.assemble_next topic count got fragment.hdr fragment.payload holds
      fragment.sized follows
    split at step
    · obtain ⟨after, ran, empty⟩ := step
      exact ⟨0, [], by rw [ran]; exact empty.holds⟩
    · obtain ⟨after, ran, started⟩ := step
      exact ⟨count + 1, got ++ fragment.payload, by rw [ran]; exact Or.inr started⟩
  · rw [Tport.assemble_other topic fragment.hdr fragment.payload (by rw [holds.number]; exact follows)]
    exact ⟨0, [], (Tport.assembleInvalid_idle topic).holds⟩

theorem feed_holds (fragments : List Fragment) (topic : Reassembly) (count : Nat) (got : Bytes)
    (holds : topic.Holds count got) :
    ∃ count' got', (topic.feed fragments).2.Holds count' got' := by
  induction fragments generalizing topic count got with
  | nil => exact ⟨count, got, holds⟩
  | cons fragment rest ih =>
      obtain ⟨count', got', next⟩ := assemble_holds topic count got fragment holds
      exact ih _ count' got' next

/-- A state that waits for the first fragment of the run takes all of it. -/
theorem feed_run (count : Nat) (fragments : List Fragment) (run : Fragment.Run count fragments)
    (topic : Reassembly) (got : Bytes) (holds : topic.Holds count got) :
    (topic.feed fragments).1.getLast? = some (some (got ++ Fragment.message fragments)) := by
  induction run generalizing topic got with
  | last count fragment number marked =>
      have step := Tport.assemble_next topic count got fragment.hdr fragment.payload holds
        fragment.sized number
      simp only [marked, ↓reduceIte] at step
      obtain ⟨after, ran, _⟩ := step
      simp [feed, ran, Fragment.message]
  | more count fragment rest number unmarked later ih =>
      have step := Tport.assemble_next topic count got fragment.hdr fragment.payload holds
        fragment.sized number
      simp only [unmarked, Bool.false_eq_true, ↓reduceIte] at step
      obtain ⟨after, ran, started⟩ := step
      have finished := ih after (got ++ fragment.payload) (Or.inr started)
      have shape : (after.feed rest).1 ≠ [] := by
        intro empty
        rw [empty] at finished
        cases finished
      obtain ⟨first, others, split⟩ := List.exists_cons_of_ne_nil shape
      rw [split] at finished
      simp only [feed, ran, split, List.getLast?_cons_cons, finished, Fragment.message,
        List.flatMap_cons, List.append_assoc]

/-- A state that waits for another number drops the first fragment, is empty then,
and drops the rest as well. -/
theorem feed_stale (count : Nat) (fragments : List Fragment) (run : Fragment.Run count fragments)
    (topic : Reassembly) (stale : topic.mFragNum ≠ count) :
    ∀ returned ∈ (topic.feed fragments).1, returned = none := by
  induction run generalizing topic with
  | last count fragment number marked =>
      have dropped := Tport.assemble_other topic fragment.hdr fragment.payload (by omega)
      simp [feed, dropped, Tport.assembleInvalid]
  | more count fragment rest number unmarked later ih =>
      have dropped := Tport.assemble_other topic fragment.hdr fragment.payload (by omega)
      have others := ih (Tport.assembleInvalid topic).2
        (by rw [(Tport.assembleInvalid_idle topic).1]; omega)
      simp only [feed, dropped, List.mem_cons]
      rintro returned (rfl | member)
      · rfl
      · exact others returned member

/-- After any fragments, a whole message in its fragments is returned by the call
for the last one exactly when no partial message is in the way. -/
theorem feed_recovers_iff (before fragments : List Fragment) (run : Fragment.Run 0 fragments) :
    ((zero.feed before).2.feed fragments).1.getLast? = some (some (Fragment.message fragments)) ↔
      (zero.feed before).2.mFragNum = 0 := by
  obtain ⟨count, got, holds⟩ := feed_holds before zero 0 [] zero_idle.holds
  constructor
  · intro returned
    by_cases waiting : (zero.feed before).2.mFragNum = 0
    · exact waiting
    · have lost := feed_stale 0 fragments run _ waiting _ (List.mem_of_getLast? returned)
      cases lost
  · intro waiting
    rw [holds.number] at waiting
    subst waiting
    obtain ⟨_, rfl, _⟩ | started := holds
    · exact feed_run 0 fragments run _ [] (Or.inl ⟨rfl, rfl, by assumption⟩)
    · exact absurd started.started (by omega)

/-- A fragment of one byte. -/
def single (fragNum flags byte : UInt8) : Fragment := ⟨⟨1, fragNum, 0, flags⟩, [byte], rfl⟩

theorem feed_recovers_idle :
    ((zero.feed []).2.feed [single 1 0 7, single 2 2 8]).1.getLast? = some (some [7, 8]) :=
  (feed_recovers_iff [] [single 1 0 7, single 2 2 8]
    (.more 0 (single 1 0 7) [single 2 2 8] rfl rfl (.last 1 (single 2 2 8) rfl rfl))).mpr rfl

/-- One fragment of a message that is never completed costs the next message. -/
theorem feed_lost : ∃ before fragments, Fragment.Run 0 fragments ∧
    ((zero.feed before).2.feed fragments).1.getLast? ≠ some (some (Fragment.message fragments)) :=
  ⟨[single 1 0 7], [single 1 2 8], .last 0 (single 1 2 8) rfl rfl, by decide⟩

end Reassembly

end Sbf
