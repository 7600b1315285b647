import Mathlib.Algebra.Group.Nat.Defs
import Sbf.HiResTimerRuns

set_option autoImplicit false

namespace Sbf

namespace HiResTimers

/-- `sbfPerfCounter_ticks` where the product is exact. -/
def ticks (interval : UInt32) (frequency : UInt64) : UInt64 :=
  UInt64.ofNat (interval.toNat * frequency.toNat)

/-- The loop of `sbfHiResTimer_queueDispatch` from its round `i` on, which reads `clock i`. An
empty tree ends it at once, as does the test in front of it. -/
def queueDispatch (clock : Nat → UInt64) : Nat → Nat → HiResTimers → Option HiResTimers
  | 0, _, _ => none
  | fuel + 1, i, queue =>
      match queue.due (clock i) with
      | none => some queue
      | some _ => queueDispatch clock fuel (i + 1) (queue.dispatch (clock i))

/-- No sum of a clock reading and the ticks of a timer leaves 64 bits. -/
def Fits (now : UInt64) (queue : HiResTimers) : Prop :=
  ∀ number timer, queue.timers number = some timer →
    now.toNat + timer.mTicks.toNat < 2 ^ 64

/-- The timers of a queue that has seen clock readings up to `now`, none smaller than the one
before it. -/
inductive Timed : UInt64 → HiResTimers → Prop where
  | create : Timed 0 create
  | createTimer {last now : UInt64} {queue : HiResTimers} (interval : UInt32)
      (frequency : UInt64) : Timed last queue → last ≤ now →
      now.toNat + interval.toNat * frequency.toNat < 2 ^ 64 → Fits now queue →
      Timed now (queue.createTimer (ticks interval frequency) now)
  | destroyTimer {last : UInt64} {queue : HiResTimers} (number : Nat) : Timed last queue →
      Timed last (queue.destroyTimer number)
  | dispatch {last now : UInt64} {queue : HiResTimers} : Timed last queue → last ≤ now →
      Fits now queue → Timed now (queue.dispatch now)
  | queueCb {last : UInt64} {queue : HiResTimers} : Timed last queue → Timed last queue.queueCb

/-- Readings of the clock during one call: they do not decrease, and advance by less than the
ticks of any timer that has some. -/
structure Advances (clock : Nat → UInt64) (queue : HiResTimers) : Prop where
  mono : ∀ i, clock i ≤ clock (i + 1)
  short : ∀ i number timer, queue.timers number = some timer → 0 < timer.mTicks.toNat →
    (clock i).toNat < (clock 0).toNat + timer.mTicks.toNat
  fits : ∀ i, Fits (clock i) queue

def Returns (queue : HiResTimers) : Prop :=
  ∀ clock, Advances clock queue → ∃ fuel after, queueDispatch clock fuel 0 queue = some after

/-- What the tree holds is found under its next tick. -/
structure Keyed (queue : HiResTimers) : Prop where
  keys : ∀ key number, queue.mHiResTimers.find key = some number →
    ∃ timer, queue.timers number = some timer ∧ timer.mNext.toNat = key
  unmade : ∀ number, queue.made ≤ number → queue.timers number = none

section Step

variable {queue : HiResTimers} {number : Nat} {timer : HiResTimerImpl} {now : UInt64}

theorem Keyed.due_some (keyed : queue.Keyed) (due : queue.due now = some (number, timer)) :
    queue.timers number = some timer ∧ timer.mNext ≤ now ∧
      queue.mHiResTimers.min = some (timer.mNext.toNat, number) := by
  unfold HiResTimers.due at due
  split at due
  case h_1 => cases due
  case h_2 key first least =>
      split at due
      case h_1 => cases due
      case h_2 timer' there =>
          split at due
          case isTrue => cases due
          case isFalse reached =>
              cases due
              obtain ⟨known, there', at_⟩ := keyed.keys key number (RbTree.find_min least)
              obtain rfl : timer = known := Option.some.inj (there.symm.trans there')
              rw [at_]
              exact ⟨there, UInt64.not_lt.mp reached, least⟩

/-- Something is due as long as the tree has a tick that is reached. -/
theorem Keyed.due_of_find (keyed : queue.Keyed) {key : Nat}
    (found : queue.mHiResTimers.find key = some number) (reached : key ≤ now.toNat) :
    ∃ first, queue.due now = some first := by
  cases least : queue.mHiResTimers.min with
  | none =>
      rw [RbTree.find_of_min_none least] at found
      cases found
  | some entry =>
      obtain ⟨lowest, first⟩ := entry
      obtain ⟨timer, there, at_⟩ := keyed.keys lowest first (RbTree.find_min least)
      have below : timer.mNext ≤ now := by
        rw [UInt64.le_iff_toNat_le, at_]
        exact Nat.le_trans (RbTree.min_le least found) reached
      refine ⟨(first, timer), ?_⟩
      simp only [HiResTimers.due, least, there, if_neg (UInt64.not_lt.mpr below)]

/-- A round for a timer that was destroyed. -/
theorem dispatch_destroyed (due : queue.due now = some (number, timer))
    (destroyed : timer.mDestroyed = true) :
    queue.dispatch now = { queue with
      mHiResTimers := queue.mHiResTimers.erase timer.mNext.toNat
      timers := Function.update queue.timers number
        (some { timer with
          mRefCount := timer.mRefCount - 1, dropped := timer.dropped + 1 }) } := by
  simp only [dispatch, due, destroyed, Bool.not_true, Bool.false_eq_true, ↓reduceIte]

/-- A round for a timer that fires. -/
theorem dispatch_fires (due : queue.due now = some (number, timer))
    (alive : timer.mDestroyed = false) :
    queue.dispatch now = { queue with
      mHiResTimers := (queue.mHiResTimers.erase timer.mNext.toNat).insert
        (now + timer.mTicks).toNat number
      timers := Function.update queue.timers number
        (some { timer with mNext := now + timer.mTicks, mRefCount := timer.mRefCount + 1 })
      items := queue.items ++ [number] } := by
  simp only [dispatch, due, alive, Bool.not_false, ↓reduceIte]

/-- The ticks of the timers and which ones are destroyed stay as they are. -/
theorem dispatch_same (keyed : queue.Keyed) {other : Nat} {after : HiResTimerImpl}
    (there : (queue.dispatch now).timers other = some after) :
    ∃ before, queue.timers other = some before ∧ before.mTicks = after.mTicks ∧
      before.mDestroyed = after.mDestroyed := by
  cases due : queue.due now with
  | none =>
      simp only [dispatch, due] at there
      exact ⟨after, there, rfl, rfl⟩
  | some first =>
      obtain ⟨number, timer⟩ := first
      have own := (keyed.due_some due).1
      have changed : ∀ {changed : HiResTimerImpl},
          Function.update queue.timers number (some changed) other = some after →
          changed.mTicks = timer.mTicks → changed.mDestroyed = timer.mDestroyed →
          ∃ before, queue.timers other = some before ∧ before.mTicks = after.mTicks ∧
            before.mDestroyed = after.mDestroyed := by
        intro changed here sameTicks sameDestroyed
        by_cases same : other = number
        · subst same
          rw [Function.update_self] at here
          cases here
          exact ⟨timer, own, sameTicks.symm, sameDestroyed.symm⟩
        · rw [Function.update_of_ne same] at here
          exact ⟨after, here, rfl, rfl⟩
      cases destroyed : timer.mDestroyed with
      | true =>
          rw [dispatch_destroyed due destroyed] at there
          exact changed there rfl rfl
      | false =>
          rw [dispatch_fires due destroyed] at there
          exact changed there rfl rfl

theorem find_insert_some {tree : RbTree Nat Nat} {key other value found : Nat}
    (result : (tree.insert key value).find other = some found) :
    tree.find other = some found ∨ (other = key ∧ found = value) := by
  unfold RbTree.insert at result
  split at result
  case isTrue => exact Or.inl result
  case isFalse =>
      rw [RbTree.find_set] at result
      split at result
      case isTrue here => exact Or.inr ⟨here, (Option.some.inj result).symm⟩
      case isFalse => exact Or.inl result

/-- One timer changes and its entry goes; it may come back under its new tick. -/
theorem Keyed.change (keyed : queue.Keyed) {tree : RbTree Nat Nat} {after : HiResTimerImpl}
    {items : List Nat} (there : queue.timers number = some timer)
    (entries : ∀ key other, tree.find key = some other →
      (queue.mHiResTimers.find key = some other ∧ key ≠ timer.mNext.toNat) ∨
        (key = after.mNext.toNat ∧ other = number)) :
    Keyed ⟨tree, Function.update queue.timers number (some after), queue.made, items⟩ where
  keys := by
    intro key other found
    cases entries key other found with
    | inl old =>
        obtain ⟨known, there', at_⟩ := keyed.keys key other old.1
        have differs : other ≠ number := by
          intro same
          rw [same, there] at there'
          cases there'
          exact old.2 at_.symm
        exact ⟨known, (Function.update_of_ne differs ..).trans there', at_⟩
    | inr new =>
        obtain ⟨rfl, rfl⟩ := new
        exact ⟨after, Function.update_self .., rfl⟩
  unmade := by
    intro other behind
    have differs : other ≠ number := by
      intro same
      rw [same] at behind
      rw [keyed.unmade number behind] at there
      cases there
    exact (Function.update_of_ne differs ..).trans (keyed.unmade other behind)

theorem Keyed.dispatch (keyed : queue.Keyed) (now : UInt64) : (queue.dispatch now).Keyed := by
  cases due : queue.due now with
  | none =>
      simp only [HiResTimers.dispatch, due]
      exact keyed
  | some first =>
      obtain ⟨number, timer⟩ := first
      have there := (keyed.due_some due).1
      cases destroyed : timer.mDestroyed with
      | true =>
          rw [dispatch_destroyed due destroyed]
          refine keyed.change there ?_
          intro key other found
          have old := RbTree.find_erase_some found
          exact Or.inl ⟨old.2, old.1⟩
      | false =>
          rw [dispatch_fires due destroyed]
          refine keyed.change there ?_
          intro key other found
          cases find_insert_some found with
          | inl old =>
              have kept := RbTree.find_erase_some old
              exact Or.inl ⟨kept.2, kept.1⟩
          | inr new => exact Or.inr new

/-- Whether an entry of the tree can still be due in a call that begins at `base`: its timer was
destroyed, or it has not fired in the call. -/
def pending (base : Nat) (queue : HiResTimers) (key number : Nat) : Bool :=
  match queue.timers number with
  | none => false
  | some timer => timer.mDestroyed || decide (key < base + timer.mTicks.toNat)

theorem pending_dispatch (keyed : queue.Keyed) (base : Nat) :
    pending base (queue.dispatch now) = pending base queue := by
  funext key other
  cases after : (queue.dispatch now).timers other with
  | some timer =>
      obtain ⟨before, there, sameTicks, sameDestroyed⟩ := dispatch_same keyed after
      simp only [pending, after, there, sameTicks, sameDestroyed]
  | none =>
      have absent : queue.timers other = none := by
        cases due : queue.due now with
        | none =>
            simp only [HiResTimers.dispatch, due] at after
            exact after
        | some first =>
            obtain ⟨number, timer⟩ := first
            have elsewhere : ∀ {changed : HiResTimerImpl},
                Function.update queue.timers number (some changed) other = none →
                queue.timers other = none := by
              intro changed here
              by_cases same : other = number
              · subst same
                rw [Function.update_self] at here
                cases here
              · rw [Function.update_of_ne same] at here
                exact here
            cases destroyed : timer.mDestroyed with
            | true =>
                rw [dispatch_destroyed due destroyed] at after
                exact elsewhere after
            | false =>
                rw [dispatch_fires due destroyed] at after
                exact elsewhere after
      simp only [pending, after, absent]

/-- Every timer of the tree that still runs has ticks. -/
def Ticking (queue : HiResTimers) : Prop :=
  ∀ key number timer, queue.mHiResTimers.find key = some number →
    queue.timers number = some timer → timer.mDestroyed = false → 0 < timer.mTicks.toNat

theorem count_insert_le (tree : RbTree Nat Nat) (p : Nat → Nat → Bool) (key value : Nat)
    (dead : p key value = false) : (tree.insert key value).count p ≤ tree.count p := by
  unfold RbTree.insert
  split
  case isTrue => exact Nat.le_refl _
  case isFalse =>
      have counted := RbTree.count_set tree p key value
      rw [dead] at counted
      simp only [Bool.toNat_false] at counted
      omega

/-- A round takes an entry that was pending, and none becomes it. -/
theorem dispatch_pending (keyed : queue.Keyed) (ticking : queue.Ticking) {base : Nat}
    (due : queue.due now = some (number, timer)) (begun : base ≤ now.toNat)
    (short : 0 < timer.mTicks.toNat → now.toNat < base + timer.mTicks.toNat)
    (fits : now.toNat + timer.mTicks.toNat < 2 ^ 64) :
    (queue.dispatch now).mHiResTimers.count (pending base (queue.dispatch now)) <
      queue.mHiResTimers.count (pending base queue) := by
  obtain ⟨there, reached, least⟩ := keyed.due_some due
  have found := RbTree.find_min least
  have erased := RbTree.count_erase queue.mHiResTimers (pending base queue) timer.mNext.toNat
  rw [found, Option.elim_some] at erased
  have counted : pending base queue timer.mNext.toNat number = true := by
    simp only [pending, there, Bool.or_eq_true, decide_eq_true_eq]
    cases destroyed : timer.mDestroyed with
    | true => exact Or.inl rfl
    | false =>
        have positive := ticking _ _ _ found there destroyed
        have below := UInt64.le_iff_toNat_le.mp reached
        have bound := short positive
        exact Or.inr (by omega)
  rw [counted, Bool.toNat_true] at erased
  rw [pending_dispatch keyed]
  cases destroyed : timer.mDestroyed with
  | true =>
      rw [dispatch_destroyed due destroyed]
      change (queue.mHiResTimers.erase timer.mNext.toNat).count (pending base queue) < _
      omega
  | false =>
      have sum : (now + timer.mTicks).toNat = now.toNat + timer.mTicks.toNat := by
        rw [UInt64.toNat_add, Nat.mod_eq_of_lt fits]
      have dead : pending base queue (now + timer.mTicks).toNat number = false := by
        simp only [pending, there, destroyed, Bool.false_or, decide_eq_false_iff_not, sum]
        omega
      have grown := count_insert_le (queue.mHiResTimers.erase timer.mNext.toNat)
        (pending base queue) (now + timer.mTicks).toNat number dead
      rw [dispatch_fires due destroyed]
      exact Nat.lt_of_le_of_lt grown (by omega)

theorem Ticking.dispatch (keyed : queue.Keyed) (ticking : queue.Ticking) :
    (queue.dispatch now).Ticking := by
  intro key other after found there alive
  obtain ⟨before, old, sameTicks, sameDestroyed⟩ := dispatch_same keyed there
  rw [← sameTicks]
  rw [← sameDestroyed] at alive
  cases due : queue.due now with
  | none =>
      simp only [HiResTimers.dispatch, due] at found
      exact ticking key other before found old alive
  | some first =>
      obtain ⟨number, timer⟩ := first
      obtain ⟨own, _, least⟩ := keyed.due_some due
      cases destroyed : timer.mDestroyed with
      | true =>
          rw [dispatch_destroyed due destroyed] at found
          exact ticking key other before (RbTree.find_erase_some found).2 old alive
      | false =>
          rw [dispatch_fires due destroyed] at found
          cases find_insert_some found with
          | inl kept => exact ticking key other before (RbTree.find_erase_some kept).2 old alive
          | inr new =>
              rw [new.2] at old
              exact ticking _ _ before (RbTree.find_min least) old alive

/-- With timers that all have ticks the loop ends: the induction is on the pending entries. -/
theorem queueDispatch_returns {clock : Nat → UInt64} (base : Nat) (fuel i : Nat)
    {queue : HiResTimers} (keyed : queue.Keyed) (ticking : queue.Ticking)
    (begun : ∀ j, base ≤ (clock j).toNat)
    (short : ∀ j number timer, queue.timers number = some timer → 0 < timer.mTicks.toNat →
      (clock j).toNat < base + timer.mTicks.toNat)
    (fits : ∀ j, Fits (clock j) queue)
    (enough : queue.mHiResTimers.count (pending base queue) < fuel) :
    ∃ after, queueDispatch clock fuel i queue = some after := by
  induction fuel generalizing i queue with
  | zero => exact absurd enough (Nat.not_lt_zero _)
  | succ fuel ih =>
      rw [queueDispatch]
      cases due : queue.due (clock i) with
      | none => exact ⟨queue, rfl⟩
      | some first =>
          obtain ⟨number, timer⟩ := first
          have there := (keyed.due_some due).1
          have fewer := dispatch_pending keyed ticking due (begun i)
            (short i number timer there) (fits i number timer there)
          refine ih (i + 1) (keyed.dispatch _) (ticking.dispatch keyed) ?_ ?_ (by omega)
          · intro j other after here
            obtain ⟨before, old, sameTicks, _⟩ := dispatch_same keyed here
            rw [← sameTicks]
            exact short j other before old
          · intro j other after here
            obtain ⟨before, old, sameTicks, _⟩ := dispatch_same keyed here
            rw [← sameTicks]
            exact fits j other before old

/-- An entry of a timer without ticks that still runs. -/
def Idle (queue : HiResTimers) (key : Nat) : Prop :=
  ∃ number timer, queue.mHiResTimers.find key = some number ∧
    queue.timers number = some timer ∧ timer.mTicks = 0 ∧ timer.mDestroyed = false

/-- Such a timer is due, and nobody else stands at the reading to which it comes back. -/
structure Stuck (now : UInt64) (queue : HiResTimers) : Prop where
  idle : ∃ key, key ≤ now.toNat ∧ queue.Idle key
  free : ∀ number, queue.mHiResTimers.find now.toNat = some number → queue.Idle now.toNat

/-- An insertion leaves an entry that is there. -/
theorem find_insert_of_some {tree : RbTree Nat Nat} {key new value found : Nat}
    (there : tree.find key = some found) : (tree.insert new value).find key = some found := by
  unfold RbTree.insert
  split
  case isTrue => exact there
  case isFalse empty =>
      rw [RbTree.find_set]
      split
      case isTrue occupied =>
          rw [← occupied, there] at empty
          exact absurd rfl empty
      case isFalse => exact there

/-- A round for a timer with ticks, or for one that was destroyed, leaves the others. -/
theorem Idle.dispatch_other {key : Nat} (idle : queue.Idle key)
    (due : queue.due now = some (number, timer)) (own : queue.timers number = some timer)
    (lowest : queue.mHiResTimers.find timer.mNext.toNat = some number)
    (other : timer.mTicks = 0 → timer.mDestroyed = false → False) :
    (queue.dispatch now).Idle key := by
  obtain ⟨still, known, found, there, zero, alive⟩ := idle
  have differs : still ≠ number := by
    intro same
    rw [same] at there
    obtain rfl : timer = known := Option.some.inj (own.symm.trans there)
    exact other zero alive
  have apart : key ≠ timer.mNext.toNat := by
    intro same
    rw [same, lowest] at found
    exact differs (Option.some.inj found).symm
  have erased : (queue.mHiResTimers.erase timer.mNext.toNat).find key = some still := by
    rw [RbTree.find_erase, if_neg apart, found]
  cases destroyed : timer.mDestroyed with
  | true =>
      rw [dispatch_destroyed due destroyed]
      exact ⟨still, known, erased, (Function.update_of_ne differs ..).trans there, zero, alive⟩
  | false =>
      rw [dispatch_fires due destroyed]
      exact ⟨still, known, find_insert_of_some erased,
        (Function.update_of_ne differs ..).trans there, zero, alive⟩

/-- A timer without ticks that fires is inserted again at the reading, unless another one of
its kind is there. -/
theorem Stuck.dispatch_fires (keyed : queue.Keyed) (stuck : Stuck now queue)
    (due : queue.due now = some (number, timer)) (own : queue.timers number = some timer)
    (zero : timer.mTicks = 0) (alive : timer.mDestroyed = false) :
    (queue.dispatch now).Idle now.toNat := by
  have back : now + timer.mTicks = now := by rw [zero, UInt64.add_zero]
  rw [HiResTimers.dispatch_fires due alive, back]
  cases taken : (queue.mHiResTimers.erase timer.mNext.toNat).find now.toNat with
  | none =>
      refine ⟨number, _, ?_, Function.update_self .., zero, alive⟩
      rw [RbTree.insert_none taken, RbTree.find_set_self]
  | some holder =>
      have before := RbTree.find_erase_some taken
      obtain ⟨holder', other, found, held, zero', alive'⟩ := stuck.free holder before.2
      obtain rfl : holder = holder' := Option.some.inj (before.2.symm.trans found)
      have differs : holder ≠ number := by
        intro same
        obtain ⟨known, there, next⟩ := keyed.keys _ _ found
        rw [same, own] at there
        cases there
        exact before.1 next.symm
      exact ⟨holder, other, find_insert_of_some taken,
        (Function.update_of_ne differs ..).trans held, zero', alive'⟩

/-- While the clock stays, each round leaves such a timer behind. -/
theorem Stuck.dispatch (keyed : queue.Keyed) (stuck : Stuck now queue) :
    Stuck now (queue.dispatch now) := by
  obtain ⟨key, reached, idle⟩ := stuck.idle
  have waiting := idle
  obtain ⟨_, _, found, _⟩ := waiting
  obtain ⟨⟨number, timer⟩, due⟩ := keyed.due_of_find found reached
  obtain ⟨own, _, least⟩ := keyed.due_some due
  have lowest := RbTree.find_min least
  by_cases fires : timer.mTicks = 0 ∧ timer.mDestroyed = false
  · have back := stuck.dispatch_fires keyed due own fires.1 fires.2
    exact ⟨⟨now.toNat, Nat.le_refl _, back⟩, fun _ _ => back⟩
  · have other : timer.mTicks = 0 → timer.mDestroyed = false → False :=
      fun zero alive => fires ⟨zero, alive⟩
    refine ⟨⟨key, reached, idle.dispatch_other due own lowest other⟩, ?_⟩
    intro holder here
    cases destroyed : timer.mDestroyed with
    | true =>
        rw [dispatch_destroyed due destroyed] at here
        have old := RbTree.find_erase_some here
        exact (stuck.free holder old.2).dispatch_other due own lowest other
    | false =>
        rw [HiResTimers.dispatch_fires due destroyed] at here
        cases find_insert_some here with
        | inl old =>
            have at_ := stuck.free holder (RbTree.find_erase_some old).2
            exact at_.dispatch_other due own lowest other
        | inr new =>
            have sum : now + timer.mTicks = now + 0 := by
              rw [UInt64.add_zero]
              exact UInt64.toNat_inj.mp new.1.symm
            exact absurd destroyed (other ((UInt64.add_right_inj now).mp sum))

theorem queueDispatch_stuck (keyed : queue.Keyed) (stuck : Stuck now queue) (fuel i : Nat) :
    queueDispatch (fun _ => now) fuel i queue = none := by
  induction fuel generalizing i queue with
  | zero => rfl
  | succ fuel ih =>
      obtain ⟨key, reached, _, _, found, _⟩ := stuck.idle
      obtain ⟨first, due⟩ := keyed.due_of_find found reached
      rw [queueDispatch]
      simp only [due]
      exact ih (keyed.dispatch now) (stuck.dispatch keyed) (i + 1)

end Step

/-- What is so after any such sequence: timers without ticks stand at readings that the clock
has passed. -/
structure Timed.Sound (last : UInt64) (queue : HiResTimers) : Prop where
  keyed : queue.Keyed
  fits : Fits last queue
  passed : ∀ number timer, queue.timers number = some timer → timer.mTicks = 0 →
    timer.mNext ≤ last

section Runs

variable {last now : UInt64} {queue : HiResTimers}

theorem Keyed.createTimer (keyed : queue.Keyed) (mTicks now : UInt64) :
    (queue.createTimer mTicks now).Keyed where
  keys := by
    intro key number found
    cases find_insert_some found with
    | inl old =>
        obtain ⟨timer, there, at_⟩ := keyed.keys key number old
        have differs : number ≠ queue.made := by
          intro same
          rw [same, keyed.unmade _ (Nat.le_refl _)] at there
          cases there
        exact ⟨timer, (Function.update_of_ne differs ..).trans there, at_⟩
    | inr new =>
        obtain ⟨rfl, rfl⟩ := new
        exact ⟨_, Function.update_self .., rfl⟩
  unmade := by
    intro number behind
    have above : queue.made < number := behind
    exact (Function.update_of_ne (Nat.ne_of_gt above) ..).trans
      (keyed.unmade number (Nat.le_of_lt above))

/-- A change of one timer that leaves its next tick and its ticks alone. -/
theorem Timed.Sound.update (sound : Timed.Sound last queue) {number : Nat}
    {before after : HiResTimerImpl} {items : List Nat}
    (there : queue.timers number = some before) (next : after.mNext = before.mNext)
    (same : after.mTicks = before.mTicks) :
    Timed.Sound last { queue with
      timers := Function.update queue.timers number (some after), items := items } := by
  have old : ∀ other timer,
      Function.update queue.timers number (some after) other = some timer →
      ∃ timer', queue.timers other = some timer' ∧ timer.mTicks = timer'.mTicks ∧
        timer.mNext = timer'.mNext := by
    intro other timer here
    by_cases own : other = number
    · subst own
      rw [Function.update_self] at here
      cases here
      exact ⟨before, there, same, next⟩
    · rw [Function.update_of_ne own] at here
      exact ⟨timer, here, rfl, rfl⟩
  refine ⟨⟨?_, ?_⟩, ?_, ?_⟩
  · intro key other found
    obtain ⟨timer, known, at_⟩ := sound.keyed.keys key other found
    by_cases own : other = number
    · subst own
      obtain rfl : before = timer := Option.some.inj (there.symm.trans known)
      exact ⟨after, Function.update_self .., next ▸ at_⟩
    · exact ⟨timer, (Function.update_of_ne own ..).trans known, at_⟩
  · intro other behind
    have differs : other ≠ number := by
      intro own
      rw [own] at behind
      rw [sound.keyed.unmade number behind] at there
      cases there
    exact (Function.update_of_ne differs ..).trans (sound.keyed.unmade other behind)
  · intro other timer here
    obtain ⟨timer', known, ticks, _⟩ := old other timer here
    rw [ticks]
    exact sound.fits other timer' known
  · intro other timer here zero
    obtain ⟨timer', known, ticks, nexts⟩ := old other timer here
    rw [nexts]
    exact sound.passed other timer' known (ticks ▸ zero)

theorem Timed.Sound.dispatch (sound : Timed.Sound last queue) (later : last ≤ now)
    (fits : Fits now queue) : Timed.Sound now (queue.dispatch now) where
  keyed := sound.keyed.dispatch now
  fits := by
    intro number after there
    obtain ⟨before, old, sameTicks, _⟩ := dispatch_same sound.keyed there
    rw [← sameTicks]
    exact fits number before old
  passed := by
    intro other after there zero
    have earlier : ∀ timer, queue.timers other = some timer → timer.mTicks = 0 →
        timer.mNext ≤ now :=
      fun timer old none_ => UInt64.le_trans (sound.passed other timer old none_) later
    cases due : queue.due now with
    | none =>
        simp only [HiResTimers.dispatch, due] at there
        exact earlier after there zero
    | some first =>
        obtain ⟨number, timer⟩ := first
        have own := (sound.keyed.due_some due).1
        have changed : ∀ {changed : HiResTimerImpl},
            Function.update queue.timers number (some changed) other = some after →
            (changed.mTicks = 0 → changed.mNext ≤ now) → after.mNext ≤ now := by
          intro changed here reached
          by_cases same : other = number
          · subst same
            rw [Function.update_self] at here
            cases here
            exact reached zero
          · rw [Function.update_of_ne same] at here
            exact earlier after here zero
        cases destroyed : timer.mDestroyed with
        | true =>
            rw [dispatch_destroyed due destroyed] at there
            refine changed there ?_
            intro none_
            exact UInt64.le_trans (sound.passed number timer own none_) later
        | false =>
            rw [dispatch_fires due destroyed] at there
            refine changed there ?_
            intro none_
            have none_' : timer.mTicks = 0 := none_
            change now + timer.mTicks ≤ now
            rw [none_', UInt64.add_zero]
            exact UInt64.le_refl now

theorem ticks_toNat {interval : UInt32} {frequency : UInt64}
    (small : interval.toNat * frequency.toNat < 2 ^ 64) :
    (ticks interval frequency).toNat = interval.toNat * frequency.toNat := by
  rw [ticks, UInt64.toNat_ofNat', Nat.mod_eq_of_lt small]

/-- A timer behind the creation is the new one, or was there before. -/
theorem createTimer_cases {mTicks : UInt64} {number : Nat} {timer : HiResTimerImpl}
    (there : (queue.createTimer mTicks now).timers number = some timer) :
    timer = ⟨mTicks, now + mTicks, false, 1, 0⟩ ∨ queue.timers number = some timer := by
  have timers : (queue.createTimer mTicks now).timers number =
      if number = queue.made then some ⟨mTicks, now + mTicks, false, 1, 0⟩
      else queue.timers number := Function.update_apply ..
  rw [timers] at there
  split at there
  · exact .inl (Option.some.inj there).symm
  · exact .inr there

theorem Timed.Sound.createTimer (sound : Timed.Sound last queue) (later : last ≤ now)
    {interval : UInt32} {frequency : UInt64}
    (sum : now.toNat + interval.toNat * frequency.toNat < 2 ^ 64) (fits : Fits now queue) :
    Timed.Sound now (queue.createTimer (ticks interval frequency) now) where
  keyed := sound.keyed.createTimer _ now
  fits := by
    intro number timer there
    rcases createTimer_cases there with rfl | before
    · change now.toNat + (ticks interval frequency).toNat < 2 ^ 64
      rw [ticks_toNat (by omega)]
      exact sum
    · exact fits number timer before
  passed := by
    intro number timer there zero
    rcases createTimer_cases there with rfl | before
    · have none_ : ticks interval frequency = 0 := zero
      change now + ticks interval frequency ≤ now
      rw [none_, UInt64.add_zero]
      exact UInt64.le_refl now
    · exact UInt64.le_trans (sound.passed number timer before zero) later

theorem Timed.sound (timed : Timed last queue) : Timed.Sound last queue := by
  induction timed with
  | create =>
      refine ⟨⟨?_, ?_⟩, ?_, ?_⟩
      · intro key number found
        cases found
      · intro number _
        rfl
      · intro number timer there
        cases there
      · intro number timer there
        cases there
  | createTimer interval frequency _ later sum fits sound =>
      exact sound.createTimer later sum fits
  | destroyTimer number _ sound =>
      unfold HiResTimers.destroyTimer
      split
      case h_1 => exact sound
      case h_2 timer there => exact sound.update there rfl rfl
  | dispatch _ later fits sound => exact sound.dispatch later fits
  | queueCb _ sound =>
      unfold HiResTimers.queueCb
      split
      case h_1 => exact sound
      case h_2 number rest _ =>
          split
          case h_1 => exact ⟨⟨sound.keyed.keys, sound.keyed.unmade⟩, sound.fits, sound.passed⟩
          case h_2 timer there => exact sound.update there rfl rfl

/-- A timer without ticks that still runs keeps a call from returning while the clock stays
at its tick, and at any later reading at which no timer stands. -/
theorem Timed.Sound.stuck (sound : Timed.Sound last queue) {key : Nat} (idle : queue.Idle key)
    (reached : key ≤ now.toNat)
    (free : key = now.toNat ∨ queue.mHiResTimers.find now.toNat = none) (fuel i : Nat) :
    queueDispatch (fun _ => now) fuel i queue = none := by
  refine queueDispatch_stuck sound.keyed ⟨⟨key, reached, idle⟩, ?_⟩ fuel i
  intro number found
  cases free with
  | inl here => exact here ▸ idle
  | inr empty =>
      rw [empty] at found
      cases found

/-- A call returns, however the clock advances, just when every timer of the tree whose
interval or frequency was zero has been destroyed. While one of them runs, no call returns in
which the clock stays at a reading at which no timer stands. -/
theorem Timed.returns_iff (timed : Timed last queue) :
    (Returns queue ↔ ∀ key number timer, queue.mHiResTimers.find key = some number →
      queue.timers number = some timer → timer.mTicks = 0 → timer.mDestroyed = true) ∧
    ∀ key number timer, queue.mHiResTimers.find key = some number →
      queue.timers number = some timer → timer.mTicks = 0 → timer.mDestroyed = false →
      ∀ now, last ≤ now → queue.mHiResTimers.find now.toNat = none →
        ∀ fuel, queueDispatch (fun _ => now) fuel 0 queue = none := by
  have sound := timed.sound
  have passed : ∀ {key number : Nat} {timer : HiResTimerImpl},
      queue.mHiResTimers.find key = some number → queue.timers number = some timer →
      timer.mTicks = 0 → timer.mNext.toNat = key ∧ key ≤ last.toNat := by
    intro key number timer found there zero
    obtain ⟨known, there', at_⟩ := sound.keyed.keys key number found
    obtain rfl : timer = known := Option.some.inj (there.symm.trans there')
    exact ⟨at_, at_ ▸ UInt64.le_iff_toNat_le.mp (sound.passed number timer there zero)⟩
  refine ⟨⟨?_, ?_⟩, ?_⟩
  · intro returns key number timer found there zero
    by_contra running
    have alive : timer.mDestroyed = false := Bool.not_eq_true _ ▸ running
    obtain ⟨at_, below⟩ := passed found there zero
    have advances : Advances (fun _ => timer.mNext) queue := by
      refine ⟨fun _ => UInt64.le_refl _, ?_, ?_⟩
      · intro _ _ _ _ positive
        exact Nat.lt_add_of_pos_right positive
      · intro _ other timer' there'
        have fits := sound.fits other timer' there'
        omega
    obtain ⟨fuel, after, ends⟩ := returns _ advances
    rw [sound.stuck ⟨number, timer, found, there, zero, alive⟩ (Nat.le_of_eq at_.symm)
      (Or.inl at_.symm)] at ends
    cases ends
  · intro destroyed clock advances
    have ticking : queue.Ticking := by
      intro key number timer found there alive
      refine Nat.pos_of_ne_zero ?_
      intro zero
      have none_ : timer.mTicks = 0 := UInt64.toNat_inj.mp zero
      rw [destroyed key number timer found there none_] at alive
      cases alive
    have begun : ∀ j, (clock 0).toNat ≤ (clock j).toNat := by
      intro j
      induction j with
      | zero => exact Nat.le_refl _
      | succ j ih => exact Nat.le_trans ih (UInt64.le_iff_toNat_le.mp (advances.mono j))
    obtain ⟨after, ends⟩ := queueDispatch_returns (clock 0).toNat _ 0 sound.keyed ticking begun
      advances.short advances.fits (Nat.lt_succ_self _)
    exact ⟨_, after, ends⟩
  · intro key number timer found there zero alive now later empty fuel
    have below := (passed found there zero).2
    exact sound.stuck ⟨number, timer, found, there, zero, alive⟩
      (Nat.le_trans below (UInt64.le_iff_toNat_le.mp later)) (Or.inr empty) fuel 0

end Runs

/-- One timer with the interval zero, made when the clock read five. -/
theorem Timed.zero : Timed 5 (HiResTimers.create.createTimer (ticks 0 2000) 5) :=
  .createTimer 0 2000 .create (by decide) (by decide) (fun _ _ there => by cases there)

theorem returns_iff_zero :
    ¬ Returns (HiResTimers.create.createTimer (ticks 0 2000) 5) := by
  intro returns
  have destroyed := Timed.zero.returns_iff.1.mp returns 5 0 ⟨0, 5, false, 1, 0⟩ (by decide)
    (by decide) rfl
  cases destroyed

/-- The clock reads seven from then on, and the call does not return. -/
theorem not_returns :
    ¬ ∀ (last : UInt64) (queue : HiResTimers), Timed last queue → Returns queue := by
  intro all
  have advances : Advances (fun _ => 7) (HiResTimers.create.createTimer (ticks 0 2000) 5) := by
    have ticksZero : ∀ number timer,
        (HiResTimers.create.createTimer (ticks 0 2000) 5).timers number = some timer →
        timer.mTicks = 0 := by
      intro number timer there
      rcases createTimer_cases there with rfl | before
      · rfl
      · cases before
    refine ⟨fun _ => UInt64.le_refl _, ?_, ?_⟩
    · intro _ number timer there positive
      rw [ticksZero number timer there] at positive
      exact absurd positive (by decide)
    · intro _ number timer there
      rw [ticksZero number timer there]
      decide
  have idle : (HiResTimers.create.createTimer (ticks 0 2000) 5).Idle 5 :=
    ⟨0, ⟨0, 5, false, 1, 0⟩, by decide, by decide, rfl, rfl⟩
  obtain ⟨fuel, after, ends⟩ := all 5 _ Timed.zero _ advances
  rw [Timed.zero.sound.stuck idle (by decide) (Or.inr (by decide))] at ends
  cases ends

end HiResTimers

end Sbf
