import Sbf.HiResTimer

set_option autoImplicit false

namespace Sbf

namespace HiResTimers

/-- What is so of one timer. Until the reference of the tree is dropped, the timer is found
under its next tick. -/
structure TimerSound (tree : RbTree Nat Nat) (items : List Nat) (number : Nat)
    (timer : HiResTimerImpl) : Prop where
  kept : timer.dropped = 0 → tree.find timer.mNext.toNat = some number
  once : timer.dropped ≤ 1
  alive : timer.mDestroyed = false → timer.dropped = 0
  counts : timer.mRefCount + timer.dropped = items.count number + 1

structure Sound (queue : HiResTimers) : Prop where
  keys : ∀ key number, queue.mHiResTimers.find key = some number →
    ∃ timer, queue.timers number = some timer ∧ timer.mNext.toNat = key ∧ timer.dropped = 0
  timer : ∀ number timer, queue.timers number = some timer →
    TimerSound queue.mHiResTimers queue.items number timer
  unmade : ∀ number, queue.made ≤ number →
    queue.timers number = none ∧ queue.items.count number = 0

theorem create_sound : create.Sound where
  keys := fun key number found => by cases found
  timer := fun number timer there => by cases there
  unmade := fun number _ => ⟨rfl, rfl⟩

section Steps

variable {queue : HiResTimers} {number : Nat} {timer : HiResTimerImpl}

theorem Sound.isMade (sound : queue.Sound) (there : queue.timers number = some timer) :
    number < queue.made := by
  by_contra behind
  have none_ := (sound.unmade number (Nat.le_of_not_lt behind)).1
  rw [there] at none_
  cases none_

/-- A timer that the tree has is found under its next tick, and has its reference. -/
theorem Sound.found (sound : queue.Sound) (there : queue.timers number = some timer) {key : Nat}
    (found : queue.mHiResTimers.find key = some number) :
    timer.mNext.toNat = key ∧ timer.dropped = 0 := by
  obtain ⟨same, there', known⟩ := sound.keys key number found
  rw [there] at there'
  cases there'
  exact known

/-- A timer that is not in the tree has dropped its reference. -/
theorem Sound.out_iff (sound : queue.Sound) (there : queue.timers number = some timer) :
    queue.Out number ↔ timer.dropped = 1 := by
  have own := sound.timer number timer there
  constructor
  · intro out
    have gone : timer.dropped ≠ 0 := fun here => out _ (own.kept here)
    have once := own.once
    omega
  · intro gone key found
    have here := (sound.found there found).2
    omega

/-- One timer changes, and the tree and the items do for it alone. -/
theorem Sound.change (sound : queue.Sound) {tree : RbTree Nat Nat} {made : Nat} {items : List Nat}
    (others : ∀ key other, other ≠ number →
      (tree.find key = some other ↔ queue.mHiResTimers.find key = some other))
    (here : ∀ key, tree.find key = some number → timer.mNext.toNat = key ∧ timer.dropped = 0)
    (own : TimerSound tree items number timer)
    (counts : ∀ other, other ≠ number → items.count other = queue.items.count other)
    (isMade : number < made) (grows : queue.made ≤ made) :
    Sound ⟨tree, Function.update queue.timers number (some timer), made, items⟩ where
  keys := by
    intro key other found
    by_cases same : other = number
    · subst same
      exact ⟨timer, Function.update_self .., here key found⟩
    · obtain ⟨timer', there, known⟩ := sound.keys key other ((others key other same).mp found)
      exact ⟨timer', (Function.update_of_ne same ..).trans there, known⟩
  timer := by
    intro other timer' there
    dsimp only at there
    by_cases same : other = number
    · subst same
      rw [Function.update_self] at there
      cases there
      exact own
    · rw [Function.update_of_ne same] at there
      have old := sound.timer other timer' there
      exact {
        kept := fun still => (others _ other same).mpr (old.kept still)
        once := old.once
        alive := old.alive
        counts := by rw [counts other same, old.counts] }
  unmade := by
    intro other behind
    have same : other ≠ number := Nat.ne_of_gt (isMade.trans_le behind)
    have old := sound.unmade other (grows.trans behind)
    exact ⟨(Function.update_of_ne same ..).trans old.1, (counts other same).trans old.2⟩

/-- What is due is the first timer of the tree. -/
theorem Sound.due_some (sound : queue.Sound) {now : UInt64}
    (due : queue.due now = some (number, timer)) :
    queue.timers number = some timer ∧
      queue.mHiResTimers.find timer.mNext.toNat = some number ∧ timer.dropped = 0 := by
  unfold HiResTimers.due at due
  split at due
  · cases due
  · rename_i key first least
    split at due
    · cases due
    · rename_i timer' there
      split at due
      · cases due
      · cases due
        have found := RbTree.find_min least
        have known := sound.found there found
        exact ⟨there, known.1 ▸ found, known.2⟩

/-- A timer that is found under one tick is found under no other one. -/
theorem Sound.find_iff (sound : queue.Sound) (there : queue.timers number = some timer)
    (here : timer.dropped = 0) (key : Nat) :
    queue.mHiResTimers.find key = some number ↔ key = timer.mNext.toNat := by
  constructor
  · intro found
    exact (sound.found there found).1.symm
  · rintro rfl
    exact (sound.timer number timer there).kept here

theorem Sound.createTimer (sound : queue.Sound) {mTicks now : UInt64}
    (clean : Clean (.create mTicks now) queue) : (queue.createTimer mTicks now).Sound := by
  have fresh := sound.unmade queue.made (Nat.le_refl _)
  have found : ∀ key other, (queue.mHiResTimers.insert (now + mTicks).toNat queue.made).find key =
      some other ↔ if key = (now + mTicks).toNat then queue.made = other
        else queue.mHiResTimers.find key = some other := by
    intro key other
    rw [RbTree.insert_none clean, RbTree.find_set]
    split <;> simp
  refine sound.change ?_ ?_ ?_ (fun _ _ => rfl) (Nat.lt_succ_self _) (Nat.le_succ _)
  · intro key other new
    rw [found]
    split
    · rename_i at_
      rw [at_, show queue.mHiResTimers.find _ = none from clean]
      simp [Ne.symm new]
    · rfl
  · intro key there
    rw [found] at there
    split at there
    · rename_i at_
      exact ⟨at_.symm, rfl⟩
    · obtain ⟨timer, there', _⟩ := sound.keys key queue.made there
      rw [fresh.1] at there'
      cases there'
  · exact {
      kept := fun _ => by rw [found, if_pos rfl]
      once := Nat.zero_le 1
      alive := fun _ => rfl
      counts := congrArg (· + 1) fresh.2.symm }

theorem Sound.destroyTimer (sound : queue.Sound) (number : Nat) :
    (queue.destroyTimer number).Sound := by
  unfold HiResTimers.destroyTimer
  split
  · exact sound
  · rename_i timer there
    have own := sound.timer number timer there
    refine sound.change (fun _ _ _ => Iff.rfl) ?_ { own with alive := fun lives => by cases lives }
      (fun _ _ => rfl) (sound.isMade there) (Nat.le_refl _)
    intro key found
    exact sound.found there found

theorem Sound.queueCb (sound : queue.Sound) : queue.queueCb.Sound := by
  unfold HiResTimers.queueCb
  split
  · exact sound
  · rename_i number rest waiting
    split
    · rename_i none_
      refine ⟨sound.keys, fun other timer there => ?_, fun other behind => ?_⟩
      · have own := sound.timer other timer there
        have differs : number ≠ other := by
          rintro rfl
          rw [none_] at there
          cases there
        have counts := own.counts
        rw [waiting, List.count_cons_of_ne differs] at counts
        exact { own with counts := counts }
      · obtain ⟨unmade, count⟩ := sound.unmade other behind
        rw [waiting, List.count_cons] at count
        exact ⟨unmade, (Nat.add_eq_zero_iff.mp count).1⟩
    · rename_i timer there
      have own := sound.timer number timer there
      have counts := own.counts
      have once := own.once
      rw [waiting, List.count_cons_self] at counts
      refine sound.change (fun _ _ _ => Iff.rfl) ?_
        { own with counts := by simp only; omega } ?_ (sound.isMade there) (Nat.le_refl _)
      · intro key found
        exact sound.found there found
      · intro other differs
        rw [waiting, List.count_cons_of_ne (Ne.symm differs)]

theorem Sound.dispatch (sound : queue.Sound) {now : UInt64} (clean : Clean (.dispatch now) queue) :
    (queue.dispatch now).Sound := by
  unfold HiResTimers.dispatch
  split
  · exact sound
  · rename_i number timer due
    obtain ⟨there, found, here⟩ := sound.due_some due
    have own := sound.timer number timer there
    have counts := own.counts
    have removed : ∀ key other, other ≠ number →
        ((queue.mHiResTimers.erase timer.mNext.toNat).find key = some other ↔
          queue.mHiResTimers.find key = some other) := by
      intro key other differs
      rw [RbTree.find_erase]
      split
      · rename_i at_
        rw [at_, found]
        simp [Ne.symm differs]
      · rfl
    have gone : ∀ key, (queue.mHiResTimers.erase timer.mNext.toNat).find key ≠ some number := by
      intro key still
      obtain ⟨elsewhere, still⟩ := RbTree.find_erase_some still
      exact elsewhere ((sound.find_iff there here key).mp still)
    simp only
    split
    · rename_i lives
      rw [Bool.not_eq_true'] at lives
      have free := clean number timer due lives
      rw [RbTree.insert_none free]
      refine sound.change ?_ ?_ ?_ ?_ (sound.isMade there) (Nat.le_refl _)
      · intro key other differs
        rw [← removed key other differs, RbTree.find_set]
        split
        · rename_i at_
          rw [at_, free]
          simp [Ne.symm differs]
        · rfl
      · intro key still
        rcases RbTree.find_set_some still with ⟨rfl, -⟩ | ⟨-, old⟩
        · exact ⟨rfl, here⟩
        · exact absurd old (gone key)
      · exact {
          kept := fun _ => RbTree.find_set_self ..
          once := own.once
          alive := own.alive
          counts := by
            rw [List.count_append, List.count_singleton_self]
            simp only
            omega }
      · intro other differs
        rw [List.count_append, List.count_singleton, if_neg (by simpa using Ne.symm differs),
          Nat.add_zero]
    · rename_i destroyed
      refine sound.change removed (fun key still => absurd still (gone key)) ?_ (fun _ _ => rfl)
        (sound.isMade there) (Nat.le_refl _)
      exact {
        kept := fun still => by simp only at still; omega
        once := by simp only; omega
        alive := fun lives => by simp only at lives; simp [lives] at destroyed
        counts := by simp only; omega }

theorem Sound.step (action : Action) (sound : queue.Sound) (clean : Clean action queue) :
    (step action queue).Sound := by
  cases action with
  | create mTicks now => exact sound.createTimer clean
  | destroy number => exact sound.destroyTimer number
  | dispatch now => exact sound.dispatch clean
  | queueCb => exact sound.queueCb

theorem Sound.isKept (sound : queue.Sound) : queue.Kept where
  running := by
    intro number timer there lives
    have own := sound.timer number timer there
    exact own.kept (own.alive lives)
  dropped := by
    intro number timer there some_
    have once := (sound.timer number timer there).once
    have gone : timer.dropped = 1 := by omega
    exact ⟨gone, (sound.out_iff there).mpr gone⟩

/-- When nothing is due, what the tree still has is not due. -/
theorem Sound.swept (sound : queue.Sound) {now : UInt64} (rest : queue.due now = none) :
    queue.Swept now := by
  intro number timer there destroyed passed
  have own := sound.timer number timer there
  have gone : timer.dropped = 1 := by
    by_contra still
    have once := own.once
    have found := own.kept (by omega)
    unfold due at rest
    split at rest
    · rename_i empty
      rw [RbTree.find_of_min_none empty] at found
      cases found
    · rename_i key first least
      obtain ⟨timer', there', next, _⟩ := sound.keys key first (RbTree.find_min least)
      rw [there'] at rest
      simp only at rest
      split at rest
      · rename_i later
        have first_ := RbTree.min_le least found
        rw [← next, ← UInt64.le_iff_toNat_le] at first_
        exact absurd later (UInt64.not_lt.mpr (UInt64.le_trans first_ passed))
      · cases rest
  exact ⟨gone, (sound.out_iff there).mpr gone⟩

/-- A timer that meets another one is lost. -/
theorem insert_loses {tree : RbTree Nat Nat} {key other number : Nat}
    (taken : tree.find key = some other) (differs : other ≠ number) :
    (tree.insert key number).find key ≠ some number := by
  rw [RbTree.insert, taken, Option.isSome_some, if_pos rfl, taken]
  exact fun same => differs (Option.some.inj same)

theorem works_iff (action : Action) (sound : queue.Sound) : Works action queue ↔ Clean action queue := by
  constructor
  · rintro ⟨kept, -⟩
    cases action with
    | create mTicks now =>
        by_contra taken
        obtain ⟨other, taken⟩ := Option.ne_none_iff_exists'.mp taken
        obtain ⟨timer, there, -⟩ := sound.keys _ other taken
        exact insert_loses taken (Nat.ne_of_lt (sound.isMade there))
          (kept.running queue.made _ (Function.update_self ..) rfl)
    | dispatch now =>
        intro number timer due lives
        by_contra taken
        obtain ⟨other, taken⟩ := Option.ne_none_iff_exists'.mp taken
        obtain ⟨there, found, here⟩ := sound.due_some due
        obtain ⟨elsewhere, old⟩ := RbTree.find_erase_some taken
        have differs : other ≠ number := by
          rintro rfl
          exact elsewhere ((sound.find_iff there here _).mp old)
        have after : step (.dispatch now) queue = queue.dispatch now := rfl
        rw [after, HiResTimers.dispatch, due] at kept
        simp only [lives, Bool.not_false, if_true] at kept
        exact insert_loses taken differs (kept.running number _ (Function.update_self ..) rfl)
    | destroy number => trivial
    | queueCb => trivial
  · intro clean
    have after := sound.step action clean
    refine ⟨after.isKept, fun now dispatches rest => ?_⟩
    subst dispatches
    have same : step (.dispatch now) queue = queue := by
      simp only [HiResTimers.step, HiResTimers.dispatch, rest]
    rw [same]
    exact sound.swept rest

end Steps

/-- Whatever the clock reads, no timer is lost exactly when none is put into the tree at a
tick that is taken. -/
theorem run_kept_iff (actions : List Action) :
    TotalStep.Along step Works actions create ↔ TotalStep.Along step Clean actions create :=
  TotalStep.along_iff Sound
    (fun action _ sound works => sound.step action ((works_iff action sound).mp works))
    (fun action _ sound => works_iff action sound) actions create_sound

/-- Two timers are made for the same tick, and the second one is not in the tree. -/
theorem run_meets : ¬ TotalStep.Along step Works [.create 3 1, .create 2 2] create := by
  rintro ⟨_, works, _⟩
  have found := works.1.running 1 ⟨2, 4, false, 1, 0⟩ rfl rfl
  exact absurd found (by decide)

end HiResTimers

end Sbf
