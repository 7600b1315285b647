import Sbf.TimerDestroy

set_option autoImplicit false

namespace Sbf

namespace TimerOrEvent

structure Sound (object : TimerOrEvent) : Prop extends object.Kept where
  marked : object.mDestroyed = true ↔ object.destroyCall ≠ .mark

theorem create_sound (enabled : Bool) : (create enabled).Sound where
  count := rfl
  freed := rfl
  stopped := fun called => by cases called <;> contradiction
  starts := fun _ _ => rfl
  marked := by simp [create]

section Steps

variable {object : TimerOrEvent}

/-- A reference that is dropped is taken off the count, and the object is freed with the last. -/
theorem drop_spec {left : Nat} (count : object.mRefCount.toNat = left + 1) :
    object.drop.mRefCount.toNat = left ∧
      object.drop.freed = object.freed + if left = 0 then 1 else 0 := by
  have less : (object.mRefCount - 1).toNat = left := by
    rw [UInt32.toNat_sub_of_le _ _ (UInt32.le_iff_toNat_le.mpr (by rw [count]; simp)), count]
    simp
  refine ⟨less, ?_⟩
  have zero : object.mRefCount - 1 = 0 ↔ left = 0 := by
    rw [← UInt32.toNat_inj, less]
    rfl
  simp only [drop, zero]
  split <;> rfl

/-- With a reference that is left nothing was freed. -/
theorem Kept.unfreed (kept : object.Kept) (some_ : object.owner + object.references ≠ 0) :
    object.freed = 0 := by
  rw [kept.freed, if_neg some_]

/-- A step that drops and takes no reference. -/
theorem Sound.moved (sound : object.Sound) {after : TimerOrEvent}
    (same : (after.mRefCount, after.freed, after.destroyCall, after.mDestroyed) =
      (object.mRefCount, object.freed, object.destroyCall, object.mDestroyed))
    (references : after.references = object.references)
    (stopped : after.mEvent = true ∨ after.eventCb ≠ .idle →
      object.destroyCall ≠ .decrement ∧ object.destroyCall ≠ .returned)
    (starts : ∀ data, after.queueCb = .mCb data → object.mDestroyed = false) : after.Sound := by
  simp only [Prod.mk.injEq] at same
  obtain ⟨count, freed, called, marked⟩ := same
  have owner : after.owner = object.owner := by rw [TimerOrEvent.owner, TimerOrEvent.owner, called]
  exact {
    count := by rw [count, owner, references, sound.count]
    freed := by rw [freed, owner, references, sound.freed]
    stopped := by
      rw [called]
      intro late
      constructor
      · by_contra armed
        have early := stopped (Or.inl (Bool.of_not_eq_false armed))
        exact late.elim early.1 early.2
      · by_contra runs
        have early := stopped (Or.inr runs)
        exact late.elim early.1 early.2
    starts := fun data next => marked.trans (starts data next)
    marked := by rw [marked, called, sound.marked] }

theorem Sound.early (sound : object.Sound) (live : object.mEvent = true ∨ object.eventCb ≠ .idle) :
    object.destroyCall ≠ .decrement ∧ object.destroyCall ≠ .returned := by
  refine ⟨fun called => ?_, fun called => ?_⟩
  all_goals
    have stopped := sound.stopped (by simp [called])
    simp [stopped] at live

theorem Sound.enable (sound : object.Sound) : object.enable.Sound := by
  unfold TimerOrEvent.enable
  split
  · rename_i before
    refine sound.moved rfl rfl (fun _ => ?_) sound.starts
    simp [before]
  · exact sound

theorem Sound.expire (sound : object.Sound) (events : Int16) : (object.expire events).Sound := by
  unfold TimerOrEvent.expire
  split
  · rename_i armed
    refine sound.moved rfl ?_ (fun _ => sound.early (Or.inl armed.1)) sound.starts
    rw [references, references, armed.2]
    rfl
  · exact sound

theorem Sound.runEventCb (sound : object.Sound) (kind : TimerKind)
    (clean : Clean .eventCb object) : (object.runEventCb kind).Sound := by
  unfold TimerOrEvent.runEventCb
  cases stands : object.eventCb with
  | idle => exact sound
  | add events =>
      refine sound.moved rfl ?_ (fun _ => sound.early (by simp [stands])) sound.starts
      rw [references, references, stands]
      rfl
  | check events =>
      refine sound.moved rfl ?_ (fun _ => sound.early (by simp [stands])) sound.starts
      rw [references, references, stands]
      simp only
      split <;> rfl
  | increment events =>
      have room := clean events stands
      have grows : (object.mRefCount + 1).toNat = object.mRefCount.toNat + 1 := by
        rw [UInt32.toNat_add]
        exact Nat.mod_eq_of_lt room
      have counts := sound.count
      have early := sound.early (by simp [stands])
      have owner : object.owner = 1 := if_neg early.2
      have unfreed := sound.unfreed (by omega)
      have references : object.references + 1 = TimerOrEvent.references
          { object with mRefCount := object.mRefCount + 1, eventCb := .enqueue events } := by
        rw [TimerOrEvent.references, TimerOrEvent.references, stands]
        simp only [EventCb.references]
        omega
      exact {
        count := by rw [← references]; simp only [grows, counts]; rfl
        freed := by rw [← references, if_neg (by omega)]; exact unfreed
        stopped := fun called => absurd called (not_or.mpr early)
        starts := sound.starts
        marked := sound.marked }
  | enqueue events =>
      refine sound.moved rfl ?_ (fun _ => sound.early (by simp [stands])) sound.starts
      simp only [references, stands, List.length_append, List.length_singleton, EventCb.references]

/-- The object after a reference was dropped. -/
theorem Sound.dropped (sound : object.Sound) {after : TimerOrEvent}
    (same : (after.mRefCount, after.freed, after.mEvent, after.eventCb, after.mDestroyed) =
      (object.drop.mRefCount, object.drop.freed, object.mEvent, object.eventCb, object.mDestroyed))
    (left : object.owner + object.references = after.owner + after.references + 1)
    (stopped : after.destroyCall = .decrement ∨ after.destroyCall = .returned →
      object.destroyCall = .decrement ∨ object.destroyCall = .returned)
    (starts : ∀ data, after.queueCb = .mCb data → object.mDestroyed = false)
    (marked : after.destroyCall ≠ .mark ↔ object.destroyCall ≠ .mark) : after.Sound := by
  simp only [Prod.mk.injEq] at same
  obtain ⟨count, freed, armed, stands, marked'⟩ := same
  have spec := drop_spec (sound.count.trans left)
  have unfreed := sound.unfreed (by omega)
  exact {
    count := by rw [count, spec.1]
    freed := by rw [freed, spec.2, unfreed, Nat.zero_add]
    stopped := fun called => by rw [armed, stands]; exact sound.stopped (stopped called)
    starts := fun data next => marked'.trans (starts data next)
    marked := by rw [marked', sound.marked, marked] }

theorem Sound.dispatch (sound : object.Sound) : object.dispatch.Sound := by
  unfold TimerOrEvent.dispatch
  cases stands : object.queueCb with
  | idle =>
      cases waiting : object.items with
      | nil => exact sound
      | cons data rest =>
          refine sound.moved rfl ?_ sound.early (fun _ next => by cases next)
          simp only [references, stands, waiting, List.length_cons, QueueCb.references]
          omega
  | check data =>
      refine sound.moved rfl ?_ sound.early ?_
      · simp only [references, stands]
        split <;> rfl
      · intro data' next
        simp only at next
        split at next
        · rename_i lives
          exact (Bool.not_eq_true' _).mp lives
        · cases next
  | mCb data =>
      refine sound.moved rfl ?_ sound.early (fun _ next => by cases next)
      rw [references, references, stands]
      rfl
  | inside =>
      refine sound.moved rfl ?_ sound.early (fun _ next => by cases next)
      rw [references, references, stands]
      rfl
  | decrement =>
      refine sound.dropped rfl ?_ id (fun _ next => by cases next) Iff.rfl
      simp only [references, stands, QueueCb.references, owner, drop]
      omega

theorem Sound.destroy (sound : object.Sound) (clean : Clean .destroy object) :
    object.destroy.Sound := by
  unfold TimerOrEvent.destroy
  cases stands : object.destroyCall with
  | mark =>
      have owner : object.owner = 1 := if_neg (by simp [stands])
      exact {
        count := by rw [sound.count, owner]; rfl
        freed := by rw [sound.freed, owner]; rfl
        stopped := fun called => by cases called <;> contradiction
        starts := fun data next => absurd next (clean stands data)
        marked := by simp }
  | delete =>
      simp only
      split
      · rename_i idle
        have owner : object.owner = 1 := if_neg (by simp [stands])
        exact {
          count := by rw [sound.count, owner]; rfl
          freed := by rw [sound.freed, owner]; rfl
          stopped := fun _ => ⟨rfl, idle⟩
          starts := sound.starts
          marked := by rw [sound.marked, stands]; simp }
      · exact sound
  | decrement =>
      refine sound.dropped rfl ?_ (fun _ => Or.inl stands) sound.starts (by simp [stands])
      have here : object.owner = 1 := if_neg (by simp [stands])
      rw [here, Nat.add_comm]
      exact congrArg (· + 1) (Nat.zero_add _).symm
  | returned => exact sound

theorem Sound.step (sound : object.Sound) (kind : TimerKind) (action : Action)
    (clean : Clean action object) : (step kind action object).Sound := by
  cases action with
  | enable => exact sound.enable
  | expire events => exact sound.expire events
  | eventCb => exact sound.runEventCb kind clean
  | dispatch => exact sound.dispatch
  | destroy => exact sound.destroy clean

/-- A step keeps what destroy is to be safe for exactly when it is clean. -/
theorem kept_iff (sound : object.Sound) (kind : TimerKind) (action : Action) :
    (step kind action object).Kept ↔ Clean action object := by
  refine ⟨fun kept => ?_, fun clean => (sound.step kind action clean).toKept⟩
  cases action with
  | eventCb =>
      intro events stands
      by_contra full
      have wrapped : object.mRefCount + 1 = 0 := by
        rw [← UInt32.toNat_inj, UInt32.toNat_add]
        have bound := object.mRefCount.toNat_lt
        simp only [UInt32.size] at full
        simp
        omega
      have count := kept.count
      simp only [step, runEventCb, stands, wrapped, references, EventCb.references] at count
      simp at count
      omega
  | destroy =>
      intro stands data next
      have starts := kept.starts data
      simp only [step, TimerOrEvent.destroy, stands] at starts
      exact absurd (starts next) (by simp)
  | _ => trivial

end Steps

/-- In every order of expirations, dispatches and destroy, the count is right, the object is
freed once and no callback comes after destroy exactly when every step is clean. -/
theorem run_destroyed_iff (kind : TimerKind) (enabled : Bool) (actions : List Action) :
    TotalStep.Along (step kind) (fun action object => (step kind action object).Kept) actions
        (create enabled) ↔
      TotalStep.Along (step kind) Clean actions (create enabled) :=
  TotalStep.along_iff Sound
    (fun action _ sound kept => sound.step kind action ((kept_iff sound kind action).mp kept))
    (fun action _ sound => kept_iff sound kind action) actions (create_sound enabled)

/-- Destroy comes and returns between the test and the call, and the callback starts then. -/
theorem run_starts_late : ∃ actions : List Action,
    (TotalStep.run (step .timer) actions (create true)).destroyCall = .returned ∧
    (TotalStep.run (step .timer) actions (create true)).queueCb = .mCb none ∧
    ¬ TotalStep.Along (step .timer) (fun action object => (step .timer action object).Kept) actions
      (create true) := by
  refine ⟨[.expire 1, .eventCb, .eventCb, .eventCb, .eventCb, .dispatch, .dispatch, .destroy,
    .destroy, .destroy], rfl, rfl, ?_⟩
  rintro ⟨_, _, _, _, _, _, _, kept, _⟩
  exact absurd (kept.starts none rfl) (by decide)

end TimerOrEvent

end Sbf
