import Sbf.LogFile

set_option autoImplicit false

namespace Sbf

/-- What is in a slot before the next store of its writer. -/
def LogWriter.Filled (writer : LogWriter) (lfe : LogFileEntry) : Prop :=
  match writer.next with
  | .mNumber => True
  | .mTime => lfe.mNumber = writer.number
  | .mLevel => lfe.mNumber = writer.number ∧ lfe.mTime = writer.content.mTime
  | .mPrefix => lfe.mNumber = writer.number ∧ lfe.mTime = writer.content.mTime ∧
      lfe.mLevel = writer.content.mLevel
  | .mMessage => lfe.mNumber = writer.number ∧ lfe.mTime = writer.content.mTime ∧
      lfe.mLevel = writer.content.mLevel ∧ lfe.mPrefix = writer.content.mPrefix.take 23

/-- A store fills the slot a bit more. -/
theorem LogWriter.store_some {writer after : LogWriter} {lfe stored : LogFileEntry}
    (filled : writer.Filled lfe) (ran : writer.store lfe = (stored, some after)) :
    after.number = writer.number ∧ after.content = writer.content ∧ after.Filled stored := by
  unfold LogWriter.Filled at filled
  unfold LogWriter.store at ran
  cases next : writer.next <;> rw [next] at ran filled <;> cases ran
  · exact ⟨rfl, rfl, rfl⟩
  · exact ⟨rfl, rfl, filled, rfl⟩
  · exact ⟨rfl, rfl, filled.1, filled.2, rfl⟩
  · exact ⟨rfl, rfl, filled.1, filled.2.1, filled.2.2, rfl⟩

/-- The last store makes the entry what was logged. -/
theorem LogWriter.store_none {writer : LogWriter} {lfe stored : LogFileEntry}
    (filled : writer.Filled lfe) (ran : writer.store lfe = (stored, none)) :
    stored.mNumber = writer.number ∧ stored.toLogContent = writer.content.fit := by
  unfold LogWriter.Filled at filled
  unfold LogWriter.store at ran
  cases next : writer.next <;> rw [next] at ran filled <;> cases ran
  obtain ⟨number, time, level, name⟩ := filled
  refine ⟨number, ?_⟩
  simp only [LogContent.fit, ← time, ← level, ← name]

namespace LogFile

theorem slot_lt (number : UInt32) : slot number < logFileEntries := Nat.mod_lt _ (by decide)

/-- Numbers of one slot that are less than a round apart are the same. -/
theorem slot_inj {first second : Nat} (same : first % logFileEntries = second % logFileEntries)
    (le : first < second + logFileEntries) (ge : second < first + logFileEntries) :
    first = second := by
  unfold logFileEntries at *
  omega

/-- The last number of a slot that has been taken. -/
theorem exists_latest {index next : Nat} (small : index < logFileEntries) (taken : index < next) :
    ∃ number, number % logFileEntries = index ∧ number < next ∧ next ≤ number + logFileEntries := by
  unfold logFileEntries at *
  exact ⟨next - 1 - (next - 1 - index) % 200000, by omega, by omega, by omega⟩

/-- A writer stands where its number says. -/
structure Writes (lf : LogFile) (writer : LogWriter) : Prop where
  taken : writer.number.toNat < lf.mNext.toNat
  last : lf.mNext.toNat ≤ writer.number.toNat + logFileEntries
  logged : lf.logged writer.number.toNat = some writer.content.fit
  filled : writer.Filled (lf.mBase (slot writer.number))

structure Sound (lf : LogFile) : Prop where
  writes : ∀ thread writer, lf.writers thread = some writer → lf.Writes writer
  apart : ∀ thread other writer writer', lf.writers thread = some writer →
    lf.writers other = some writer' → slot writer.number = slot writer'.number → thread = other
  done : ∀ number, number < lf.mNext.toNat → lf.mNext.toNat ≤ number + logFileEntries →
    (∀ thread writer, lf.writers thread = some writer → writer.number.toNat ≠ number) →
    (lf.mBase (number % logFileEntries)).mNumber.toNat = number ∧
      lf.logged number = some (lf.mBase (number % logFileEntries)).toLogContent
  untouched : ∀ number, lf.mNext.toNat ≤ number → number < logFileEntries →
    lf.mBase number = .zero
  returned : ∀ lfe ∈ lf.returned, lfe.mNumber < lf.number ∧ lfe.mNumber.toNat < lf.mNext.toNat
  intact : lf.Intact

theorem create_sound (number : UInt32) : (create number).Sound where
  writes := fun _ _ at_work => by cases at_work
  apart := fun _ _ _ _ at_work => by cases at_work
  done := fun _ taken => absurd taken (Nat.not_lt_zero _)
  untouched := fun _ _ _ => rfl
  returned := fun _ member => by cases member
  intact := ⟨List.Pairwise.nil, fun _ member => by cases member⟩

section Steps

variable {lf : LogFile}

theorem Sound.log (sound : lf.Sound) {thread : Nat} {content : LogContent}
    (clean : Clean (.log thread content) lf) (room : lf.mNext.toNat + 1 < 2 ^ 32) :
    (lf.log thread content).Sound := by
  unfold LogFile.log
  split
  · rename_i idle
    have free := clean idle
    have grows : (lf.mNext + 1).toNat = lf.mNext.toNat + 1 := by
      rw [UInt32.toNat_add]
      exact Nat.mod_eq_of_lt room
    have old : ∀ number, number < lf.mNext.toNat →
        Function.update lf.logged lf.mNext.toNat (some content.fit) number = lf.logged number :=
      fun number taken => Function.update_of_ne (Nat.ne_of_lt taken) ..
    refine ⟨?_, ?_, ?_, ?_, ?_, ?_⟩
    · intro other writer at_work
      dsimp only at at_work
      by_cases own : other = thread
      · subst own
        rw [Function.update_self] at at_work
        cases at_work
        exact ⟨grows ▸ Nat.lt_succ_self _, grows ▸ Nat.add_le_add_left (by decide) _,
          Function.update_self .., trivial⟩
      · rw [Function.update_of_ne own] at at_work
        have writes := sound.writes other writer at_work
        have taken := writes.taken
        have last := writes.last
        -- Its slot is not the one that is taken now, so it is not a whole round behind.
        have near : lf.mNext.toNat ≠ writer.number.toNat + logFileEntries := by
          intro round
          refine free other writer at_work ?_
          rw [slot, slot, round, Nat.add_mod_right]
        exact ⟨by dsimp only; rw [grows]; omega, by dsimp only; rw [grows]; omega,
          (old _ taken).trans writes.logged, writes.filled⟩
    · intro first second writer writer' one two same
      dsimp only at one two
      by_cases own : first = thread
      · by_cases own' : second = thread
        · rw [own, own']
        · rw [own, Function.update_self] at one
          rw [Function.update_of_ne own'] at two
          cases one
          exact absurd same.symm (free second writer' two)
      · rw [Function.update_of_ne own] at one
        by_cases own' : second = thread
        · rw [own', Function.update_self] at two
          cases two
          exact absurd same (free first writer one)
        · rw [Function.update_of_ne own'] at two
          exact sound.apart first second writer writer' one two same
    · intro number taken last others
      dsimp only at taken last others ⊢
      rw [grows] at taken last
      have apart : number ≠ lf.mNext.toNat :=
        fun same => others thread _ (Function.update_self ..) same.symm
      have taken' : number < lf.mNext.toNat := by omega
      rw [old number taken']
      refine sound.done number taken' (by omega) (fun other writer at_work => ?_)
      have busy : other ≠ thread := by
        rintro rfl
        rw [idle] at at_work
        cases at_work
      exact others other writer ((Function.update_of_ne busy ..).trans at_work)
    · intro number beyond small
      dsimp only at beyond
      rw [grows] at beyond
      exact sound.untouched number (by omega) small
    · intro lfe member
      have known := sound.returned lfe member
      refine ⟨known.1, ?_⟩
      dsimp only
      rw [grows]
      exact Nat.lt_succ_of_lt known.2
    · refine ⟨sound.intact.ordered, fun lfe member => ?_⟩
      exact (old _ (sound.returned lfe member).2).trans (sound.intact.content lfe member)
  · exact sound

theorem Sound.write (sound : lf.Sound) (thread : Nat) : (lf.write thread).Sound := by
  unfold LogFile.write
  cases at_work : lf.writers thread with
  | none => exact sound
  | some writer =>
      have writes := sound.writes thread writer at_work
      obtain ⟨stored, left, ran⟩ : ∃ stored left,
          writer.store (lf.mBase (slot writer.number)) = (stored, left) := ⟨_, _, rfl⟩
      simp only [ran]
      have others : ∀ other writer', lf.writers other = some writer' → other ≠ thread →
          slot writer'.number ≠ slot writer.number :=
        fun other writer' at_work' apart same =>
          apart (sound.apart other thread writer' writer at_work' at_work same)
      have known : ∀ other writer', Function.update lf.writers thread left other = some writer' →
          ∃ before, lf.writers other = some before ∧ writer'.number = before.number := by
        intro other writer' at_work'
        by_cases own : other = thread
        · subst own
          rw [Function.update_self] at at_work'
          subst at_work'
          exact ⟨writer, at_work, (LogWriter.store_some writes.filled ran).1⟩
        · rw [Function.update_of_ne own] at at_work'
          exact ⟨writer', at_work', rfl⟩
      refine ⟨?_, ?_, ?_, ?_, sound.returned, ⟨sound.intact.ordered, sound.intact.content⟩⟩
      · intro other writer' at_work'
        dsimp only at at_work'
        by_cases own : other = thread
        · subst own
          rw [Function.update_self] at at_work'
          subst at_work'
          obtain ⟨number, content, filled⟩ := LogWriter.store_some writes.filled ran
          refine ⟨number ▸ writes.taken, number ▸ writes.last, ?_, ?_⟩
          · rw [number, content]
            exact writes.logged
          · dsimp only
            rw [number, Function.update_self]
            exact filled
        · rw [Function.update_of_ne own] at at_work'
          have writes' := sound.writes other writer' at_work'
          refine ⟨writes'.taken, writes'.last, writes'.logged, ?_⟩
          dsimp only
          rw [Function.update_of_ne (others other writer' at_work' own)]
          exact writes'.filled
      · intro first second one two at_first at_second same
        obtain ⟨before, at_first, number⟩ := known first one at_first
        obtain ⟨before', at_second, number'⟩ := known second two at_second
        rw [number, number'] at same
        exact sound.apart first second before before' at_first at_second same
      · intro number taken last idle
        dsimp only at taken last idle ⊢
        by_cases here : number % logFileEntries = slot writer.number
        · have near := writes.last
          have taken' := writes.taken
          have same : number = writer.number.toNat := slot_inj here (by omega) (by omega)
          cases left with
          | some after =>
              have busy := idle thread after (Function.update_self ..)
              rw [(LogWriter.store_some writes.filled ran).1] at busy
              exact absurd same.symm busy
          | none =>
              obtain ⟨of_number, content⟩ := LogWriter.store_none writes.filled ran
              rw [here, Function.update_self, of_number, content, same]
              exact ⟨rfl, writes.logged⟩
        · rw [Function.update_of_ne here]
          refine sound.done number taken last (fun other writer' at_work' => ?_)
          by_cases own : other = thread
          · subst own
            rw [at_work] at at_work'
            cases at_work'
            rintro rfl
            exact here rfl
          · exact idle other writer' ((Function.update_of_ne own ..).trans at_work')
      · intro number beyond small
        dsimp only at beyond ⊢
        have taken := writes.taken
        have elsewhere : number ≠ slot writer.number := by
          intro same
          rw [slot, Nat.mod_eq_of_lt (by omega)] at same
          omega
        rw [Function.update_of_ne elsewhere]
        exact sound.untouched number beyond small

/-- An entry that is let through where nobody writes, and before the ring has gone round, is the
one with the reader's number. -/
theorem Sound.passes (sound : lf.Sound) (passes : lf.Passes) (free : lf.Free lf.number)
    (near : lf.mNext.toNat ≤ lf.number.toNat + logFileEntries) :
    (lf.mBase (slot lf.number)).mNumber = lf.number ∧ lf.number.toNat < lf.mNext.toNat ∧
      lf.logged lf.number.toNat = some (lf.mBase (slot lf.number)).toLogContent := by
  have taken : slot lf.number < lf.mNext.toNat := by
    by_contra beyond
    have zero := sound.untouched _ (Nat.le_of_not_lt beyond) (slot_lt lf.number)
    exact passes (.inl (by rw [zero]; rfl))
  obtain ⟨number, here, taken, last⟩ := exists_latest (slot_lt lf.number) taken
  have entry := sound.done number taken last (fun thread writer at_work same => by
    refine free thread writer at_work ?_
    rw [slot, same, here])
  rw [here] at entry
  have reached : lf.number.toNat ≤ number := by
    have least := (not_or.mp passes).2
    rw [UInt32.not_lt, UInt32.le_iff_toNat_le, entry.1] at least
    exact least
  have same : number = lf.number.toNat := slot_inj here (by omega) (by omega)
  subst same
  exact ⟨UInt32.toNat_inj.mp entry.1, taken, entry.2⟩

theorem Sound.read (sound : lf.Sound) (clean : Clean .read lf) : lf.read.Sound := by
  unfold LogFile.read
  split
  · rename_i passes
    obtain ⟨free, near⟩ := clean passes
    obtain ⟨own, taken, content⟩ := sound.passes passes free near
    have bound := lf.mNext.toNat_lt
    have grows : lf.number < lf.number + 1 := by
      rw [UInt32.lt_iff_toNat_lt, UInt32.toNat_add, Nat.mod_eq_of_lt (by simp; omega)]
      exact Nat.lt_succ_self _
    have writes : ∀ thread writer, lf.writers thread = some writer → Writes { lf with
        number := lf.number + 1, returned := lf.returned ++ [lf.mBase (slot lf.number)] } writer :=
      fun thread writer at_work =>
        have known := sound.writes thread writer at_work
        ⟨known.taken, known.last, known.logged, known.filled⟩
    refine ⟨writes, sound.apart, sound.done, sound.untouched, ?_, ?_, ?_⟩
    · intro lfe member
      rcases List.mem_append.mp member with old | new
      · have known := sound.returned lfe old
        exact ⟨UInt32.lt_trans known.1 grows, known.2⟩
      · obtain rfl := List.mem_singleton.mp new
        rw [own]
        exact ⟨grows, taken⟩
    · refine List.pairwise_append.mpr ⟨sound.intact.ordered, List.pairwise_singleton _ _, ?_⟩
      intro first member second new
      obtain rfl := List.mem_singleton.mp new
      rw [own]
      exact (sound.returned first member).1
    · intro lfe member
      rcases List.mem_append.mp member with old | new
      · exact sound.intact.content lfe old
      · obtain rfl := List.mem_singleton.mp new
        rw [own]
        exact content
  · exact sound

theorem Sound.step (sound : lf.Sound) (action : Action) (clean : Clean action lf)
    (room : action.logs = true → lf.mNext.toNat + 1 < 2 ^ 32) : (step action lf).Sound := by
  cases action with
  | log thread content => exact sound.log clean (room rfl)
  | write thread => exact sound.write thread
  | read => exact sound.read clean

end Steps

/-- With fewer than 2 ^ 32 entries the numbers do not wrap. -/
theorem along_room (actions : List Action) {lf : LogFile}
    (few : lf.mNext.toNat + actions.countP Action.logs < 2 ^ 32) :
    TotalStep.Along step (fun action lf => action.logs = true → lf.mNext.toNat + 1 < 2 ^ 32)
      actions lf := by
  induction actions generalizing lf with
  | nil => trivial
  | cons action rest ih =>
      rw [List.countP_cons] at few
      cases action with
      | log thread content =>
          simp only [Action.logs, if_true] at few
          refine ⟨fun _ => by omega, ih (Nat.lt_of_le_of_lt ?_ few)⟩
          have grows : (lf.mNext + 1).toNat = lf.mNext.toNat + 1 := by
            rw [UInt32.toNat_add]
            exact Nat.mod_eq_of_lt (by simp; omega)
          simp only [step, log]
          split
          · rw [grows]
            omega
          · omega
      | write thread =>
          refine ⟨(fun logs => by cases logs), ih (Nat.lt_of_le_of_lt ?_ few)⟩
          simp only [step, write]
          split <;> exact Nat.add_le_add_left (Nat.le_add_right _ _) _
      | read =>
          refine ⟨(fun logs => by cases logs), ih (Nat.lt_of_le_of_lt ?_ few)⟩
          simp only [step, read]
          split <;> exact Nat.add_le_add_left (Nat.le_add_right _ _) _

theorem run_sound {actions : List Action} {lf : LogFile} (sound : lf.Sound)
    (few : lf.mNext.toNat + actions.countP Action.logs < 2 ^ 32)
    (clean : TotalStep.Along step Clean actions lf) : (TotalStep.run step actions lf).Sound :=
  ((TotalStep.along_and actions lf).mpr ⟨clean, along_room actions few⟩).keeps Sound
    (fun action _ sound both => sound.step action both.1 both.2) sound

/-- Of fewer than 2 ^ 32 entries a reader gets those that it gets in order and intact, when no
slot is taken or read that a writer is at work in and the ring never goes round past the
reader. -/
theorem run_intact (number : UInt32) (actions : List Action)
    (few : actions.countP Action.logs < 2 ^ 32)
    (clean : TotalStep.Along step Clean actions (create number)) :
    (TotalStep.run step actions (create number)).Intact :=
  (run_sound (create_sound number) (by simpa [create] using few) clean).intact

/-- An entry with a message of one letter. -/
def letter : LogContent := ⟨⟨1, 0⟩, 1, [], [120]⟩

/-- One call of `sbfLog_vlog` from its start to its end. -/
def round : List Action := .log 0 letter :: List.replicate 5 (.write 0)

/-- What is different when a call has returned. -/
structure Logged (before after : LogFile) : Prop where
  idle : ∀ thread, after.writers thread = none
  mNext : after.mNext = before.mNext + 1
  logged : after.logged = Function.update before.logged before.mNext.toNat (some letter.fit)
  number : after.number = before.number
  returned : after.returned = before.returned

theorem run_round (lf : LogFile) (idle : ∀ thread, lf.writers thread = none) :
    Logged lf (TotalStep.run step round lf) ∧ TotalStep.Along step Clean round lf := by
  have start : log 0 letter lf = { lf with
      mNext := lf.mNext + 1
      writers := Function.update lf.writers 0 (some ⟨lf.mNext, letter, .mNumber⟩)
      logged := Function.update lf.logged lf.mNext.toNat (some letter.fit) } := if_pos (idle 0)
  constructor
  · simp only [round, List.replicate, TotalStep.run_cons, TotalStep.run_nil, step, start, write,
      Function.update_self, LogWriter.store, Function.update_idem]
    refine ⟨fun thread => ?_, rfl, rfl, rfl, rfl⟩
    dsimp only
    by_cases own : thread = 0
    · rw [own, Function.update_self]
    · rw [Function.update_of_ne own, idle]
  · refine ⟨fun _ thread writer at_work => ?_, trivial, trivial, trivial, trivial, trivial, trivial⟩
    rw [idle] at at_work
    cases at_work

/-- Any number of calls, one after the other. -/
theorem run_rounds (rounds : Nat) (few : rounds < 2 ^ 32) :
    ∃ actions, TotalStep.Along step Clean actions (create 0) ∧
      actions.countP Action.logs = rounds ∧
      (∀ thread, (TotalStep.run step actions (create 0)).writers thread = none) ∧
      (TotalStep.run step actions (create 0)).mNext.toNat = rounds ∧
      (∀ number < rounds, (TotalStep.run step actions (create 0)).logged number =
        some letter.fit) ∧
      (TotalStep.run step actions (create 0)).number = 0 ∧
      (TotalStep.run step actions (create 0)).returned = [] := by
  induction rounds with
  | zero => exact ⟨[], trivial, rfl, fun _ => rfl, rfl, fun _ none_ => absurd none_ (Nat.not_lt_zero _),
      rfl, rfl⟩
  | succ rounds ih =>
      obtain ⟨actions, clean, count, idle, mNext, logged, number, returned⟩ := ih (by omega)
      obtain ⟨after, clean'⟩ := run_round _ idle
      have grows : (TotalStep.run step (actions ++ round) (create 0)).mNext.toNat = rounds + 1 := by
        rw [TotalStep.run_append, after.mNext, UInt32.toNat_add, mNext]
        exact Nat.mod_eq_of_lt few
      refine ⟨actions ++ round, (TotalStep.along_append ..).mpr ⟨clean, clean'⟩, ?_, ?_, grows, ?_,
        ?_, ?_⟩
      · rw [List.countP_append, count]
        rfl
      · rw [TotalStep.run_append]
        exact after.idle
      · intro number small
        rw [TotalStep.run_append, after.logged, mNext]
        by_cases last : number = rounds
        · rw [last, Function.update_self]
        · rw [Function.update_of_ne last]
          exact logged number (by omega)
      · rw [TotalStep.run_append, after.number, number]
      · rw [TotalStep.run_append, after.returned, returned]

/-- Two entries are read after a call and another one. -/
def twoRounds : List Action := round ++ round ++ [.read, .read]

theorem run_intact_twoRounds : (TotalStep.run step twoRounds (create 0)).Intact ∧
    (TotalStep.run step twoRounds (create 0)).returned.map (fun lfe => (lfe.mNumber, lfe.toLogContent)) =
      [(0, letter.fit), (1, letter.fit)] := by
  have first := run_round (create 0) (fun _ => rfl)
  have second := run_round _ first.1.idle
  have free (number : UInt32) :
      (TotalStep.run step round (TotalStep.run step round (create 0))).Free number := by
    intro thread writer at_work
    rw [second.1.idle] at at_work
    cases at_work
  refine ⟨run_intact 0 twoRounds (by decide) ?_, rfl⟩
  refine (TotalStep.along_append ..).mpr ⟨(TotalStep.along_append ..).mpr ⟨first.2, second.2⟩, ?_⟩
  rw [TotalStep.run_append]
  refine ⟨fun _ => ⟨free _, by decide⟩, fun _ => ⟨fun thread writer at_work => ?_, by decide⟩,
    trivial⟩
  refine free 1 thread writer ?_
  rw [← at_work]
  simp only [step, read]
  split <;> rfl

theorem read_letter (lf : LogFile)
    (content : letter.fit = (lf.mBase (slot lf.number)).toLogContent)
    (reached : lf.number.toNat ≤ (lf.mBase (slot lf.number)).mNumber.toNat) :
    lf.read = { lf with
      number := lf.number + 1
      returned := lf.returned ++ [lf.mBase (slot lf.number)] } := by
  refine if_pos (not_or.mpr ⟨?_, UInt32.not_lt.mpr (UInt32.le_iff_toNat_le.mpr reached)⟩)
  rw [← content]
  decide

/-- A reader gets an entry that has no message yet. And when the ring has gone round by one, it
gets the number 200000 first and then the number 1. -/
theorem run_breaks :
    ¬ (TotalStep.run step [.log 0 letter, .write 0, .write 0, .read] (create 0)).Intact ∧
    ∃ actions, actions.countP Action.logs < 2 ^ 32 ∧
      ¬ (TotalStep.run step (actions ++ [.read, .read]) (create 0)).Intact := by
  constructor
  · intro intact
    have content := intact.content _ (List.mem_singleton_self _)
    exact absurd content (by decide)
  · obtain ⟨actions, clean, count, idle, mNext, logged, number, returned⟩ :=
      run_rounds (logFileEntries + 1) (by decide)
    have sound : (TotalStep.run step actions (create 0)).Sound :=
      run_sound (create_sound 0) (by rw [count]; decide) clean
    refine ⟨actions, by rw [count]; decide, fun intact => ?_⟩
    rw [TotalStep.run_append] at intact
    generalize TotalStep.run step actions (create 0) = lf at *
    have lapped := sound.done logFileEntries (by omega) (by rw [mNext]; decide)
      (fun thread writer at_work => by rw [idle] at at_work; cases at_work)
    have lagging := sound.done 1 (by rw [mNext]; decide) (by omega)
      (fun thread writer at_work => by rw [idle] at at_work; cases at_work)
    rw [Nat.mod_self, logged _ (Nat.lt_succ_self _), Option.some.injEq] at lapped
    rw [show 1 % logFileEntries = 1 from rfl, logged _ (by decide), Option.some.injEq] at lagging
    have first : lf.read = { lf with number := 1, returned := [lf.mBase 0] } := by
      have ran := read_letter lf (by rw [number]; exact lapped.2)
        (by rw [number]; exact Nat.zero_le _)
      rw [ran, number, returned]
      rfl
    have second : lf.read.read =
        { lf with number := 2, returned := [lf.mBase 0, lf.mBase 1] } := by
      rw [first]
      exact read_letter _ lagging.2 (Nat.le_of_eq lagging.1.symm)
    have ordered := intact.ordered
    change lf.read.read.returned.Pairwise _ at ordered
    rw [second] at ordered
    have less := List.pairwise_pair.mp ordered
    rw [UInt32.lt_iff_toNat_lt, lapped.1, lagging.1] at less
    exact absurd less (by decide)

end LogFile

end Sbf
