import Sbf.TcpListenerCounts

set_option autoImplicit false

namespace Sbf

/-- The connection is not closed and freed any more: it was not accepted, and the user destroys
it, or the listener is destroyed before its accept callback. -/
def TcpConnection.Flawed (destroyed : Bool) (tc : TcpConnection) : Prop :=
  tc.accepted = false ∧ (tc.destroyCall ≠ .uncalled ∨ tc.handed = false ∧ destroyed = true)

namespace TcpConnection

variable {tc : TcpConnection} {refs waiting : Nat} {destroyed : Bool}

/-- Flaws are told by three fields. -/
theorem flawed_same {tc' : TcpConnection} (accepted : tc'.accepted = tc.accepted)
    (called : tc'.destroyCall = tc.destroyCall) (handed : tc'.handed = tc.handed) :
    tc'.Flawed destroyed ↔ tc.Flawed destroyed := by
  rw [Flawed, Flawed, accepted, called, handed]

theorem flawed_accept (success : Bool) :
    (tc.accept success).Flawed destroyed ↔ tc.Flawed destroyed := by
  unfold accept
  split
  case isFalse => exact Iff.rfl
  case isTrue fresh =>
    obtain ⟨handed, raw, uncalled⟩ := fresh
    simp [Flawed, handed, uncalled]

theorem flawed_readDone : tc.readDone.Flawed destroyed ↔ tc.Flawed destroyed := by
  unfold readDone
  split
  · exact flawed_same rfl rfl rfl
  · exact flawed_same rfl rfl rfl

/-- The user destroys a connection that was not accepted. -/
theorem flawed_destroy : tc.destroy.Flawed destroyed ↔ tc.Flawed destroyed ∨
    ¬ (tc.handed = true → tc.destroyCall = .uncalled → tc.accepted = true) := by
  unfold TcpConnection.destroy
  cases called : tc.destroyCall with
  | returned => simp
  | closed => simp [Flawed, TcpConnection.drop, called]
  | uncalled =>
      cases handed : tc.handed with
      | false => simp
      | true => simp [Flawed, handed, called]

end TcpConnection

namespace TcpNetwork

def Flawed (net : TcpNetwork) : Prop :=
  ∃ number tc, net.connections number = some tc ∧ tc.Flawed net.listener.mDestroyed

variable {net : TcpNetwork} {number : Nat} {tc tc' : TcpConnection} {item : TcpItem}

variable (after : TcpNetwork) in
/-- A connection changes with its flaws, or is new. -/
theorem flawed_update (more : Prop)
    (connections : after.connections = Function.update net.connections number (some tc'))
    (destroyed : after.listener.mDestroyed = net.listener.mDestroyed)
    (own : tc'.Flawed net.listener.mDestroyed ↔
      (∃ tc, net.connections number = some tc ∧ tc.Flawed net.listener.mDestroyed) ∨ more) :
    after.Flawed ↔ net.Flawed ∨ more := by
  unfold Flawed
  rw [connections, destroyed]
  constructor
  · rintro ⟨other, tc, found, flawed⟩
    by_cases same : other = number
    · subst same
      rw [Function.update_self, Option.some.injEq] at found
      subst found
      exact (own.mp flawed).imp_left (fun old => ⟨other, old⟩)
    · rw [Function.update_of_ne same] at found
      exact .inl ⟨other, tc, found, flawed⟩
  · rintro (⟨other, tc, found, flawed⟩ | new)
    · by_cases same : other = number
      · subst same
        exact ⟨other, tc', Function.update_self .., own.mpr (.inl ⟨tc, found, flawed⟩)⟩
      · exact ⟨other, tc, by rwa [Function.update_of_ne same], flawed⟩
    · exact ⟨number, tc', Function.update_self .., own.mpr (.inr new)⟩

variable (after : TcpNetwork) in
/-- A connection changes, and its flaws stay. -/
theorem flawed_update_same (found : net.connections number = some tc)
    (connections : after.connections = Function.update net.connections number (some tc'))
    (destroyed : after.listener.mDestroyed = net.listener.mDestroyed)
    (own : tc'.Flawed net.listener.mDestroyed ↔ tc.Flawed net.listener.mDestroyed) :
    after.Flawed ↔ net.Flawed := by
  have change := flawed_update after False connections destroyed (by
    rw [found, own]
    simp)
  rwa [or_false] at change

theorem flawed_modify (change : TcpConnection → TcpConnection)
    (own : ∀ tc, (change tc).Flawed net.listener.mDestroyed ↔ tc.Flawed net.listener.mDestroyed) :
    (net.modify number change).Flawed ↔ net.Flawed := by
  cases found : net.connections number with
  | none => rw [modify_none change found]
  | some tc =>
      rw [modify_some change found]
      exact flawed_update_same _ found rfl rfl (own tc)

theorem flawed_destroy :
    (net.destroy number).Flawed ↔ net.Flawed ∨ ¬ Clean (.destroy number) net := by
  unfold destroy Clean
  cases found : net.connections number with
  | none =>
      rw [modify_none _ found]
      simp [found]
  | some tc =>
      rw [modify_some _ found]
      apply flawed_update
      · rfl
      · rfl
      · rw [TcpConnection.flawed_destroy]
        simp [found]

/-- A connection comes in. -/
theorem flawed_listenerEventCb (sound : net.Sound) :
    net.listenerEventCb.Flawed ↔ net.Flawed ∨ ¬ Clean .listenerEventCb net := by
  unfold listenerEventCb Clean
  cases listening : net.listener.mListener with
  | false => simp [listening]
  | true =>
      have absent := sound.unmade net.made (Nat.le_refl _)
      apply flawed_update
      · rfl
      · rfl
      · simp [absent, listening, TcpConnection.Flawed, TcpConnection.wrap]

/-- A connection waits for its accept callback when it was not freed and not handed to the user. -/
theorem waiting_iff (sound : net.Sound) (listening : net.listener.mDestroyed = false)
    (found : net.connections number = some tc) :
    .accept number ∈ net.items ↔ tc.handed = false := by
  have own := sound.connections number tc found
  rw [← List.count_pos_iff]
  show 0 < net.waiting number ↔ tc.handed = false
  constructor
  · intro waits
    cases handed : tc.handed with
    | false => rfl
    | true =>
        have taken := own.taken handed
        omega
  · intro unhanded
    have once := (own.unhanded unhanded).2.2
    by_contra none
    have lost := sound.lost number tc found unhanded (by omega)
    exact absurd (listening.symm.trans lost) Bool.false_ne_true

theorem flawed_destroyListener (sound : net.Sound) :
    net.destroyListener.Flawed ↔ net.Flawed ∨ ¬ Clean .destroyListener net := by
  unfold destroyListener Clean
  cases destroyed : net.listener.mDestroyed with
  | true =>
      cases listening : net.listener.mListener with
      | false => simp [destroyed]
      | true => simp [destroyed, Flawed, TcpListener.drop]
  | false =>
      simp only [Bool.not_false, if_true, Flawed, destroyed]
      constructor
      · rintro ⟨number, tc, found, raw, called | ⟨unhanded, -⟩⟩
        · exact .inl ⟨number, tc, found, raw, .inl called⟩
        · exact .inr (fun clean =>
            clean trivial number ((waiting_iff sound destroyed found).mpr unhanded))
      · rintro (⟨number, tc, found, raw, called | ⟨-, marked⟩⟩ | unclean)
        · exact ⟨number, tc, found, raw, .inl called⟩
        · exact absurd marked Bool.false_ne_true
        · simp only [forall_const, not_forall, not_not] at unclean
          obtain ⟨number, there⟩ := unclean
          obtain ⟨tc, found⟩ := sound.found_of_accept there
          have unhanded := (waiting_iff sound destroyed found).mp there
          have raw := ((sound.connections number tc found).unhanded unhanded).1
          exact ⟨number, tc, found, raw, .inr ⟨unhanded, rfl⟩⟩

theorem flawed_dispatch (sound : net.Sound) : (net.dispatch item).Flawed ↔ net.Flawed := by
  unfold dispatch
  split
  case isFalse => exact Iff.rfl
  case isTrue there =>
    cases item with
    | listenerReady => exact Iff.rfl
    | ready tc => exact Iff.rfl
    | error tc => exact Iff.rfl
    | read tc => exact Iff.rfl
    | accept number =>
        obtain ⟨tc, found⟩ := sound.found_of_accept there
        cases destroyed : net.listener.mDestroyed with
        | false =>
            simp only [Bool.not_false, if_true, modify, found]
            apply flawed_update_same _ found
            · rfl
            · rfl
            · simp [TcpConnection.Flawed, destroyed]
        | true =>
            simp only [Bool.not_true, Bool.false_eq_true, if_false, modify, found]
            exact flawed_update_same _ found rfl rfl (TcpConnection.flawed_same rfl rfl rfl)

theorem flawed_finish : (net.finish item).Flawed ↔ net.Flawed := by
  unfold finish
  split
  case isFalse => exact Iff.rfl
  case isTrue there =>
    cases item with
    | listenerReady => exact Iff.rfl
    | accept number => exact Iff.rfl
    | ready number => exact flawed_modify _ (fun tc => TcpConnection.flawed_same rfl rfl rfl)
    | error number => exact flawed_modify _ (fun tc => TcpConnection.flawed_same rfl rfl rfl)
    | read number => exact flawed_modify _ (fun tc => TcpConnection.flawed_readDone)

theorem flawed_readCb : (net.readCb number).Flawed ↔ net.Flawed := by
  unfold readCb
  cases found : net.connections number with
  | none => exact Iff.rfl
  | some tc =>
      dsimp only
      split
      · exact flawed_update_same _ found rfl rfl (TcpConnection.flawed_same rfl rfl rfl)
      · exact Iff.rfl

theorem flawed_eventCb (connected : Bool) :
    (net.eventCb number connected).Flawed ↔ net.Flawed := by
  unfold eventCb
  cases found : net.connections number with
  | none => exact Iff.rfl
  | some tc =>
      dsimp only
      split
      · exact flawed_update_same _ found rfl rfl (TcpConnection.flawed_same rfl rfl rfl)
      · exact Iff.rfl

/-- A flaw comes with the steps that are not clean, and stays. -/
theorem flawed_step (sound : net.Sound) (action : Action) :
    (step action net).Flawed ↔ net.Flawed ∨ ¬ Clean action net := by
  have kept {after : TcpNetwork} (same : after.Flawed ↔ net.Flawed) :
      after.Flawed ↔ net.Flawed ∨ ¬ True := by simpa using same
  cases action with
  | listenerEventCb => exact flawed_listenerEventCb sound
  | dispatch item => exact kept (flawed_dispatch sound)
  | finish item => exact kept flawed_finish
  | accept number success =>
      exact kept (flawed_modify _ (fun tc => TcpConnection.flawed_accept success))
  | destroy number => exact flawed_destroy
  | readCb number => exact kept flawed_readCb
  | eventCb number connected => exact kept (flawed_eventCb connected)
  | destroyListener => exact flawed_destroyListener sound

section Balance

/-- A connection that the user got and destroyed was closed, and freed if it was accepted. -/
theorem balanced_connection {refs waiting : Nat} (own : tc.Sound refs waiting) (none : refs = 0)
    (handed : tc.handed = true) (returned : tc.destroyCall = .returned) :
    tc.closed = 1 ∧ tc.freed = 1 ↔ tc.accepted = true := by
  have closed := own.closed
  rw [returned] at closed
  have owner : tc.owner = 0 := if_pos returned
  constructor
  · intro balanced
    cases accepted : tc.accepted with
    | true => rfl
    | false =>
        have kept := own.kept handed accepted
        omega
  · intro accepted
    have freed := own.freed accepted
    rw [owner, none] at freed
    exact ⟨closed, freed⟩

theorem balanced_iff (sound : net.Sound) (quiescent : Quiescent net) :
    Balanced net ↔ ¬ net.Flawed := by
  have refs (number : Nat) : net.refs number = 0 := by
    rw [TcpNetwork.refs, quiescent.items, quiescent.running]
    rfl
  have destroyed := sound.listener.marked quiescent.listener
  constructor
  · rintro balanced ⟨number, tc, found, raw, called⟩
    have own := sound.connections number tc found
    have once := balanced.connections number tc found
    cases handed : tc.handed with
    | false =>
        have closed := own.closed
        rw [(own.unhanded handed).2.1] at closed
        exact absurd (closed.symm.trans once.1) Nat.zero_ne_one
    | true =>
        have returned := quiescent.connections number tc found handed
        have accepted := (balanced_connection own (refs number) handed returned).mp once
        exact absurd (raw.symm.trans accepted) Bool.false_ne_true
  · intro flawless
    constructor
    · have freed := sound.listener.freed
      rw [TcpListener.owner, quiescent.listener, listenerRefs, quiescent.items,
        quiescent.running] at freed
      exact freed
    · intro number tc found
      have own := sound.connections number tc found
      cases handed : tc.handed with
      | false =>
          exact absurd ⟨number, tc, found, (own.unhanded handed).1, .inr ⟨handed, destroyed⟩⟩
            flawless
      | true =>
          have returned := quiescent.connections number tc found handed
          cases accepted : tc.accepted with
          | true => exact (balanced_connection own (refs number) handed returned).mpr accepted
          | false =>
              have called : tc.destroyCall ≠ .uncalled := by
                rw [returned]
                decide
              exact absurd ⟨number, tc, found, accepted, .inl called⟩ flawless

end Balance

theorem create_flawless : ¬ create.Flawed := by
  rintro ⟨number, tc, found, -⟩
  exact nomatch found

theorem run_sound (actions : List Action) : (TotalStep.run step actions create).Sound :=
  TotalStep.run_keeps Sound (fun action _ sound => sound.step action) actions create_sound

/-- In every run of connections that come in, callbacks, and calls of the user, until all items
are dispatched and the listener and all connections that the user got are destroyed: every socket
is closed once and everything is freed once just when all steps are clean. -/
theorem run_balanced_iff (actions : List Action)
    (quiescent : Quiescent (TotalStep.run step actions create)) :
    Balanced (TotalStep.run step actions create) ↔
      TotalStep.Along step Clean actions create := by
  rw [balanced_iff (run_sound actions) quiescent]
  exact (TotalStep.along_iff_flawless Sound Flawed (fun action _ sound => sound.step action)
    (fun action _ sound => flawed_step sound action) actions create_sound create_flawless).symm

/-- Only one connection came in. -/
theorem quiescent_of_one (sound : net.Sound) (made : net.made = 1) (items : net.items = [])
    (running : net.running = []) (listener : net.listener.mListener = false)
    (own : ∀ tc, net.connections 0 = some tc → tc.handed = true → tc.destroyCall = .returned) :
    Quiescent net where
  items := items
  running := running
  listener := listener
  connections number tc found := by
    have small := sound.made_of_some found
    have zero : number = 0 := by omega
    exact own tc (zero ▸ found)

/-- A connection is accepted, read from, and destroyed. -/
def served : List Action :=
  [.dispatch .listenerReady, .finish .listenerReady, .listenerEventCb, .dispatch (.accept 0),
    .accept 0 true, .finish (.accept 0), .readCb 0, .dispatch (.read 0), .finish (.read 0),
    .destroy 0, .destroy 0, .destroyListener, .destroyListener]

/-- `sbfTcpListener_destroy` comes before the accept callback. -/
def late : List Action :=
  [.dispatch .listenerReady, .finish .listenerReady, .listenerEventCb, .destroyListener,
    .destroyListener, .dispatch (.accept 0)]

/-- The accept callback calls `sbfTcpConnection_destroy` alone. -/
def rejected : List Action :=
  [.dispatch .listenerReady, .finish .listenerReady, .listenerEventCb, .dispatch (.accept 0),
    .destroy 0, .destroy 0, .finish (.accept 0), .destroyListener, .destroyListener]

theorem run_balanced_iff_served : Balanced (TotalStep.run step served create) ↔
    TotalStep.Along step Clean served create := by
  apply run_balanced_iff
  apply quiescent_of_one (run_sound served) rfl rfl rfl rfl
  intro tc found _
  cases found
  rfl

/-- The connection that comes too late is freed with its socket open, and the count of the one
that is rejected goes from zero to -1. -/
theorem run_unbalanced :
    (Quiescent (TotalStep.run step late create) ∧
      ¬ Balanced (TotalStep.run step late create) ∧
      ((TotalStep.run step late create).connections 0).map (fun tc => (tc.closed, tc.freed)) =
        some (0, 1)) ∧
    (Quiescent (TotalStep.run step rejected create) ∧
      ¬ Balanced (TotalStep.run step rejected create) ∧
      ((TotalStep.run step rejected create).connections 0).map
        (fun tc => (tc.mRefCount, tc.freed)) = some (-1, 0)) := by
  refine ⟨⟨?_, ?_, rfl⟩, ?_, ?_, rfl⟩
  · apply quiescent_of_one (run_sound late) rfl rfl rfl rfl
    intro tc found handed
    cases found
    exact absurd handed Bool.false_ne_true
  · intro balanced
    exact absurd (balanced.connections 0 _ rfl).1 Nat.zero_ne_one
  · apply quiescent_of_one (run_sound rejected) rfl rfl rfl rfl
    intro tc found _
    cases found
    rfl
  · intro balanced
    exact absurd (balanced.connections 0 _ rfl).2 Nat.zero_ne_one

end TcpNetwork

end Sbf
