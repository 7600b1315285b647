import Sbf.Octets
import Sbf.TotalSteps

set_option autoImplicit false

/-! What a TCP connection reads: the bufferevent and its input on the event thread, the callbacks
that are enqueued from there, and the user's callbacks on the thread of the queue. -/

namespace Sbf

open Octets

/-- The callbacks of a connection that are enqueued. -/
inductive TcpCallback where
  | ready
  | read
  | error
deriving DecidableEq, Repr

/-- `struct sbfTcpConnectionImpl`, with `EV_READ` of its bufferevent and the input that it holds,
the bytes of the peer that have not been read from the socket, and what is in the queue.
`reading` is what the running read callback was given. The last four are history: the calls of
`mReadCb` with what they were given and used, how often `mErrorCb` was called, whether the end of
the stream was reported, and whether any failure was since `EV_READ` was last enabled. -/
structure TcpStream where
  mDestroyed : Bool
  mQueued : Bool
  connecting : Bool
  enabled : Bool
  input : Bytes
  network : Bytes
  items : List TcpCallback
  reading : Option Bytes
  reads : List (Bytes × Nat)
  errors : Nat
  ended : Bool
  failed : Bool
deriving DecidableEq

/-- What the bufferevent reports. -/
inductive TcpEvent where
  | connected
  | eof
  | readError
  | writeError
deriving DecidableEq, Repr

namespace TcpStream

/-- `sbfTcpConnection_create`, while it connects. -/
def create (sent : Bytes) : TcpStream :=
  ⟨false, false, true, false, [], sent, [], none, [], 0, false, false⟩

/-- `sbfTcpConnection_accept` -/
def accept (sent : Bytes) : TcpStream :=
  ⟨false, false, false, true, [], sent, [], none, [], 0, false, false⟩

/-- `sbfTcpConnectionEventReadCb` -/
def eventReadCb (tc : TcpStream) : TcpStream :=
  if tc.mQueued then tc
  else { tc with mQueued := true, enabled := false, items := tc.items ++ [.read] }

/-- Bytes come in, and the bufferevent calls back. -/
def arrive (count : Nat) (tc : TcpStream) : TcpStream :=
  if tc.mDestroyed = false ∧ tc.enabled = true ∧ 0 < count ∧ count ≤ tc.network.length then
    { tc with
      input := tc.input ++ tc.network.take count
      network := tc.network.drop count }.eventReadCb
  else tc

/-- `sbfTcpConnectionEventEventCb`, with what the bufferevent does before it calls back: at the
end of the stream and at a failed read it disables reading. -/
def eventEventCb (event : TcpEvent) (tc : TcpStream) : TcpStream :=
  if tc.mDestroyed then tc
  else
    match event with
    | .connected =>
        if tc.connecting then
          { tc with connecting := false, enabled := true, items := tc.items ++ [.ready] }
        else tc
    | .eof =>
        if tc.enabled = true ∧ tc.network = [] then
          { tc with enabled := false, ended := true, failed := true, items := tc.items ++ [.error] }
        else tc
    | .readError =>
        if tc.enabled then
          { tc with enabled := false, failed := true, items := tc.items ++ [.error] }
        else tc
    | .writeError =>
        { tc with
          connecting := false
          failed := tc.failed || tc.connecting
          items := tc.items ++ [.error] }

/-- The next item is taken from the queue: `sbfTcpConnectionReadyQueueCb`,
`sbfTcpConnectionErrorQueueCb`, or `sbfTcpConnectionReadQueueCb` up to the call of `mReadCb`. -/
def dispatch (tc : TcpStream) : TcpStream :=
  match tc.reading, tc.items with
  | none, .ready :: rest => { tc with items := rest }
  | none, .error :: rest =>
      { tc with items := rest, errors := if tc.mDestroyed then tc.errors else tc.errors + 1 }
  | none, .read :: rest =>
      { tc with items := rest, reading := some (if tc.mDestroyed then [] else tc.input) }
  | _, _ => tc

/-- `mReadCb` returns how much it used; the rest of `sbfTcpConnectionReadQueueCb`. -/
def finish (used : Nat) (tc : TcpStream) : TcpStream :=
  match tc.reading with
  | none => tc
  | some given =>
      if tc.mDestroyed then { tc with reading := none }
      else if given = [] then
        { tc with reading := none, mQueued := false, enabled := true, failed := false }
      else
        { tc with
          reading := none
          input := tc.input.drop used
          reads := tc.reads ++ [(given, used)]
          mQueued := false
          enabled := true
          failed := false }

/-- `sbfTcpConnection_destroy` -/
def destroy (tc : TcpStream) : TcpStream := { tc with mDestroyed := true, enabled := false }

inductive Action where
  | arrive (count : Nat)
  | event (event : TcpEvent)
  | dispatch
  | finish (used : Nat)
  | destroy
deriving DecidableEq, Repr

def step : Action → TcpStream → TcpStream
  | .arrive count => arrive count
  | .event event => eventEventCb event
  | .dispatch => dispatch
  | .finish used => finish used
  | .destroy => destroy

/-- What the callbacks have used. -/
def used (reads : List (Bytes × Nat)) : Bytes :=
  (reads.map (fun read => read.1.take read.2)).flatten

/-- What the last callback did not use. -/
def left (start : Bytes) (reads : List (Bytes × Nat)) : Bytes :=
  reads.foldl (fun _ read => read.1.drop read.2) start

/-- Each callback is given what the one before it did not use, with at least a byte more. -/
def Follows : Bytes → List (Bytes × Nat) → Prop
  | _, [] => True
  | start, read :: rest =>
      (∃ more, more ≠ [] ∧ read.1 = start ++ more) ∧ Follows (read.1.drop read.2) rest

theorem used_append (reads : List (Bytes × Nat)) (given : Bytes) (count : Nat) :
    used (reads ++ [(given, count)]) = used reads ++ given.take count := by
  simp [used]

theorem left_append (start : Bytes) (reads : List (Bytes × Nat)) (given : Bytes) (count : Nat) :
    left start (reads ++ [(given, count)]) = given.drop count := by
  simp [left]

theorem follows_append {start given : Bytes} {reads : List (Bytes × Nat)} {count : Nat} :
    Follows start (reads ++ [(given, count)]) ↔
      Follows start reads ∧ ∃ more, more ≠ [] ∧ given = left start reads ++ more := by
  induction reads generalizing start with
  | nil => simp [Follows, left]
  | cons read rest ih =>
      rw [List.cons_append, Follows, Follows, ih, and_assoc]
      rfl

/-- A connection that is not destroyed: a callback is under way exactly when `mQueued` is set, and
then there are bytes that no callback was given; else reading goes on, but for a failure. -/
structure Live (tc : TcpStream) : Prop where
  pending : tc.items.count .read + (if tc.reading.isSome then 1 else 0) =
    if tc.mQueued then 1 else 0
  given : ∀ given, tc.reading = some given → given = tc.input
  seen : tc.mQueued = false → tc.input = left [] tc.reads
  unseen : tc.mQueued = true → ∃ more, more ≠ [] ∧ tc.input = left [] tc.reads ++ more
  quiet : tc.enabled = true ∨ tc.connecting = true → tc.mQueued = false
  awake : tc.connecting = false → tc.failed = false → tc.mQueued = false → tc.enabled = true
  apart : tc.connecting = true → tc.enabled = false

/-- What holds of a connection whose peer sends these bytes. -/
structure Sound (sent : Bytes) (tc : TcpStream) : Prop where
  bytes : used tc.reads ++ tc.input ++ tc.network = sent
  follows : Follows [] tc.reads
  ended : tc.ended = true → tc.network = [] ∧ tc.input = left [] tc.reads ∧
    tc.mQueued = false ∧ tc.enabled = false ∧ tc.connecting = false
  live : tc.mDestroyed = false → tc.Live

variable {sent : Bytes} {tc : TcpStream}

/-- While nothing is under way there is no item and no callback. -/
theorem Live.idle (live : tc.Live) (idle : tc.mQueued = false) :
    tc.items.count .read = 0 ∧ tc.reading = none := by
  have pending := live.pending
  rw [idle] at pending
  cases running : tc.reading with
  | none =>
      rw [running] at pending
      exact ⟨by simpa using pending, rfl⟩
  | some given =>
      rw [running] at pending
      simp at pending

/-- While a callback runs it is the only one. -/
theorem Live.running (live : tc.Live) {given : Bytes} (running : tc.reading = some given) :
    tc.mQueued = true ∧ tc.items.count .read = 0 := by
  have pending := live.pending
  rw [running] at pending
  cases queued : tc.mQueued with
  | false =>
      rw [queued] at pending
      simp at pending
  | true =>
      rw [queued] at pending
      exact ⟨rfl, by simpa using pending⟩

theorem create_sound (sent : Bytes) : (create sent).Sound sent where
  bytes := rfl
  follows := trivial
  ended := fun ended => by cases ended
  live := fun _ => by constructor <;> simp [create, left]

theorem accept_sound (sent : Bytes) : (accept sent).Sound sent where
  bytes := rfl
  follows := trivial
  ended := fun ended => by cases ended
  live := fun _ => by constructor <;> simp [accept, left]

namespace Sound

theorem arrive (sound : tc.Sound sent) (count : Nat) : (tc.arrive count).Sound sent := by
  rw [TcpStream.arrive]
  split
  case isFalse => exact sound
  case isTrue taken =>
    obtain ⟨alive, enabled, some_, inside⟩ := taken
    have live := sound.live alive
    have quiet := live.quiet (Or.inl enabled)
    obtain ⟨none_, stopped⟩ := live.idle quiet
    rw [eventReadCb, if_neg (by simpa using quiet)]
    constructor
    · simpa only [List.append_assoc, List.take_append_drop] using sound.bytes
    · exact sound.follows
    · intro ended
      exact absurd enabled (by simp [(sound.ended ended).2.2.2.1])
    · intro _
      constructor
      · simp [none_, stopped]
      · intro given running
        exact absurd (stopped.symm.trans running) (by simp)
      · simp
      · intro _
        refine ⟨tc.network.take count, ?_, congrArg (· ++ _) (live.seen quiet)⟩
        rw [Ne, List.take_eq_nil_iff]
        rintro (zero | empty)
        · omega
        · simp only [empty, List.length_nil] at inside
          omega
      · rintro (off | connecting)
        · cases off
        · exact absurd enabled (by simp [live.apart connecting])
      · simp
      · simp

theorem eventEventCb (sound : tc.Sound sent) (event : TcpEvent) :
    (tc.eventEventCb event).Sound sent := by
  cases alive : tc.mDestroyed with
  | true => simpa only [TcpStream.eventEventCb, alive, ↓reduceIte] using sound
  | false =>
      have live := sound.live alive
      simp only [TcpStream.eventEventCb, alive, Bool.false_eq_true, ↓reduceIte]
      cases event with
      | connected =>
          dsimp only
          split
          case isFalse => exact sound
          case isTrue connecting =>
            have quiet := live.quiet (Or.inr connecting)
            obtain ⟨none_, stopped⟩ := live.idle quiet
            refine ⟨sound.bytes, sound.follows, fun ended => ?_, fun _ => ?_⟩
            · exact absurd connecting (by simp [(sound.ended ended).2.2.2.2])
            · constructor <;> simp [none_, stopped, quiet, live.seen quiet]
      | eof =>
          dsimp only
          split
          case isFalse => exact sound
          case isTrue ends =>
            have quiet := live.quiet (Or.inl ends.1)
            obtain ⟨none_, stopped⟩ := live.idle quiet
            have apart : tc.connecting = false := by
              cases connecting : tc.connecting with
              | false => rfl
              | true => exact absurd ends.1 (by simp [live.apart connecting])
            refine ⟨sound.bytes, sound.follows, fun _ => ⟨ends.2, live.seen quiet, quiet, rfl, apart⟩,
              fun _ => ?_⟩
            constructor <;> simp [none_, stopped, quiet, live.seen quiet]
      | readError =>
          dsimp only
          split
          case isFalse => exact sound
          case isTrue enabled =>
            have quiet := live.quiet (Or.inl enabled)
            obtain ⟨none_, stopped⟩ := live.idle quiet
            refine ⟨sound.bytes, sound.follows, fun ended => ?_, fun _ => ?_⟩
            · exact absurd enabled (by simp [(sound.ended ended).2.2.2.1])
            · constructor <;> simp [none_, stopped, quiet, live.seen quiet]
      | writeError =>
          refine ⟨sound.bytes, sound.follows, fun ended => ?_, fun _ => ?_⟩
          · obtain ⟨nothing, seen, quiet, off, -⟩ := sound.ended ended
            exact ⟨nothing, seen, quiet, off, rfl⟩
          · refine ⟨?_, live.given, live.seen, live.unseen, ?_, ?_, ?_⟩
            · simpa using live.pending
            · rintro (enabled | connecting)
              · exact live.quiet (Or.inl enabled)
              · cases connecting
            · intro _ failed quiet
              obtain ⟨failed, apart⟩ := Bool.or_eq_false_iff.mp failed
              exact live.awake apart failed quiet
            · intro connecting
              cases connecting

theorem dispatch (sound : tc.Sound sent) : tc.dispatch.Sound sent := by
  cases running : tc.reading with
  | some given => simpa only [TcpStream.dispatch, running] using sound
  | none =>
      cases queue : tc.items with
      | nil => simpa only [TcpStream.dispatch, running, queue] using sound
      | cons item rest =>
          cases item with
          | ready =>
              simp only [TcpStream.dispatch, running, queue]
              refine ⟨sound.bytes, sound.follows, sound.ended, fun alive => ?_⟩
              have live := sound.live alive
              refine ⟨?_, ?_, live.seen, live.unseen, live.quiet, live.awake, live.apart⟩
              · simpa [queue, running] using live.pending
              · intro given same
                cases same
          | error =>
              simp only [TcpStream.dispatch, running, queue]
              refine ⟨sound.bytes, sound.follows, sound.ended, fun alive => ?_⟩
              have live := sound.live alive
              refine ⟨?_, ?_, live.seen, live.unseen, live.quiet, live.awake, live.apart⟩
              · simpa [queue, running] using live.pending
              · intro given same
                cases same
          | read =>
              simp only [TcpStream.dispatch, running, queue]
              refine ⟨sound.bytes, sound.follows, sound.ended, fun alive => ?_⟩
              have live := sound.live alive
              refine ⟨?_, ?_, live.seen, live.unseen, live.quiet, live.awake, live.apart⟩
              · simpa [queue, running] using live.pending
              · intro given same
                rw [if_neg (by simpa using alive)] at same
                exact (Option.some.inj same).symm

theorem finish (sound : tc.Sound sent) (count : Nat) : (tc.finish count).Sound sent := by
  cases running : tc.reading with
  | none => simpa only [TcpStream.finish, running] using sound
  | some given =>
      simp only [TcpStream.finish, running]
      split
      case isTrue gone =>
        exact ⟨sound.bytes, sound.follows, sound.ended, fun alive => absurd alive (by simp [gone])⟩
      case isFalse alive =>
        have live := sound.live (by simpa using alive)
        obtain ⟨queued, none_⟩ := live.running running
        have unended : tc.ended = false := by
          cases ended : tc.ended with
          | false => rfl
          | true => exact absurd queued (by simp [(sound.ended ended).2.2.1])
        have apart : tc.connecting = false := by
          cases connecting : tc.connecting with
          | false => rfl
          | true => exact absurd queued (by simp [live.quiet (Or.inr connecting)])
        have same := live.given given running
        obtain ⟨more, new, unseen⟩ := live.unseen queued
        rw [if_neg]
        · constructor
          · rw [used_append, same]
            simpa only [List.append_assoc, List.take_append_drop] using sound.bytes
          · exact follows_append.mpr ⟨sound.follows, more, new, same.trans unseen⟩
          · simp [unended]
          · intro _
            constructor <;> simp [none_, apart, left_append, same]
        · intro empty
          rw [← same, empty] at unseen
          exact new (List.append_eq_nil_iff.mp unseen.symm).2

theorem destroy (sound : tc.Sound sent) : tc.destroy.Sound sent where
  bytes := sound.bytes
  follows := sound.follows
  ended := fun ended => by
    obtain ⟨nothing, seen, quiet, -, apart⟩ := sound.ended ended
    exact ⟨nothing, seen, quiet, rfl, apart⟩
  live := fun alive => by cases alive

theorem step (sound : tc.Sound sent) (action : Action) : (step action tc).Sound sent := by
  cases action with
  | arrive count => exact sound.arrive count
  | event event => exact sound.eventEventCb event
  | dispatch => exact sound.dispatch
  | finish count => exact sound.finish count
  | destroy => exact sound.destroy

theorem run (sound : tc.Sound sent) (actions : List Action) :
    (TotalStep.run TcpStream.step actions tc).Sound sent := by
  induction actions generalizing tc with
  | nil => exact sound
  | cons action rest ih => exact ih (sound.step action)

end Sound

/-- A connection that was accepted, or one that was created, after some actions. -/
def run (accepted : Bool) (sent : Bytes) (actions : List Action) : TcpStream :=
  TotalStep.run step actions (if accepted then accept sent else create sent)

/-- In every order of what the network, the threads and the user do: what the callbacks used, the
input and what is still to come are what the peer sends; each callback is given what the one
before it left and more; when the end of the stream is reported, callbacks have been given all of
it; and until the connection is destroyed or fails, it reads on or just one callback is due. -/
theorem tcp_run_reads (accepted : Bool) (sent : Bytes) (actions : List Action) (tc : TcpStream)
    (ran : run accepted sent actions = tc) :
    used tc.reads ++ tc.input ++ tc.network = sent ∧ Follows [] tc.reads ∧
      (tc.ended = true → tc.network = [] ∧ tc.input = left [] tc.reads) ∧
      (tc.mDestroyed = false →
        (tc.connecting = true ∨ tc.failed = true ∨ tc.enabled = true) ∧
            tc.items.count .read = 0 ∧ tc.reading = none ∨
          tc.enabled = false ∧ tc.items.count .read + (if tc.reading.isSome then 1 else 0) = 1) := by
  have sound : tc.Sound sent := by
    rw [← ran, run]
    cases accepted with
    | true => exact (accept_sound sent).run actions
    | false => exact (create_sound sent).run actions
  refine ⟨sound.bytes, sound.follows, fun ended => ?_, fun alive => ?_⟩
  · obtain ⟨nothing, seen, -⟩ := sound.ended ended
    exact ⟨nothing, seen⟩
  · have live := sound.live alive
    cases queued : tc.mQueued with
    | false =>
        refine Or.inl ⟨?_, live.idle queued⟩
        cases connecting : tc.connecting with
        | true => exact Or.inl rfl
        | false =>
            cases failed : tc.failed with
            | true => exact Or.inr (Or.inl rfl)
            | false => exact Or.inr (Or.inr (live.awake connecting failed queued))
    | true =>
        refine Or.inr ⟨?_, ?_⟩
        · cases enabled : tc.enabled with
          | false => rfl
          | true => exact absurd queued (by simp [live.quiet (Or.inl enabled)])
        · rw [live.pending, queued]
          rfl

/-- Five bytes in two chunks: the first callback uses two of them while the others wait in the
socket, the second one the rest, and the end is reported behind it. -/
theorem tcp_run_reads_five :
    used [([1, 2, 3], 2), ([3, 4, 5], 3)] ++ [] ++ [] = ([1, 2, 3, 4, 5] : Bytes) ∧
      Follows [] [([1, 2, 3], 2), ([3, 4, 5], 3)] := by
  have five := tcp_run_reads true [1, 2, 3, 4, 5]
    [.arrive 3, .arrive 2, .dispatch, .arrive 2, .finish 2, .arrive 2, .dispatch, .finish 3,
      .event .eof, .dispatch]
    ⟨false, false, false, false, [], [], [], none, [([1, 2, 3], 2), ([3, 4, 5], 3)], 1, true, true⟩
    (by decide)
  exact ⟨five.1, five.2.1⟩

end TcpStream

end Sbf
