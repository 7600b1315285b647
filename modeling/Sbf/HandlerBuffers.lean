import Sbf.HandlerReads
import Sbf.TportStreams

set_option autoImplicit false

/-! The receive path with the buffers that it hands the messages on in. -/

namespace Sbf

/-- A subscription is on one of the nodes. -/
def Topics.Serves (topics : List TportTopic) (sub : SubId) : Prop :=
  ∃ ttopic ∈ topics, sub ∈ ttopic.mSubs

instance (topics : List TportTopic) (sub : SubId) : Decidable (Topics.Serves topics sub) :=
  inferInstanceAs (Decidable (∃ ttopic ∈ topics, sub ∈ ttopic.mSubs))

namespace Handler

open Octets Topics

/-- The buffer that is given to `sbfHandlerDispatchMessage`: the one of the packet itself,
one wrapped around a part of it, or one with the fragments put together. -/
inductive Source where
  | packet
  | wrapped
  | assembled
  deriving DecidableEq, Repr

/-- A run of `sbfHandlerDispatchMessage` and its buffer. -/
structure Handed where
  source : Source
  sent : Dispatch
  deriving DecidableEq, Repr

abbrev Handing := Step Fault (List TportTopic) Handed

/-- A step of the receive path, with what its messages are handed on in. -/
def handing (source : Source) (receive : Receive) : Handing := fun topics => do
  let (topics, sent) ← receive topics
  return (topics, sent.map (⟨source, ·⟩))

/-- A fragment has a buffer from `sbfTport_assemble`, a message without has `whole`. -/
def handAt (whole : Source) (buf : Bytes) (offset : Nat) (hdr : TportHeader) : Handing :=
  handing (if hdr.mFragNum ≠ 0 then .assembled else whole) (messageAt buf offset hdr)

/-- The path of `sbfHandler_packet` for a packet with one message. -/
def handSingle (buf : Bytes) (hdr : TportHeader) : Handing := fun topics => do
  if !(← checkHeader buf 0 buf.length) then return (topics, [])
  handAt .packet buf 0 hdr topics

/-- The loop of `sbfHandler_packet`. -/
def handLoop : Nat → Bytes → Nat → Nat → Handing
  | 0, _, _, _ => fun _ => .error .endless
  | fuel + 1, buf, offset, size => fun topics => do
      if !(← checkHeader buf offset size) then return (topics, [])
      let hdr ← header buf offset
      if hdr.isLastInPacket then handAt .wrapped buf offset hdr topics
      else
        (handAt .wrapped buf offset hdr).andThen
          (handLoop fuel buf (offset + used hdr) (size - used hdr)) topics

/-- `sbfHandler_packet` -/
def handPacket (buf : Bytes) : Handing := fun topics => do
  let hdr ← header buf 0
  if hdr.isLastInPacket then handSingle buf hdr topics
  else handLoop (buf.length + 1) buf 0 buf.length topics

/-- The receive path without the buffers. -/
def sends (step : Handing) : Receive := fun topics => do
  let (topics, handed) ← step topics
  return (topics, handed.map (·.sent))

theorem sends_handing (source : Source) (receive : Receive) :
    sends (handing source receive) = receive := by
  funext topics
  simp only [sends, handing, bind, Except.bind, pure, Except.pure]
  cases ran : receive topics with
  | error failure => rfl
  | ok result => simp [Function.comp_def]

theorem sends_andThen (first second : Handing) :
    sends (first.andThen second) = (sends first).andThen (sends second) := by
  funext topics
  cases one : first topics with
  | error failure =>
      have failed : sends first topics = .error failure := by
        simp only [sends, one, bind, Except.bind]
      rw [Step.andThen_error failed]
      simp only [sends, Step.andThen_error one, bind, Except.bind]
  | ok result =>
      have ran : sends first topics = .ok (result.1, result.2.map (·.sent)) := by
        simp only [sends, one, bind, Except.bind, pure, Except.pure]
      rw [Step.andThen_ok ran]
      simp only [sends, Step.andThen_ok one, bind, Except.bind, pure, Except.pure]
      cases second result.1 with
      | error failure => rfl
      | ok later => simp only [List.map_append]

theorem sends_loop (fuel : Nat) (buf : Bytes) (offset size : Nat) :
    sends (handLoop fuel buf offset size) = loop fuel buf offset size := by
  induction fuel generalizing offset size with
  | zero => rfl
  | succ fuel ih =>
      funext topics
      simp only [sends, handLoop, loop, bind, Except.bind]
      cases checkHeader buf offset size with
      | error failure => rfl
      | ok checked =>
          cases checked
          · rfl
          · cases header buf offset with
            | error failure => rfl
            | ok hdr =>
                by_cases last : hdr.isLastInPacket = true
                · simp only [last, ↓reduceIte, Bool.not_true, Bool.false_eq_true]
                  exact congrFun (sends_handing _ (messageAt buf offset hdr)) topics
                · simp only [last, ↓reduceIte, Bool.not_true, Bool.false_eq_true]
                  have both := congrFun (sends_andThen (handAt .wrapped buf offset hdr)
                    (handLoop fuel buf (offset + used hdr) (size - used hdr))) topics
                  rw [ih, handAt, sends_handing] at both
                  exact both

/-- What is handed on is what the receive path dispatches. -/
theorem sends_packet (buf : Bytes) : sends (handPacket buf) = packet buf := by
  funext topics
  simp only [sends, handPacket, packet, bind, Except.bind]
  cases header buf 0 with
  | error failure => rfl
  | ok hdr =>
      by_cases last : hdr.isLastInPacket = true
      · simp only [last, ↓reduceIte, handSingle, single, bind, Except.bind]
        cases checkHeader buf 0 buf.length with
        | error failure => rfl
        | ok checked =>
            cases checked
            · rfl
            · exact congrFun (sends_handing _ (messageAt buf 0 hdr)) topics
      · simp only [last, ↓reduceIte, Bool.false_eq_true]
        exact congrFun (sends_loop (buf.length + 1) buf 0 buf.length) topics

/-- What the receive path leaves of a node as it is. -/
def shape (ttopic : TportTopic) : Nat × CString × List PubId × List SubId :=
  (ttopic.address, ttopic.mTopic, ttopic.mPubs, ttopic.mSubs)

theorem serves_iff_shape (topics : List TportTopic) (sub : SubId) :
    Serves topics sub ↔ ∃ kept ∈ topics.map shape, sub ∈ kept.2.2.2 := by
  simp only [Serves, List.mem_map, exists_exists_and_eq_and, shape]

theorem serves_congr {before after : List TportTopic}
    (same : after.map shape = before.map shape) (sub : SubId) :
    Serves after sub ↔ Serves before sub := by
  rw [serves_iff_shape, serves_iff_shape, same]

/-- A step that reads outside the packet, or keeps the nodes in order and serves nobody
who is not on them. -/
def Orderly (receive : Receive) : Prop := ∀ topics, Sound topics →
  receive topics = .error .outside ∨
    ∃ topics' sent, receive topics = .ok (topics', sent) ∧ Sound topics' ∧
      topics'.map shape = topics.map shape ∧
      ∀ dispatch ∈ sent, ∀ sub ∈ dispatch.served, Serves topics sub

theorem Orderly.skip : Orderly Step.skip := fun topics sound =>
  Or.inr ⟨topics, [], rfl, sound, rfl, by simp⟩

theorem Orderly.andThen {first second : Receive} (one : Orderly first) (two : Orderly second) :
    Orderly (first.andThen second) := by
  intro topics sound
  rcases one topics sound with failed | ⟨middle, sent, ran, sound, same, serves⟩
  · exact Or.inl (Step.andThen_error failed second)
  · rcases two middle sound with failed | ⟨last, more, then_ran, sound, same', serves'⟩
    · left
      rw [Step.andThen_ok ran, failed]
    · refine Or.inr ⟨last, sent ++ more, Step.andThen_ok_ok ran then_ran, sound,
        same'.trans same, ?_⟩
      intro dispatch member sub served
      rcases List.mem_append.mp member with early | late
      · exact serves dispatch early sub served
      · exact (serves_congr same sub).mp (serves' dispatch late sub served)

/-- What is read to choose a step may be outside the packet. -/
theorem Orderly.bind {α : Type} (read : Except Fault α) (next : α → Receive)
    (outside : ∀ fault, read = .error fault → fault = .outside)
    (each : ∀ value, read = .ok value → Orderly (next value)) :
    Orderly (fun topics => read >>= fun value => next value topics) := by
  intro topics sound
  cases result : read with
  | error fault =>
      cases outside fault result
      exact Or.inl rfl
  | ok value => exact each value result topics sound

theorem inside_error {α : Type} {value : Option α} {fault : Fault}
    (failed : inside value = .error fault) : fault = .outside := by
  cases value with
  | none => exact (Except.error.inj failed).symm
  | some value => cases failed

theorem header_error {buf : Bytes} {offset : Nat} {fault : Fault}
    (failed : header buf offset = .error fault) : fault = .outside := inside_error failed

theorem checkHeader_error {buf : Bytes} {offset available : Nat} {fault : Fault}
    (failed : checkHeader buf offset available = .error fault) : fault = .outside := by
  unfold checkHeader at failed
  split at failed
  · cases failed
  · cases read : header buf offset with
    | error other =>
        simp only [read, bind, Except.bind] at failed
        cases failed
        exact header_error read
    | ok hdr =>
        simp only [read, bind, Except.bind] at failed
        split at failed
        · cases failed
        · cases last : buf[offset + TportHeader.size + hdr.mTopicSize.toNat - 1]? with
          | none =>
              rw [last] at failed
              exact (Except.error.inj failed).symm
          | some byte =>
              rw [last] at failed
              cases failed

/-- A message of the size that its header announces fits what the check has seen. -/
theorem checkHeader_used {buf : Bytes} {offset available : Nat} {hdr : TportHeader}
    (checked : checkHeader buf offset available = .ok true) (read : header buf offset = .ok hdr) :
    used hdr ≤ available := by
  unfold checkHeader at checked
  split at checked
  · cases checked
  · simp only [read, bind, Except.bind] at checked
    split at checked
    · cases checked
    · omega

theorem update_shape (topics : List TportTopic) (sound : Sound topics) (before after : TportTopic)
    (member : before ∈ topics) (same : shape after = shape before) :
    (update topics after).map shape = topics.map shape := by
  simp only [update, List.map_map]
  apply List.map_congr_left
  intro other inside
  by_cases here : other.address = after.address
  · have address : after.address = before.address := congrArg Prod.fst same
    obtain rfl := List.inj_on_of_nodup_map sound.addresses inside member (here.trans address)
    simp only [Function.comp_apply, if_pos here, same]
  · simp only [Function.comp_apply, if_neg here]

theorem message_orderly (topics : List TportTopic) (sound : Sound topics) (ttopic : TportTopic)
    (member : ttopic ∈ topics) (subscribed : ttopic.mSubs ≠ []) (hdr : TportHeader)
    (payload : Bytes) :
    ∃ topics' sent, message ttopic hdr payload topics = .ok (topics', sent) ∧ Sound topics' ∧
      topics'.map shape = topics.map shape ∧
      ∀ dispatch ∈ sent, ∀ sub ∈ dispatch.served, Serves topics sub := by
  have node := sound.nodes ttopic member
  have written : ∀ next frag, { ttopic with mNext := next, frag := frag }.Sound →
      Sound (update topics { ttopic with mNext := next, frag := frag }) ∧
        (update topics { ttopic with mNext := next, frag := frag }).map shape =
          topics.map shape := by
    intro next frag after
    exact ⟨sound.update ttopic { ttopic with mNext := next, frag := frag } member rfl rfl rfl after,
      update_shape topics sound ttopic { ttopic with mNext := next, frag := frag } member rfl⟩
  have dispatched : ∀ frag buffer, received ttopic hdr payload =
      (some buffer, { ttopic with frag := frag }) →
      ∃ topics' sent, message ttopic hdr payload topics = .ok (topics', sent) ∧ Sound topics' ∧
        topics'.map shape = topics.map shape ∧
        ∀ dispatch ∈ sent, ∀ sub ∈ dispatch.served, Serves topics sub := by
    intro frag buffer got
    obtain ⟨next, served, ran, once, moved⟩ := TportTopic.dispatchMessage_serves
      { ttopic with frag := frag } buffer ⟨node.distinct, node.next⟩ subscribed
    obtain ⟨after, same⟩ := written next frag moved
    refine ⟨_, [⟨ttopic.mTopic.chars, buffer, served⟩], ?_, after, same, ?_⟩
    · simp only [message, got, ran, bind, Except.bind, pure, Except.pure]
    · intro dispatch inside sub serves
      rw [List.mem_singleton.mp inside] at serves
      exact ⟨ttopic, member, once.mem_iff.mp serves⟩
  by_cases whole : hdr.mFragNum ≠ 0
  · cases completed : (Tport.assemble ttopic.frag hdr payload).1 with
    | none =>
        obtain ⟨after, same⟩ := written ttopic.mNext
          (Tport.assemble ttopic.frag hdr payload).2 ⟨node.distinct, node.next⟩
        refine ⟨_, [], ?_, after, same, by simp⟩
        simp only [message, received, if_pos whole, completed]
    | some buffer =>
        apply dispatched (Tport.assemble ttopic.frag hdr payload).2 buffer
        simp only [received, if_pos whole, completed]
  · apply dispatched ttopic.frag payload
    simp only [received, if_neg whole]

theorem messageAt_orderly (buf : Bytes) (offset : Nat) (hdr : TportHeader) :
    Orderly (messageAt buf offset hdr) := by
  intro topics sound
  cases found : findTopic topics buf offset with
  | error fault =>
      left
      have outside : fault = .outside := by
        cases topics with
        | nil => cases found
        | cons node rest =>
            cases name : cstring buf (offset + TportHeader.size) with
            | none =>
                simp only [findTopic, name, inside, bind, Except.bind] at found
                exact (Except.error.inj found).symm
            | some chars =>
                simp only [findTopic, name, inside, bind, Except.bind] at found
                cases found
      simp only [messageAt, found, bind, Except.bind, outside]
  | ok result =>
      cases result with
      | none =>
          refine Or.inr ⟨topics, [], ?_, sound, rfl, by simp⟩
          simp only [messageAt, found, bind, Except.bind, pure, Except.pure]
      | some ttopic =>
          have listens : ∃ name, listening topics name = some ttopic := by
            cases topics with
            | nil => cases found
            | cons node rest =>
                cases name : cstring buf (offset + TportHeader.size) with
                | none =>
                    simp only [findTopic, name, inside, bind, Except.bind] at found
                    cases found
                | some chars =>
                    simp only [findTopic, name, inside, bind, Except.bind] at found
                    exact ⟨chars, Except.ok.inj found⟩
          obtain ⟨name, listens⟩ := listens
          obtain ⟨member, _, subscribed⟩ := listening_eq_some listens
          cases area : slice buf (offset + TportHeader.size + hdr.mTopicSize.toNat)
              hdr.mSize.toNat with
          | none =>
              left
              simp only [messageAt, found, area, inside, bind, Except.bind]
          | some payload =>
              right
              simp only [messageAt, found, area, inside, bind, Except.bind]
              exact message_orderly topics sound ttopic member subscribed hdr payload

theorem loop_orderly (fuel : Nat) (buf : Bytes) (offset size : Nat) (enough : size < fuel) :
    Orderly (loop fuel buf offset size) := by
  induction fuel generalizing offset size with
  | zero => omega
  | succ fuel ih =>
      refine Orderly.bind (checkHeader buf offset size) _ (fun _ => checkHeader_error) ?_
      intro checked passed
      cases checked with
      | false => exact Orderly.skip
      | true =>
          refine Orderly.bind (header buf offset) _ (fun _ => header_error) ?_
          intro hdr read
          have within := checkHeader_used passed read
          have positive := used_pos hdr
          by_cases last : hdr.isLastInPacket = true
          · simp only [last, ↓reduceIte]
            exact messageAt_orderly buf offset hdr
          · simp only [last]
            exact (messageAt_orderly buf offset hdr).andThen (ih _ _ (by omega))

theorem packet_orderly (buf : Bytes) : Orderly (packet buf) := by
  refine Orderly.bind (header buf 0) _ (fun _ => header_error) ?_
  intro hdr read
  have whole := loop_orderly (buf.length + 1) buf 0 buf.length (Nat.lt_succ_self _)
  have equal := packet_eq_loop buf hdr read
  have unfolded : (fun topics => if hdr.isLastInPacket = true then single buf hdr topics
      else loop (buf.length + 1) buf 0 buf.length topics) = packet buf := by
    funext topics
    simp only [packet, read, bind, Except.bind]
  rw [unfolded, equal]
  exact whole

/-- Whatever a step hands on, it hands on in its own kind of buffer. -/
theorem handing_ok {source : Source} {receive : Receive} {topics topics' : List TportTopic}
    {handed : List Handed} (ran : handing source receive topics = .ok (topics', handed)) :
    ∃ sent, receive topics = .ok (topics', sent) ∧ handed = sent.map (⟨source, ·⟩) := by
  cases result : receive topics with
  | error failure =>
      simp only [handing, result, bind, Except.bind] at ran
      cases ran
  | ok pair =>
      simp only [handing, result, bind, Except.bind, pure, Except.pure] at ran
      cases ran
      exact ⟨pair.2, rfl, rfl⟩

theorem handAt_source {whole : Source} {buf : Bytes} {offset : Nat} {hdr : TportHeader}
    {topics topics' : List TportTopic} {handed : List Handed}
    (ran : handAt whole buf offset hdr topics = .ok (topics', handed)) (one : Handed)
    (member : one ∈ handed) : one.source = .assembled ∨ one.source = whole := by
  obtain ⟨sent, _, rfl⟩ := handing_ok ran
  obtain ⟨dispatch, _, rfl⟩ := List.mem_map.mp member
  by_cases whole : hdr.mFragNum ≠ 0
  · exact Or.inl (if_pos whole)
  · exact Or.inr (if_neg whole)

theorem message_length_le {ttopic : TportTopic} {hdr : TportHeader} {payload : Bytes}
    {topics topics' : List TportTopic} {sent : List Dispatch}
    (ran : message ttopic hdr payload topics = .ok (topics', sent)) : sent.length ≤ 1 := by
  unfold message at ran
  split at ran
  · cases ran
    exact Nat.zero_le _
  · obtain ⟨result, _, ran⟩ := bind_ok ran
    cases ran
    exact Nat.le_refl _

theorem messageAt_length_le {buf : Bytes} {offset : Nat} {hdr : TportHeader}
    {topics topics' : List TportTopic} {sent : List Dispatch}
    (ran : messageAt buf offset hdr topics = .ok (topics', sent)) : sent.length ≤ 1 := by
  obtain ⟨found, _, ran⟩ := bind_ok ran
  cases found with
  | none =>
      cases ran
      exact Nat.zero_le _
  | some ttopic =>
      obtain ⟨payload, _, ran⟩ := bind_ok ran
      exact message_length_le ran

theorem handLoop_source {fuel : Nat} {buf : Bytes} {offset size : Nat}
    {topics topics' : List TportTopic} {handed : List Handed}
    (ran : handLoop fuel buf offset size topics = .ok (topics', handed)) (one : Handed)
    (member : one ∈ handed) : one.source ≠ .packet := by
  have apart : ∀ one : Handed, one.source = .assembled ∨ one.source = .wrapped →
      one.source ≠ .packet := by
    rintro one (kind | kind) <;> rw [kind] <;> exact Source.noConfusion
  induction fuel generalizing offset size topics handed with
  | zero => cases ran
  | succ fuel ih =>
      obtain ⟨checked, _, ran⟩ := bind_ok ran
      cases checked with
      | false =>
          cases ran
          cases member
      | true =>
          obtain ⟨hdr, _, ran⟩ := bind_ok ran
          by_cases last : hdr.isLastInPacket = true
          · rw [if_pos last] at ran
            exact apart one (handAt_source ran one member)
          · rw [if_neg last] at ran
            obtain ⟨middle, sent, more, first, then_ran, rfl⟩ := Step.andThen_inv ran
            rcases List.mem_append.mp member with early | late
            · exact apart one (handAt_source first one early)
            · exact ih then_ran late

/-- The buffer of the packet itself is handed on at most once, and then alone. -/
theorem handPacket_alone {buf : Bytes} {topics topics' : List TportTopic} {handed : List Handed}
    (ran : handPacket buf topics = .ok (topics', handed)) (one : Handed) (member : one ∈ handed)
    (itself : one.source = .packet) : handed = [one] := by
  obtain ⟨hdr, _, ran⟩ := bind_ok ran
  by_cases last : hdr.isLastInPacket = true
  · rw [if_pos last] at ran
    obtain ⟨checked, _, ran⟩ := bind_ok ran
    cases checked with
    | false =>
        cases ran
        cases member
    | true =>
        obtain ⟨sent, received, rfl⟩ := handing_ok ran
        have few := messageAt_length_le received
        rcases sent with _ | ⟨first, _ | ⟨second, rest⟩⟩
        · cases member
        · rw [List.map_singleton] at member ⊢
          rw [List.mem_singleton.mp member]
        · simp at few
  · rw [if_neg last] at ran
    exact absurd itself (handLoop_source ran one member)

end Handler

end Sbf
