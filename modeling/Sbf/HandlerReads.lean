import Sbf.HandlerReceiver

set_option autoImplicit false

namespace Sbf.Handler

open Octets Topics

/-- A header that `sbfHandlerCheckHeader` lets pass. -/
structure Accepted (buf : Bytes) (offset : Nat) (hdr : TportHeader) : Prop where
  checked : checkHeader buf offset (buf.length - offset) = .ok true
  read : header buf offset = .ok hdr

/-- The offsets the message loop comes to from one of them. -/
inductive Walk (buf : Bytes) : Nat → Nat → Prop
  | here (offset : Nat) : Walk buf offset offset
  | step (offset stop : Nat) (hdr : TportHeader) (accepted : Accepted buf offset hdr)
      (more : hdr.isLastInPacket = false) (later : Walk buf (offset + used hdr) stop) :
      Walk buf offset stop

/-- Behind every accepted header without a topic area that the loop comes to from
`offset`, there is a zero byte somewhere in the packet. -/
def Terminated (buf : Bytes) (offset : Nat) : Prop :=
  ∀ stop hdr, Walk buf offset stop → Accepted buf stop hdr → hdr.mTopicSize = 0 →
    0 ∈ buf.drop (stop + TportHeader.size)

section Check

variable (buf : Bytes) (offset : Nat)

theorem header_ok (enough : offset + TportHeader.size ≤ buf.length) :
    ∃ hdr, header buf offset = .ok hdr := by
  obtain ⟨hdr, decoded⟩ := (TportHeader.decode_isSome_iff (buf.drop offset)).mpr (by
    rw [List.length_drop]
    omega)
  exact ⟨hdr, by simp only [header, decoded, inside]⟩

/-- The check itself stays inside the packet: it looks at a field or at the last
byte in front of the payload only when that many bytes are available. -/
theorem checkHeader_inside (within : offset ≤ buf.length) :
    checkHeader buf offset (buf.length - offset) = .ok false ∨
      ∃ hdr, Accepted buf offset hdr ∧ offset + used hdr ≤ buf.length ∧
        buf[offset + TportHeader.size + hdr.mTopicSize.toNat - 1]? = some 0 := by
  by_cases short : buf.length - offset < TportHeader.size
  · exact Or.inl (by simp only [checkHeader, if_pos short])
  obtain ⟨hdr, read⟩ := header_ok buf offset (by omega)
  by_cases cut : buf.length - offset < used hdr
  · left
    simp only [checkHeader, if_neg short, read, bind, Except.bind, if_pos cut, pure, Except.pure]
  have bound : offset + TportHeader.size + hdr.mTopicSize.toNat - 1 < buf.length := by
    rw [used] at cut
    rw [TportHeader.size] at cut short ⊢
    omega
  have checked : checkHeader buf offset (buf.length - offset) =
      .ok (buf[offset + TportHeader.size + hdr.mTopicSize.toNat - 1] == 0) := by
    simp only [checkHeader, if_neg short, read, bind, Except.bind, if_neg cut,
      List.getElem?_eq_getElem bound, inside, pure, Except.pure]
  by_cases zero : buf[offset + TportHeader.size + hdr.mTopicSize.toNat - 1] = 0
  · rw [zero, beq_self_eq_true] at checked
    exact Or.inr ⟨hdr, ⟨checked, read⟩, by omega, by rw [List.getElem?_eq_getElem bound, zero]⟩
  · rw [beq_eq_false_iff_ne.mpr zero] at checked
    exact Or.inl checked

theorem Accepted.unique {buf : Bytes} {offset : Nat} {left right : TportHeader}
    (first : Accepted buf offset left) (second : Accepted buf offset right) : left = right :=
  Except.ok.inj (first.read.symm.trans second.read)

/-- A topic area that is not empty holds its own terminator. -/
theorem topic_terminated (hdr : TportHeader) (area : hdr.mTopicSize ≠ 0)
    (last : buf[offset + TportHeader.size + hdr.mTopicSize.toNat - 1]? = some 0) :
    0 ∈ buf.drop (offset + TportHeader.size) := by
  have positive : hdr.mTopicSize.toNat ≠ 0 := fun zero => area (UInt8.toNat_inj.mp zero)
  apply List.mem_of_getElem? (i := hdr.mTopicSize.toNat - 1)
  rw [List.getElem?_drop, ← last]
  congr 1
  omega

end Check

theorem message_length (ttopic : TportTopic) (hdr : TportHeader) (payload : Bytes)
    (topics topics' : List TportTopic) (sent : List Dispatch)
    (ran : message ttopic hdr payload topics = .ok (topics', sent)) :
    topics'.length = topics.length := by
  unfold message at ran
  split at ran
  · cases ran
    exact List.length_map _
  · rename_i buffer node _
    cases served : node.dispatchMessage buffer with
    | error failure =>
        simp only [served, bind, Except.bind] at ran
        cases ran
    | ok result =>
        simp only [served, bind, Except.bind, pure, Except.pure] at ran
        cases ran
        exact List.length_map _

/-- Giving a message to a listening node neither fails nor adds or removes nodes. -/
theorem message_ok (topics : List TportTopic) (sound : Sound topics) (ttopic : TportTopic)
    (name : Bytes) (plain : 0 ∉ name) (found : listening topics name = some ttopic)
    (hdr : TportHeader) (payload : Bytes) :
    ∃ topics' sent, message ttopic hdr payload topics = .ok (topics', sent) ∧ Sound topics' ∧
      topics'.length = topics.length := by
  have named : Block.name ⟨⟨hdr, name⟩, payload⟩ = name := by
    apply List.takeWhile_eq_self_iff.mpr
    intro c member
    simp only [ne_eq, decide_not, Bool.not_eq_eq_eq_not, Bool.not_true, decide_eq_false_iff_not]
    rintro rfl
    exact plain member
  obtain ⟨topics', sent, ran, implements, _⟩ := accept_simulates topics ⟨⟨hdr, name⟩, payload⟩
    topics (receiver topics) (Implements.refl sound)
  simp only [accept, named, found] at ran
  exact ⟨topics', sent, ran, implements.sound, message_length ttopic hdr payload topics _ _ ran⟩

theorem cstring_plain (buf : Bytes) (start : Nat) (name : Bytes)
    (read : cstring buf start = some name) : 0 ∉ name := by
  unfold cstring at read
  split at read
  · cases read
    intro zero
    simpa using List.mem_takeWhile_imp zero
  · cases read

/-- The lookup reads the topic to its terminator, wherever that is; the payload of
an accepted header is inside the packet. -/
theorem messageAt_inside (buf : Bytes) (offset : Nat) (hdr : TportHeader)
    (topics : List TportTopic) (sound : Sound topics) (nodes : topics ≠ [])
    (within : offset + used hdr ≤ buf.length) :
    if 0 ∈ buf.drop (offset + TportHeader.size) then
      ∃ topics' sent, messageAt buf offset hdr topics = .ok (topics', sent) ∧ Sound topics' ∧
        topics' ≠ []
    else messageAt buf offset hdr topics = .error .outside := by
  obtain ⟨node, rest, rfl⟩ := List.exists_cons_of_ne_nil nodes
  split
  · rename_i terminated
    obtain ⟨name, read⟩ := (cstring_isSome_iff buf (offset + TportHeader.size)).mpr terminated
    cases found : listening (node :: rest) name with
    | none =>
        refine ⟨_, [], ?_, sound, nodes⟩
        simp only [messageAt, findTopic, read, inside, found, bind, Except.bind, pure, Except.pure]
    | some ttopic =>
        obtain ⟨topics', sent, ran, sound', length⟩ := message_ok (node :: rest) sound ttopic name
          (cstring_plain buf _ name read) found hdr
          ((buf.drop (offset + TportHeader.size + hdr.mTopicSize.toNat)).take hdr.mSize.toNat)
        have payload := slice_inside buf (offset + TportHeader.size + hdr.mTopicSize.toNat)
          hdr.mSize.toNat (by rw [used] at within; omega)
        refine ⟨topics', sent, ?_, sound', ?_⟩
        · simp only [messageAt, findTopic, read, inside, found, payload, bind, Except.bind, pure,
            Except.pure, ran]
        · rintro rfl
          cases length
  · rename_i endless
    have unread : cstring buf (offset + TportHeader.size) = none := if_neg endless
    simp only [messageAt, findTopic, unread, inside, bind, Except.bind]

/-- One round of the loop, by what the check says. -/
theorem loop_rejected (fuel : Nat) (buf : Bytes) (offset size : Nat) (topics : List TportTopic)
    (checked : checkHeader buf offset size = .ok false) :
    loop (fuel + 1) buf offset size topics = .ok (topics, []) := by
  simp only [loop, checked, bind, Except.bind, Bool.not_false, ↓reduceIte, pure, Except.pure]

theorem loop_accepted (fuel : Nat) (buf : Bytes) (offset : Nat) (hdr : TportHeader)
    (accepted : Accepted buf offset hdr) :
    loop (fuel + 1) buf offset (buf.length - offset) =
      if hdr.isLastInPacket then messageAt buf offset hdr
      else (messageAt buf offset hdr).andThen
        (loop fuel buf (offset + used hdr) (buf.length - offset - used hdr)) := by
  funext topics
  simp only [loop, accepted.checked, accepted.read, bind, Except.bind, Bool.not_true,
    Bool.false_eq_true, ↓reduceIte]
  split <;> rfl

theorem used_pos (hdr : TportHeader) : 0 < used hdr := by
  rw [used, TportHeader.size]
  omega

/-- On a stream without nodes no topic is ever looked at. -/
theorem loop_deaf (buf : Bytes) (fuel offset : Nat) (within : offset ≤ buf.length)
    (enough : buf.length - offset < fuel) :
    loop fuel buf offset (buf.length - offset) [] = .ok ([], []) := by
  induction fuel generalizing offset with
  | zero => omega
  | succ fuel ih =>
      rcases checkHeader_inside buf offset within with refused | ⟨hdr, accepted, bound, last⟩
      · exact loop_rejected fuel buf offset _ [] refused
      · have nothing : messageAt buf offset hdr [] = .ok ([], []) := rfl
        have shorter := used_pos hdr
        have later := ih (offset + used hdr) bound (by omega)
        rw [loop_accepted fuel buf offset hdr accepted]
        split
        · exact nothing
        · rw [Nat.sub_sub, Step.andThen_ok_ok nothing later]
          rfl

/-- From any offset the loop ends, and it stays inside the packet exactly when every
topic without an area is terminated somewhere behind its header. -/
theorem loop_inside_iff (buf : Bytes) (fuel offset : Nat) (topics : List TportTopic)
    (sound : Sound topics) (nodes : topics ≠ []) (within : offset ≤ buf.length)
    (enough : buf.length - offset < fuel) :
    (∃ result, loop fuel buf offset (buf.length - offset) topics = .ok result) ↔
      Terminated buf offset := by
  induction fuel generalizing offset topics with
  | zero => omega
  | succ fuel ih =>
      rcases checkHeader_inside buf offset within with refused | ⟨hdr, accepted, bound, last⟩
      · rw [loop_rejected fuel buf offset _ topics refused]
        refine ⟨?_, fun _ => ⟨_, rfl⟩⟩
        rintro _ stop other walk ok _
        have stuck : ∀ {hdr}, ¬ Accepted buf offset hdr := by
          intro hdr ok
          rw [ok.checked] at refused
          cases refused
        cases walk with
        | here => exact absurd ok stuck
        | step _ _ first accepted more later => exact absurd accepted stuck
      · rw [loop_accepted fuel buf offset hdr accepted]
        have here := messageAt_inside buf offset hdr topics sound nodes bound
        by_cases terminated : 0 ∈ buf.drop (offset + TportHeader.size)
        · rw [if_pos terminated] at here
          obtain ⟨topics', sent, ran, sound', nodes'⟩ := here
          by_cases ends : hdr.isLastInPacket = true
          · rw [if_pos ends, ran]
            refine ⟨?_, fun _ => ⟨_, rfl⟩⟩
            rintro _ stop other walk ok _
            cases walk with
            | here => exact terminated
            | step _ _ first firstOk more later =>
                rw [accepted.unique firstOk, more] at ends
                cases ends
          · have more : hdr.isLastInPacket = false := by simpa using ends
            have shorter := used_pos hdr
            have later := ih (offset + used hdr) topics' sound' nodes' bound (by omega)
            have behind : Terminated buf offset ↔ Terminated buf (offset + used hdr) := by
              constructor
              · intro all stop other walk
                exact all stop other (.step offset stop hdr accepted more walk)
              · rintro all stop other (_ | ⟨_, _, first, firstOk, _, walk⟩) ok
                · exact fun _ => terminated
                · rw [accepted.unique firstOk] at all
                  exact all stop other walk ok
            rw [if_neg ends, Step.andThen_ok ran, Nat.sub_sub, behind, ← later]
            cases loop fuel buf (offset + used hdr) (buf.length - (offset + used hdr)) topics' with
            | error failure => simp
            | ok result => simp
        · rw [if_neg terminated] at here
          have empty : hdr.mTopicSize = 0 := by
            by_contra area
            exact terminated (topic_terminated buf offset hdr area last)
          refine ⟨?_, fun all => absurd (all offset hdr (.here offset) accepted empty) terminated⟩
          rintro ⟨result, ran⟩
          split at ran
          · rw [here] at ran
            cases ran
          · rw [Step.andThen_error here] at ran
            cases ran

/-- `sbfHandler_packet` reads nothing outside the packet, and comes to an end,
exactly when the stream has no nodes or each topic without an area is terminated. -/
theorem packet_inside_iff (buf : Bytes) (long : TportHeader.size ≤ buf.length)
    (topics : List TportTopic) (sound : Sound topics) :
    (∃ result, packet buf topics = .ok result) ↔ topics = [] ∨ Terminated buf 0 := by
  obtain ⟨hdr, first⟩ := header_ok buf 0 (by omega)
  rw [packet_eq_loop buf hdr first]
  by_cases nodes : topics = []
  · subst nodes
    have deaf := loop_deaf buf (buf.length + 1) 0 (Nat.zero_le _) (by omega)
    rw [Nat.sub_zero] at deaf
    rw [deaf]
    simp
  · have whole := loop_inside_iff buf (buf.length + 1) 0 topics sound nodes (Nat.zero_le _)
      (by omega)
    rw [Nat.sub_zero] at whole
    rw [whole]
    simp [nodes]

/-- A node with one subscription. -/
def listener : TportTopic := ⟨0, ⟨[47, 47, 116], by decide⟩, [], [1], none, .zero⟩

theorem listener_sound : Sound [listener] :=
  Sound.singleton listener ⟨by decide, fun _ pointer => by cases pointer⟩

/-- A header without a topic area, in front of one zero byte. -/
theorem packet_inside_listener : [listener] = [] ∨ Terminated [1, 0, 0, 0, 0, 0] 0 :=
  (packet_inside_iff [1, 0, 0, 0, 0, 0] (by decide) [listener] listener_sound).mp ⟨_, rfl⟩

/-- Five zero bytes are a header without a topic area, and the terminator of the
topic would be the sixth byte. -/
theorem packet_outside : ∃ (buf : Bytes) (topics : List TportTopic),
    TportHeader.size ≤ buf.length ∧ Sound topics ∧ packet buf topics = .error .outside :=
  ⟨[0, 0, 0, 0, 0], [listener], by decide, listener_sound, rfl⟩

end Sbf.Handler
