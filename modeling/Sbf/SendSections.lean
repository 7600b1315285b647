import Sbf.BatchRun
import Sbf.BlocksOwed

set_option autoImplicit false

namespace Sbf

open Octets

namespace Handler

/-- The fragment numbers in the headers of a packet, up to the last message. -/
def fragNumsFrom : Nat → Bytes → List Nat
  | 0, _ => []
  | fuel + 1, buf =>
      match TportHeader.decode buf with
      | none => []
      | some hdr =>
          hdr.mFragNum.toNat ::
            if hdr.isLastInPacket then [] else fragNumsFrom fuel (buf.drop (used hdr))

def fragNums (buf : Bytes) : List Nat := fragNumsFrom buf.length buf

theorem fragNumsFrom_packetBytes (blocks : List Block) (sound : ∀ block ∈ blocks, block.Sound)
    (closed : Closed blocks) (fuel : Nat) (enough : blocks.length ≤ fuel) :
    fragNumsFrom fuel (packetBytes blocks) = blocks.map Block.fragNum := by
  induction blocks generalizing fuel with
  | nil => cases closed
  | cons block rest ih =>
      obtain ⟨fuel, rfl⟩ : ∃ n, fuel = n + 1 := ⟨fuel - 1, by simp at enough; omega⟩
      have read : TportHeader.decode (packetBytes (block :: rest)) = some block.hdr := by
        simp only [packetBytes_cons, Block.bytes, HeaderBlock.bytes, List.append_assoc,
          TportHeader.decode_encode]
      have behind : (packetBytes (block :: rest)).drop (used block.hdr) = packetBytes rest := by
        rw [(sound block (by simp)).used, packetBytes_cons, List.drop_left]
      simp only [fragNumsFrom, read, behind, List.map_cons, Block.fragNum]
      cases rest with
      | nil =>
          have last : block.hdr.isLastInPacket = true := closed
          simp only [last, ↓reduceIte, List.map_nil]
      | cons second rest =>
          have more : block.hdr.isLastInPacket = false := closed.1
          rw [if_neg (by simp [more]), ih (fun other member => sound other (by simp [member]))
            closed.2 fuel (by simp at enough ⊢; omega)]

theorem fragNums_packetBytes (blocks : List Block) (sound : ∀ block ∈ blocks, block.Sound)
    (closed : Closed blocks) : fragNums (packetBytes blocks) = blocks.map Block.fragNum :=
  fragNumsFrom_packetBytes blocks sound closed _ (length_le_packetBytes blocks)

end Handler

namespace Senders

/-- A call that puts packets on a stream: a message, or what a batch has gathered
in the calls on it so far. -/
inductive Call where
  | send (pub : Pub) (payload : Bytes)
  | batch (calls : List Batch.Call)

/-- The critical sections of a call, each with its packets: `sbfPub_send` takes
`mSendLock` once for all fragments, `sbfBatch_send` once for each packet. -/
def sections (mPacketSize : UInt16) (stream : StreamId) : Call → Except Fault (List (List Bytes))
  | .send pub payload => (pub.send mPacketSize payload).map ([·])
  | .batch calls =>
      (Batch.run mPacketSize calls Batch.create).map
        (fun result => (packetsOn stream result.1.send.2).map ([·]))

/-- The messages of a call. -/
def messages (stream : StreamId) : Call → List Message
  | .send pub payload => [⟨pub.mTopic.mTopic.chars, payload⟩]
  | .batch calls => Batch.pendingAfter (fun _ => []) calls stream

/-- A call for publishers of one stream and topic, whose messages can be sent. -/
def Valid (mPacketSize : UInt16) (stream : StreamId) (name : Bytes) : Call → Prop
  | .send pub payload =>
      pub.CanSend mPacketSize payload ∧ pub.mTportStream = stream ∧ pub.mTopic.mTopic.chars = name
  | .batch calls =>
      Batch.Allowed mPacketSize Batch.create calls ∧
        ∀ message ∈ Batch.pendingAfter (fun _ => []) calls stream, message.topic = name

/-- The sections of a thread that makes these calls one after the other. -/
def program (mPacketSize : UInt16) (stream : StreamId) :
    List Call → Except Fault (List (List Bytes))
  | [] => .ok []
  | call :: rest => do
      let first ← sections mPacketSize stream call
      let later ← program mPacketSize stream rest
      return first ++ later

/-- What the threads still have to send, and the receiving end of the stream. -/
structure System where
  threads : List (List (List Bytes))
  topics : List TportTopic

/-- A thread takes its next section: nobody else's packets come in between. -/
def step (thread : Nat) : Step Fault System Dispatch := fun system =>
  match system.threads[thread]? with
  | some (taken :: rest) => do
      let (topics, sent) ← Handler.packets taken system.topics
      return (⟨system.threads.set thread rest, topics⟩, sent)
  | _ => .ok (system, [])

def run (schedule : List Nat) : Step Fault System Dispatch := Step.all (schedule.map step)

/-- A section with a fragment in one of its packets. -/
def HasFragment (taken : List Bytes) : Prop :=
  ∃ packet ∈ taken, ∃ number ∈ Handler.fragNums packet, number ≠ 0

/-- The next packet of a thread goes on with a message. -/
def MidMessage (system : System) (thread : Nat) : Prop :=
  ∃ packet packets rest number others,
    system.threads[thread]? = some ((packet :: packets) :: rest) ∧
    Handler.fragNums packet = number :: others ∧ 1 < number

/-- The next section of a thread does not break into the message of another. -/
def Clear (system : System) (thread : Nat) : Prop :=
  ∀ taken rest, system.threads[thread]? = some (taken :: rest) → HasFragment taken →
    ∀ other, other ≠ thread → ¬ MidMessage system other

/-- A schedule with a clear step in every state it comes to. -/
def AllClear (system : System) (schedule : List Nat) : Prop :=
  Step.Along step Clear system schedule

instance (taken : List Bytes) : Decidable (HasFragment taken) :=
  inferInstanceAs (Decidable (∃ packet ∈ taken, ∃ number ∈ Handler.fragNums packet, number ≠ 0))

theorem midMessage_iff (system : System) (thread : Nat) :
    MidMessage system thread ↔
      (match system.threads[thread]? with
        | some ((packet :: _) :: _) => (Handler.fragNums packet).head?.any (1 < ·)
        | _ => false) = true := by
  constructor
  · rintro ⟨packet, packets, rest, number, others, here, numbers, later⟩
    simp only [here, numbers, List.head?_cons, Option.any_some, later, decide_true]
  · intro found
    split at found
    · rename_i packet packets rest here
      cases numbers : Handler.fragNums packet with
      | nil => simp [numbers] at found
      | cons number others =>
          exact ⟨packet, packets, rest, number, others, here, numbers, by simpa [numbers] using found⟩
    · cases found

instance (system : System) (thread : Nat) : Decidable (MidMessage system thread) :=
  decidable_of_iff _ (midMessage_iff system thread).symm

theorem clear_iff (system : System) (thread : Nat) :
    Clear system thread ↔
      ∀ sections ∈ system.threads[thread]?, ∀ taken ∈ sections.head?, HasFragment taken →
        ∀ other < system.threads.length, other ≠ thread → ¬ MidMessage system other := by
  constructor
  · intro clear sections here taken first fragment other _ differs
    obtain ⟨rest, rfl⟩ := List.head?_eq_some_iff.mp first
    exact clear taken rest here fragment other differs
  · rintro clear taken rest here fragment other differs ⟨_, _, _, _, _, there, within⟩
    exact clear _ here taken rfl fragment other (List.getElem?_eq_some_iff.mp there).1 differs
      ⟨_, _, _, _, _, there, within⟩

instance (system : System) (thread : Nat) : Decidable (Clear system thread) :=
  decidable_of_iff _ (clear_iff system thread).symm

instance (system : System) (schedule : List Nat) : Decidable (AllClear system schedule) :=
  inferInstanceAs (Decidable (Step.Along _ _ _ _))

/-- Sections as blocks: nonempty, and of sound packets of one topic. -/
def WellFormed (mPacketSize : UInt16) (name : Bytes) (parts : List (List (List Block))) : Prop :=
  ∀ taken ∈ parts, taken ≠ [] ∧ ∀ packet ∈ taken, Handler.Closed packet ∧
    Handler.Packed mPacketSize packet ∧ ∀ block ∈ packet, block.name = name

/-- The bytes of sections. -/
def sectionBytes (parts : List (List (List Block))) : List (List Bytes) :=
  parts.map (·.map Handler.packetBytes)

theorem named_of_carriesAll {name : Bytes} {blocks : List Block} {messages : List Message}
    (carries : CarriesAll blocks messages) (topic : ∀ message ∈ messages, message.topic = name) :
    ∀ block ∈ blocks, block.name = name := by
  obtain ⟨parts, rfl, carried⟩ := carries
  induction carried with
  | nil => exact List.forall_mem_nil _
  | @cons part message parts messages first rest ih =>
      intro block member
      rw [List.flatten_cons] at member
      rcases List.mem_append.mp member with inside | behind
      · rw [first.name_eq block inside]
        exact topic message (by simp)
      · exact ih (fun other found => topic other (by simp [found])) block behind

/-- The sections of a valid call carry its messages. -/
theorem sections_carry (mPacketSize : UInt16) (stream : StreamId) (name : Bytes) (call : Call)
    (valid : Valid mPacketSize stream name call) :
    ∃ parts, sections mPacketSize stream call = .ok (sectionBytes parts) ∧
      WellFormed mPacketSize name parts ∧
      CarriesAll parts.flatten.flatten (messages stream call) := by
  cases call with
  | send pub payload =>
      obtain ⟨can, _, topic⟩ := valid
      obtain ⟨blocks, sent, _, alone, carries⟩ := pub.send_carries mPacketSize payload can
      have flat : ([blocks.map ([·])] : List (List (List Block))).flatten.flatten = blocks := by
        rw [List.flatten_singleton, ← List.flatMap_def]
        simp
      refine ⟨[blocks.map ([·])], ?_, ?_, by rw [flat]; exact .of_carries carries⟩
      · simp only [sections, sent, Except.map, sectionBytes, List.map_cons, List.map_nil,
          List.map_map]
        congr 3
        funext block
        simp [Handler.packetBytes]
      · intro taken member
        rw [List.mem_singleton.mp member]
        refine ⟨by simpa using carries.nonempty, ?_⟩
        intro packet inside
        obtain ⟨block, block_in, rfl⟩ := List.mem_map.mp inside
        have here := alone block block_in
        refine ⟨here.last, ⟨?_, by simpa [Handler.packetBytes] using here.fits⟩, ?_⟩
        · intro other found
          rw [List.mem_singleton.mp found]
          exact here.sound
        · intro other found
          rw [List.mem_singleton.mp found, carries.name_eq block block_in]
          exact topic
  | batch calls =>
      obtain ⟨allowed, topic⟩ := valid
      obtain ⟨batch, out, ran, held, _⟩ := Batch.run_pending mPacketSize calls Batch.create _
        (Batch.create_pending mPacketSize) allowed
      obtain ⟨_, packets⟩ := Batch.send_pending mPacketSize batch _ held
      obtain ⟨parts, bytes, packed, carries⟩ := packets stream
      have flat : (parts.map ([·])).flatten = parts := by
        rw [← List.flatMap_def]
        simp
      refine ⟨parts.map ([·]), ?_, ?_, by rw [flat]; exact carries⟩
      · simp only [sections, ran, Except.map, bytes, sectionBytes, List.map_map]
        rfl
      · intro taken member
        obtain ⟨packet, packet_in, rfl⟩ := List.mem_map.mp member
        refine ⟨by simp, ?_⟩
        intro other found
        rw [List.mem_singleton.mp found]
        refine ⟨(packed packet packet_in).1, (packed packet packet_in).2, ?_⟩
        intro block inside
        exact named_of_carriesAll carries topic block (List.mem_flatten.mpr ⟨packet, packet_in, inside⟩)

/-- And so do the sections of a thread. -/
theorem program_carries (mPacketSize : UInt16) (stream : StreamId) (name : Bytes)
    (calls : List Call) (valid : ∀ call ∈ calls, Valid mPacketSize stream name call) :
    ∃ parts, program mPacketSize stream calls = .ok (sectionBytes parts) ∧
      WellFormed mPacketSize name parts ∧
      CarriesAll parts.flatten.flatten (calls.flatMap (messages stream)) := by
  induction calls with
  | nil => exact ⟨[], rfl, List.forall_mem_nil _, .nil⟩
  | cons call rest ih =>
      obtain ⟨first, ran, formed, carries⟩ := sections_carry mPacketSize stream name call
        (valid call (by simp))
      obtain ⟨later, ran', formed', carries'⟩ := ih (fun other member => valid other (by simp [member]))
      refine ⟨first ++ later, ?_, ?_, ?_⟩
      · simp only [program, ran, ran', bind, Except.bind, pure, Except.pure, sectionBytes,
          List.map_append]
      · intro taken member
        exact (List.mem_append.mp member).elim (formed taken) (formed' taken)
      · rw [List.flatten_append, List.flatten_append, List.flatMap_cons]
        exact carries.append carries'

end Senders

end Sbf
