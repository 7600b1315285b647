import Sbf.HandlerBlocks
import Sbf.OnePerTick

set_option autoImplicit false

namespace Sbf.TcpMesh

open Octets Handler

/-- The size of the handler's pool buffers. -/
def poolSize : Nat := 65536

/-- `sbfTcpMeshHandlerConnectionReadCb` on an input buffer, with what it gives to
`sbfHandler_packet`; `handle` says whether `mHandle` is set. -/
def readCb (handle : Bool) : Step Fault Bytes Bytes := fun input =>
  if size input = 0 then .ok (input, [])
  else if handle then
    if size input > poolSize then .error .outside
    else .ok (input.drop (size input), [input.take (size input)])
  else .ok (input.drop (size input), [])

/-- One callback after each chunk is appended. The first `unopened` of them come
before the transport has a stream. -/
def readAll : Nat → List Bytes → Step Fault Bytes Bytes
  | _, [] => Step.skip
  | unopened, chunk :: rest => fun input =>
      (readCb (unopened = 0)).andThen (readAll (unopened - 1) rest) (input ++ chunk)

/-- The messages that are complete in the first so many bytes. -/
def completed : List Block → Nat → Nat
  | [], _ => 0
  | block :: rest, arrived =>
      if block.bytes.length ≤ arrived then completed rest (arrived - block.bytes.length) + 1 else 0

theorem le_completed_iff (blocks : List Block) (arrived goal : Nat) :
    goal ≤ completed blocks arrived ↔
      goal ≤ blocks.length ∧ (packetBytes (blocks.take goal)).length ≤ arrived := by
  induction blocks generalizing arrived goal with
  | nil => simp [completed, packetBytes]
  | cons block rest ih =>
      cases goal with
      | zero => simp [packetBytes]
      | succ goal =>
          rw [completed, List.take_succ_cons, packetBytes_cons, List.length_append,
            List.length_cons]
          split
          · have behind := ih (arrived - block.bytes.length) goal
            omega
          · omega

/-- The front of the input decides what `sbfHandler_size` says. -/
theorem size_front (block : Block) (sound : block.Sound) (input more back : Bytes)
    (stream : input ++ more = block.bytes ++ back) :
    size input = if block.bytes.length ≤ input.length then block.bytes.length else 0 := by
  have least : TportHeader.size ≤ block.bytes.length := by
    rw [Block.bytes_length]
    omega
  by_cases short : input.length < TportHeader.size
  · have unread : TportHeader.decode input = none := by
      by_contra read
      obtain ⟨hdr, decoded⟩ := Option.ne_none_iff_exists'.mp read
      have long := (TportHeader.decode_isSome_iff input).mp ⟨hdr, decoded⟩
      omega
    simp only [size, unread]
    rw [if_neg (by omega)]
  · have front : input.take TportHeader.size = block.hdr.encode := by
      have first := congrArg (List.take TportHeader.size) stream
      rw [List.take_append_of_le_length (by omega)] at first
      rw [first, Block.bytes, HeaderBlock.bytes, List.append_assoc, List.append_assoc,
        ← TportHeader.encode_length block.hdr, List.take_left]
    have read : TportHeader.decode input = some block.hdr := by
      rw [← List.take_append_drop TportHeader.size input, front, TportHeader.decode_encode]
    simp only [size, read, sound.used]
    split
    · rw [if_neg (by omega)]
    · rw [if_pos (by omega)]

/-- A stream of well-formed messages, cut off inside the one that follows them. -/
structure Written (messages : List Block) (tail : Bytes) : Prop where
  sound : ∀ block ∈ messages, block.Sound
  frames : ∀ block ∈ messages, block.bytes.length ≤ poolSize
  incomplete : ∃ (block : Block) (more : Bytes), block.Sound ∧ tail ++ more = block.bytes ∧ more ≠ []

/-- The messages complete after each chunk, when so many bytes came before. -/
def totals (messages : List Block) : Nat → List Bytes → List Nat
  | _, [] => []
  | received, chunk :: rest =>
      completed messages (received + chunk.length) ::
        totals messages (received + chunk.length) rest

theorem totals_length (messages : List Block) (received : Nat) (chunks : List Bytes) :
    (totals messages received chunks).length = chunks.length := by
  induction chunks generalizing received with
  | nil => rfl
  | cons chunk rest ih => simp only [totals, List.length_cons, ih]

theorem totals_get (messages : List Block) (received : Nat) (chunks : List Bytes) (i : Nat)
    (inside : i < chunks.length) : (totals messages received chunks)[i]? =
      some (completed messages (received + (chunks.take (i + 1)).flatten.length)) := by
  induction chunks generalizing received i with
  | nil => cases inside
  | cons chunk rest ih =>
      cases i with
      | zero => simp [totals]
      | succ i =>
          rw [totals, List.getElem?_cons_succ, ih _ i (by simpa using inside)]
          simp [Nat.add_assoc]

theorem completed_mono (messages : List Block) (before after : Nat) (order : before ≤ after) :
    completed messages before ≤ completed messages after := by
  rw [le_completed_iff]
  have own := (le_completed_iff messages before (completed messages before)).mp (Nat.le_refl _)
  omega

theorem totals_ge (messages : List Block) (received : Nat) (chunks : List Bytes) (total : Nat)
    (member : total ∈ totals messages received chunks) : completed messages received ≤ total := by
  obtain ⟨i, found⟩ := List.getElem?_of_mem member
  by_cases inside : i < chunks.length
  · rw [totals_get messages received chunks i inside] at found
    cases found
    exact completed_mono messages _ _ (by omega)
  · rw [List.getElem?_eq_none (by rw [totals_length]; omega)] at found
    cases found

theorem totals_le (messages : List Block) (received : Nat) (chunks : List Bytes) :
    ∀ total ∈ totals messages received chunks, total ≤ messages.length := by
  induction chunks generalizing received with
  | nil => exact List.forall_mem_nil _
  | cons chunk rest ih =>
      intro total member
      rcases List.mem_cons.mp member with rfl | inside
      · exact ((le_completed_iff messages _ _).mp (Nat.le_refl _)).1
      · exact ih _ total inside

theorem completed_zero (messages : List Block) : completed messages 0 = 0 := by
  cases messages with
  | nil => rfl
  | cons block rest =>
      have nonempty : ¬ block.bytes.length ≤ 0 := by
        rw [Block.bytes_length, TportHeader.size]
        omega
      simp only [completed, if_neg nonempty]

open OnePerTick

/-- How far one message for each chunk gets, in terms of the bytes that came. -/
theorem le_served_totals_iff (messages : List Block) (chunks : List Bytes) (goal : Nat) :
    goal ≤ served 0 (totals messages 0 chunks) ↔ ∀ i, i ≤ chunks.length →
      goal ≤ completed messages (chunks.take i).flatten.length + (chunks.length - i) := by
  rw [le_served_iff, totals_length]
  constructor
  · rintro ⟨start, each⟩ i inside
    cases i with
    | zero =>
        rw [List.take_zero, List.flatten_nil, List.length_nil, completed_zero]
        omega
    | succ i =>
        have here := each i _ (totals_get messages 0 chunks i (by omega))
        rwa [Nat.zero_add] at here
  · intro each
    have start := each 0 (Nat.zero_le _)
    rw [List.take_zero, List.flatten_nil, List.length_nil, completed_zero] at start
    refine ⟨by omega, ?_⟩
    intro i total found
    have inside : i < chunks.length := by
      have bound := (List.getElem?_eq_some_iff.mp found).1
      rwa [totals_length] at bound
    rw [totals_get messages 0 chunks i inside] at found
    cases found
    rw [Nat.zero_add]
    exact each (i + 1) inside

/-- Nothing is taken exactly when no message is complete. -/
theorem served_totals_eq_zero (messages : List Block) (chunks : List Bytes) :
    served 0 (totals messages 0 chunks) = 0 ↔ completed messages chunks.flatten.length = 0 := by
  have one := le_served_totals_iff messages chunks 1
  constructor
  · intro nothing
    by_contra some_complete
    have all : 1 ≤ served 0 (totals messages 0 chunks) := one.mpr (by
      intro i inside
      by_cases last : i = chunks.length
      · rw [last, List.take_length]
        omega
      · omega)
    omega
  · intro nothing
    by_contra some_taken
    have last := one.mp (by omega) chunks.length (Nat.le_refl _)
    rw [List.take_length, nothing] at last
    omega

theorem drop_take_next {α : Type} {items : List α} {item : α} {taken last : Nat}
    (split : items.drop taken = item :: items.drop (taken + 1)) (order : taken + 1 ≤ last) :
    (items.take last).drop taken = item :: (items.take last).drop (taken + 1) := by
  obtain ⟨more, rfl⟩ := Nat.exists_eq_add_of_le order
  rw [List.drop_take, List.drop_take, split, show taken + 1 + more - taken = more + 1 by omega,
    List.take_succ_cons, Nat.add_sub_cancel_left]

section Read

variable (messages : List Block) (tail : Bytes) (written : Written messages tail)
include written

/-- A callback takes the next message when it is complete, and nothing otherwise. -/
theorem readCb_next (handle : Bool) (taken : Nat) (within : taken ≤ messages.length)
    (input future : Bytes)
    (stream : input ++ future = packetBytes (messages.drop taken) ++ tail) :
    if taken + 1 ≤ completed messages ((packetBytes (messages.take taken)).length + input.length)
    then ∃ block rest, messages.drop taken = block :: messages.drop (taken + 1) ∧
      input = block.bytes ++ rest ∧
      readCb handle input = .ok (rest, if handle then [block.bytes] else [])
    else readCb handle input = .ok (input, []) := by
  by_cases more : taken < messages.length
  · have split := List.drop_eq_getElem_cons more
    have member : messages[taken] ∈ messages := List.getElem_mem more
    have front := size_front messages[taken] (written.sound _ member) input future
      (packetBytes (messages.drop (taken + 1)) ++ tail)
      (by rw [stream, split, packetBytes_cons, List.append_assoc])
    have positive : messages[taken].bytes.length ≠ 0 := by
      rw [Block.bytes_length, TportHeader.size]
      omega
    have reached : taken + 1 ≤
        completed messages ((packetBytes (messages.take taken)).length + input.length) ↔
        messages[taken].bytes.length ≤ input.length := by
      rw [le_completed_iff, List.take_succ_eq_append_getElem more, packetBytes_concat_length]
      omega
    split
    · rename_i enough
      rw [if_pos (reached.mp enough)] at front
      have whole : input.take messages[taken].bytes.length = messages[taken].bytes := by
        have first := congrArg (List.take messages[taken].bytes.length) stream
        rw [List.take_append_of_le_length (reached.mp enough), split, packetBytes_cons,
          List.append_assoc, List.take_left] at first
        exact first
      refine ⟨messages[taken], input.drop messages[taken].bytes.length, split, ?_, ?_⟩
      · conv => lhs; rw [← List.take_append_drop messages[taken].bytes.length input, whole]
      · have fits := written.frames _ member
        simp only [readCb, front, if_neg positive, whole]
        split
        · rw [if_neg (by omega)]
        · rfl
    · rename_i missing
      rw [if_neg (fun enough => missing (reached.mpr enough))] at front
      simp only [readCb, front, ↓reduceIte]
  · obtain ⟨block, rest, sound, last, nonempty⟩ := written.incomplete
    have all : messages.drop taken = [] := List.drop_eq_nil_of_le (by omega)
    rw [all] at stream
    have front := size_front block sound input (future ++ rest) [] (by
      rw [← List.append_assoc, stream, List.append_nil, ← last]
      rfl)
    have short : input.length < block.bytes.length := by
      have length := congrArg List.length stream
      have some_more := List.length_pos_of_ne_nil nonempty
      rw [← last]
      simp only [packetBytes, List.map_nil, List.flatten_nil, List.nil_append,
        List.length_append] at length ⊢
      omega
    rw [if_neg (by omega)] at front
    have none_left : ¬ taken + 1 ≤
        completed messages ((packetBytes (messages.take taken)).length + input.length) := by
      rw [le_completed_iff]
      omega
    rw [if_neg none_left]
    simp only [readCb, front, ↓reduceIte]

omit written in
/-- The stream behind the next message, when that one is taken off the input. -/
theorem stream_behind (taken : Nat) (within : taken < messages.length) (block : Block)
    (input left future : Bytes) (split : messages.drop taken = block :: messages.drop (taken + 1))
    (shape : input = block.bytes ++ left)
    (stream : input ++ future = packetBytes (messages.drop taken) ++ tail) :
    left ++ future = packetBytes (messages.drop (taken + 1)) ++ tail ∧
      (packetBytes (messages.take taken)).length + input.length =
        (packetBytes (messages.take (taken + 1))).length + left.length := by
  constructor
  · rw [split, packetBytes_cons, shape, List.append_assoc, List.append_assoc] at stream
    exact List.append_cancel_left stream
  · have first := List.drop_eq_getElem_cons within
    rw [split, List.cons.injEq] at first
    rw [List.take_succ_eq_append_getElem within, packetBytes_concat_length, ← first.1, shape,
      List.length_append, Nat.add_assoc]

/-- After any chunks the messages taken are those that one callback for each chunk
can serve, and those taken before there was a stream are lost. -/
theorem readAll_served (chunks : List Bytes) (unopened taken received : Nat)
    (within : taken ≤ messages.length) (input : Bytes)
    (stream : input ++ chunks.flatten = packetBytes (messages.drop taken) ++ tail)
    (count : received = (packetBytes (messages.take taken)).length + input.length) :
    readAll unopened chunks input =
      .ok (packetBytes (messages.drop (served taken (totals messages received chunks))) ++ tail,
        ((messages.take (served taken (totals messages received chunks))).drop
          (served taken (totals messages received (chunks.take unopened)))).map Block.bytes) := by
  induction chunks generalizing unopened taken received input with
  | nil =>
      simp only [List.flatten_nil, List.append_nil] at stream
      simp [readAll, Step.skip, totals, served, stream]
  | cons chunk rest ih =>
      rw [List.flatten_cons, ← List.append_assoc] at stream
      have next := readCb_next messages tail written (unopened = 0) taken within (input ++ chunk)
        rest.flatten stream
      have arrived : (packetBytes (messages.take taken)).length + (input ++ chunk).length =
          received + chunk.length := by
        rw [count, List.length_append, Nat.add_assoc]
      rw [arrived] at next
      have unfolded : readAll unopened (chunk :: rest) input =
          (readCb (unopened = 0)).andThen (readAll (unopened - 1) rest) (input ++ chunk) := rfl
      split at next
      · rename_i complete
        obtain ⟨block, left, split, shape, ran⟩ := next
        have more : taken < messages.length := by
          have bound := (le_completed_iff messages _ _).mp complete
          omega
        obtain ⟨stream', arrived'⟩ := stream_behind messages tail taken more block _ left _ split
          shape stream
        have later := ih (unopened - 1) (taken + 1) (received + chunk.length) more left stream'
          (by omega)
        rw [unfolded, Step.andThen_ok ran, later, totals, served_next _ _ _ complete]
        cases unopened with
        | zero =>
            have further := le_served (taken + 1) (totals messages (received + chunk.length) rest)
              (fun total member => Nat.le_trans complete (totals_ge _ _ _ _ member))
            simp only [Nat.zero_sub, List.take_zero, totals, served, decide_true, ↓reduceIte,
              drop_take_next split further, List.map_cons, List.singleton_append]
        | succ unopened =>
            rw [List.take_succ_cons, totals, served_next _ _ _ complete]
            simp
      · rename_i missing
        have waits : completed messages (received + chunk.length) = taken := by
          have reached : taken ≤ completed messages (received + chunk.length) := by
            rw [le_completed_iff]
            omega
          omega
        have later := ih (unopened - 1) taken (received + chunk.length) within (input ++ chunk)
          stream arrived.symm
        rw [unfolded, Step.andThen_ok next, later, totals, waits, served_waits]
        cases unopened with
        | zero => rfl
        | succ unopened =>
            rw [List.take_succ_cons, totals, waits, served_waits]
            rfl

/-- When the callback for the last chunk returns, every complete message has been
passed on, in order, and the rest is in the buffer, exactly when no stream is
missing once a message is complete, and the chunks from any point on complete at
most as many messages as they are. -/
theorem readAll_delivers_iff (unopened : Nat) (chunks : List Bytes)
    (stream : chunks.flatten = packetBytes messages ++ tail) :
    readAll unopened chunks [] = .ok (tail, messages.map Block.bytes) ↔
      completed messages (chunks.take unopened).flatten.length = 0 ∧
        ∀ i, i ≤ chunks.length →
          messages.length ≤ completed messages (chunks.take i).flatten.length +
            (chunks.length - i) := by
  have run := readAll_served messages tail written chunks unopened 0 0 (Nat.zero_le _) []
    (by rw [List.nil_append, List.drop_zero, stream]) rfl
  rw [run, ← served_totals_eq_zero, ← le_served_totals_iff]
  have bound : ∀ others, served 0 (totals messages 0 others) ≤ messages.length := by
    intro others
    exact served_le _ _ _ (Nat.zero_le _) (totals_le messages 0 others)
  constructor
  · intro same
    have passed := congrArg List.length (Prod.mk.inj (Except.ok.inj same)).2
    have most := bound chunks
    have lost := bound (chunks.take unopened)
    rw [List.length_map, List.length_map, List.length_drop, List.length_take,
      Nat.min_eq_left most] at passed
    omega
  · rintro ⟨none_lost, all⟩
    have whole : served 0 (totals messages 0 chunks) = messages.length :=
      Nat.le_antisymm (bound chunks) all
    rw [none_lost, whole, List.drop_length, List.take_length, List.drop_zero]
    rfl

end Read

/-- A message without topic and payload. -/
def bare : Block := ⟨⟨⟨0, 0, 1, TportHeader.lastInPacket⟩, [0]⟩, []⟩

theorem bare_written (count : Nat) : Written (List.replicate count bare) [] where
  sound := by
    intro block member
    rw [List.eq_of_mem_replicate member]
    exact ⟨rfl, rfl, rfl⟩
  frames := by
    intro block member
    rw [List.eq_of_mem_replicate member]
    decide
  incomplete := ⟨bare, bare.bytes, ⟨rfl, rfl, rfl⟩, rfl, by decide⟩

/-- Two messages in three chunks, none of which completes both. -/
theorem readAll_delivers_bare : readAll 0 [[0, 0, 0], [1, 1, 0, 0], [0, 0, 1, 1, 0]] [] =
    .ok ([], [bare.bytes, bare.bytes]) :=
  (readAll_delivers_iff [bare, bare] [] (bare_written 2) 0 _ rfl).mpr ⟨rfl, by decide⟩

/-- Two messages in one chunk: the second one stays in the input buffer. -/
theorem readAll_stuck : ∃ messages chunks, Written messages [] ∧
    chunks.flatten = packetBytes messages ∧
    readAll 0 chunks [] ≠ .ok ([], messages.map Block.bytes) := by
  refine ⟨[bare, bare], [bare.bytes ++ bare.bytes], bare_written 2, rfl, ?_⟩
  intro same
  have passed := congrArg List.length (Prod.mk.inj (Except.ok.inj same)).2
  exact absurd passed (by decide)

end Sbf.TcpMesh
