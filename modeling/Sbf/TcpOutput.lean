import Sbf.Octets
import Sbf.RefMemory
import Sbf.TportHeader

set_option autoImplicit false

/-! What a TCP connection writes: copies of the user's bytes, and references to the user's buffers
that are given back when they are written. -/

namespace Sbf

open Octets

/-- A piece of an output buffer: bytes that were copied, or a buffer from an offset on. -/
inductive OutputBlock where
  | copied (bytes : Bytes)
  | reference (buffer offset : Nat)
deriving DecidableEq, Repr

/-- The sending side of `struct sbfTcpConnectionImpl`; `mEvent` tells whether there is a
bufferevent, and `output` is what it still has to write. The buffers are those of the user, who
holds the references in `users`. The last two are history. -/
structure TcpOutput where
  mEvent : Bool
  output : List OutputBlock
  buffers : RefMemory Bytes
  users : List Nat
  sent : Bytes
  written : Bytes

namespace OutputBlock

/-- The block refers to the buffer. -/
def holds (id : Nat) : OutputBlock → Bool
  | .copied _ => false
  | .reference buffer _ => buffer = id

/-- What a read of the block finds. -/
def read (buffers : RefMemory Bytes) : OutputBlock → Except Fault Bytes
  | .copied bytes => .ok bytes
  | .reference buffer offset =>
      match buffers.find buffer with
      | none => .error .freed
      | some data => .ok (data.drop offset)

/-- The bytes of the block, of which there are none once its buffer is freed. -/
def bytes (buffers : RefMemory Bytes) : OutputBlock → Bytes
  | .copied bytes => bytes
  | .reference buffer offset => ((buffers.find buffer).getD []).drop offset

def advance (count : Nat) : OutputBlock → OutputBlock
  | .copied bytes => .copied (bytes.drop count)
  | .reference buffer offset => .reference buffer (offset + count)

end OutputBlock

namespace TcpOutput

/-- `sbfBuffer_destroy` -/
def destroyBuffer (id : Nat) (buffers : RefMemory Bytes) : Except Fault (RefMemory Bytes) :=
  match buffers.drop id with
  | none => .error .freed
  | some (after, _) => .ok after

/-- `sbfBuffer_addRef` -/
def addRef (id : Nat) (buffers : RefMemory Bytes) : Except Fault (RefMemory Bytes) :=
  match buffers.addRef id with
  | none => .error .freed
  | some after => .ok after

/-- A block is freed, with `sbfTcpConnectionBufferFreeCb` for a reference. -/
def release (buffers : RefMemory Bytes) : OutputBlock → Except Fault (RefMemory Bytes)
  | .copied _ => .ok buffers
  | .reference buffer _ => destroyBuffer buffer buffers

/-- So many bytes are written, and the blocks that they empty are freed. -/
def drain : Nat → List OutputBlock → RefMemory Bytes →
    Except Fault (Bytes × List OutputBlock × RefMemory Bytes)
  | _, [], buffers => .ok ([], [], buffers)
  | count, block :: rest, buffers => do
      let bytes ← block.read buffers
      if bytes.length ≤ count then
        let buffers ← release buffers block
        let (more, rest, buffers) ← drain (count - bytes.length) rest buffers
        .ok (bytes ++ more, rest, buffers)
      else .ok (bytes.take count, block.advance count :: rest, buffers)

def create : TcpOutput := ⟨true, [], .empty, [], [], []⟩

/-- The user makes a buffer with `sbfBuffer_new` and fills it. -/
def newBuffer (data : Bytes) (tc : TcpOutput) : TcpOutput :=
  { tc with
    buffers := tc.buffers.obtain data
    users := tc.buffers.fresh :: tc.users }

/-- The user gives a reference of theirs back. -/
def dropBuffer (id : Nat) (tc : TcpOutput) : Except Fault TcpOutput :=
  if id ∈ tc.users then do
    .ok { tc with buffers := ← destroyBuffer id tc.buffers, users := tc.users.erase id }
  else .ok tc

/-- `sbfTcpConnection_send` -/
def send (data : Bytes) (tc : TcpOutput) : TcpOutput :=
  if tc.mEvent then
    { tc with output := tc.output ++ [.copied data], sent := tc.sent ++ data }
  else tc

/-- `sbfTcpConnection_sendBuffer` of a buffer that the user has a reference to, with whether
`evbuffer_add_reference` succeeds. -/
def sendBuffer (id : Nat) (success : Bool) (tc : TcpOutput) : Except Fault TcpOutput :=
  if tc.mEvent = true ∧ id ∈ tc.users then do
    let buffers ← addRef id tc.buffers
    let data ← OutputBlock.read buffers (.reference id 0)
    if success then
      .ok { tc with
        buffers
        output := tc.output ++ [.reference id 0]
        sent := tc.sent ++ data }
    else .ok { tc with buffers := ← destroyBuffer id buffers }
  else .ok tc

/-- The bufferevent writes to the socket. -/
def write (count : Nat) (tc : TcpOutput) : Except Fault TcpOutput := do
  let (bytes, output, buffers) ← drain count tc.output tc.buffers
  .ok { tc with output, buffers, written := tc.written ++ bytes }

/-- `sbfTcpConnection_destroy`, which frees the output. -/
def destroy (tc : TcpOutput) : Except Fault TcpOutput := do
  .ok { tc with
    mEvent := false
    output := []
    buffers := ← tc.output.foldlM release tc.buffers }

inductive Action where
  | newBuffer (data : Bytes)
  | dropBuffer (id : Nat)
  | send (data : Bytes)
  | sendBuffer (id : Nat) (success : Bool)
  | write (count : Nat)
  | destroy
deriving DecidableEq, Repr

def step (tc : TcpOutput) : Action → Except Fault TcpOutput
  | .newBuffer data => .ok (tc.newBuffer data)
  | .dropBuffer id => tc.dropBuffer id
  | .send data => .ok (tc.send data)
  | .sendBuffer id success => tc.sendBuffer id success
  | .write count => tc.write count
  | .destroy => tc.destroy

/-- What is still to be written. -/
def pending (buffers : RefMemory Bytes) (output : List OutputBlock) : Bytes :=
  (output.map (·.bytes buffers)).flatten

/-- The references to a buffer: so many of others, and one for each block. -/
def refs (others : Nat → Nat) (output : List OutputBlock) (id : Nat) : Nat :=
  others id + output.countP (·.holds id)

variable {buffers after : RefMemory Bytes} {others : Nat → Nat} {output rest : List OutputBlock}
  {block : OutputBlock} {id count : Nat} {tc : TcpOutput}

theorem pending_append (first second : List OutputBlock) :
    pending buffers (first ++ second) = pending buffers first ++ pending buffers second := by
  simp [pending]

theorem pending_cons : pending buffers (block :: rest) =
    block.bytes buffers ++ pending buffers rest := rfl

/-- The bytes of a block do not depend on buffers that it does not refer to. -/
theorem pending_congr
    (same : ∀ id, (∃ block ∈ output, block.holds id = true) → after.find id = buffers.find id) :
    pending after output = pending buffers output := by
  refine congrArg List.flatten (List.map_congr_left fun block inside => ?_)
  cases block with
  | copied bytes => rfl
  | reference buffer offset =>
      have found := same buffer ⟨_, inside, by simp [OutputBlock.holds]⟩
      simp only [OutputBlock.bytes, found]

theorem refs_held (inside : block ∈ output) (holds : block.holds id = true) :
    0 < refs others output id :=
  Nat.add_pos_right _ (List.countP_pos_iff.mpr ⟨block, inside, holds⟩)

/-- A block whose buffer is there can be read. -/
theorem read_ok (sound : buffers.Sound (refs others output)) (inside : block ∈ output) :
    block.read buffers = .ok (block.bytes buffers) := by
  cases block with
  | copied bytes => rfl
  | reference buffer offset =>
      have there := (sound.find_isSome buffer).mpr (refs_held inside (by simp [OutputBlock.holds]))
      obtain ⟨data, found⟩ := Option.isSome_iff_exists.mp there
      simp only [OutputBlock.read, OutputBlock.bytes, found, Option.getD_some]

/-- A reference is given back, and the buffers that are still referred to stay as they are. -/
theorem destroyBuffer_ok {refs : Nat → Nat} (sound : buffers.Sound refs) (id : Nat)
    (refs' : Nat → Nat)
    (less : ∀ other, refs other = refs' other + if other = id then 1 else 0) : ∃ after,
    destroyBuffer id buffers = .ok after ∧ after.Sound refs' ∧ after.fresh = buffers.fresh ∧
      ∀ other, 0 < refs' other → after.find other = buffers.find other := by
  have held : 0 < refs id := by
    rw [less, if_pos rfl]
    omega
  obtain ⟨after, data, -, kept, fresh, ⟨-, ran, same⟩ | ⟨last, ran, gone, -⟩⟩ :=
    sound.drop id refs' held less
  · exact ⟨after, by rw [destroyBuffer, ran], kept, fresh, fun other _ => same.find other⟩
  · refine ⟨after, by rw [destroyBuffer, ran], kept, fresh, fun other more => ?_⟩
    rw [gone, if_neg]
    rintro rfl
    omega

theorem release_ok (sound : buffers.Sound (refs others (block :: rest))) : ∃ after,
    release buffers block = .ok after ∧ after.Sound (refs others rest) ∧
      after.fresh = buffers.fresh ∧ pending after rest = pending buffers rest := by
  cases block with
  | copied bytes =>
      refine ⟨buffers, rfl, sound.congr fun id => ?_, rfl, rfl⟩
      simp [refs, OutputBlock.holds]
  | reference buffer offset =>
      obtain ⟨after, ran, kept, fresh, same⟩ := destroyBuffer_ok sound buffer
        (refs others rest) (fun other => by
          simp only [refs, List.countP_cons, OutputBlock.holds, decide_eq_true_eq,
            eq_comm (a := buffer)]
          omega)
      refine ⟨after, ran, kept, fresh, pending_congr ?_⟩
      rintro other ⟨block, inside, holds⟩
      exact same other (refs_held inside holds)

/-- What is written is the front of what was pending, and no reference is lost. -/
theorem drain_ok (sound : buffers.Sound (refs others output)) : ∃ bytes left after,
    drain count output buffers = .ok (bytes, left, after) ∧ after.Sound (refs others left) ∧
      after.fresh = buffers.fresh ∧ bytes ++ pending after left = pending buffers output := by
  induction output generalizing count buffers with
  | nil => exact ⟨[], [], buffers, rfl, sound, rfl, rfl⟩
  | cons block rest ih =>
      have read := read_ok sound List.mem_cons_self
      by_cases whole : (block.bytes buffers).length ≤ count
      · obtain ⟨next, released, kept, fresh, same⟩ := release_ok sound
        obtain ⟨bytes, left, after, ran, done, fresh', split⟩ :=
          @ih next (count - (block.bytes buffers).length) kept
        refine ⟨block.bytes buffers ++ bytes, left, after, ?_, done, fresh'.trans fresh, ?_⟩
        · simp only [drain, read, bind, Except.bind, whole, ↓reduceIte, released, ran]
        · rw [List.append_assoc, split, same, pending_cons]
      · refine ⟨(block.bytes buffers).take count, block.advance count :: rest, buffers, ?_, ?_,
          rfl, ?_⟩
        · simp only [drain, read, bind, Except.bind, whole, ↓reduceIte]
        · refine sound.congr fun id => ?_
          cases block <;> rfl
        · rw [pending_cons, pending_cons, ← List.append_assoc]
          congr 1
          cases block with
          | copied bytes => exact List.take_append_drop count bytes
          | reference buffer offset =>
              simp only [OutputBlock.bytes, OutputBlock.advance]
              rw [← List.drop_drop]
              exact List.take_append_drop ..

/-- All blocks are freed. -/
theorem releaseAll_ok (sound : buffers.Sound (refs others output)) : ∃ after,
    output.foldlM release buffers = .ok after ∧ after.Sound (refs others []) := by
  induction output generalizing buffers with
  | nil => exact ⟨buffers, rfl, sound⟩
  | cons block rest ih =>
      obtain ⟨next, released, kept, -, -⟩ := release_ok sound
      obtain ⟨after, ran, done⟩ := ih kept
      refine ⟨after, ?_, done⟩
      rw [List.foldlM_cons, released]
      exact ran

/-- Every reference is the user's or that of a block, and what was written and what is pending
are what was sent. -/
structure Sound (tc : TcpOutput) : Prop where
  memory : tc.buffers.Sound (refs (fun id => tc.users.count id) tc.output)
  bytes : tc.mEvent = true → tc.written ++ pending tc.buffers tc.output = tc.sent
  front : tc.written <+: tc.sent
  closed : tc.mEvent = false → tc.output = []

theorem create_sound : create.Sound where
  memory := RefMemory.empty_sound.congr fun _ => rfl
  bytes := fun _ => rfl
  front := List.prefix_refl _
  closed := fun closed => by cases closed

namespace Sound

theorem newBuffer (sound : tc.Sound) (data : Bytes) : (tc.newBuffer data).Sound := by
  have unused : ∀ id, (∃ block ∈ tc.output, block.holds id = true) → id ≠ tc.buffers.fresh := by
    rintro id ⟨block, inside, holds⟩
    exact (sound.memory.lt_fresh (refs_held inside holds)).ne
  have same : pending (tc.buffers.obtain data) tc.output = pending tc.buffers tc.output := by
    refine pending_congr fun id held => ?_
    rw [RefMemory.find_obtain, if_neg (unused id held)]
  refine ⟨sound.memory.obtain data fun id => ?_, fun alive => ?_, sound.front, sound.closed⟩
  · simp only [TcpOutput.newBuffer, refs, List.count_cons, beq_iff_eq,
      eq_comm (a := tc.buffers.fresh)]
    omega
  · exact (congrArg (tc.written ++ ·) same).trans (sound.bytes alive)

theorem dropBuffer (sound : tc.Sound) (id : Nat) : ∃ after,
    tc.dropBuffer id = .ok after ∧ after.Sound := by
  rw [TcpOutput.dropBuffer]
  split
  case isFalse => exact ⟨tc, rfl, sound⟩
  case isTrue held =>
    have some_ : 0 < tc.users.count id := List.count_pos_iff.mpr held
    obtain ⟨after, ran, kept, -, same⟩ := destroyBuffer_ok sound.memory id
      (refs (fun other => (tc.users.erase id).count other) tc.output) (fun other => by
        simp only [refs]
        split
        case isTrue here =>
          rw [here, List.count_erase_self]
          omega
        case isFalse apart => rw [List.count_erase_of_ne apart, Nat.add_zero])
    have unchanged : pending after tc.output = pending tc.buffers tc.output := by
      refine pending_congr ?_
      rintro other ⟨block, inside, holds⟩
      exact same other (refs_held inside holds)
    refine ⟨{ tc with buffers := after, users := tc.users.erase id }, ?_, kept, fun alive => ?_,
      sound.front, sound.closed⟩
    · simp only [ran, bind, Except.bind]
    · exact (congrArg (tc.written ++ ·) unchanged).trans (sound.bytes alive)

/-- A block at the end of the output. -/
theorem append (sound : tc.Sound) (alive : tc.mEvent = true) (block : OutputBlock)
    (memory : after.Sound (refs (fun id => tc.users.count id) (tc.output ++ [block])))
    (same : pending after tc.output = pending tc.buffers tc.output) :
    Sound { tc with
      buffers := after
      output := tc.output ++ [block]
      sent := tc.sent ++ block.bytes after } where
  memory := memory
  bytes := fun _ => by
    simp only [pending_append, same, ← List.append_assoc, sound.bytes alive]
    simp [pending]
  front := sound.front.trans (List.prefix_append _ _)
  closed := fun closed => absurd alive (by simp [show tc.mEvent = false from closed])

theorem send (sound : tc.Sound) (data : Bytes) : (tc.send data).Sound := by
  rw [TcpOutput.send]
  split
  case isFalse => exact sound
  case isTrue alive =>
    refine sound.append alive (.copied data) (sound.memory.congr fun id => ?_) rfl
    simp [refs, OutputBlock.holds]

theorem sendBuffer (sound : tc.Sound) (id : Nat) (success : Bool) : ∃ after,
    tc.sendBuffer id success = .ok after ∧ after.Sound := by
  rw [TcpOutput.sendBuffer]
  split
  case isFalse => exact ⟨tc, rfl, sound⟩
  case isTrue usable =>
    obtain ⟨alive, held⟩ := usable
    have some_ : 0 < tc.users.count id := List.count_pos_iff.mpr held
    obtain ⟨buffers, ran, kept, same⟩ := sound.memory.addRef id
      (refs (fun id => tc.users.count id) (tc.output ++ [.reference id 0]))
      (Nat.add_pos_left some_ _) (fun other => by
        simp only [refs, List.countP_append, List.countP_singleton, OutputBlock.holds,
          decide_eq_true_eq, eq_comm (a := id)]
        omega)
    have unchanged : pending buffers tc.output = pending tc.buffers tc.output :=
      pending_congr fun other _ => same.find other
    have read := read_ok kept (List.mem_append_right _ List.mem_cons_self)
    cases success with
    | true =>
        refine ⟨_, ?_, sound.append alive (.reference id 0) kept unchanged⟩
        simp only [addRef, ran, bind, Except.bind, read, ↓reduceIte]
    | false =>
        obtain ⟨after, dropped, back, -, same'⟩ := destroyBuffer_ok kept id
          (refs (fun id => tc.users.count id) tc.output) (fun other => by
            simp only [refs, List.countP_append, List.countP_singleton, OutputBlock.holds,
              decide_eq_true_eq, eq_comm (a := id)]
            omega)
        have again : pending after tc.output = pending buffers tc.output := by
          refine pending_congr ?_
          rintro other ⟨block, inside, holds⟩
          exact same' other (refs_held inside holds)
        refine ⟨{ tc with buffers := after }, ?_, back, fun alive => ?_, sound.front,
          sound.closed⟩
        · simp only [addRef, ran, bind, Except.bind, read, Bool.false_eq_true, ↓reduceIte, dropped]
        · exact (congrArg (tc.written ++ ·) (again.trans unchanged)).trans (sound.bytes alive)

theorem write (sound : tc.Sound) (count : Nat) : ∃ after,
    tc.write count = .ok after ∧ after.Sound := by
  obtain ⟨bytes, left, buffers, ran, kept, -, split⟩ := @drain_ok _ _ _ count sound.memory
  refine ⟨⟨tc.mEvent, left, buffers, tc.users, tc.sent, tc.written ++ bytes⟩, ?_, kept, ?_, ?_, ?_⟩
  · simp only [TcpOutput.write, ran, bind, Except.bind]
  · intro alive
    rw [List.append_assoc, split]
    exact sound.bytes alive
  · cases alive : tc.mEvent with
    | true =>
        refine ⟨pending buffers left, ?_⟩
        rw [List.append_assoc, split]
        exact sound.bytes alive
    | false =>
        rw [sound.closed alive] at split
        have nothing : bytes = [] := (List.append_eq_nil_iff.mp split).1
        rw [nothing, List.append_nil]
        exact sound.front
  · intro closed
    have empty := sound.closed closed
    rw [empty] at ran
    cases ran
    rfl

theorem destroy (sound : tc.Sound) : ∃ after, tc.destroy = .ok after ∧ after.Sound := by
  obtain ⟨buffers, ran, kept⟩ := releaseAll_ok sound.memory
  refine ⟨⟨false, [], buffers, tc.users, tc.sent, tc.written⟩, ?_, kept, ?_, sound.front,
    fun _ => rfl⟩
  · simp only [TcpOutput.destroy, ran, bind, Except.bind]
  · intro alive
    cases alive

theorem step (sound : tc.Sound) (action : Action) : ∃ after,
    tc.step action = .ok after ∧ after.Sound := by
  cases action with
  | newBuffer data => exact ⟨_, rfl, sound.newBuffer data⟩
  | dropBuffer id => exact sound.dropBuffer id
  | send data => exact ⟨_, rfl, sound.send data⟩
  | sendBuffer id success => exact sound.sendBuffer id success
  | write count => exact sound.write count
  | destroy => exact sound.destroy

theorem run (sound : tc.Sound) (actions : List Action) : ∃ after,
    actions.foldlM TcpOutput.step tc = .ok after ∧ after.Sound := by
  induction actions generalizing tc with
  | nil => exact ⟨tc, rfl, sound⟩
  | cons action rest ih =>
      obtain ⟨next, ran, kept⟩ := sound.step action
      obtain ⟨after, onward, done⟩ := ih kept
      refine ⟨after, ?_, done⟩
      rw [List.foldlM_cons, ran]
      exact onward

end Sound

/-- In every order of calls and writes no freed buffer is read and no reference is dropped twice:
what is written is the front of what was sent, in order; a buffer has the user's references and
one for each block that still refers to it, and is freed once when it has none. -/
theorem tcp_run_writes (actions : List Action) : ∃ tc,
    actions.foldlM step create = .ok tc ∧ tc.written <+: tc.sent ∧
      (tc.mEvent = true → tc.written ++ pending tc.buffers tc.output = tc.sent) ∧
      (tc.mEvent = false → tc.output = []) ∧
      ∀ id, (tc.buffers.find id).isSome = decide (0 < refs (fun id => tc.users.count id) tc.output id) ∧
        tc.buffers.freed.count id = if id < tc.buffers.fresh ∧
          refs (fun id => tc.users.count id) tc.output id = 0 then 1 else 0 := by
  obtain ⟨tc, ran, sound⟩ := create_sound.run actions
  refine ⟨tc, ran, sound.front, sound.bytes, sound.closed, fun id => ⟨?_, sound.memory.freed id⟩⟩
  rw [Bool.eq_iff_iff, sound.memory.find_isSome, decide_eq_true_eq]

end TcpOutput

end Sbf
