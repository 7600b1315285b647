import Sbf.HandlerStreams
import Sbf.StreamMoves

set_option autoImplicit false

namespace Sbf

open Octets Tport

/-- Whatever the handler finds is a stream of the transport. -/
def FindsListed {H S : Type} (config : TportConfig H S) (tport : Tport H S) : Prop :=
  ∀ topic id, config.mHandlerTable.mFindStream tport.mHandler topic = some id →
    id ∈ tport.mStreams ∧ (tport.streams.find id).isSome

namespace UdpHandler

/-- The tree holds the handler's streams of the transport's streams, each under its key. -/
structure Tracks (tport : Tport UdpHandler UdpHandlerStream) : Prop where
  found : ∀ at_key uhs, tport.mHandler.mTree.find at_key = some uhs →
    at_key = key uhs.mType uhs.mAddress ∧ uhs.mHandle ∈ tport.mStreams ∧
      tport.handlerStream uhs.mHandle = some uhs
  known : ∀ id uhs, tport.handlerStream id = some uhs → uhs.mHandle = id ∧ id < tport.fresh ∧
    tport.mHandler.mTree.find (key uhs.mType uhs.mAddress) = some uhs

theorem new_tracks : Tracks (Tport.new ⟨.empty⟩) :=
  ⟨fun _ _ found => (Option.some_ne_none _ found.symm).elim,
    fun _ _ found => (Option.some_ne_none _ found.symm).elim⟩

section Move

variable {makeAddress : Topic → UInt32} {before after : Tport UdpHandler UdpHandlerStream}
  (tracks : Tracks before)
include tracks

/-- A new handler stream has a fresh handle and a key that is not in the tree. -/
theorem Tracks.added {type : TopicType} {topic : Topic} {thread : Nat} {id : StreamId}
    {closure : EndpointId} {mStream : UdpHandlerStream} {events : List Event}
    (absent : before.mHandler.findStream makeAddress topic = none)
    (handler : before.mHandler.addStream makeAddress type topic thread id closure =
      .ok (after.mHandler, mStream, events))
    (listed : after.mStreams = before.mStreams ++ [id])
    (streams : ∀ other, after.handlerStream other =
      if other = id then some mStream else before.handlerStream other)
    (unused : before.fresh ≤ id) (fresh : id < after.fresh) : Tracks after := by
  have free : before.mHandler.mTree.find (key topic.mType (makeAddress topic)) = none :=
    Option.map_eq_none_iff.mp absent
  obtain ⟨tree, made⟩ := Prod.mk.inj (Except.ok.inj handler)
  obtain ⟨made, _⟩ := Prod.mk.inj made
  rw [RbTree.insert_none free] at tree
  have entries : ∀ at_key, after.mHandler.mTree.find at_key =
      if at_key = key mStream.mType mStream.mAddress then some mStream
      else before.mHandler.mTree.find at_key := by
    intro at_key
    rw [← tree, ← made, RbTree.find_set]
  have handle : mStream.mHandle = id := by rw [← made]
  constructor
  · intro at_key uhs found
    rw [entries] at found
    rw [listed, streams]
    split at found
    · rename_i here
      cases found
      exact ⟨here, by simp [handle], by rw [if_pos handle]⟩
    · obtain ⟨same, member, known⟩ := tracks.found at_key uhs found
      have old := (tracks.known _ uhs known).2.1
      exact ⟨same, List.mem_append_left _ member,
        by rw [if_neg (Nat.ne_of_lt (Nat.lt_of_lt_of_le old unused)), known]⟩
  · intro other uhs found
    rw [streams] at found
    rw [entries]
    split at found
    · rename_i here
      cases found
      exact ⟨handle.trans here.symm, here ▸ fresh, if_pos rfl⟩
    · obtain ⟨same, small, tree⟩ := tracks.known other uhs found
      refine ⟨same, Nat.lt_trans (Nat.lt_of_lt_of_le small unused) fresh, ?_⟩
      rw [if_neg ?_, tree]
      intro clash
      rw [clash, ← made, free] at tree
      cases tree

/-- A stream leaves the tree and the transport together. -/
theorem Tracks.removed {id : StreamId} {mStream : UdpHandlerStream}
    (found : before.handlerStream id = some mStream)
    (handler : after.mHandler = (before.mHandler.removeStream mStream).1)
    (listed : after.mStreams = before.mStreams.erase id)
    (streams : ∀ other, after.handlerStream other =
      if other = id then none else before.handlerStream other)
    (fresh : before.fresh ≤ after.fresh) : Tracks after := by
  obtain ⟨handle, small, tree⟩ := tracks.known id mStream found
  have entries : ∀ at_key, after.mHandler.mTree.find at_key =
      if at_key = key mStream.mType mStream.mAddress then none
      else before.mHandler.mTree.find at_key := by
    intro at_key
    rw [handler]
    exact RbTree.find_erase _ _ _
  constructor
  · intro at_key uhs found'
    rw [entries] at found'
    split at found'
    · cases found'
    · rename_i other
      obtain ⟨same, member, known⟩ := tracks.found at_key uhs found'
      -- Two entries of one handle are one handler stream, and so one key.
      have differs : uhs.mHandle ≠ id := by
        intro clash
        rw [clash, found] at known
        cases known
        exact other same
      rw [listed, streams, if_neg differs]
      exact ⟨same, (List.mem_erase_of_ne differs).mpr member, known⟩
  · intro other uhs found'
    rw [streams] at found'
    split at found'
    · cases found'
    · rename_i differs
      obtain ⟨same, small', tree'⟩ := tracks.known other uhs found'
      refine ⟨same, Nat.lt_of_lt_of_le small' fresh, ?_⟩
      rw [entries, if_neg ?_, tree']
      intro clash
      rw [clash, tree] at tree'
      cases tree'
      exact differs (same.symm.trans handle)

theorem Tracks.move (move : Move (table makeAddress) before after) : Tracks after := by
  cases move with
  | still same =>
      constructor
      · rw [same.handler, same.listed, same.streams]
        exact tracks.found
      · rw [same.handler, same.streams]
        intro id uhs found
        obtain ⟨handle, small, tree⟩ := tracks.known id uhs found
        exact ⟨handle, Nat.lt_of_lt_of_le small same.fresh, tree⟩
  | added type topic thread id closure mStream events absent handler listed streams removed unused
      fresh => exact tracks.added absent handler listed streams unused fresh
  | removed id mStream found handler listed streams removed fresh =>
      exact tracks.removed found handler listed streams fresh

theorem Tracks.moves (moves : Moves (table makeAddress) before after) : Tracks after := by
  induction moves with
  | refl => exact tracks
  | tail _ move ih => exact ih.move move

end Move

end UdpHandler

namespace TcpMeshHandler

/-- The handle is that of the transport's only stream, as long as that is there. -/
inductive Tracks (tport : Tport TcpMeshHandler Unit) : Prop
  | unused (handle : tport.mHandler.mHandle = none) (listed : tport.mStreams = [])
      (streams : ∀ id, tport.handlerStream id = none)
      (kept : ∀ id, .removingStream id ∉ tport.mLog)
  | used (id : StreamId) (handle : tport.mHandler.mHandle = some id)
      (listed : tport.mStreams = [id])
      (streams : ∀ other, tport.handlerStream other = if other = id then some () else none)
      (kept : ∀ id, .removingStream id ∉ tport.mLog)
  | gone (id : StreamId) (handle : tport.mHandler.mHandle = some id)
      (listed : tport.mStreams = []) (streams : ∀ id, tport.handlerStream id = none)
      (removed : ∃ id, .removingStream id ∈ tport.mLog)

theorem new_tracks : Tracks (Tport.new ⟨none⟩) :=
  .unused rfl rfl (fun _ => rfl) (fun _ => List.not_mem_nil)

theorem Tracks.move {before after : Tport TcpMeshHandler Unit} (tracks : Tracks before)
    (move : Move table before after) : Tracks after := by
  cases move with
  | still same =>
      cases tracks with
      | unused handle listed streams kept =>
          exact .unused (by rw [same.handler, handle]) (by rw [same.listed, listed])
            (by rw [same.streams]; exact streams) (fun id line => kept id ((same.removed id).mp line))
      | used id handle listed streams kept =>
          exact .used id (by rw [same.handler, handle]) (by rw [same.listed, listed])
            (by rw [same.streams]; exact streams) (fun id line => kept id ((same.removed id).mp line))
      | gone id handle listed streams removed =>
          obtain ⟨other, line⟩ := removed
          exact .gone id (by rw [same.handler, handle]) (by rw [same.listed, listed])
            (by rw [same.streams]; exact streams) ⟨other, (same.removed other).mpr line⟩
  | added type topic thread id closure mStream events absent handler listed streams removed unused
      fresh =>
      -- With a handle there is nothing to add.
      cases tracks with
      | unused handle none_listed none_streams kept =>
          have opened : after.mHandler.mHandle = some id := by
            simp only [table, addStream, handle] at handler
            split at handler
            · cases handler
            · rw [if_neg (by simp)] at handler
              rw [← (Prod.mk.inj (Except.ok.inj handler)).1]
          refine .used id opened (by rw [listed, none_listed, List.nil_append]) ?_
            (fun id line => kept id ((removed id).mp line))
          intro other
          rw [streams, none_streams]
      | used id handle _ _ _ => exact absurd (handle.symm.trans absent) (Option.some_ne_none _)
      | gone id handle _ _ _ => exact absurd (handle.symm.trans absent) (Option.some_ne_none _)
  | removed id mStream found handler listed streams removed fresh =>
      cases tracks with
      | unused _ _ none_streams _ => rw [none_streams] at found; cases found
      | used only handle one_listed one_streams kept =>
          rw [one_streams] at found
          split at found
          · rename_i here
            subst here
            refine .gone id (by rw [handler]; exact handle) (by rw [listed, one_listed]; simp) ?_
              ⟨id, removed⟩
            intro other
            rw [streams, one_streams]
            split <;> rfl
          · cases found
      | gone _ _ _ none_streams _ => rw [none_streams] at found; cases found

theorem Tracks.moves {before after : Tport TcpMeshHandler Unit} (tracks : Tracks before)
    (moves : Moves table before after) : Tracks after := by
  induction moves with
  | refl => exact tracks
  | tail _ move ih => exact ih.move move

end TcpMeshHandler

/-- What the UDP handler finds is a stream of the transport, in every run; what the TCP
mesh handler finds is one exactly as long as no stream has been removed. -/
theorem findsListed_iff (numThreads : Nat) (mThreads : UInt64) (topicWeight : Topic → UInt32)
    (calls : List Call) (out : List EndpointId) :
    (∀ (makeAddress : Topic → UInt32) (tport : Tport UdpHandler UdpHandlerStream),
      run ⟨UdpHandler.table makeAddress, numThreads, mThreads, topicWeight⟩ calls
          (.new ⟨.empty⟩) = .ok (tport, out) →
        FindsListed ⟨UdpHandler.table makeAddress, numThreads, mThreads, topicWeight⟩ tport) ∧
    ∀ tport : Tport TcpMeshHandler Unit,
      run ⟨TcpMeshHandler.table, numThreads, mThreads, topicWeight⟩ calls (.new ⟨none⟩) =
          .ok (tport, out) →
        (FindsListed ⟨TcpMeshHandler.table, numThreads, mThreads, topicWeight⟩ tport ↔
          ∀ id, .removingStream id ∉ tport.mLog) := by
  refine ⟨?_, ?_⟩
  · intro makeAddress tport ran topic id finds
    have tracks := UdpHandler.new_tracks.moves (run_moves calls ran)
    obtain ⟨uhs, tree, rfl⟩ := Option.map_eq_some_iff.mp finds
    obtain ⟨_, member, known⟩ := tracks.found _ uhs tree
    exact ⟨member, by simpa [handlerStream] using congrArg Option.isSome known⟩
  · intro tport ran
    cases TcpMeshHandler.new_tracks.moves (run_moves calls ran) with
    | unused handle listed streams kept =>
        refine ⟨fun _ => kept, ?_⟩
        intro _ topic id finds
        exact absurd (handle.symm.trans finds) (Option.some_ne_none _).symm
    | used id handle listed streams kept =>
        refine ⟨fun _ => kept, ?_⟩
        intro _ topic other finds
        obtain rfl : id = other := Option.some.inj (handle.symm.trans finds)
        have here := streams id
        rw [if_pos rfl] at here
        exact ⟨by simp [listed], by simpa [handlerStream] using congrArg Option.isSome here⟩
    | gone id handle listed streams removed =>
        refine ⟨?_, fun kept => removed.elim (fun other line => absurd line (kept other))⟩
        intro finds
        have topic : Topic := ⟨.pub, ⟨[47, 47], by decide⟩, .empty, .empty, .empty, rfl, by decide⟩
        have listed' := (finds topic id handle).1
        rw [listed] at listed'
        cases listed'

/-- A subscription comes and goes. -/
def comesAndGoes : List Call :=
  [.createSub ticks true, .event 0 false, .destroySub 0, .event 0 false]

/-- After the stream has gone the UDP handler finds nothing, and makes another one. -/
theorem findsListed_comesAndGoes :
    (∃ tport out, run UdpHandler.oneThread (comesAndGoes ++ comesAndGoes.take 2)
        (.new ⟨.empty⟩) = .ok (tport, out) ∧ .removingStream 1 ∈ tport.mLog ∧
      tport.mStreams = [4] ∧ FindsListed UdpHandler.oneThread tport) ∧
    ∃ tport out, run TcpMeshHandler.oneThread (comesAndGoes.take 2) (.new ⟨none⟩) =
        .ok (tport, out) ∧ tport.mStreams = [1] ∧ FindsListed TcpMeshHandler.oneThread tport := by
  refine ⟨?_, ?_⟩
  · obtain ⟨tport, out, ran, removed, listed⟩ : ∃ tport out,
        run UdpHandler.oneThread (comesAndGoes ++ comesAndGoes.take 2) (.new ⟨.empty⟩) =
          .ok (tport, out) ∧ .removingStream 1 ∈ tport.mLog ∧ tport.mStreams = [4] := by
      decide +kernel
    exact ⟨tport, out, ran, removed, listed,
      (findsListed_iff 1 0xffffffffffffffff (fun _ => 1) _ out).1 _ tport ran⟩
  · obtain ⟨tport, out, ran, listed, kept⟩ : ∃ tport out,
        run TcpMeshHandler.oneThread (comesAndGoes.take 2) (.new ⟨none⟩) = .ok (tport, out) ∧
          tport.mStreams = [1] ∧ tport.mLog = [.adding 0] := by
      decide +kernel
    exact ⟨tport, out, ran, listed,
      ((findsListed_iff 1 0xffffffffffffffff (fun _ => 1) _ out).2 tport ran).mpr
        (fun id line => by simp [kept] at line)⟩

/-- The TCP mesh handler finds the stream that has gone, and the next endpoint uses it. -/
theorem findsListed_stale : ∃ tport out,
    run TcpMeshHandler.oneThread comesAndGoes (.new ⟨none⟩) = .ok (tport, out) ∧
      ¬ FindsListed TcpMeshHandler.oneThread tport ∧
      (step TcpMeshHandler.oneThread (.createSub ticks true) tport).isOk = false := by
  obtain ⟨tport, out, ran, handle, listed, fails⟩ : ∃ tport out,
      run TcpMeshHandler.oneThread comesAndGoes (.new ⟨none⟩) = .ok (tport, out) ∧
        tport.mHandler.mHandle = some 1 ∧ tport.mStreams = [] ∧
          (step TcpMeshHandler.oneThread (.createSub ticks true) tport).isOk = false := by
    decide +kernel
  refine ⟨tport, out, ran, ?_, fails⟩
  intro finds
  have topic : Topic := ⟨.pub, ⟨[47, 47], by decide⟩, .empty, .empty, .empty, rfl, by decide⟩
  have member := (finds topic 1 handle).1
  rw [listed] at member
  cases member

end Sbf
