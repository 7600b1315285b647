import Sbf.TcpMeshRead

set_option autoImplicit false

namespace Sbf.TcpMesh

open Octets Handler

/-- Bytes of a peer's that arrive together, and whether `mHandle` is set when the read
callback runs for them. -/
structure Arrival where
  chunk : Bytes
  handle : Bool

/-- The chunk goes to the end of the input buffer, and the callback runs. -/
def arrive (arrival : Arrival) : Step Fault Bytes Bytes := fun input =>
  readCb arrival.handle (input ++ arrival.chunk)

/-- Everything that arrives on a connection runs through, and what the callback copies into
a buffer of the pool is never more than such a buffer holds. -/
def CopiesFit (arrivals : List Arrival) : Prop :=
  ∃ input out, Step.all (arrivals.map arrive) [] = .ok (input, out) ∧
    ∀ message ∈ out, message.length ≤ poolSize

/-- The callback finds no complete message, or may not copy it, or the header's two sizes
leave room for the header itself. -/
def Modest (input : Bytes) (arrival : Arrival) : Prop :=
  arrival.handle = true → ∀ hdr, TportHeader.decode (input ++ arrival.chunk) = some hdr →
    used hdr ≤ (input ++ arrival.chunk).length →
      hdr.mTopicSize.toNat + hdr.mSize.toNat ≤ poolSize - TportHeader.size

theorem size_le_iff (data : Bytes) : size data ≤ poolSize ↔
    ∀ hdr, TportHeader.decode data = some hdr → used hdr ≤ data.length →
      hdr.mTopicSize.toNat + hdr.mSize.toNat ≤ poolSize - TportHeader.size := by
  have room : ∀ hdr, used hdr ≤ poolSize ↔
      hdr.mTopicSize.toNat + hdr.mSize.toNat ≤ poolSize - TportHeader.size := by
    intro hdr
    rw [used, poolSize, TportHeader.size]
    omega
  unfold size
  cases read : TportHeader.decode data with
  | none => exact iff_of_true (Nat.zero_le _) (fun hdr same => by cases same)
  | some hdr =>
      dsimp only
      split
      · rename_i missing
        refine iff_of_true (Nat.zero_le _) ?_
        rintro _ ⟨⟩ complete
        exact absurd missing (Nat.not_lt.mpr complete)
      · rename_i complete
        rw [room]
        constructor
        · rintro small _ ⟨⟩ _
          exact small
        · exact fun each => each hdr rfl (Nat.not_lt.mp complete)

/-- One callback stays inside the pool's buffer exactly when the header is modest. -/
theorem arrive_ok_iff (input : Bytes) (arrival : Arrival) :
    (∃ next out, arrive arrival input = .ok (next, out)) ↔ Modest input arrival := by
  unfold arrive readCb Modest
  rw [← size_le_iff]
  split
  · rename_i nothing
    refine iff_of_true ⟨_, _, rfl⟩ (fun _ => ?_)
    rw [nothing]
    exact Nat.zero_le _
  · split
    · rename_i handle
      rw [handle, forall_prop_of_true rfl]
      split
      · rename_i large
        refine iff_of_false ?_ (Nat.not_le.mpr large)
        rintro ⟨_, _, ran⟩
        cases ran
      · rename_i small
        exact iff_of_true ⟨_, _, rfl⟩ (Nat.not_lt.mp small)
    · rename_i handle
      exact iff_of_true ⟨_, _, rfl⟩ (fun set => absurd set handle)

/-- What one callback copies fits. -/
theorem arrive_fits (input : Bytes) (arrival : Arrival) (next : Bytes) (out : List Bytes)
    (ran : arrive arrival input = .ok (next, out)) :
    ∀ message ∈ out, message.length ≤ poolSize := by
  unfold arrive readCb at ran
  split at ran
  · cases ran
    exact List.forall_mem_nil _
  · split at ran
    · split at ran
      · cases ran
      · rename_i small
        cases ran
        intro message member
        rw [List.mem_singleton.mp member]
        exact Nat.le_trans (List.length_take_le _ _) (Nat.not_lt.mp small)
    · cases ran
      exact List.forall_mem_nil _

/-- However a peer's bytes arrive, all copies fit into the pool's buffers if and only if no
message that is copied has a topic and a payload of more than 65531 bytes. -/
theorem copiesFit_iff (arrivals : List Arrival) :
    CopiesFit arrivals ↔ Step.Along arrive Modest [] arrivals := by
  rw [← Step.all_ok_iff arrive_ok_iff]
  constructor
  · rintro ⟨input, out, ran, _⟩
    exact ⟨input, out, ran⟩
  · rintro ⟨input, out, ran⟩
    exact ⟨input, out, ran, Step.all_outputs arrive_fits ran⟩

/-- The largest header that a peer can send. -/
def largest : TportHeader := ⟨0xffff, 0, 0xff, TportHeader.lastInPacket⟩

/-- A whole message with the largest header has 65795 bytes. -/
theorem copiesFit_fails :
    ¬ CopiesFit [⟨largest.encode ++ List.replicate 65790 0, true⟩] := by
  rintro ⟨input, out, ran, _⟩
  obtain ⟨modest, _⟩ := (Step.all_ok_iff arrive_ok_iff [] _).mp ⟨input, out, ran⟩
  have read : TportHeader.decode ([] ++ (largest.encode ++ List.replicate 65790 0)) = some largest :=
    TportHeader.decode_encode largest _
  have complete : used largest ≤ ([] ++ (largest.encode ++ List.replicate 65790 0)).length := by
    rw [List.nil_append, List.length_append, List.length_replicate, TportHeader.encode_length]
    decide
  have small := modest rfl largest read complete
  exact absurd small (by decide)

end Sbf.TcpMesh
