import Sbf.McastRange
import Sbf.RequestReply

set_option autoImplicit false

/-! The network interfaces of the machine, and the host part of its GUIDs. -/

namespace Sbf

open Octets

/-- A `sbfInterface`, with its address in network order. -/
structure Interface where
  mName : CString
  mAddress : UInt32
deriving DecidableEq

namespace Interface

theorem lo_plain : 0 ∉ ([108, 111] : Bytes) := by decide

/-- `lo` -/
def lo : CString := ⟨[108, 111], lo_plain⟩

/-- `sbfInterface_first` -/
def first : List Interface → UInt32
  | [] => 0
  | iff :: rest =>
      if iff.mName = lo then first rest
      else if ntohl iff.mAddress &&& 0xff000000 = 127 then first rest
      else iff.mAddress

/-- An address of 127.0.0.0/8. -/
def Loopback (address : UInt32) : Prop := (ntohl address).toNat / 2 ^ 24 = 127

instance (address : UInt32) : Decidable (Loopback address) :=
  inferInstanceAs (Decidable ((ntohl address).toNat / 2 ^ 24 = 127))

/-- What `sbfInterface_first` is for: the first interface that is not local. -/
def firstRemote (table : List Interface) : Option Interface :=
  table.find? fun iff => iff.mName ≠ lo ∧ ¬ Loopback iff.mAddress

/-- The masked address has no low bits. -/
theorem masked_ne (n : UInt32) : n &&& 0xff000000 ≠ 127 := by
  intro same
  have low : (n &&& 0xff000000).toNat.testBit 0 = true := by
    rw [same]
    decide
  rw [UInt32.toNat_and, Nat.testBit_and] at low
  simp [Nat.testBit] at low

/-- Only the name is ever compared. -/
theorem first_named (table : List Interface) :
    first table = ((table.find? fun iff => iff.mName ≠ lo).map mAddress).getD 0 := by
  induction table with
  | nil => rfl
  | cons iff rest ih =>
      rw [first]
      by_cases named : iff.mName = lo
      · rw [if_pos named, ih, List.find?_cons_of_neg (by simp [named])]
      · rw [if_neg named, if_neg (masked_ne _), List.find?_cons_of_pos (by simp [named])]
        rfl

theorem firstRemote_none {table : List Interface}
    (nothing : table.find? (fun iff => iff.mName ≠ lo) = none) : firstRemote table = none := by
  rw [List.find?_eq_none] at nothing
  rw [firstRemote, List.find?_eq_none]
  intro iff member both
  have named := nothing iff member
  simp at named both
  exact both.1 named

theorem firstRemote_some {table : List Interface} {iff : Interface}
    (found : table.find? (fun iff => iff.mName ≠ lo) = some iff) (remote : ¬ Loopback iff.mAddress) :
    firstRemote table = some iff := by
  obtain ⟨named, front, back, shape, local_⟩ := List.find?_eq_some_iff_append.mp found
  rw [firstRemote, List.find?_eq_some_iff_append]
  refine ⟨?_, front, back, shape, ?_⟩
  · simp at named ⊢
    exact ⟨named, remote⟩
  · intro other member
    have here := local_ other member
    simp at here ⊢
    exact Or.inl here

theorem firstRemote_remote {table : List Interface} {iff : Interface}
    (found : firstRemote table = some iff) : ¬ Loopback iff.mAddress := by
  have both := List.find?_some found
  simp at both
  exact both.2

/-- The first interface that is not named `lo`, if there is one, has no loopback address. -/
def NamedRemote (table : List Interface) : Prop :=
  ∀ iff, table.find? (fun iff => iff.mName ≠ lo) = some iff → ¬ Loopback iff.mAddress

theorem first_remote_iff (table : List Interface) :
    first table = ((firstRemote table).map mAddress).getD 0 ↔ NamedRemote table := by
  rw [first_named]
  cases found : table.find? (fun iff => iff.mName ≠ lo) with
  | none =>
      rw [firstRemote_none found]
      refine iff_of_true rfl ?_
      intro iff same
      rw [found] at same
      cases same
  | some iff =>
      by_cases remote : Loopback iff.mAddress
      · refine iff_of_false ?_ (fun named => named iff found remote)
        intro same
        change iff.mAddress = _ at same
        cases other : firstRemote table with
        | none =>
            rw [other] at same
            change iff.mAddress = 0 at same
            rw [same] at remote
            exact absurd remote (by decide)
        | some next =>
            rw [other] at same
            change iff.mAddress = next.mAddress at same
            exact firstRemote_remote other (same ▸ remote)
      · rw [firstRemote_some found remote]
        refine iff_of_true rfl ?_
        intro other same
        rw [found] at same
        cases same
        exact remote

end Interface

namespace Guid

/-- `sbfGuid_new`, which is fatal without a host, with the seconds of the clock, the process
and `gSbfGuidSeed`. -/
def new (table : List Interface) (tv_sec : UInt64) (pid : UInt32) (gSbfGuidSeed : UInt64) :
    Option (Guid × UInt64) :=
  let host := Interface.first table
  if host = 0 then none
  else
    some (⟨((ntohl host).toUInt64, tv_sec <<< 32 ||| pid.toUInt64, gSbfGuidSeed), 0⟩,
      gSbfGuidSeed + 1)

/-- The host part is an address of 127.0.0.0/8. -/
def LoopbackHost (guid : Guid) : Prop := guid.fixed.1.toNat / 2 ^ 24 = 127

instance (guid : Guid) : Decidable guid.LoopbackHost :=
  inferInstanceAs (Decidable (guid.fixed.1.toNat / 2 ^ 24 = 127))

end Guid

namespace RequestPub

/-- The identifiers of the requests that a publisher sends. -/
def sentGuids : List (Nat × Bytes) → RequestPub → List Guid
  | [], _ => []
  | (number, data) :: rest, pub =>
      match pub.send number data with
      | none => pub.sentGuids rest
      | some (pub, mGuid, _) => mGuid :: pub.sentGuids rest

theorem sentGuids_fixed (sends : List (Nat × Bytes)) (pub : RequestPub) :
    ∀ guid ∈ pub.sentGuids sends, guid.fixed = pub.mNext.fixed := by
  induction sends generalizing pub with
  | nil => exact fun guid member => absurd member List.not_mem_nil
  | cons send rest ih =>
      obtain ⟨number, data⟩ := send
      intro guid member
      rw [sentGuids] at member
      split at member
      · exact ih pub guid member
      · rename_i next mGuid message sent
        have fixed : mGuid.fixed = pub.mNext.fixed ∧ next.mNext.fixed = pub.mNext.fixed := by
          unfold send at sent
          split at sent
          · cases sent
          · cases sent
            exact ⟨rfl, rfl⟩
        cases List.mem_cons.mp member with
        | inl here => exact here ▸ fixed.1
        | inr later => exact (ih next guid later).trans fixed.2

end RequestPub

namespace Guid

/-- No GUID that is made, and no identifier of a request of a publisher that was made with
it, has a loopback address for its host. -/
def HostsRemote (table : List Interface) : Prop :=
  ∀ tv_sec pid seed guid next, new table tv_sec pid seed = some (guid, next) →
    ¬ guid.LoopbackHost ∧ ∀ pub : RequestPub, pub.mNext = guid →
      ∀ sends, ∀ sent ∈ pub.sentGuids sends, ¬ sent.LoopbackHost

/-- The host is remote just when the first interface that is not named `lo` is: the comparison
of the masked address never holds. -/
theorem first_hosts_iff (table : List Interface) :
    (Interface.first table = ((Interface.firstRemote table).map Interface.mAddress).getD 0 ∧
      HostsRemote table) ↔ Interface.NamedRemote table := by
  rw [Interface.first_remote_iff]
  refine ⟨And.left, fun named => ⟨named, ?_⟩⟩
  intro tv_sec pid seed guid next made
  have remote : ¬ guid.LoopbackHost := by
    simp only [new] at made
    split at made
    · cases made
    · rename_i host
      cases made
      rw [Interface.first_named] at host
      cases found : table.find? (fun iff => iff.mName ≠ Interface.lo) with
      | none =>
          rw [found] at host
          exact absurd rfl host
      | some iff =>
          have apart := named iff found
          simp only [LoopbackHost, Interface.first_named, found, UInt32.toNat_toUInt64,
            Option.map_some, Option.getD_some]
          simpa only [Interface.Loopback] using apart
  refine ⟨remote, ?_⟩
  intro pub same sends sent member
  have fixed := pub.sentGuids_fixed sends sent member
  rw [same] at fixed
  unfold LoopbackHost
  rw [fixed]
  exact remote

/-- `lo:0` of 127.0.0.1 comes first. -/
theorem first_loopback :
    Interface.first [⟨⟨[108, 111, 58, 48], by decide⟩, 0x0100007f⟩] = 0x0100007f ∧
      Interface.firstRemote [⟨⟨[108, 111, 58, 48], by decide⟩, 0x0100007f⟩] = none ∧
      ¬ HostsRemote [⟨⟨[108, 111, 58, 48], by decide⟩, 0x0100007f⟩] := by
  refine ⟨by decide, by decide, ?_⟩
  intro remote
  exact (remote 0 0 0 _ _ rfl).1 (by decide)

end Guid

end Sbf
