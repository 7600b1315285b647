import Mathlib.Data.List.Find
import Mathlib.Data.List.Nodup
import Sbf.TailqCycle
import Sbf.TportAssemble

set_option autoImplicit false

namespace Sbf

open Octets

abbrev PubId := Nat

abbrev SubId := Nat

/-- `struct sbfTportTopicImpl`. The address stands for the node's identity: a
topic that is removed and added again gets another node. -/
structure TportTopic where
  address : Nat
  mTopic : CString
  mPubs : List PubId
  mSubs : List SubId
  mNext : Option SubId
  frag : Reassembly
  deriving DecidableEq

/-- What `sbfSub_message` does with a buffer. -/
inductive Delivery where
  | called (payload : Bytes)
  | queued (payload : Bytes)
  deriving DecidableEq, Repr

/-- The fields of `struct sbfSubImpl` that decide how a message is delivered;
`mMessageCb` only as whether there is one. -/
structure Sub where
  mDestroyed : Bool
  mMessageCb : Bool
  mQueueBypass : Bool
  deriving DecidableEq, Repr

/-- `sbfSub_message` -/
def Sub.message (sub : Sub) (payload : Bytes) : Option Delivery :=
  if !sub.mDestroyed && sub.mMessageCb then
    if sub.mQueueBypass then some (.called payload) else some (.queued payload)
  else none

/-- One run of `sbfHandlerDispatchMessage`: the buffer's bytes, and the
subscriptions whose `sbfSub_message` is called with it, in that order. -/
structure Dispatch where
  topic : Bytes
  payload : Bytes
  served : List SubId
  deriving DecidableEq, Repr

namespace TportTopic

/-- `sbfHandlerDispatchMessage`: serve the ring of subscriptions from `mNext` on,
and leave `mNext` behind the one served first. -/
def dispatchMessage (ttopic : TportTopic) (payload : Bytes) :
    Except Fault (TportTopic × Dispatch) :=
  match ttopic.mNext.or ttopic.mSubs.head? with
  | none => .error .null
  | some first =>
      match Tailq.cycle ttopic.mSubs first ttopic.mSubs.length first with
      | none => .error .endless
      | some served =>
          .ok ({ ttopic with mNext := Tailq.next ttopic.mSubs first },
            ⟨ttopic.mTopic.chars, payload, served⟩)

/-- What the node's event-thread code relies on. -/
structure Sound (ttopic : TportTopic) : Prop where
  distinct : ttopic.mSubs.Nodup
  next : ∀ sub, ttopic.mNext = some sub → sub ∈ ttopic.mSubs

/-- On a node with subscriptions the loop ends, and has served each of them
exactly once; only `mNext` has moved, and stays inside the list. -/
theorem dispatchMessage_serves (ttopic : TportTopic) (payload : Bytes) (sound : ttopic.Sound)
    (subscribed : ttopic.mSubs ≠ []) :
    ∃ next served, ttopic.dispatchMessage payload =
        .ok ({ ttopic with mNext := next }, ⟨ttopic.mTopic.chars, payload, served⟩) ∧
      served.Perm ttopic.mSubs ∧ { ttopic with mNext := next }.Sound := by
  obtain ⟨first, chosen, member⟩ : ∃ first,
      ttopic.mNext.or ttopic.mSubs.head? = some first ∧ first ∈ ttopic.mSubs := by
    cases pointer : ttopic.mNext with
    | some sub => exact ⟨sub, by simp, sound.next sub pointer⟩
    | none =>
        obtain ⟨sub, rest, shape⟩ := List.exists_cons_of_ne_nil subscribed
        exact ⟨sub, by simp [shape], by simp [shape]⟩
  obtain ⟨served, run, once⟩ := Tailq.cycle_perm ttopic.mSubs first sound.distinct member
  refine ⟨Tailq.next ttopic.mSubs first, served, ?_, once, sound.distinct, ?_⟩
  · simp only [dispatchMessage, chosen, run]
  · intro sub pointer
    exact Tailq.next_mem _ _ _ pointer

end TportTopic

namespace Topics

/-- `sbfTport_findTopic`, by the name's bytes. -/
def find (topics : List TportTopic) (name : Bytes) : Option TportTopic :=
  topics.find? (·.mTopic.chars = name)

/-- Write a node back to where its pointer says. -/
def update (topics : List TportTopic) (ttopic : TportTopic) : List TportTopic :=
  topics.map (fun other => if other.address = ttopic.address then ttopic else other)

/-- The nodes of one stream: no two share an address, a name or a subscription. -/
structure Sound (topics : List TportTopic) : Prop where
  addresses : (topics.map (·.address)).Nodup
  names : (topics.map (·.mTopic.chars)).Nodup
  nodes : ∀ ttopic ∈ topics, ttopic.Sound
  apart : ∀ left ∈ topics, ∀ right ∈ topics, ∀ sub,
    sub ∈ left.mSubs → sub ∈ right.mSubs → left = right

theorem Sound.singleton (ttopic : TportTopic) (node : ttopic.Sound) : Sound [ttopic] where
  addresses := List.nodup_singleton _
  names := List.nodup_singleton _
  nodes := by
    intro other member
    rw [List.mem_singleton.mp member]
    exact node
  apart := by
    intro left leftIn right rightIn _ _ _
    rw [List.mem_singleton.mp leftIn, List.mem_singleton.mp rightIn]

theorem find_mem {topics : List TportTopic} {name : Bytes} {ttopic : TportTopic}
    (found : find topics name = some ttopic) : ttopic ∈ topics ∧ ttopic.mTopic.chars = name := by
  refine ⟨List.mem_of_find?_eq_some found, ?_⟩
  simpa using List.find?_some found

/-- Distinct names lead to distinct nodes. -/
theorem find_of_mem {topics : List TportTopic} {ttopic : TportTopic}
    (distinct : (topics.map (·.mTopic.chars)).Nodup) (member : ttopic ∈ topics) :
    find topics ttopic.mTopic.chars = some ttopic := by
  obtain ⟨found, result⟩ : ∃ found, find topics ttopic.mTopic.chars = some found := by
    apply Option.isSome_iff_exists.mp
    simp only [find, List.find?_isSome, decide_eq_true_eq]
    exact ⟨ttopic, member, rfl⟩
  have same := List.inj_on_of_nodup_map distinct (find_mem result).1 member (find_mem result).2
  rw [result, same]

/-- A node is written back under its own name; all the others are as before. -/
theorem find_update {topics : List TportTopic} (sound : Sound topics) (before after : TportTopic)
    (member : before ∈ topics) (address : after.address = before.address)
    (named : after.mTopic = before.mTopic) (name : Bytes) :
    find (update topics after) name =
      if name = before.mTopic.chars then some after else find topics name := by
  have separate : ∀ other ∈ topics, (other.address = after.address ↔ other = before) := by
    intro other inside
    rw [address]
    exact ⟨List.inj_on_of_nodup_map sound.addresses inside member, fun same => same ▸ rfl⟩
  have mapped : find (update topics after) name = (find topics name).map
      (fun other => if other.address = after.address then after else other) := by
    unfold find update
    rw [List.find?_map]
    congr 1
    apply List.find?_congr
    intro other inside
    by_cases here : other = before
    · subst here
      simp [address, named]
    · simp [mt (separate other inside).mp here]
  rw [mapped]
  by_cases wanted : name = before.mTopic.chars
  · rw [if_pos wanted, wanted, find_of_mem sound.names member, Option.map_some,
      if_pos ((separate before member).mpr rfl)]
  · rw [if_neg wanted]
    cases result : find topics name with
    | none => rfl
    | some other =>
        have inside := find_mem result
        have differs : other ≠ before := fun same => wanted (by rw [← inside.2, same])
        rw [Option.map_some, if_neg (mt (separate other inside.1).mp differs)]

/-- Writing back a node that kept its identity keeps the tree in order. -/
theorem Sound.update {topics : List TportTopic} (sound : Sound topics) (before after : TportTopic)
    (member : before ∈ topics) (address : after.address = before.address)
    (named : after.mTopic = before.mTopic) (subs : after.mSubs = before.mSubs)
    (node : after.Sound) : Sound (Topics.update topics after) := by
  have separate : ∀ other ∈ topics, other.address = after.address → other = before := by
    intro other inside same
    exact List.inj_on_of_nodup_map sound.addresses inside member (same.trans address)
  have origin : ∀ other ∈ Topics.update topics after, ∃ old ∈ topics,
      old.address = other.address ∧ old.mTopic = other.mTopic ∧ old.mSubs = other.mSubs ∧
        (other = after ∨ other = old) := by
    intro other inside
    obtain ⟨old, oldIn, rfl⟩ := List.mem_map.mp inside
    by_cases here : old.address = after.address
    · have same := separate old oldIn here
      subst same
      exact ⟨old, oldIn, by simp [here, named, subs]⟩
    · exact ⟨old, oldIn, by simp [here]⟩
  have sameMap : ∀ {β : Type} (f : TportTopic → β), f after = f before →
      (Topics.update topics after).map f = topics.map f := by
    intro β f agree
    simp only [Topics.update, List.map_map]
    apply List.map_congr_left
    intro other inside
    by_cases here : other.address = after.address
    · have same := separate other inside here
      subst same
      simp [address, agree]
    · simp [here]
  refine ⟨?_, ?_, ?_, ?_⟩
  · rw [sameMap _ address]
    exact sound.addresses
  · rw [sameMap _ (congrArg CString.chars named)]
    exact sound.names
  · intro other inside
    obtain ⟨old, oldIn, _, _, _, rfl | rfl⟩ := origin other inside
    · exact node
    · exact sound.nodes other oldIn
  · intro left leftIn right rightIn sub inLeft inRight
    obtain ⟨oldLeft, oldLeftIn, leftAddress, _, leftSubs, leftCase⟩ := origin left leftIn
    obtain ⟨oldRight, oldRightIn, rightAddress, _, rightSubs, rightCase⟩ := origin right rightIn
    have same := sound.apart oldLeft oldLeftIn oldRight oldRightIn sub
      (leftSubs ▸ inLeft) (rightSubs ▸ inRight)
    subst same
    have distinct : ((Topics.update topics after).map (·.address)).Nodup := by
      rw [sameMap _ address]
      exact sound.addresses
    exact List.inj_on_of_nodup_map distinct leftIn rightIn (leftAddress.symm.trans rightAddress)

end Topics

end Sbf
