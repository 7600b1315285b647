import Sbf.TportStreams

set_option autoImplicit false

/-! The nodes of one stream under insertions, removals and changes of single nodes. -/

namespace Sbf

open Octets

theorem Tailq.next_ne {α : Type} [DecidableEq α] {l : List α} {x y : α} (distinct : l.Nodup)
    (successor : Tailq.next l x = some y) : y ≠ x := by
  by_cases member : x ∈ l
  · obtain ⟨front, back, rfl⟩ := List.append_of_mem member
    obtain ⟨_, right, apart⟩ := List.nodup_append.mp distinct
    rw [Tailq.next_split front back x (fun inside => apart x inside x (by simp) rfl)] at successor
    rintro rfl
    exact (List.nodup_cons.mp right).1 (List.mem_of_mem_head? successor)
  · have nothing : l.dropWhile (· ≠ x) = [] := by
      rw [List.dropWhile_eq_nil_iff]
      intro other inside
      simpa using (fun same : other = x => member (same ▸ inside))
    rw [Tailq.next, nothing] at successor
    cases successor

namespace TportTopic

/-- The lists of a node are lists, and `mNext` points into one of them. -/
structure Linked (ttopic : TportTopic) : Prop where
  distinct : ∀ type, (ttopic.attached type).Nodup
  next : ∀ sub, ttopic.mNext = some sub → sub ∈ ttopic.mSubs

/-- Somebody is on the node. -/
def Occupied (ttopic : TportTopic) : Prop := ∃ type, ttopic.attached type ≠ []

theorem new_linked (address : Nat) (topic : CString) : (new address topic).Linked where
  distinct type := by cases type <;> exact List.nodup_nil
  next sub pointer := by cases pointer

theorem attached_insertTail (ttopic : TportTopic) (id : EndpointId) (type other : TopicType) :
    (ttopic.insertTail id type).attached other =
      if other = type then ttopic.attached type ++ [id] else ttopic.attached other := by
  cases type <;> cases other <;> rfl

theorem attached_unlink (ttopic : TportTopic) (id : EndpointId) (type other : TopicType) :
    (ttopic.unlink id type).attached other =
      if other = type then (ttopic.attached type).erase id else ttopic.attached other := by
  cases type <;> cases other <;> rfl

@[simp] theorem insertTail_address (ttopic : TportTopic) (id : EndpointId) (type : TopicType) :
    (ttopic.insertTail id type).address = ttopic.address := by cases type <;> rfl

@[simp] theorem insertTail_mTopic (ttopic : TportTopic) (id : EndpointId) (type : TopicType) :
    (ttopic.insertTail id type).mTopic = ttopic.mTopic := by cases type <;> rfl

@[simp] theorem unlink_address (ttopic : TportTopic) (id : EndpointId) (type : TopicType) :
    (ttopic.unlink id type).address = ttopic.address := by cases type <;> rfl

@[simp] theorem unlink_mTopic (ttopic : TportTopic) (id : EndpointId) (type : TopicType) :
    (ttopic.unlink id type).mTopic = ttopic.mTopic := by cases type <;> rfl

theorem Linked.insertTail {ttopic : TportTopic} (linked : ttopic.Linked) {id : EndpointId}
    {type : TopicType} (new : id ∉ ttopic.attached type) : (ttopic.insertTail id type).Linked where
  distinct other := by
    rw [attached_insertTail]
    split
    · rw [List.nodup_append]
      refine ⟨linked.distinct type, List.nodup_singleton _, ?_⟩
      rintro left inside right here rfl
      rw [List.mem_singleton.mp here] at inside
      exact new inside
    · exact linked.distinct other
  next sub pointer := by
    cases type with
    | pub => exact linked.next sub pointer
    | sub => exact List.mem_append_left _ (linked.next sub pointer)

theorem Linked.unlink {ttopic : TportTopic} (linked : ttopic.Linked) (id : EndpointId)
    (type : TopicType) : (ttopic.unlink id type).Linked where
  distinct other := by
    rw [attached_unlink]
    split
    · exact (linked.distinct type).erase id
    · exact linked.distinct other
  next sub pointer := by
    cases type with
    | pub => exact linked.next sub pointer
    | sub =>
        -- The pointer has moved on from the subscription that goes.
        have distinct : ttopic.mSubs.Nodup := linked.distinct .sub
        refine (distinct.mem_erase_iff).mpr ?_
        by_cases here : ttopic.mNext = some id
        · have moved : Tailq.next ttopic.mSubs id = some sub := by
            simpa [TportTopic.unlink, here] using pointer
          exact ⟨Tailq.next_ne distinct moved, Tailq.next_mem _ _ _ moved⟩
        · have kept : ttopic.mNext = some sub := by
            simpa [TportTopic.unlink, here] using pointer
          exact ⟨fun same => here (same ▸ kept), linked.next sub kept⟩

end TportTopic

namespace Topics

theorem only_of_erase {ids : List EndpointId} {id : EndpointId} (member : id ∈ ids)
    (last : ids.erase id = []) : ids = [id] := by
  have split := List.perm_cons_erase member
  rw [last] at split
  exact List.perm_singleton.mp split

/-- The nodes of a stream: each with its own address and name. -/
structure Nodes (topics : List TportTopic) : Prop where
  addresses : (topics.map (·.address)).Nodup
  names : (topics.map (·.mTopic.chars)).Nodup
  linked : ∀ ttopic ∈ topics, ttopic.Linked

theorem Nodes.nil : Nodes [] := ⟨List.nodup_nil, List.nodup_nil, nofun⟩

section Update

variable {topics : List TportTopic} {before after : TportTopic}
  (addresses : (topics.map (·.address)).Nodup) (member : before ∈ topics)
  (same : after.address = before.address)
include addresses member same

omit addresses in
theorem mem_update (other : TportTopic) :
    other ∈ update topics after ↔
      (other ∈ topics ∧ other.address ≠ before.address) ∨ other = after := by
  simp only [update, List.mem_map, same]
  constructor
  · rintro ⟨old, inside, rfl⟩
    split
    · exact Or.inr rfl
    · rename_i apart
      exact Or.inl ⟨inside, apart⟩
  · rintro (⟨inside, apart⟩ | rfl)
    · exact ⟨other, inside, if_neg apart⟩
    · exact ⟨before, member, if_pos rfl⟩

theorem map_update {β : Type} (f : TportTopic → β) (agree : f after = f before) :
    (update topics after).map f = topics.map f := by
  simp only [update, List.map_map]
  apply List.map_congr_left
  intro other inside
  by_cases here : other.address = after.address
  · obtain rfl := List.inj_on_of_nodup_map addresses inside member (here.trans same)
    simp [same, agree]
  · simp [here]

end Update

theorem length_update (topics : List TportTopic) (after : TportTopic) :
    (update topics after).length = topics.length := List.length_map _

theorem Nodes.update {topics : List TportTopic} (nodes : Nodes topics) {before after : TportTopic}
    (member : before ∈ topics) (same : after.address = before.address)
    (named : after.mTopic = before.mTopic) (linked : after.Linked) :
    Nodes (update topics after) where
  addresses := by
    rw [map_update nodes.addresses member same _ same]
    exact nodes.addresses
  names := by
    rw [map_update nodes.addresses member same _ (congrArg CString.chars named)]
    exact nodes.names
  linked other inside := by
    rcases (mem_update member same other).mp inside with ⟨old, _⟩ | rfl
    · exact nodes.linked other old
    · exact linked

theorem Nodes.filter {topics : List TportTopic} (nodes : Nodes topics) (p : TportTopic → Bool) :
    Nodes (topics.filter p) where
  addresses := nodes.addresses.sublist (List.filter_sublist.map _)
  names := nodes.names.sublist (List.filter_sublist.map _)
  linked other inside := nodes.linked other (List.mem_filter.mp inside).1

/-- Changing a node does not matter to what is left without it. -/
theorem filter_update (topics : List TportTopic) (after : TportTopic) :
    (update topics after).filter (·.address ≠ after.address) =
      topics.filter (·.address ≠ after.address) := by
  simp only [update, List.filter_map]
  induction topics with
  | nil => rfl
  | cons first rest ih =>
      by_cases here : first.address = after.address
      · simpa [here] using ih
      · simpa [here] using ih

theorem length_filter {topics : List TportTopic} (addresses : (topics.map (·.address)).Nodup)
    {ttopic : TportTopic} (member : ttopic ∈ topics) :
    (topics.filter (·.address ≠ ttopic.address)).length + 1 = topics.length := by
  induction topics with
  | nil => cases member
  | cons first rest ih =>
      rw [List.map_cons, List.nodup_cons] at addresses
      rcases List.mem_cons.mp member with rfl | inside
      · have kept : rest.filter (·.address ≠ ttopic.address) = rest := by
          apply List.filter_eq_self.mpr
          intro other behind
          simpa using fun clash : other.address = ttopic.address =>
            addresses.1 (clash ▸ List.mem_map_of_mem behind)
        rw [List.filter_cons_of_neg (by simp), kept, List.length_cons]
      · have differs : first.address ≠ ttopic.address := fun clash =>
          addresses.1 (clash ▸ List.mem_map_of_mem inside)
        rw [List.filter_cons_of_pos (by simpa using differs), List.length_cons, List.length_cons,
          ih addresses.2 inside]

end Topics

namespace Topics

/-- An endpoint is on the list of its type, of a node with this address and name. -/
def OnNode (topics : List TportTopic) (address : Nat) (name : CString) (type : TopicType)
    (id : EndpointId) : Prop :=
  ∃ ttopic ∈ topics, ttopic.address = address ∧ ttopic.mTopic = name ∧ id ∈ ttopic.attached type

section OnNode

variable {topics : List TportTopic} (nodes : Nodes topics) {ttopic : TportTopic}
  (member : ttopic ∈ topics) (id : EndpointId) (type : TopicType)
include nodes member

theorem onNode_iff (address : Nat) (name : CString) (at_type : TopicType) (other : EndpointId)
    (here : ttopic.address = address) :
    OnNode topics address name at_type other ↔
      ttopic.mTopic = name ∧ other ∈ ttopic.attached at_type := by
  constructor
  · rintro ⟨found, inside, same, named, on⟩
    obtain rfl := List.inj_on_of_nodup_map nodes.addresses inside member (same.trans here.symm)
    exact ⟨named, on⟩
  · rintro ⟨named, on⟩
    exact ⟨ttopic, member, here, named, on⟩

omit nodes in
theorem onNode_update_other (after : TportTopic) (same : after.address = ttopic.address)
    (address : Nat) (name : CString) (at_type : TopicType) (other : EndpointId)
    (elsewhere : address ≠ ttopic.address) :
    OnNode (update topics after) address name at_type other ↔
      OnNode topics address name at_type other := by
  simp only [OnNode, mem_update member same]
  constructor
  · rintro ⟨found, ⟨inside, _⟩ | rfl, here, rest⟩
    · exact ⟨found, inside, here, rest⟩
    · exact absurd (here.symm.trans same) elsewhere
  · rintro ⟨found, inside, here, rest⟩
    exact ⟨found, Or.inl ⟨inside, by rw [here]; exact elsewhere⟩, here, rest⟩

/-- Inserting at a node puts one endpoint on it. -/
theorem onNode_insertTail (address : Nat) (name : CString) (other : EndpointId)
    (at_type : TopicType) :
    OnNode (update topics (ttopic.insertTail id type)) address name at_type other ↔
      OnNode topics address name at_type other ∨
        (address = ttopic.address ∧ name = ttopic.mTopic ∧ at_type = type ∧ other = id) := by
  by_cases here : address = ttopic.address
  · subst here
    have inside : ttopic.insertTail id type ∈ update topics (ttopic.insertTail id type) :=
      (mem_update member (by simp) _).mpr (Or.inr rfl)
    rw [onNode_iff nodes member _ _ _ _ rfl]
    constructor
    · rintro ⟨found, within, same, named, on⟩
      rcases (mem_update member (by simp) found).mp within with ⟨_, apart⟩ | rfl
      · exact absurd same apart
      · rw [TportTopic.attached_insertTail] at on
        rw [TportTopic.insertTail_mTopic] at named
        split at on
        · rename_i same_type
          rcases List.mem_append.mp on with old | new
          · exact Or.inl ⟨named, same_type ▸ old⟩
          · exact Or.inr ⟨rfl, named.symm, same_type, List.mem_singleton.mp new⟩
        · exact Or.inl ⟨named, on⟩
    · intro either
      refine ⟨_, inside, by simp, ?_⟩
      rw [TportTopic.attached_insertTail, TportTopic.insertTail_mTopic]
      rcases either with ⟨named, on⟩ | ⟨_, named, rfl, rfl⟩
      · refine ⟨named, ?_⟩
        split
        · rename_i same_type
          exact List.mem_append_left _ (same_type ▸ on)
        · exact on
      · exact ⟨named.symm, by simp⟩
  · rw [onNode_update_other member _ (by simp) _ _ _ _ here]
    simp [here]

/-- Unlinking at a node takes one endpoint off it. -/
theorem onNode_unlink (address : Nat) (name : CString) (at_type : TopicType) (other : EndpointId) :
    OnNode (update topics (ttopic.unlink id type)) address name at_type other ↔
      OnNode topics address name at_type other ∧
        ¬ (address = ttopic.address ∧ at_type = type ∧ other = id) := by
  by_cases here : address = ttopic.address
  · subst here
    have distinct := (nodes.linked ttopic member).distinct type
    have inside : ttopic.unlink id type ∈ update topics (ttopic.unlink id type) :=
      (mem_update member (by simp) _).mpr (Or.inr rfl)
    rw [onNode_iff nodes member _ _ _ _ rfl]
    constructor
    · rintro ⟨found, within, same, named, on⟩
      rcases (mem_update member (by simp) found).mp within with ⟨_, apart⟩ | rfl
      · exact absurd same apart
      · rw [TportTopic.attached_unlink] at on
        rw [TportTopic.unlink_mTopic] at named
        split at on
        · rename_i same_type
          rw [distinct.mem_erase_iff] at on
          exact ⟨⟨named, same_type ▸ on.2⟩, fun clash => on.1 clash.2.2⟩
        · rename_i other_type
          exact ⟨⟨named, on⟩, fun clash => other_type clash.2.1⟩
    · rintro ⟨⟨named, on⟩, differs⟩
      refine ⟨_, inside, by simp, by rw [TportTopic.unlink_mTopic, named], ?_⟩
      rw [TportTopic.attached_unlink]
      split
      · rename_i same_type
        rw [distinct.mem_erase_iff]
        exact ⟨fun clash => differs ⟨rfl, same_type, clash⟩, same_type ▸ on⟩
      · exact on
  · rw [onNode_update_other member _ (by simp) _ _ _ _ here]
    simp [here]

/-- So does removing the node, when nobody else is on it. -/
theorem onNode_filter (alone : ∀ at_type other, other ∈ ttopic.attached at_type →
      at_type = type ∧ other = id) (address : Nat) (name : CString) (at_type : TopicType)
    (other : EndpointId) :
    OnNode (topics.filter (·.address ≠ ttopic.address)) address name at_type other ↔
      OnNode topics address name at_type other ∧
        ¬ (address = ttopic.address ∧ at_type = type ∧ other = id) := by
  constructor
  · rintro ⟨found, inside, same, rest⟩
    obtain ⟨old, apart⟩ := List.mem_filter.mp inside
    refine ⟨⟨found, old, same, rest⟩, fun clash => ?_⟩
    simp [same, clash.1] at apart
  · rintro ⟨⟨found, inside, same, named, listed⟩, differs⟩
    refine ⟨found, List.mem_filter.mpr ⟨inside, ?_⟩, same, named, listed⟩
    simp only [ne_eq, decide_not, Bool.not_eq_eq_eq_not, Bool.not_true, decide_eq_false_iff_not]
    intro clash
    obtain rfl := List.inj_on_of_nodup_map nodes.addresses inside member clash
    obtain ⟨same_type, same_id⟩ := alone at_type other listed
    exact differs ⟨same.symm, same_type, same_id⟩

end OnNode

end Topics

namespace TportStream

variable {S : Type}

theorem insertTopic_perm (topics : List TportTopic) (ttopic : TportTopic) :
    (insertTopic topics ttopic).Perm (ttopic :: topics) := by
  refine List.perm_middle.trans (List.Perm.cons _ ?_)
  rw [List.takeWhile_append_dropWhile]

theorem topicAt_of_mem (tstream : TportStream S) {ttopic : TportTopic}
    (addresses : (tstream.mTopics.map (·.address)).Nodup) (member : ttopic ∈ tstream.mTopics) :
    tstream.topicAt ttopic.address = .ok ttopic := by
  obtain ⟨found, result⟩ : ∃ found,
      tstream.mTopics.find? (·.address = ttopic.address) = some found := by
    apply Option.isSome_iff_exists.mp
    simp only [List.find?_isSome, decide_eq_true_eq]
    exact ⟨ttopic, member, rfl⟩
  have same : found.address = ttopic.address := by simpa using List.find?_some result
  obtain rfl := List.inj_on_of_nodup_map addresses (List.mem_of_find?_eq_some result) member same
  simp only [topicAt, result]

theorem topicAt_ok {tstream : TportStream S} {address : Nat} {ttopic : TportTopic}
    (ran : tstream.topicAt address = .ok ttopic) :
    ttopic ∈ tstream.mTopics ∧ ttopic.address = address := by
  unfold topicAt at ran
  split at ran
  · cases ran
  · rename_i result
    cases ran
    exact ⟨List.mem_of_find?_eq_some result, by simpa using List.find?_some result⟩

/-- A stream with a node for a topic, next to the stream it was before. -/
structure Ensures (before after : TportStream S) (ttopic : TportTopic) (fresh : Nat)
    (topic : CString) : Prop where
  nodes : Topics.Nodes after.mTopics
  member : ttopic ∈ after.mTopics
  named : ttopic.mTopic = topic
  onNode : ∀ address name type id, Topics.OnNode after.mTopics address name type id ↔
    Topics.OnNode before.mTopics address name type id
  counted : after.mRefCount - after.mTopics.length = before.mRefCount - before.mTopics.length
  origin : ∀ other ∈ after.mTopics, other = ttopic ∨ other ∈ before.mTopics
  fresh : ∀ other ∈ after.mTopics, other.address < fresh + 1
  thread : after.mThread = before.mThread
  ready : after.mReady = before.mReady

theorem ensureTopic_ensures (tstream : TportStream S) (nodes : Topics.Nodes tstream.mTopics)
    (fresh : Nat) (small : ∀ ttopic ∈ tstream.mTopics, ttopic.address < fresh) (topic : CString) :
    Ensures tstream (tstream.ensureTopic fresh topic).2 (tstream.ensureTopic fresh topic).1 fresh
      topic := by
  unfold ensureTopic
  cases found : tstream.findTopic topic with
  | some ttopic =>
      obtain ⟨member, named⟩ := Topics.find_mem found
      exact ⟨nodes, member, CString.ext named, fun _ _ _ _ => Iff.rfl, rfl, fun _ => Or.inr,
        fun other inside => Nat.lt_succ_of_lt (small other inside), rfl, rfl⟩
  | none =>
      have perm := insertTopic_perm tstream.mTopics (.new fresh topic)
      have members : ∀ other, other ∈ insertTopic tstream.mTopics (.new fresh topic) ↔
          other = .new fresh topic ∨ other ∈ tstream.mTopics := by
        intro other
        rw [perm.mem_iff, List.mem_cons]
      refine ⟨⟨?_, ?_, ?_⟩, (members _).mpr (Or.inl rfl), rfl, ?_, ?_, fun other => (members other).mp,
        ?_, rfl, rfl⟩
      · rw [addTopic, (perm.map _).nodup_iff, List.map_cons, List.nodup_cons]
        refine ⟨?_, nodes.addresses⟩
        intro clash
        obtain ⟨other, inside, same⟩ := List.mem_map.mp clash
        have below := small other inside
        rw [same] at below
        exact Nat.lt_irrefl _ below
      · rw [addTopic, (perm.map _).nodup_iff, List.map_cons, List.nodup_cons]
        refine ⟨?_, nodes.names⟩
        intro clash
        obtain ⟨other, inside, same⟩ := List.mem_map.mp clash
        have absent := List.find?_eq_none.mp found other inside
        simp only [decide_eq_true_eq] at absent
        exact absent same
      · intro other inside
        rcases (members other).mp inside with rfl | old
        · exact TportTopic.new_linked fresh topic
        · exact nodes.linked other old
      · intro address name type id
        constructor
        · rintro ⟨other, inside, rest⟩
          rcases (members other).mp inside with rfl | old
          · have nobody := rest.2.2
            cases type <;> cases nobody
          · exact ⟨other, old, rest⟩
        · rintro ⟨other, inside, rest⟩
          exact ⟨other, (members other).mpr (Or.inr inside), rest⟩
      · simp only [addTopic, perm.length_eq, List.length_cons]
        omega
      · intro other inside
        rcases (members other).mp inside with rfl | old
        · exact Nat.lt_succ_self fresh
        · exact Nat.lt_succ_of_lt (small other old)

end TportStream

end Sbf
