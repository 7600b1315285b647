import Sbf.RequestRuns

set_option autoImplicit false

namespace Sbf

open Octets

namespace Requests

/-- A reply callback ran as it should: on the publisher that sent the request, with what was
given for it, its request still referenced, and with the data of a reply to it. -/
def RightCall (world : Requests) (call : RequestCall) : Prop :=
  (∃ mGuid, ⟨call.request, mGuid, call.pub, some call.callback, call.closure⟩ ∈ world.sends) ∧
    (call.request, call.data) ∈ world.replies ∧ call.mRefCount ≠ 0

/-- The GUIDs in requests and in messages are those of requests that were sent, and the
trees of the publishers have their live requests. -/
structure Sound (world : Requests) : Prop where
  made : ∀ number req, world.requests number = some req → number < world.made
  sentMade : ∀ send ∈ world.sends, send.request < world.made
  counters : ∀ number pub, world.pubs[number]? = some pub →
    pub.mNext.counter.toNat = world.sends.countP (·.pub = number)
  fixed : ∀ (one other : Nat) (pub pub' : RequestPub), world.pubs[one]? = some pub →
    world.pubs[other]? = some pub' → pub.mNext.fixed = pub'.mNext.fixed → one = other
  guids : ∀ send ∈ world.sends, ∃ pub, world.pubs[send.pub]? = some pub ∧
    send.mGuid.fixed = pub.mNext.fixed ∧ send.mGuid.counter.toNat ≤ pub.mNext.counter.toNat
  apart : ∀ send ∈ world.sends, ∀ other ∈ world.sends, send.mGuid = other.mGuid → send = other
  asked : ∀ message ∈ world.asked, ∃ send ∈ world.sends, send.request = message.request ∧
    ∃ data, message.bytes = requestMessage send.mGuid data
  answered : ∀ message ∈ world.answered, ∃ send ∈ world.sends, send.request = message.request ∧
    ∃ data, message.bytes = requestMessage send.mGuid data ∧ (message.request, data) ∈ world.replies
  received : ∀ number req sub, world.requests number = some req → req.mSub = some sub →
    req.mPub = none ∧ ∃ send ∈ world.sends, send.request = world.about number ∧
      req.mGuid = send.mGuid
  sent : ∀ number req pub, world.requests number = some req → req.mPub = some pub →
    ⟨number, req.mGuid, pub, req.mReplyCb, req.mClosure⟩ ∈ world.sends ∧
      ∃ sender, world.pubs[pub]? = some sender ∧ sender.mRequests.find req.mGuid = some number
  trees : ∀ (pub : Nat) sender key number, world.pubs[pub]? = some sender →
    sender.mRequests.find key = some number →
      ∃ req, world.requests number = some req ∧ req.mPub = some pub ∧ req.mGuid = key
  referenced : ∀ number req, world.requests number = some req → req.mRefCount ≠ 0
  calls : ∀ call ∈ world.calls, world.RightCall call

theorem create_sound : create.Sound where
  made _ _ there := by cases there
  sentMade := List.forall_mem_nil _
  counters _ _ there := by cases there
  fixed _ _ _ _ there := by cases there
  guids := List.forall_mem_nil _
  apart := List.forall_mem_nil _
  asked := List.forall_mem_nil _
  answered := List.forall_mem_nil _
  received _ _ _ there := by cases there
  sent _ _ _ there := by cases there
  trees _ _ _ _ there := by cases there
  referenced _ _ there := by cases there
  calls := List.forall_mem_nil _

/-- The trees after the end of a request. -/
theorem getElem?_remove (req : Request) (pubs : List RequestPub) (i : Nat) :
    (remove req pubs)[i]? = pubs[i]?.map fun sender =>
      if req.mPub = some i then { sender with mRequests := sender.mRequests.erase req.mGuid }
      else sender := by
  unfold remove
  cases belongs : req.mPub with
  | none => simp
  | some pub =>
      rw [List.getElem?_modify, Option.map_eq_map]
      simp only [Option.some.injEq]

section Steps

variable {world : Requests} (sound : world.Sound)
include sound

/-- The ready flags of the publishers do not matter. -/
theorem Sound.modify (number : Nat) {f : RequestPub → RequestPub}
    (next : ∀ pub, (f pub).mNext = pub.mNext) (tree : ∀ pub, (f pub).mRequests = pub.mRequests) :
    Sound { world with pubs := world.pubs.modify number f } := by
  have back : ∀ (i : Nat) pub, (world.pubs.modify number f)[i]? = some pub →
      ∃ old, world.pubs[i]? = some old ∧ pub.mNext = old.mNext ∧ pub.mRequests = old.mRequests := by
    intro i pub there
    rw [List.getElem?_modify, Option.map_eq_map, Option.map_eq_some_iff] at there
    obtain ⟨old, was, rfl⟩ := there
    refine ⟨old, was, ?_⟩
    split
    · exact ⟨next old, tree old⟩
    · exact ⟨rfl, rfl⟩
  have forth : ∀ (i : Nat) old, world.pubs[i]? = some old →
      ∃ pub, (world.pubs.modify number f)[i]? = some pub ∧ pub.mNext = old.mNext ∧
        pub.mRequests = old.mRequests := by
    intro i old was
    refine ⟨_, by rw [List.getElem?_modify, was]; rfl, ?_⟩
    dsimp only
    split
    · exact ⟨next old, tree old⟩
    · exact ⟨rfl, rfl⟩
  exact
    { sound with
      counters := fun i pub there => by
        obtain ⟨old, was, same, _⟩ := back i pub there
        rw [same]
        exact sound.counters i old was
      fixed := fun one other pub pub' there there' same => by
        obtain ⟨old, was, next, _⟩ := back one pub there
        obtain ⟨old', was', next', _⟩ := back other pub' there'
        rw [next, next'] at same
        exact sound.fixed one other old old' was was' same
      guids := fun send member => by
        obtain ⟨old, was, fixed, below⟩ := sound.guids send member
        obtain ⟨pub, there, next, _⟩ := forth send.pub old was
        exact ⟨pub, there, next ▸ fixed, next ▸ below⟩
      sent := fun number req pub live belongs => by
        obtain ⟨listed, old, was, found⟩ := sound.sent number req pub live belongs
        obtain ⟨sender, there, _, tree⟩ := forth pub old was
        exact ⟨listed, sender, there, tree ▸ found⟩
      trees := fun pub sender key number there found => by
        obtain ⟨old, was, _, tree⟩ := back pub sender there
        rw [tree] at found
        exact sound.trees pub old key number was found
      calls := sound.calls }

theorem Sound.createPub {fixed : UInt64 × UInt64 × UInt64}
    (fresh : ∀ pub ∈ world.pubs, pub.mNext.fixed ≠ fixed) :
    Sound { world with pubs := world.pubs ++ [.create fixed] } := by
  have cases_ : ∀ (i : Nat) pub, (world.pubs ++ [.create fixed])[i]? = some pub →
      world.pubs[i]? = some pub ∨ (i = world.pubs.length ∧ pub = .create fixed) := by
    intro i pub there
    by_cases old : i < world.pubs.length
    · rw [List.getElem?_append_left old] at there
      exact Or.inl there
    · rw [List.getElem?_append_right (Nat.not_lt.mp old), List.getElem?_singleton] at there
      split at there
      · cases there
        exact Or.inr ⟨by omega, rfl⟩
      · cases there
  have forth : ∀ (i : Nat) pub, world.pubs[i]? = some pub →
      (world.pubs ++ [.create fixed])[i]? = some pub := by
    intro i pub there
    rw [List.getElem?_append_left (List.getElem?_eq_some_iff.mp there).1]
    exact there
  have others : ∀ (i : Nat) pub, world.pubs[i]? = some pub → pub.mNext.fixed ≠ fixed :=
    fun i pub there => fresh pub (List.mem_of_getElem? there)
  exact
    { sound with
      counters := fun i pub there => by
        rcases cases_ i pub there with was | ⟨rfl, rfl⟩
        · exact sound.counters i pub was
        · refine Eq.symm (List.countP_eq_zero.mpr fun send member => ?_)
          obtain ⟨pub, was, _⟩ := sound.guids send member
          have inside := (List.getElem?_eq_some_iff.mp was).1
          simp only [decide_eq_true_eq]
          omega
      fixed := fun one other pub pub' there there' same => by
        rcases cases_ one pub there with was | ⟨rfl, rfl⟩
        · rcases cases_ other pub' there' with was' | ⟨rfl, rfl⟩
          · exact sound.fixed one other pub pub' was was' same
          · exact absurd same (others one pub was)
        · rcases cases_ other pub' there' with was' | ⟨rfl, rfl⟩
          · exact absurd same.symm (others other pub' was')
          · rfl
      guids := fun send member => by
        obtain ⟨pub, was, rest⟩ := sound.guids send member
        exact ⟨pub, forth _ pub was, rest⟩
      sent := fun number req pub live belongs => by
        obtain ⟨listed, sender, was, found⟩ := sound.sent number req pub live belongs
        exact ⟨listed, sender, forth _ sender was, found⟩
      trees := fun pub sender key number there found => by
        rcases cases_ pub sender there with was | ⟨rfl, rfl⟩
        · exact sound.trees pub sender key number was found
        · cases found
      calls := sound.calls }

/-- A send makes a GUID that no request has had. -/
theorem Sound.guid_fresh {pub : Nat} {sender : RequestPub} (there : world.pubs[pub]? = some sender)
    (few : world.sends.countP (·.pub = pub) + 1 < 2 ^ 64) :
    (sender.mNext.increment 1).counter.toNat = world.sends.countP (·.pub = pub) + 1 ∧
      ∀ send ∈ world.sends, send.mGuid ≠ sender.mNext.increment 1 := by
  have count := sound.counters pub sender there
  have next : (sender.mNext.increment 1).counter.toNat = world.sends.countP (·.pub = pub) + 1 := by
    simp only [Guid.increment, UInt64.toNat_add, count]
    exact Nat.mod_eq_of_lt few
  refine ⟨next, fun send member same => ?_⟩
  obtain ⟨other, there', fixed, below⟩ := sound.guids send member
  rw [same] at fixed below
  have one : send.pub = pub := sound.fixed _ _ other sender there' there fixed.symm
  rw [one, there] at there'
  cases there'
  rw [next, count] at below
  omega

/-- A request with a GUID of its own goes to the tree of its publisher. -/
theorem Sound.sending {pub : Nat} {sender after : RequestPub} {mGuid : Guid} (data : Bytes)
    (replyCb : Option Nat) (closure : Nat) (there : world.pubs[pub]? = some sender)
    (counter : mGuid.counter.toNat = world.sends.countP (·.pub = pub) + 1)
    (fresh : ∀ send ∈ world.sends, send.mGuid ≠ mGuid) (fixed : mGuid.fixed = sender.mNext.fixed)
    (next : after.mNext = mGuid)
    (tree : ∀ key, after.mRequests.find key =
      if key = mGuid then some world.made else sender.mRequests.find key) :
    Sound { world with
      pubs := world.pubs.set pub after
      requests := Function.update world.requests world.made
        (some ⟨some pub, none, mGuid, 1, replyCb, closure⟩)
      made := world.made + 1
      asked := world.asked ++ [⟨world.made, requestMessage mGuid data⟩]
      sends := world.sends ++ [⟨world.made, mGuid, pub, replyCb, closure⟩] } := by
  have count := sound.counters pub sender there
  have back : ∀ (i : Nat) found, (world.pubs.set pub after)[i]? = some found →
      (i = pub ∧ found = after) ∨ (i ≠ pub ∧ world.pubs[i]? = some found) := by
    intro i found was
    rw [List.getElem?_set] at was
    split at was
    · rename_i same
      split at was
      · cases was
        exact Or.inl ⟨same.symm, rfl⟩
      · cases was
    · rename_i apart
      exact Or.inr ⟨fun same => apart same.symm, was⟩
  have here : (world.pubs.set pub after)[pub]? = some after :=
    List.getElem?_set_self (List.getElem?_eq_some_iff.mp there).1
  have elsewhere : ∀ (i : Nat) old, i ≠ pub → world.pubs[i]? = some old →
      (world.pubs.set pub after)[i]? = some old := by
    intro i old apart was
    rw [List.getElem?_set_ne (Ne.symm apart)]
    exact was
  have now : ∀ number req, Function.update world.requests world.made
      (some ⟨some pub, none, mGuid, 1, replyCb, closure⟩) number = some req →
      (number = world.made ∧ req = ⟨some pub, none, mGuid, 1, replyCb, closure⟩) ∨
        world.requests number = some req := by
    intro number req live
    rcases eq_or_ne number world.made with rfl | apart
    · rw [Function.update_self] at live
      exact Or.inl ⟨rfl, (Option.some.inj live).symm⟩
    · rw [Function.update_of_ne apart] at live
      exact Or.inr live
  have still : ∀ number req, world.requests number = some req →
      Function.update world.requests world.made
        (some ⟨some pub, none, mGuid, 1, replyCb, closure⟩) number = some req := by
    intro number req live
    have before := sound.made number req live
    rw [Function.update_of_ne (by omega), live]
  have listed : ∀ send ∈ world.sends,
      send ∈ world.sends ++ [⟨world.made, mGuid, pub, replyCb, closure⟩] :=
    fun send member => List.mem_append_left _ member
  exact
    { made := fun number req live => by
        rcases now number req live with ⟨rfl, _⟩ | live
        · exact Nat.lt_succ_self _
        · exact Nat.lt_succ_of_lt (sound.made number req live)
      sentMade := by
        rw [List.forall_mem_append, List.forall_mem_singleton]
        exact ⟨fun send member => Nat.lt_succ_of_lt (sound.sentMade send member),
          Nat.lt_succ_self _⟩
      counters := fun i found was => by
        rw [List.countP_append]
        rcases back i found was with ⟨rfl, rfl⟩ | ⟨apart, was⟩
        · rw [next, counter]
          simp
        · rw [sound.counters i found was]
          simp [Ne.symm apart]
      fixed := fun one other pub' pub'' was was' same => by
        rcases back one pub' was with ⟨rfl, rfl⟩ | ⟨_, before⟩
        · rcases back other pub'' was' with ⟨rfl, rfl⟩ | ⟨_, before'⟩
          · rfl
          · exact sound.fixed _ _ sender pub'' there before' (by rw [← same, next, fixed])
        · rcases back other pub'' was' with ⟨rfl, rfl⟩ | ⟨_, before'⟩
          · exact sound.fixed _ _ pub' sender before there (by rw [same, next, fixed])
          · exact sound.fixed _ _ pub' pub'' before before' same
      guids := by
        rw [List.forall_mem_append, List.forall_mem_singleton]
        refine ⟨fun send member => ?_, after, here, by rw [next], by rw [next]⟩
        obtain ⟨old, was, fixed', below⟩ := sound.guids send member
        rcases eq_or_ne send.pub pub with same | apart
        · rw [same, there] at was
          cases was
          refine ⟨after, same ▸ here, by rw [next, fixed, fixed'], ?_⟩
          rw [next, counter]
          omega
        · exact ⟨old, elsewhere _ old apart was, fixed', below⟩
      apart := by
        intro send member other member' same
        rcases List.mem_append.mp member with old | new
        · rcases List.mem_append.mp member' with old' | new'
          · exact sound.apart send old other old' same
          · cases List.mem_singleton.mp new'
            exact absurd same (fresh send old)
        · cases List.mem_singleton.mp new
          rcases List.mem_append.mp member' with old' | new'
          · exact absurd same.symm (fresh other old')
          · exact (List.mem_singleton.mp new').symm
      asked := by
        rw [List.forall_mem_append, List.forall_mem_singleton]
        refine ⟨fun message member => ?_, _, List.mem_append_right _ (List.mem_singleton.mpr rfl),
          rfl, data, rfl⟩
        obtain ⟨send, old, rest⟩ := sound.asked message member
        exact ⟨send, listed send old, rest⟩
      answered := fun message member => by
        obtain ⟨send, old, rest⟩ := sound.answered message member
        exact ⟨send, listed send old, rest⟩
      received := fun number req sub live belongs => by
        rcases now number req live with ⟨_, rfl⟩ | live
        · cases belongs
        · obtain ⟨none_, send, old, rest⟩ := sound.received number req sub live belongs
          exact ⟨none_, send, listed send old, rest⟩
      sent := fun number req pub' live belongs => by
        rcases now number req live with ⟨rfl, rfl⟩ | live
        · cases belongs
          exact ⟨List.mem_append_right _ (List.mem_singleton.mpr rfl), after, here,
            by rw [tree, if_pos rfl]⟩
        · obtain ⟨old, sender', was, found⟩ := sound.sent number req pub' live belongs
          refine ⟨listed _ old, ?_⟩
          rcases eq_or_ne pub' pub with rfl | apart'
          · rw [there] at was
            cases was
            exact ⟨after, here, by rw [tree, if_neg (fresh _ old), found]⟩
          · exact ⟨sender', elsewhere _ sender' apart' was, found⟩
      trees := fun pub' sender' key number was found => by
        rcases back pub' sender' was with ⟨rfl, rfl⟩ | ⟨apart, was⟩
        · rw [tree] at found
          split at found
          · rename_i same
            cases found
            exact ⟨_, Function.update_self .., rfl, same.symm⟩
          · obtain ⟨req, live, rest⟩ := sound.trees pub' sender key number there found
            exact ⟨req, still number req live, rest⟩
        · obtain ⟨req, live, rest⟩ := sound.trees pub' sender' key number was found
          exact ⟨req, still number req live, rest⟩
      referenced := fun number req live => by
        rcases now number req live with ⟨_, rfl⟩ | live
        · exact (by decide : (1 : UInt32) ≠ 0)
        · exact sound.referenced number req live
      calls := fun call member => by
        obtain ⟨⟨mGuid', sent⟩, rest⟩ := sound.calls call member
        exact ⟨⟨mGuid', listed _ sent⟩, rest⟩ }

theorem Sound.send (pub : Nat) (data : Bytes) (replyCb : Option Nat) (closure : Nat)
    (few : world.sends.countP (·.pub = pub) + 1 < 2 ^ 64) :
    (world.send pub data replyCb closure).Sound := by
  unfold Requests.send
  cases there : world.pubs[pub]? with
  | none => exact sound
  | some sender =>
      simp only [RequestPub.send]
      by_cases ready : (!sender.mPubReady || !sender.mSubReady) = true
      · rw [if_pos ready]
        exact sound
      · rw [if_neg ready]
        obtain ⟨counter, fresh⟩ := sound.guid_fresh there few
        have absent : sender.mRequests.find (sender.mNext.increment 1) = none := by
          cases found : sender.mRequests.find (sender.mNext.increment 1) with
          | none => rfl
          | some number =>
              obtain ⟨req, live, belongs, same⟩ := sound.trees pub sender _ number there found
              exact absurd same (fresh _ (sound.sent number req pub live belongs).1)
        refine sound.sending data replyCb closure there counter fresh rfl rfl fun key => ?_
        rw [RbTree.insert_none absent, RbTree.find_set]

/-- A change of the count of one request, to a value other than zero. -/
theorem Sound.count {number : Nat} {req : Request} (live : world.requests number = some req)
    (count : UInt32) (positive : count ≠ 0) :
    Sound { world with
      requests := Function.update world.requests number
        (some { req with mRefCount := count }) } := by
  have back : ∀ other req', Function.update world.requests number
      (some { req with mRefCount := count }) other = some req' →
      ∃ old, world.requests other = some old ∧ req' = { old with mRefCount := req'.mRefCount } ∧
        req'.mRefCount ≠ 0 := by
    intro other req' there
    rcases eq_or_ne other number with rfl | apart
    · rw [Function.update_self] at there
      cases there
      exact ⟨req, live, rfl, positive⟩
    · rw [Function.update_of_ne apart] at there
      exact ⟨req', there, rfl, sound.referenced other req' there⟩
  exact
    { sound with
      made := fun other req' there => by
        obtain ⟨old, was, _⟩ := back other req' there
        exact sound.made other old was
      received := fun other req' sub there belongs => by
        obtain ⟨old, was, same, _⟩ := back other req' there
        rw [same] at belongs ⊢
        exact sound.received other old sub was belongs
      sent := fun other req' pub there belongs => by
        obtain ⟨old, was, same, _⟩ := back other req' there
        rw [same] at belongs ⊢
        exact sound.sent other old pub was belongs
      trees := fun pub sender key other there found => by
        obtain ⟨old, was, belongs, same⟩ := sound.trees pub sender key other there found
        rcases eq_or_ne other number with rfl | apart
        · rw [live] at was
          cases was
          exact ⟨_, Function.update_self .., belongs, same⟩
        · exact ⟨old, (Function.update_of_ne apart _ _).trans was, belongs, same⟩
      referenced := fun other req' there => (back other req' there).choose_spec.2.2
      calls := sound.calls }

theorem Sound.detach (number : Nat)
    (counted : ∀ req, world.requests number = some req → req.mRefCount + 1 ≠ 0) :
    (world.detach number).Sound := by
  unfold Requests.detach
  split
  · exact sound
  · rename_i req live
    exact sound.count live _ (counted req live)


/-- A received request has the GUID of the one that its message is about. -/
theorem Sound.deliverRequest (sub message : Nat) : (world.deliverRequest sub message).Sound := by
  unfold Requests.deliverRequest
  split
  · rename_i receiver message' _ came
    split
    · exact sound
    split
    · exact sound
    obtain ⟨send, member, about, data, bytes⟩ := sound.asked message' (List.mem_of_getElem? came)
    have now : ∀ number req, Function.update world.requests world.made
        (some ⟨none, some sub, Guid.ofBytes message'.bytes, 1, none, 0⟩) number = some req →
        (number = world.made ∧
          req = ⟨none, some sub, Guid.ofBytes message'.bytes, 1, none, 0⟩) ∨
        (number ≠ world.made ∧ world.requests number = some req) := by
      intro number req live
      rcases eq_or_ne number world.made with rfl | apart
      · rw [Function.update_self] at live
        exact Or.inl ⟨rfl, (Option.some.inj live).symm⟩
      · rw [Function.update_of_ne apart] at live
        exact Or.inr ⟨apart, live⟩
    exact
      { sound with
        made := fun number req live => by
          rcases now number req live with ⟨rfl, _⟩ | ⟨_, live⟩
          · exact Nat.lt_succ_self _
          · exact Nat.lt_succ_of_lt (sound.made number req live)
        sentMade := fun send member => Nat.lt_succ_of_lt (sound.sentMade send member)
        received := fun number req sub' live belongs => by
          rcases now number req live with ⟨rfl, rfl⟩ | ⟨apart, live⟩
          · refine ⟨rfl, send, member, ?_, ?_⟩
            · dsimp only
              rw [Function.update_self, about]
            · rw [bytes, requestMessage_guid]
          · obtain ⟨none_, send, member, about, rest⟩ := sound.received number req sub' live belongs
            exact ⟨none_, send, member, about.trans (Function.update_of_ne apart _ _).symm, rest⟩
        sent := fun number req pub live belongs => by
          rcases now number req live with ⟨_, rfl⟩ | ⟨_, live⟩
          · cases belongs
          · exact sound.sent number req pub live belongs
        trees := fun pub sender key number there found => by
          obtain ⟨req, live, rest⟩ := sound.trees pub sender key number there found
          have before := sound.made number req live
          exact ⟨req, (Function.update_of_ne (Nat.ne_of_lt before) _ _).trans live, rest⟩
        referenced := fun number req live => by
          rcases now number req live with ⟨_, rfl⟩ | ⟨_, live⟩
          · exact (by decide : (1 : UInt32) ≠ 0)
          · exact sound.referenced number req live
        calls := sound.calls }
  · exact sound

/-- A reply says what it is about. -/
theorem Sound.reply (number : Nat) (data : Bytes) : (world.reply number data).Sound := by
  unfold Requests.reply
  split
  · exact sound
  · rename_i req live
    split
    · exact sound
    · rename_i sub belongs
      obtain ⟨_, send, member, about, same⟩ := sound.received number req sub live belongs
      have listed : ∀ reply ∈ world.replies,
          reply ∈ world.replies ++ [(world.about number, data)] :=
        fun reply member => List.mem_append_left _ member
      exact
        { sound with
          answered := by
            rw [List.forall_mem_append, List.forall_mem_singleton]
            refine ⟨fun message old => ?_, send, member, about, data, ?_,
              List.mem_append_right _ (List.mem_singleton.mpr rfl)⟩
            · obtain ⟨send, member, about, data, bytes, replied⟩ := sound.answered message old
              exact ⟨send, member, about, data, bytes, listed _ replied⟩
            · rw [RequestSub.reply, same]
          calls := fun call old => by
            obtain ⟨sent, replied, positive⟩ := sound.calls call old
            exact ⟨sent, listed _ replied, positive⟩ }

/-- The publisher finds the request that a reply is about, or none. -/
theorem Sound.deliverReply (pub message : Nat) : (world.deliverReply pub message).Sound := by
  unfold Requests.deliverReply
  split
  · rename_i receiver message' there came
    split
    · exact sound
    · rename_i number data found
      split
      · exact sound
      · rename_i req live
        split
        · exact sound
        · rename_i callback given
          obtain ⟨send, member, about, data', bytes, replied⟩ :=
            sound.answered message' (List.mem_of_getElem? came)
          have long : ¬ message'.bytes.length < requestHeaderSize := by
            rw [bytes, requestMessage_length]
            omega
          rw [RequestPub.findRequest, if_neg long, bytes, requestMessage_guid,
            Option.map_eq_some_iff] at found
          obtain ⟨_, found, same⟩ := found
          cases same
          obtain ⟨_, live', belongs, guid⟩ := sound.trees pub receiver _ number there found
          rw [live] at live'
          cases live'
          have listed := (sound.sent number req pub live belongs).1
          have one := sound.apart send member _ listed guid.symm
          have right : number = message'.request := by rw [← about, one]
          exact
            { sound with
              calls := by
                rw [List.forall_mem_append, List.forall_mem_singleton]
                refine ⟨sound.calls, ⟨req.mGuid, ?_⟩, ?_, sound.referenced number req live⟩
                · rw [← given]
                  exact listed
                · dsimp only
                  rw [right, requestMessage_data]
                  exact replied }
  · exact sound

/-- The last reference of a request takes it out of the tree that it is in. -/
theorem Sound.destroy (number : Nat) : (world.destroy number).Sound := by
  unfold Requests.destroy
  split
  · exact sound
  · rename_i req live
    split
    · rename_i left
      exact sound.count live _ left
    · have now : ∀ other req', Function.update world.requests number none other = some req' →
          other ≠ number ∧ world.requests other = some req' := by
        intro other req' there
        rcases eq_or_ne other number with rfl | apart
        · rw [Function.update_self] at there
          cases there
        · rw [Function.update_of_ne apart] at there
          exact ⟨apart, there⟩
      have back : ∀ (i : Nat) sender, (remove req world.pubs)[i]? = some sender →
          ∃ old, world.pubs[i]? = some old ∧ sender.mNext = old.mNext ∧
            ∀ key other, sender.mRequests.find key = some other →
              old.mRequests.find key = some other ∧ (req.mPub = some i → key ≠ req.mGuid) := by
        intro i sender there
        rw [getElem?_remove, Option.map_eq_some_iff] at there
        obtain ⟨old, was, rfl⟩ := there
        refine ⟨old, was, by split <;> rfl, fun key other found => ?_⟩
        split at found
        · obtain ⟨apart, found⟩ := RbTree.find_erase_some found
          exact ⟨found, fun _ => apart⟩
        · rename_i others
          exact ⟨found, fun same => absurd same others⟩
      have forth : ∀ (i : Nat) old, world.pubs[i]? = some old →
          ∃ sender, (remove req world.pubs)[i]? = some sender ∧ sender.mNext = old.mNext ∧
            ∀ key other, old.mRequests.find key = some other →
              (req.mPub = some i → key ≠ req.mGuid) → sender.mRequests.find key = some other := by
        intro i old was
        refine ⟨_, by rw [getElem?_remove, was]; rfl, by split <;> rfl, fun key other found apart => ?_⟩
        split
        · rename_i same
          rw [RbTree.find_erase, if_neg (apart same), found]
        · exact found
      exact
        { sound with
          made := fun other req' there => sound.made other req' (now other req' there).2
          counters := fun i pub there => by
            obtain ⟨old, was, next, _⟩ := back i pub there
            rw [next]
            exact sound.counters i old was
          fixed := fun one other pub pub' there there' same => by
            obtain ⟨old, was, next, _⟩ := back one pub there
            obtain ⟨old', was', next', _⟩ := back other pub' there'
            rw [next, next'] at same
            exact sound.fixed one other old old' was was' same
          guids := fun send member => by
            obtain ⟨old, was, fixed, below⟩ := sound.guids send member
            obtain ⟨pub, there, next, _⟩ := forth send.pub old was
            exact ⟨pub, there, next ▸ fixed, next ▸ below⟩
          received := fun other req' sub there belongs =>
            sound.received other req' sub (now other req' there).2 belongs
          sent := fun other req' pub there belongs => by
            obtain ⟨apart, was⟩ := now other req' there
            obtain ⟨listed, old, had, found⟩ := sound.sent other req' pub was belongs
            obtain ⟨sender, has, _, kept⟩ := forth pub old had
            refine ⟨listed, sender, has, kept _ _ found fun own same => ?_⟩
            obtain ⟨_, old', had', found'⟩ := sound.sent number req pub live own
            rw [had] at had'
            cases had'
            rw [same, found'] at found
            exact apart (Option.some.inj found).symm
          trees := fun pub sender key other there found => by
            obtain ⟨old, was, _, kept⟩ := back pub sender there
            obtain ⟨found, apart⟩ := kept key other found
            obtain ⟨req', live', belongs, same⟩ := sound.trees pub old key other was found
            refine ⟨req', ?_, belongs, same⟩
            refine (Function.update_of_ne ?_ _ _).trans live'
            rintro rfl
            rw [live] at live'
            cases live'
            exact apart belongs same.symm
          referenced := fun other req' there => sound.referenced other req' (now other req' there).2
          calls := sound.calls }

theorem Sound.returned (number : Nat) : (world.returned number).Sound := by
  unfold Requests.returned
  split
  · have before : Sound { world with running := world.running.erase number } :=
      { sound with calls := sound.calls }
    exact before.destroy number
  · exact sound

theorem Sound.drop (number : Nat) : (world.drop number).Sound := by
  unfold Requests.drop
  split
  · exact sound
  · split
    · exact sound
    · exact sound.destroy number

theorem Sound.step (action : Action) (fresh : Fresh action world) (counted : Counted action world) :
    (step action world).Sound := by
  cases action with
  | createPub fixed => exact sound.createPub fresh
  | createSub requestCb closure => exact { sound with calls := sound.calls }
  | pubReady pub => exact sound.modify pub (fun _ => rfl) (fun _ => rfl)
  | subReady pub => exact sound.modify pub (fun _ => rfl) (fun _ => rfl)
  | send pub data replyCb closure => exact sound.send pub data replyCb closure fresh
  | deliverRequest sub message => exact sound.deliverRequest sub message
  | returned number => exact sound.returned number
  | deliverReply pub message => exact sound.deliverReply pub message
  | reply number data => exact sound.reply number data
  | detach number => exact sound.detach number counted
  | destroy number => exact sound.drop number

end Steps

theorem Sound.run {world : Requests} (sound : world.Sound) (actions : List Action)
    (fresh : Along Fresh actions world) (counted : Along Counted actions world) :
    (run actions world).Sound :=
  ((TotalStep.along_and actions world).mpr ⟨fresh, counted⟩).keeps Sound
    (fun action _ sound proper => sound.step action proper.1 proper.2) sound

/-- Replies reach the right requests only: a reply callback runs on the publisher of the
request, with what was given for it and the data of a reply to it, and the tree of a
publisher has its live requests, under GUIDs that differ. -/
theorem run_correlated (actions : List Action) (fresh : Along Fresh actions create)
    (counted : Along Counted actions create) :
    (∀ call ∈ (run actions create).calls, (run actions create).RightCall call) ∧
    (∀ (pub : Nat) sender, (run actions create).pubs[pub]? = some sender →
      ∀ key number, sender.mRequests.find key = some number ↔
        ∃ req, (run actions create).requests number = some req ∧ req.mPub = some pub ∧
          req.mGuid = key) ∧
    (∀ number req, (run actions create).requests number = some req → req.mRefCount ≠ 0) ∧
    (∀ (one other : Nat) req req', (run actions create).requests one = some req →
      (run actions create).requests other = some req' → req.mPub.isSome → req'.mPub.isSome →
      req.mGuid = req'.mGuid → one = other) := by
  have sound := create_sound.run actions fresh counted
  refine ⟨sound.calls, fun pub sender there key number => ⟨?_, ?_⟩, sound.referenced, ?_⟩
  · exact sound.trees pub sender key number there
  · rintro ⟨req, live, belongs, rfl⟩
    obtain ⟨_, sender', there', found⟩ := sound.sent number req pub live belongs
    rw [there] at there'
    cases there'
    exact found
  · intro one other req req' live live' belongs belongs' same
    obtain ⟨pub, belongs⟩ := Option.isSome_iff_exists.mp belongs
    obtain ⟨pub', belongs'⟩ := Option.isSome_iff_exists.mp belongs'
    have listed := (sound.sent one req pub live belongs).1
    have listed' := (sound.sent other req' pub' live' belongs').1
    exact congrArg RequestSend.request (sound.apart _ listed _ listed' same)

/-- One request and one reply to it, which the publisher has yet to receive. -/
def exchange : List Action :=
  [.createPub (1, 2, 0), .createSub (some 3) 0, .pubReady 0, .subReady 0,
    .send 0 [5] (some 9) 4, .deliverRequest 0 0, .reply 1 [6, 7]]

theorem exchange_fresh : Along Fresh exchange create := by
  simp [exchange, TotalStep.Along, Fresh, step, create]

/-- The request is detached once, and the reply arrives twice. -/
theorem run_correlated_exchange :
    (∀ call ∈ (run (exchange ++ [.detach 0, .deliverReply 0 0, .deliverReply 0 0]) create).calls,
      (run (exchange ++ [.detach 0, .deliverReply 0 0, .deliverReply 0 0]) create).RightCall call) ∧
    (run (exchange ++ [.detach 0, .deliverReply 0 0, .deliverReply 0 0]) create).calls.map
      (fun call => (call.callback, call.data)) = [(9, [6, 7]), (9, [6, 7])] := by
  refine ⟨(run_correlated _ ?_ ?_).1, rfl⟩
  · simp [exchange, TotalStep.Along, Fresh, step, create]
  · refine ⟨trivial, trivial, trivial, trivial, trivial, trivial, trivial, ?_, trivial, trivial,
      trivial⟩
    rintro req live
    cases live
    decide

theorem run_append (first second : List Action) (world : Requests) :
    run (first ++ second) world = run second (run first world) := TotalStep.run_append ..

/-- The count of a request that is detached again and again. -/
theorem run_detach {number : Nat} {req : Request} (times : Nat) (world : Requests)
    (live : world.requests number = some req) :
    run (List.replicate times (.detach number)) world =
      { world with
        requests := Function.update world.requests number
          (some { req with mRefCount := req.mRefCount + UInt32.ofNat times }) } := by
  induction times generalizing world req with
  | zero =>
      have same : Function.update world.requests number (some req) = world.requests := by
        rw [← live, Function.update_eq_self]
      simp [run, same]
  | succ times ih =>
      have once : step (.detach number) world =
          { world with
            requests := Function.update world.requests number
              (some { req with mRefCount := req.mRefCount + 1 }) } := by
        simp only [step, detach, live]
      have count : req.mRefCount + 1 + UInt32.ofNat times =
          req.mRefCount + UInt32.ofNat (times + 1) := by
        rw [UInt32.ofNat_add, UInt32.add_assoc, UInt32.add_comm 1]
        rfl
      rw [List.replicate_succ, run, TotalStep.run_cons, once]
      refine (ih _ (Function.update_self ..)).trans ?_
      simp only [Function.update_idem, count]

/-- Detached 2 ^ 32 - 1 times, a request has a count of zero when its callback runs. -/
theorem run_wraps : ∃ actions, Along Fresh actions create ∧
    ∃ call ∈ (run actions create).calls, call.mRefCount = 0 := by
  refine ⟨exchange ++ (List.replicate (2 ^ 32 - 1) (.detach 0) ++ [.deliverReply 0 0]), ?_, ?_⟩
  · exact (TotalStep.along_append _ _ _).mpr ⟨exchange_fresh, (TotalStep.along_append _ _ _).mpr
      ⟨TotalStep.along_replicate (fun _ => trivial) _ _, trivial, trivial⟩⟩
  · have live : (run exchange create).requests 0 =
        some ⟨some 0, none, ⟨(1, 2, 0), 1⟩, 1, some 9, 4⟩ := rfl
    rw [run_append, run_append, run_detach (2 ^ 32 - 1) (run exchange create) live]
    exact ⟨⟨0, 0, 9, 4, [6, 7], 1 + UInt32.ofNat (2 ^ 32 - 1)⟩, List.mem_singleton.mpr rfl,
      by decide⟩

end Requests

end Sbf
