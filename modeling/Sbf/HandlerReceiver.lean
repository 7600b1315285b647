import Sbf.HandlerBlocks

set_option autoImplicit false

namespace Sbf

open Octets

/-- A message as applications know it. -/
structure Message where
  topic : Bytes
  payload : Bytes
  deriving DecidableEq, Repr

/-- What a stream is for on the receiving side: for every topic somebody listens
to, the state of its reassembly. -/
abbrev Receiver := Bytes → Option Reassembly

namespace Receiver

/-- The receiver with one topic's state replaced. -/
def set (receiver : Receiver) (name : Bytes) (frag : Reassembly) : Receiver :=
  fun other => if other = name then some frag else receiver other

theorem set_self (receiver : Receiver) (name : Bytes) (frag : Reassembly) :
    receiver.set name frag name = some frag := if_pos rfl

theorem set_other (receiver : Receiver) (name other : Bytes) (frag : Reassembly)
    (differs : other ≠ name) : receiver.set name frag other = receiver other := if_neg differs

/-- Setting a topic to what it is changes nothing. -/
theorem set_same (receiver : Receiver) (name : Bytes) (frag : Reassembly)
    (lookup : receiver name = some frag) : receiver.set name frag = receiver := by
  funext other
  by_cases here : other = name
  · rw [here, set_self, lookup]
  · rw [set_other _ _ _ _ here]

/-- The effect of one block: a fragment moves its topic's reassembly, and a whole
message comes out at once. -/
def take (block : Block) (receiver : Receiver) : Receiver × List Message :=
  match receiver block.name with
  | none => (receiver, [])
  | some frag =>
      if block.hdr.mFragNum ≠ 0 then
        let step := Tport.assemble frag block.hdr block.payload
        (receiver.set block.name step.2, step.1.toList.map (⟨block.name, ·⟩))
      else (receiver, [⟨block.name, block.payload⟩])

def takeAll (blocks : List Block) : Receiver → Receiver × List Message :=
  Step.runSpec (blocks.map take)

end Receiver

namespace Topics

/-- The subscriptions of a topic. -/
def subscribers (topics : List TportTopic) (name : Bytes) : List SubId :=
  match find topics name with
  | none => []
  | some ttopic => ttopic.mSubs

/-- The receiver that the nodes of a stream implement. -/
def receiver (topics : List TportTopic) : Receiver := fun name =>
  (Handler.listening topics name).map (·.frag)

/-- The nodes implement the receiver, with the subscriptions they had before. -/
structure Implements (base : List TportTopic) (topics : List TportTopic) (spec : Receiver) :
    Prop where
  sound : Sound topics
  subs : ∀ name, subscribers topics name = subscribers base name
  view : receiver topics = spec

theorem Implements.refl {topics : List TportTopic} (sound : Sound topics) :
    Implements topics topics (receiver topics) := ⟨sound, fun _ => rfl, rfl⟩

/-- One dispatch is one message, served to each of the topic's subscriptions
exactly once. -/
def Shows (base : List TportTopic) (sent : Dispatch) (message : Message) : Prop :=
  sent.topic = message.topic ∧ sent.payload = message.payload ∧
    sent.served.Perm (subscribers base message.topic)

/-- What one subscription gets out of a sequence of dispatches. -/
def deliveries (subs : SubId → Sub) (sub : SubId) (sent : List Dispatch) : List Delivery :=
  sent.flatMap (fun dispatch =>
    (dispatch.served.filter (· = sub)).filterMap (fun other => (subs other).message dispatch.payload))

/-- What one subscription should get: each message of its topic once. -/
def expected (base : List TportTopic) (subs : SubId → Sub) (sub : SubId)
    (messages : List Message) : List Delivery :=
  messages.flatMap (fun message =>
    if sub ∈ subscribers base message.topic then ((subs sub).message message.payload).toList else [])

theorem subscribers_nodup {topics : List TportTopic} (sound : Sound topics) (name : Bytes) :
    (subscribers topics name).Nodup := by
  unfold subscribers
  split
  · exact List.nodup_nil
  · rename_i ttopic found
    exact (sound.nodes ttopic (find_mem found).1).distinct

theorem deliveries_shows {base : List TportTopic} (sound : Sound base) (subs : SubId → Sub)
    (sub : SubId) {sent : List Dispatch} {messages : List Message}
    (shows : List.Forall₂ (Shows base) sent messages) :
    deliveries subs sub sent = expected base subs sub messages := by
  induction shows with
  | nil => rfl
  | @cons dispatch message sent messages first rest ih =>
      obtain ⟨_, payload, once⟩ := first
      have distinct := subscribers_nodup sound message.topic
      have here : (dispatch.served.filter (· = sub)).filterMap
          (fun other => (subs other).message dispatch.payload) =
          if sub ∈ subscribers base message.topic then
            ((subs sub).message message.payload).toList else [] := by
        have times : dispatch.served.filter (· = sub) =
            List.replicate ((subscribers base message.topic).count sub) sub := by
          rw [List.filter_eq, once.count_eq]
        rw [times, payload]
        split
        · rename_i member
          rw [List.count_eq_one_of_mem distinct member]
          cases result : (subs sub).message message.payload <;> simp [result]
        · rename_i absent
          rw [List.count_eq_zero_of_not_mem absent]
          rfl
      simp only [deliveries, expected, List.flatMap_cons, here]
      exact congrArg _ ih

theorem shows_mem {base : List TportTopic} {sent : List Dispatch} {messages : List Message}
    (shows : List.Forall₂ (Shows base) sent messages) (dispatch : Dispatch)
    (member : dispatch ∈ sent) : ∃ message ∈ messages, Shows base dispatch message := by
  induction shows with
  | nil => cases member
  | cons first rest ih =>
      rcases List.mem_cons.mp member with rfl | inside
      · exact ⟨_, List.mem_cons_self, first⟩
      · obtain ⟨message, found, shown⟩ := ih inside
        exact ⟨message, List.mem_cons_of_mem _ found, shown⟩

/-- Writing a listening node back with a new state changes the receiver there only. -/
theorem receiver_update {topics : List TportTopic} (sound : Sound topics)
    (before after : TportTopic) (member : before ∈ topics) (address : after.address = before.address)
    (named : after.mTopic = before.mTopic) (subscribed : after.mSubs ≠ []) :
    receiver (update topics after) = (receiver topics).set before.mTopic.chars after.frag := by
  funext name
  simp only [receiver, Handler.listening, find_update sound before after member address named,
    Receiver.set]
  split
  · simp [subscribed]
  · rfl

theorem subscribers_update {topics : List TportTopic} (sound : Sound topics)
    (before after : TportTopic) (member : before ∈ topics) (address : after.address = before.address)
    (named : after.mTopic = before.mTopic) (subs : after.mSubs = before.mSubs) (name : Bytes) :
    subscribers (update topics after) name = subscribers topics name := by
  simp only [subscribers, find_update sound before after member address named]
  by_cases here : name = before.mTopic.chars
  · simp only [here, ↓reduceIte, find_of_mem sound.names member, subs]
  · simp only [if_neg here]

end Topics

namespace Handler

open Topics

theorem listening_eq_some {topics : List TportTopic} {name : Bytes} {ttopic : TportTopic}
    (found : listening topics name = some ttopic) :
    ttopic ∈ topics ∧ ttopic.mTopic.chars = name ∧ ttopic.mSubs ≠ [] := by
  obtain ⟨result, subscribed⟩ := Option.filter_eq_some_iff.mp found
  refine ⟨(find_mem result).1, (find_mem result).2, ?_⟩
  simpa using subscribed

/-- The receive path refines the abstract receiver, block by block. -/
theorem accept_simulates (base : List TportTopic) (block : Block) :
    Step.Simulates (Implements base) (Shows base) (accept block) (Receiver.take block) := by
  rintro topics _ ⟨sound, subs, rfl⟩
  cases found : listening topics block.name with
  | none =>
      refine ⟨topics, [], ?_, ⟨sound, subs, ?_⟩, ?_⟩
      · simp only [accept, found]
      · simp only [Receiver.take, receiver, found, Option.map_none]
      · simp only [Receiver.take, receiver, found, Option.map_none]
        exact .nil
  | some ttopic =>
      obtain ⟨member, named, subscribed⟩ := listening_eq_some found
      have node := sound.nodes ttopic member
      have view : receiver topics block.name = some ttopic.frag := by
        simp only [receiver, found, Option.map_some]
      have serving : subscribers base block.name = ttopic.mSubs := by
        rw [← subs, ← named]
        simp only [subscribers, find_of_mem sound.names member]
      -- Whatever happens to the node keeps its identity and its subscriptions.
      have written : ∀ next frag, { ttopic with mNext := next, frag := frag }.Sound →
          Implements base (update topics { ttopic with mNext := next, frag := frag })
            ((receiver topics).set block.name frag) := by
        intro next frag afterSound
        refine ⟨sound.update ttopic { ttopic with mNext := next, frag := frag } member rfl rfl rfl
          afterSound, ?_, ?_⟩
        · intro name
          exact (subscribers_update sound ttopic { ttopic with mNext := next, frag := frag }
            member rfl rfl rfl name).trans (subs name)
        · rw [← named]
          exact receiver_update sound ttopic { ttopic with mNext := next, frag := frag }
            member rfl rfl subscribed
      by_cases whole : block.hdr.mFragNum ≠ 0
      · cases completed : (Tport.assemble ttopic.frag block.hdr block.payload).1 with
        | none =>
            have impl := written ttopic.mNext
              (Tport.assemble ttopic.frag block.hdr block.payload).2 ⟨node.distinct, node.next⟩
            refine ⟨_, [], ?_, by simpa only [Receiver.take, view, if_pos whole] using impl, ?_⟩
            · simp only [accept, found, message, received, if_pos whole, completed]
            · simp only [Receiver.take, view, if_pos whole, completed]
              exact .nil
        | some buffer =>
            obtain ⟨next, served, ran, once, moved⟩ := TportTopic.dispatchMessage_serves
              { ttopic with frag := (Tport.assemble ttopic.frag block.hdr block.payload).2 } buffer
              ⟨node.distinct, node.next⟩ subscribed
            have impl := written next _ moved
            refine ⟨_, [⟨ttopic.mTopic.chars, buffer, served⟩], ?_,
              by simpa only [Receiver.take, view, if_pos whole] using impl, ?_⟩
            · simp only [accept, found, message, received, if_pos whole, completed, ran, bind,
                Except.bind, pure, Except.pure]
            · simp only [Receiver.take, view, if_pos whole, completed, Option.toList_some,
                List.map_cons, List.map_nil]
              exact .cons ⟨named, rfl, by rw [serving]; exact once⟩ .nil
      · obtain ⟨next, served, ran, once, moved⟩ := TportTopic.dispatchMessage_serves
          ttopic block.payload node subscribed
        have impl := written next ttopic.frag moved
        rw [Receiver.set_same _ _ _ view] at impl
        refine ⟨_, [⟨ttopic.mTopic.chars, block.payload, served⟩], ?_,
          by simpa only [Receiver.take, view, if_neg whole] using impl, ?_⟩
        · simp only [accept, found, message, received, if_neg whole, ran, bind, Except.bind, pure,
            Except.pure]
        · simp only [Receiver.take, view, if_neg whole]
          exact .cons ⟨named, rfl, by rw [serving]; exact once⟩ .nil

theorem Implements.lookup {base topics : List TportTopic} {spec : Receiver}
    (implements : Topics.Implements base topics spec) {name : Bytes} {frag : Reassembly}
    (view : spec name = some frag) :
    ∃ ttopic, find topics name = some ttopic ∧ ttopic.frag = frag ∧
      ttopic.mSubs = subscribers base name := by
  rw [← implements.view] at view
  obtain ⟨ttopic, found, same⟩ := Option.map_eq_some_iff.mp view
  have result := (Option.filter_eq_some_iff.mp found).1
  refine ⟨ttopic, result, same, ?_⟩
  rw [← implements.subs name]
  simp only [subscribers, result]

/-- A stream of sound packets goes through the nodes as the abstract receiver
takes its blocks, without a fault. -/
theorem packets_simulates (base : List TportTopic) (parts : List (List Block))
    (sound : ∀ blocks ∈ parts, ∀ block ∈ blocks, block.Sound)
    (closed : ∀ blocks ∈ parts, Closed blocks) :
    Step.Simulates (Implements base) (Shows base) (packets (parts.map packetBytes))
      (Receiver.takeAll parts.flatten) := by
  rw [packets_blocks parts sound closed]
  exact Step.all_simulates accept Receiver.take parts.flatten
    (fun block _ => accept_simulates base block)

end Handler

end Sbf
