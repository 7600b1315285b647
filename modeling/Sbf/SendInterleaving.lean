import Sbf.SendSections

set_option autoImplicit false

namespace Sbf.Senders

open Octets Topics

/-- What a thread still has to send, seen as messages: its sections as blocks, and how
much of the message they start in has gone out before. -/
structure Thread where
  parts : List (List (List Block))
  count : Nat
  got : Bytes
  messages : List Message

/-- The messages that threads still have to send. -/
def owed (threads : List Thread) : List Message := threads.flatMap Thread.messages

/-- Reassembly is where the thread stands that is inside a message, if there is one:
no two threads are. -/
inductive Shares (frag : Reassembly) (threads : List Thread) : Prop
  | idle (empty : frag.Idle) (all : ∀ thread ∈ threads, thread.count = 0)
  | inside (owner : Nat) (thread : Thread) (here : threads[owner]? = some thread)
      (started : 0 < thread.count) (holds : frag.Holds thread.count thread.got)
      (others : ∀ other found, other ≠ owner → threads[other]? = some found → found.count = 0)

/-- A system whose sections owe messages of one topic, and whose receiving end is
where the sections are. -/
structure Stands (mPacketSize : UInt16) (name : Bytes) (base : List TportTopic) (system : System)
    (threads : List Thread) : Prop where
  sections : system.threads = threads.map (fun thread => sectionBytes thread.parts)
  formed : ∀ thread ∈ threads, WellFormed mPacketSize name thread.parts
  owes : ∀ thread ∈ threads,
    Owes name thread.count thread.got thread.parts.flatten.flatten thread.messages
  shares : ∃ spec frag, Implements base system.topics spec ∧ spec name = some frag ∧
    Shares frag threads

theorem owed_set {threads : List Thread} {index : Nat} {thread next : Thread}
    {out : List Message} (here : threads[index]? = some thread)
    (split : thread.messages = out ++ next.messages) :
    (owed threads).Perm (out ++ owed (threads.set index next)) := by
  induction threads generalizing index with
  | nil => cases here
  | cons first rest ih =>
      cases index with
      | zero =>
          cases here
          simp only [owed, List.set_cons_zero, List.flatMap_cons, split, List.append_assoc]
          exact List.Perm.refl _
      | succ index =>
          have there : rest[index]? = some thread := here
          have later := (ih there).append_left first.messages
          simp only [owed, List.set_cons_succ, List.flatMap_cons] at later ⊢
          refine later.trans ?_
          rw [← List.append_assoc, ← List.append_assoc]
          exact List.perm_append_comm.append_right _

theorem Shares.of_holds {frag : Reassembly} {threads : List Thread} {index : Nat}
    {thread : Thread} (here : threads[index]? = some thread)
    (holds : frag.Holds thread.count thread.got)
    (others : ∀ other found, other ≠ index → threads[other]? = some found → found.count = 0) :
    Shares frag threads := by
  by_cases zero : thread.count = 0
  · rw [zero] at holds
    refine .idle holds.idle ?_
    intro found member
    obtain ⟨other, lookup⟩ := List.mem_iff_getElem?.mp member
    by_cases same : other = index
    · rw [same, here] at lookup
      cases lookup
      exact zero
    · exact others other found same lookup
  · exact .inside index thread here (Nat.pos_of_ne_zero zero) holds others

theorem whole_of_not_hasFragment {taken : List (List Block)}
    (closed : ∀ packet ∈ taken, Handler.Closed packet ∧ ∀ block ∈ packet, block.Sound)
    (whole : ¬ HasFragment (taken.map Handler.packetBytes)) :
    ∀ block ∈ taken.flatten, block.hdr.mFragNum = 0 := by
  intro block member
  obtain ⟨packet, part, inside⟩ := List.mem_flatten.mp member
  by_contra number
  apply whole
  refine ⟨Handler.packetBytes packet, List.mem_map_of_mem part, block.fragNum, ?_, ?_⟩
  · rw [Handler.fragNums_packetBytes packet (closed packet part).2 (closed packet part).1]
    exact List.mem_map_of_mem inside
  · intro zero
    exact number (UInt8.toNat_inj.mp zero)

/-- A thread inside a message goes on with it in its next packet. -/
theorem Stands.midMessage {mPacketSize : UInt16} {name : Bytes} {base : List TportTopic}
    {system : System} {threads : List Thread} (stands : Stands mPacketSize name base system threads)
    {index : Nat} {thread : Thread} (here : threads[index]? = some thread)
    (started : 0 < thread.count) : MidMessage system index := by
  have member := List.mem_of_getElem? here
  have formed := stands.formed thread member
  have lookup : system.threads[index]? = some (sectionBytes thread.parts) := by
    rw [stands.sections, List.getElem?_map, here, Option.map_some]
  obtain ⟨block, rest, flat, number⟩ := (stands.owes thread member).next started
  -- No section and no packet is empty, so the first of each starts with that block.
  cases shape : thread.parts with
  | nil => rw [shape] at flat; cases flat
  | cons taken later =>
      rw [shape] at flat formed lookup
      obtain ⟨nonempty, packets⟩ := formed taken (by simp)
      obtain ⟨packet, others, rfl⟩ := List.exists_cons_of_ne_nil nonempty
      obtain ⟨closed, packed, _⟩ := packets packet (by simp)
      cases packet with
      | nil => cases closed
      | cons first tail =>
          simp only [List.flatten_cons, List.cons_append, List.cons.injEq] at flat
          obtain ⟨rfl, _⟩ := flat
          refine ⟨Handler.packetBytes (first :: tail), others.map Handler.packetBytes,
            sectionBytes later, first.fragNum, tail.map Block.fragNum, lookup, ?_, by omega⟩
          rw [Handler.fragNums_packetBytes _ packed.sound closed, List.map_cons]

section Section

variable {mPacketSize : UInt16} {name : Bytes} {base : List TportTopic} {system : System}
  {threads : List Thread}

/-- A thread after one of its sections. -/
structure After (name : Bytes) (thread : Thread) (later : List (List (List Block)))
    (out : List Message) (next : Thread) : Prop where
  parts : next.parts = later
  owes : Owes name next.count next.got next.parts.flatten.flatten next.messages
  split : thread.messages = out ++ next.messages

/-- Only one thread is not between messages: the other counts are zero before and after. -/
theorem others_set {index : Nat} {next : Thread}
    (others : ∀ other found, other ≠ index → threads[other]? = some found → found.count = 0) :
    ∀ other found, other ≠ index → (threads.set index next)[other]? = some found →
      found.count = 0 := by
  intro other found differs lookup
  rw [List.getElem?_set_ne (Ne.symm differs)] at lookup
  exact others other found differs lookup

/-- A section of the thread that reassembly waits for. -/
theorem Stands.take_held (stands : Stands mPacketSize name base system threads)
    {index : Nat} {thread : Thread} (here : threads[index]? = some thread)
    {taken : List (List Block)} {later : List (List (List Block))}
    (shape : thread.parts = taken :: later) (spec : Receiver) (frag : Reassembly)
    (listening : spec name = some frag) (holds : frag.Holds thread.count thread.got)
    (others : ∀ other found, other ≠ index → threads[other]? = some found → found.count = 0) :
    ∃ frag' next out, Receiver.takeAll taken.flatten spec = (spec.set name frag', out) ∧
      After name thread later out next ∧ Shares frag' (threads.set index next) := by
  have member := List.mem_of_getElem? here
  have owes := stands.owes thread member
  rw [shape, List.flatten_cons, List.flatten_append] at owes
  obtain ⟨_, packets⟩ := stands.formed thread member taken (by simp [shape])
  obtain ⟨frag', count', got', out, messages', ran, held, owed, split⟩ := owes.takeAll
    (fun block inside => by
      obtain ⟨packet, part, found⟩ := List.mem_flatten.mp inside
      exact (packets packet part).2.2 block found)
    (fun block inside => by
      obtain ⟨packet, part, found⟩ := List.mem_flatten.mp inside
      exact (packets packet part).2.1.sound block found)
    spec frag listening holds
  have inside : index < threads.length := (List.getElem?_eq_some_iff.mp here).1
  refine ⟨frag', ⟨later, count', got', messages'⟩, out, ran, ⟨rfl, owed, split⟩, ?_⟩
  exact .of_holds (List.getElem?_set_self inside) held (others_set others)

/-- A section without fragments, while reassembly waits for another thread. -/
theorem Stands.take_whole (stands : Stands mPacketSize name base system threads)
    {index : Nat} {thread : Thread} (here : threads[index]? = some thread)
    {taken : List (List Block)} {later : List (List (List Block))}
    (shape : thread.parts = taken :: later) (spec : Receiver) (frag : Reassembly)
    (listening : spec name = some frag) (zero : thread.count = 0)
    (whole : ∀ block ∈ taken.flatten, block.hdr.mFragNum = 0) {owner : Nat} {other : Thread}
    (differs : owner ≠ index) (there : threads[owner]? = some other)
    (started : 0 < other.count) (holds : frag.Holds other.count other.got)
    (others : ∀ other found, other ≠ owner → threads[other]? = some found → found.count = 0) :
    ∃ next out, Receiver.takeAll taken.flatten spec = (spec, out) ∧
      After name thread later out next ∧ Shares frag (threads.set index next) := by
  have member := List.mem_of_getElem? here
  have owes := stands.owes thread member
  rw [owes.got_nil zero, zero, shape, List.flatten_cons, List.flatten_append] at owes
  obtain ⟨_, packets⟩ := stands.formed thread member taken (by simp [shape])
  obtain ⟨out, messages', ran, owed, split⟩ := owes.takeAll_whole
    (fun block inside => by
      obtain ⟨packet, part, found⟩ := List.mem_flatten.mp inside
      exact (packets packet part).2.2 block found)
    whole spec frag listening
  refine ⟨⟨later, 0, [], messages'⟩, out, ran, ⟨rfl, owed, split⟩, ?_⟩
  refine .inside owner other ?_ started holds ?_
  · rw [List.getElem?_set_ne (Ne.symm differs), there]
  · intro k found apart lookup
    by_cases same : k = index
    · have inside : index < threads.length := (List.getElem?_eq_some_iff.mp here).1
      rw [same, List.getElem?_set_self inside] at lookup
      cases lookup
      rfl
    · rw [List.getElem?_set_ne (Ne.symm same)] at lookup
      exact others k found apart lookup

/-- A clear section, whoever reassembly waits for. -/
theorem Stands.take (stands : Stands mPacketSize name base system threads)
    {index : Nat} {thread : Thread} (here : threads[index]? = some thread)
    {taken : List (List Block)} {later : List (List (List Block))}
    (shape : thread.parts = taken :: later) (clear : Clear system index)
    (spec : Receiver) (frag : Reassembly) (listening : spec name = some frag)
    (shares : Shares frag threads) :
    ∃ spec' frag' next out, Receiver.takeAll taken.flatten spec = (spec', out) ∧
      spec' name = some frag' ∧ After name thread later out next ∧
      Shares frag' (threads.set index next) := by
  have member := List.mem_of_getElem? here
  cases shares with
  | idle empty all =>
      have zero := all thread member
      have holds : frag.Holds thread.count thread.got := by
        rw [(stands.owes thread member).got_nil zero, zero]
        exact empty.holds
      obtain ⟨frag', next, out, ran, after, shared⟩ := stands.take_held here shape spec frag
        listening holds (fun _ found _ lookup => all found (List.mem_of_getElem? lookup))
      exact ⟨_, frag', next, out, ran, Receiver.set_self _ _ _, after, shared⟩
  | inside owner other there started holds others =>
      by_cases mine : owner = index
      · subst mine
        obtain rfl : other = thread := Option.some.inj (there.symm.trans here)
        obtain ⟨frag', next, out, ran, after, shared⟩ := stands.take_held here shape spec frag
          listening holds others
        exact ⟨_, frag', next, out, ran, Receiver.set_self _ _ _, after, shared⟩
      · have lookup : system.threads[index]? =
            some (taken.map Handler.packetBytes :: sectionBytes later) := by
          rw [stands.sections, List.getElem?_map, here, Option.map_some, shape]
          rfl
        obtain ⟨_, packets⟩ := stands.formed thread member taken (by simp [shape])
        have whole := whole_of_not_hasFragment
          (fun packet part => ⟨(packets packet part).1, (packets packet part).2.1.sound⟩)
          (fun fragment => clear _ _ lookup fragment owner mine (stands.midMessage there started))
        obtain ⟨next, out, ran, after, shared⟩ := stands.take_whole here shape spec frag listening
          (others index thread (Ne.symm mine) here) whole mine there started holds others
        exact ⟨spec, frag, next, out, ran, listening, after, shared⟩

/-- One clear step: what it delivers and what is owed after it is what was owed before. -/
theorem Stands.step (stands : Stands mPacketSize name base system threads) (index : Nat)
    (clear : Clear system index) :
    ∃ next sent out threads', step index system = .ok (next, sent) ∧
      Stands mPacketSize name base next threads' ∧ List.Forall₂ (Shows base) sent out ∧
      (owed threads).Perm (out ++ owed threads') := by
  have idle : ∀ (stuck : Senders.step index system = .ok (system, [])),
      ∃ next sent out threads', Senders.step index system = .ok (next, sent) ∧
        Stands mPacketSize name base next threads' ∧ List.Forall₂ (Shows base) sent out ∧
        (owed threads).Perm (out ++ owed threads') :=
    fun stuck => ⟨system, [], [], threads, stuck, stands, .nil, List.Perm.refl _⟩
  cases here : threads[index]? with
  | none =>
      apply idle
      simp only [Senders.step, stands.sections, List.getElem?_map, here, Option.map_none]
  | some thread =>
      cases shape : thread.parts with
      | nil =>
          apply idle
          simp only [Senders.step, stands.sections, List.getElem?_map, here, Option.map_some, shape,
            sectionBytes, List.map_nil]
      | cons taken later =>
          obtain ⟨spec, frag, implements, listening, shares⟩ := stands.shares
          obtain ⟨spec', frag', next, out, ran, listening', after, shared⟩ :=
            stands.take here shape clear spec frag listening shares
          have member := List.mem_of_getElem? here
          have formed := stands.formed thread member
          obtain ⟨_, packets⟩ := formed taken (by simp [shape])
          obtain ⟨topics', sent, delivered, implements', shows⟩ :=
            Handler.packets_simulates base taken
              (fun packet part => (packets packet part).2.1.sound)
              (fun packet part => (packets packet part).1) system.topics spec implements
          rw [ran] at implements' shows
          refine ⟨⟨system.threads.set index (sectionBytes later), topics'⟩, sent, out,
            threads.set index next, ?_, ⟨?_, ?_, ?_, spec', frag', implements', listening', shared⟩,
            shows, owed_set here after.split⟩
          · have lookup : system.threads[index]? =
                some (taken.map Handler.packetBytes :: sectionBytes later) := by
              rw [stands.sections, List.getElem?_map, here, Option.map_some, shape]
              rfl
            simp only [Senders.step, lookup, delivered, bind, Except.bind, pure, Except.pure]
          · rw [stands.sections, List.map_set, after.parts]
          · intro found inside
            rcases List.mem_or_eq_of_mem_set inside with before | rfl
            · exact stands.formed found before
            · rw [after.parts]
              exact fun part behind => formed part (by simp [shape, behind])
          · intro found inside
            rcases List.mem_or_eq_of_mem_set inside with before | rfl
            · exact stands.owes found before
            · exact after.owes

/-- The same over a whole schedule. -/
theorem Stands.run (stands : Stands mPacketSize name base system threads) (schedule : List Nat)
    (clear : AllClear system schedule) :
    ∃ next sent out threads', run schedule system = .ok (next, sent) ∧
      Stands mPacketSize name base next threads' ∧ List.Forall₂ (Shows base) sent out ∧
      (owed threads).Perm (out ++ owed threads') := by
  induction schedule generalizing system threads with
  | nil => exact ⟨system, [], [], threads, rfl, stands, .nil, List.Perm.refl _⟩
  | cons index rest ih =>
      obtain ⟨middle, sent, out, threads', ran, stands', shows, owes⟩ := stands.step index clear.1
      obtain ⟨next, sent', out', threads'', ran', stands'', shows', owes'⟩ :=
        ih stands' (clear.2 middle sent ran)
      refine ⟨next, sent ++ sent', out ++ out', threads'', Step.andThen_ok_ok ran ran', stands'',
        List.rel_append shows shows', ?_⟩
      rw [List.append_assoc]
      exact owes.trans (owes'.append_left out)

end Section

/-- The threads before their first section. -/
theorem program_threads (mPacketSize : UInt16) (stream : StreamId) (name : Bytes)
    (threads : List (List Call))
    (valid : ∀ calls ∈ threads, ∀ call ∈ calls, Valid mPacketSize stream name call) :
    ∃ start : List Thread,
      List.Forall₂ (fun calls sections => program mPacketSize stream calls = .ok sections)
        threads (start.map (fun thread => sectionBytes thread.parts)) ∧
      (∀ thread ∈ start, WellFormed mPacketSize name thread.parts ∧ thread.count = 0 ∧
        Owes name thread.count thread.got thread.parts.flatten.flatten thread.messages) ∧
      owed start = threads.flatMap (·.flatMap (messages stream)) := by
  induction threads with
  | nil => exact ⟨[], .nil, nofun, rfl⟩
  | cons calls rest ih =>
      obtain ⟨parts, ran, formed, carries⟩ := program_carries mPacketSize stream name calls
        (valid calls (by simp))
      obtain ⟨start, programs, each, owed_eq⟩ :=
        ih (fun others member => valid others (by simp [member]))
      refine ⟨⟨parts, 0, [], calls.flatMap (messages stream)⟩ :: start, .cons ran programs,
        List.forall_mem_cons.mpr ⟨⟨formed, rfl, .between _ _ carries⟩, each⟩, ?_⟩
      simp only [owed, List.flatMap_cons] at owed_eq ⊢
      rw [owed_eq]

/-- Any number of threads on one stream and topic, in any order of their sections
that is clear: every message is delivered once and intact, or is still to be sent. -/
theorem schedule_delivers (mPacketSize : UInt16) (stream : StreamId) (name : Bytes)
    (threads : List (List Call))
    (valid : ∀ calls ∈ threads, ∀ call ∈ calls, Valid mPacketSize stream name call)
    (topics : List TportTopic) (ttopic : TportTopic) (sound : Sound topics)
    (found : find topics name = some ttopic) (subscribed : ttopic.mSubs ≠ [])
    (idle : ttopic.frag.Idle) :
    ∃ programs, List.Forall₂ (fun calls sections => program mPacketSize stream calls = .ok sections)
        threads programs ∧
      ∀ schedule, AllClear ⟨programs, topics⟩ schedule → ∃ after sent delivered owed,
        run schedule ⟨programs, topics⟩ = .ok (after, sent) ∧
        List.Forall₂ (Shows topics) sent delivered ∧
        (∀ (subs : SubId → Sub) (sub : SubId),
          deliveries subs sub sent = expected topics subs sub delivered) ∧
        (delivered ++ owed).Perm (threads.flatMap (·.flatMap (messages stream))) ∧
        ((∀ sections ∈ after.threads, sections = []) → owed = []) := by
  obtain ⟨start, programs, each, owed_eq⟩ :=
    program_threads mPacketSize stream name threads valid
  have listening : receiver topics name = some ttopic.frag := by
    simp [receiver, Handler.listening, found, subscribed]
  refine ⟨_, programs, ?_⟩
  intro schedule clear
  have stands : Stands mPacketSize name topics
      ⟨start.map (fun thread => sectionBytes thread.parts), topics⟩ start :=
    ⟨rfl, fun thread member => (each thread member).1, fun thread member => (each thread member).2.2,
      _, _, .refl sound, listening, .idle idle (fun thread member => (each thread member).2.1)⟩
  obtain ⟨after, sent, out, threads', ran, stands', shows, split⟩ := stands.run schedule clear
  refine ⟨after, sent, out, owed threads', ran, shows,
    fun subs sub => deliveries_shows sound subs sub shows, (owed_eq ▸ split).symm, ?_⟩
  intro done
  apply List.flatMap_eq_nil_iff.mpr
  intro thread member
  have empty : thread.parts = [] := by
    have sections := done (sectionBytes thread.parts)
      (by rw [stands'.sections]; exact List.mem_map_of_mem member)
    exact List.map_eq_nil_iff.mp sections
  have left := stands'.owes thread member
  rw [empty] at left
  exact left.done

open Pub in
/-- One thread batches six bytes over two packets of twenty, and the other sends. -/
def tickThreads (payload : Bytes) : List (List Call) :=
  [[.batch [.add ticker [1, 2, 3, 4, 5, 6]]], [.send ticker payload]]

theorem tickThreads_valid (payload : Bytes)
    (can : Pub.ticker.CanSend 20 payload) :
    ∀ calls ∈ tickThreads payload, ∀ call ∈ calls, Valid 20 0 Pub.tick.mTopic.chars call := by
  have batch : Valid 20 0 Pub.tick.mTopic.chars (.batch [.add Pub.ticker [1, 2, 3, 4, 5, 6]]) := by
    refine ⟨⟨⟨⟨rfl, rfl, by decide⟩, by decide, by decide, by decide, by decide⟩,
      fun _ _ _ => trivial⟩, ?_⟩
    intro message pending
    obtain rfl := List.mem_singleton.mp pending
    rfl
  intro calls member call inside
  rcases List.mem_cons.mp member with rfl | second
  · obtain rfl := List.mem_singleton.mp inside
    exact batch
  · obtain rfl := List.mem_singleton.mp second
    obtain rfl := List.mem_singleton.mp inside
    exact ⟨can, rfl, rfl⟩

theorem batch_tick : program 20 0 [.batch [.add Pub.ticker [1, 2, 3, 4, 5, 6]]] =
    .ok [[Pub.tickPacket 1 false [1, 2, 3, 4]], [Pub.tickPacket 2 true [5, 6]]] := rfl

theorem send_tick_whole : program 20 0 [.send Pub.ticker [9]] =
    .ok [[(Pub.block Pub.tick 0 TportHeader.lastInPacket [9]).bytes]] := rfl

theorem send_tick_fragments : program 20 0 [.send Pub.ticker [7, 8, 9, 10, 11, 12]] =
    .ok [[Pub.tickPacket 1 false [7, 8, 9, 10], Pub.tickPacket 2 true [11, 12]]] := rfl

/-- A whole message passes between the fragments. -/
theorem schedule_delivers_tickThreads : ∃ programs after sent delivered owed,
    run [0, 1, 0] ⟨programs, [Pub.tickNode]⟩ = .ok (after, sent) ∧
    List.Forall₂ (Shows [Pub.tickNode]) sent delivered ∧
    (delivered ++ owed).Perm
      [⟨Pub.tick.mTopic.chars, [1, 2, 3, 4, 5, 6]⟩, ⟨Pub.tick.mTopic.chars, [9]⟩] := by
  obtain ⟨programs, ran, delivers⟩ := schedule_delivers 20 0 Pub.tick.mTopic.chars (tickThreads [9])
    (tickThreads_valid [9] ⟨⟨rfl, rfl, by decide⟩, by decide, by decide, by decide⟩) [Pub.tickNode]
    Pub.tickNode Pub.tickNode_awaits.sound Pub.tickNode_awaits.found
    Pub.tickNode_awaits.subscribed Pub.tickNode_awaits.idle
  obtain rfl : programs = [[[Pub.tickPacket 1 false [1, 2, 3, 4]], [Pub.tickPacket 2 true [5, 6]]],
      [[(Pub.block Pub.tick 0 TportHeader.lastInPacket [9]).bytes]]] := by
    cases ran with
    | cons first rest =>
        cases rest with
        | cons second nothing =>
            cases nothing
            cases first.symm.trans batch_tick
            cases second.symm.trans send_tick_whole
            rfl
  obtain ⟨after, sent, delivered, owed, scheduled, shows, _, split, _⟩ :=
    delivers [0, 1, 0] (by decide)
  exact ⟨_, after, sent, delivered, owed, scheduled, shows, split⟩

/-- Fragments of the other thread between them: both messages are lost. -/
theorem schedule_loses :
    (∀ calls ∈ tickThreads [7, 8, 9, 10, 11, 12], ∀ call ∈ calls,
      Valid 20 0 Pub.tick.mTopic.chars call) ∧
    ∃ programs, List.Forall₂ (fun calls sections => program 20 0 calls = .ok sections)
      (tickThreads [7, 8, 9, 10, 11, 12]) programs ∧
    ∃ after, run [0, 1, 0] ⟨programs, [Pub.tickNode]⟩ = .ok (after, []) ∧
      ∀ sections ∈ after.threads, sections = [] :=
  ⟨tickThreads_valid _ ⟨⟨rfl, rfl, by decide⟩, by decide, by decide, by decide⟩,
    _, .cons batch_tick (.cons send_tick_fragments .nil),
    ⟨[[], []], [{ Pub.tickNode with frag := ⟨0, 4, none, 8192⟩ }]⟩, rfl, by decide⟩

end Sbf.Senders
