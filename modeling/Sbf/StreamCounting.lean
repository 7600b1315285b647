import Sbf.StreamCounts
import Sbf.TopicNodes

set_option autoImplicit false

/-! What the counts of streams rest on: the steps that are left for every endpoint, the nodes
that say who is attached, and the references that have been taken and not dropped. -/

namespace Sbf

open Octets

theorem TportStream.ensureTopic_kind {S : Type} (tstream : TportStream S) (address : Nat)
    (topic : CString) : (tstream.ensureTopic address topic).2.mStream = tstream.mStream := by
  unfold ensureTopic
  split <;> rfl

namespace ThreadStep

/-- The step leads to the endpoint's add callback. -/
def joins (id : EndpointId) : ThreadStep → Bool
  | add other | complete _ other _ => other = id
  | _ => false

/-- The step carries out a removal that was put off. -/
def settles (id : EndpointId) : ThreadStep → Bool
  | settle other | finish other => other = id
  | _ => false

def completes (stream : StreamId) : ThreadStep → Bool
  | complete handle _ _ => handle = stream
  | _ => false

/-- The step carries out the removal of an endpoint. -/
def Removes (id : EndpointId) (endpoint : CountedEndpoint) : ThreadStep → Prop
  | remove other => other = id ∧ endpoint.mReady = true
  | settle other => other = id ∧ endpoint.mRemoved = true
  | finish other => other = id ∧ endpoint.mRemoved = true ∧ endpoint.mReady = true
  | _ => False

end ThreadStep

namespace StreamCounts

/-- What the counts are for: none is below zero, and while no thread is inside `SetStream`
each is the number of the stream's topics and of the endpoints on their way to it. -/
structure Counted (state : StreamCounts) : Prop where
  positive : ∀ stream tstream, state.streams.find stream = some tstream → 0 ≤ tstream.mRefCount
  balanced : state.setting = none → ∀ stream tstream, state.streams.find stream = some tstream →
    tstream.mRefCount = tstream.mTopics.length + state.waiting stream

section Counts

variable (state : StreamCounts)

/-- How many steps of a kind are left. -/
def pending (p : ThreadStep → Bool) : Nat := state.work.countP (fun entry => p entry.2)

/-- The ways on which an endpoint still gets to its add callback. -/
def joins (id : EndpointId) : Nat :=
  state.pending (·.joins id) + state.completing.countP (·.2 = id)

/-- A reference that `SetStream` has still to take, though the endpoint has the stream. -/
def owing (stream : StreamId) : Nat :=
  match state.setting with
  | some (.increment _ other) => if other = stream then 1 else 0
  | _ => 0

end Counts

theorem waiting_set {state : StreamCounts} {id : EndpointId} {old : CountedEndpoint}
    (found : state.endpoints.find id = some old) (new : CountedEndpoint) (stream : StreamId) :
    (state.endpoints.set id new).count (fun _ endpoint => endpoint.waits stream) +
        (old.waits stream).toNat = state.waiting stream + (new.waits stream).toNat := by
  have counts := RbTree.count_set state.endpoints (fun _ endpoint => endpoint.waits stream) id new
  rw [found, Option.elim_some] at counts
  exact counts

theorem waiting_pos {state : StreamCounts} {id : EndpointId} {endpoint : CountedEndpoint}
    (found : state.endpoints.find id = some endpoint) {stream : StreamId}
    (waits : endpoint.waits stream = true) : 0 < state.waiting stream := by
  have counts := RbTree.count_erase state.endpoints (fun _ endpoint => endpoint.waits stream) id
  rw [found, Option.elim_some, waits, Bool.toNat_true] at counts
  rw [waiting]
  omega

/-- What the steps that are left for an endpoint go with. -/
structure Due (endpoint : CountedEndpoint) (joining unholding removing settling : Nat) : Prop where
  joins : joining + endpoint.mTportTopic.toList.length ≤ 1
  unholds : unholding = (endpoint.mTportTopic.isSome && !endpoint.added).toNat
  settles : settling ≤ 1
  removes : endpoint.gone = false →
    removing + endpoint.mRemoved.toNat = endpoint.mDestroyed.toNat
  added : endpoint.added = true → endpoint.mTportTopic.isSome = true
  ready : endpoint.mReady = true → endpoint.mTportTopic.isSome = true
  gone : endpoint.gone = true → endpoint.mTportTopic.isSome = true ∧ endpoint.mDestroyed = true ∧
    removing = 0 ∧ (endpoint.mRemoved = true → settling = 0)

/-- The endpoint's stream, which it has or is about to get, is one of the thread's. -/
def Serves (state : StreamCounts) (thread : Nat) (id : EndpointId) (stream : StreamId) : Prop :=
  (∃ endpoint, state.endpoints.find id = some endpoint ∧
    (endpoint.mTportStream = some stream ∨ state.setting = some (.store id stream))) ∧
  ∀ tstream, state.streams.find stream = some tstream → tstream.mThread = thread

/-- So is the stream of an endpoint that a completion has come to. -/
def Settles (state : StreamCounts) (thread : Nat) (id : EndpointId)
    (endpoint : CountedEndpoint) : Prop :=
  state.endpoints.find id = some endpoint ∧ ∃ stream, endpoint.mTportStream = some stream ∧
    ∀ tstream, state.streams.find stream = some tstream →
      tstream.mThread = thread ∧ tstream.mReady = true

theorem Settles.on_stream {state : StreamCounts} {thread : Nat} {id : EndpointId}
    {endpoint endpoint' : CountedEndpoint} {stream : StreamId} {tstream : TportStream TopicType}
    (settles : state.Settles thread id endpoint')
    (found : state.endpoints.find id = some endpoint) (given : endpoint.mTportStream = some stream)
    (lookup : state.streams.find stream = some tstream) :
    tstream.mThread = thread ∧ tstream.mReady = true := by
  obtain ⟨found', at_stream, given', all⟩ := settles
  rw [found] at found'
  cases found'
  rw [given] at given'
  cases given'
  exact all tstream lookup

/-- What a step of a thread relies on. -/
def Owed (state : StreamCounts) (thread : Nat) : ThreadStep → Prop
  | .add id | .unhold id | .remove id => ∃ stream, state.Serves thread id stream
  | .removeStream stream =>
      ∃ tstream, state.streams.find stream = some tstream ∧ tstream.mThread = thread
  | .complete handle id _ => state.Serves thread id handle
  | .settle id => ∃ endpoint, state.Settles thread id endpoint ∧ endpoint.mTportTopic.isSome = true
  | .finish id => ∃ endpoint, state.Settles thread id endpoint

/-- The stream is there, and of the endpoint's type. -/
def Live (state : StreamCounts) (stream : StreamId) (endpoint : CountedEndpoint) : Prop :=
  ∃ tstream, state.streams.find stream = some tstream ∧ tstream.mStream = endpoint.mType

theorem Live.set {before after : StreamCounts} {stream : StreamId}
    {tstream tstream' : TportStream TopicType} (lookup : before.streams.find stream = some tstream)
    (streams : after.streams = before.streams.set stream tstream')
    (kind : tstream'.mStream = tstream.mStream) {other : StreamId}
    {endpoint endpoint' : CountedEndpoint} (same : endpoint'.mType = endpoint.mType)
    (live : before.Live other endpoint) : after.Live other endpoint' := by
  obtain ⟨found, lookup', of_kind⟩ := live
  by_cases own : other = stream
  · subst own
    rw [lookup] at lookup'
    cases lookup'
    refine ⟨tstream', ?_, kind.trans (of_kind.trans same.symm)⟩
    rw [streams]
    exact RbTree.find_set_self _ _ _
  · refine ⟨found, ?_, of_kind.trans same.symm⟩
    rw [streams, RbTree.find_set, if_neg own]
    exact lookup'

/-- What `SetStream` relies on between its steps. -/
def Phase (state : StreamCounts) (endpoint : CountedEndpoint) : SetStream → Prop
  | .find id => endpoint.mTportStream = none ∧ state.joins id = 0
  | .enqueue id stream =>
      endpoint.mTportStream = none ∧ state.joins id = 0 ∧ state.Live stream endpoint
  | .store _ stream => endpoint.mTportStream = none ∧ state.Live stream endpoint
  | .increment _ stream => endpoint.mTportStream = some stream
  | .unlock _ => endpoint.mTportStream ≠ none

theorem Phase.congr {before after : StreamCounts} {endpoint endpoint' : CountedEndpoint}
    (stream : endpoint'.mTportStream = endpoint.mTportStream)
    (joins : ∀ id, before.joins id = 0 → after.joins id = 0)
    (live : ∀ stream, before.Live stream endpoint → after.Live stream endpoint')
    {setting : SetStream} (phase : before.Phase endpoint setting) :
    after.Phase endpoint' setting := by
  cases setting with
  | find id => exact ⟨stream.trans phase.1, joins id phase.2⟩
  | enqueue id at_stream =>
      exact ⟨stream.trans phase.1, joins id phase.2.1, live at_stream phase.2.2⟩
  | store id at_stream => exact ⟨stream.trans phase.1, live at_stream phase.2⟩
  | increment id at_stream => exact stream.trans phase
  | unlock id => exact fun none_given => phase (stream.symm.trans none_given)

/-- What holds between the steps of all threads, in whatever order the steps of the event
threads stand. -/
structure Sound (state : StreamCounts) : Prop where
  freshStreams : ∀ id tstream, state.streams.find id = some tstream → id < state.fresh ∧
    ∀ ttopic ∈ tstream.mTopics, ttopic.address < state.fresh
  freshEndpoints : ∀ id endpoint, state.endpoints.find id = some endpoint → id < state.fresh ∧
    ∀ stream, endpoint.mTportStream = some stream → stream < state.fresh
  nodes : ∀ id tstream, state.streams.find id = some tstream → Topics.Nodes tstream.mTopics
  listed : ∀ stream tstream, state.streams.find stream = some tstream →
    ∀ address name type id, Topics.OnNode tstream.mTopics address name type id ↔
      ∃ endpoint, state.endpoints.find id = some endpoint ∧ endpoint.gone = false ∧
        endpoint.mTportStream = some stream ∧ endpoint.mTportTopic = some address ∧
        endpoint.mType = type ∧ endpoint.mTopic = name
  given : ∀ id endpoint stream, state.endpoints.find id = some endpoint →
    endpoint.mTportStream = some stream → endpoint.added = false ∨ endpoint.gone = false →
      state.Live stream endpoint
  streamless : ∀ id endpoint, state.endpoints.find id = some endpoint →
    endpoint.mTportStream = none → endpoint.mTportTopic = none ∧
      ∃ setting, state.setting = some setting ∧ setting.endpoint = id
  counted : ∀ id tstream, state.streams.find id = some tstream →
    tstream.mRefCount + state.owing id = tstream.mTopics.length + state.waiting id
  due : ∀ id endpoint, state.endpoints.find id = some endpoint → Due endpoint (state.joins id)
    (state.pending (· = .unhold id)) (state.pending (· = .remove id)) (state.pending (·.settles id))
  completes : ∀ id tstream, state.streams.find id = some tstream →
    state.completing.countP (·.1 = id) + state.pending (·.completes id) + tstream.mReady.toNat ≤ 1
  creators : ∀ stream id, (stream, id) ∈ state.completing → ∃ thread, state.Serves thread id stream
  entries : ∀ entry ∈ state.work, state.Owed entry.1 entry.2
  phase : ∀ setting, state.setting = some setting → ∃ endpoint,
    state.endpoints.find setting.endpoint = some endpoint ∧ endpoint.mDestroyed = false ∧
      state.Phase endpoint setting

/-- No step of a thread stands before one that looks at a stream's count. -/
def Leads (work : List (Nat × ThreadStep)) : Prop :=
  work.Pairwise (fun first second => first.1 = second.1 → ∀ stream, second.2 ≠ .removeStream stream)

/-- What holds between the steps of all threads. -/
structure Steady (state : StreamCounts) : Prop extends Sound state where
  leads : Leads state.work

theorem Leads.append {work : List (Nat × ThreadStep)} (leads : Leads work) (thread : Nat)
    (step : ThreadStep) (other : ∀ stream, step ≠ .removeStream stream) :
    Leads (work ++ [(thread, step)]) := by
  refine List.pairwise_append.mpr ⟨leads, List.pairwise_singleton _ _, ?_⟩
  intro first _ second last _
  rw [List.mem_singleton.mp last]
  exact other

theorem new_sound : Sound new where
  freshStreams _ _ found := by cases found
  freshEndpoints _ _ found := by cases found
  nodes _ _ found := by cases found
  listed _ _ found := by cases found
  given _ _ _ found := by cases found
  streamless _ _ found := by cases found
  counted _ _ found := by cases found
  due _ _ found := by cases found
  completes _ _ found := by cases found
  creators _ _ member := by cases member
  entries _ member := by cases member
  phase _ some := by cases some

theorem new_steady : Steady new where
  toSound := new_sound
  leads := .nil

/-- An endpoint that is in `SetStream` has not been returned, so nobody has destroyed it. -/
theorem Sound.returned {state : StreamCounts} (sound : Sound state) {id : EndpointId}
    {endpoint : CountedEndpoint} (found : state.endpoints.find id = some endpoint)
    {setting : SetStream} (held : state.setting = some setting) (own : setting.endpoint = id) :
    endpoint.mDestroyed = false := by
  obtain ⟨holder, at_holder, returned, _⟩ := sound.phase setting held
  rw [own, found] at at_holder
  cases at_holder
  exact returned

/-- A stream whose count is to be looked at is there. -/
theorem Sound.frees {state : StreamCounts} (sound : Sound state) {entry : Nat × ThreadStep}
    (member : entry ∈ state.work) {stream : StreamId} (freeing : entry.2 = .removeStream stream) :
    (state.streams.find stream).isSome = true := by
  have owed := sound.entries entry member
  rw [freeing] at owed
  obtain ⟨tstream, lookup, _⟩ := owed
  exact Option.isSome_iff_exists.mpr ⟨tstream, lookup⟩

/-- Endpoints keep their streams and nodes, and streams their threads, from one state to a
later one. -/
structure Later (before after : StreamCounts) : Prop where
  endpoints : ∀ id endpoint, before.endpoints.find id = some endpoint →
    ∃ endpoint', after.endpoints.find id = some endpoint' ∧
      (∀ stream, endpoint.mTportStream = some stream → endpoint'.mTportStream = some stream) ∧
      (endpoint.mTportTopic.isSome = true → endpoint'.mTportTopic.isSome = true)
  streams : ∀ stream < before.fresh, ∀ tstream', after.streams.find stream = some tstream' →
    ∃ tstream, before.streams.find stream = some tstream ∧ tstream'.mThread = tstream.mThread ∧
      (tstream.mReady = true → tstream'.mReady = true)
  setting : ∀ id stream, before.setting = some (.store id stream) →
    after.setting = some (.store id stream) ∨ ∃ endpoint', after.endpoints.find id = some endpoint' ∧
      endpoint'.mTportStream = some stream

section Later

variable {before after : StreamCounts} (later : Later before after) (sound : Sound before)
include later sound

theorem Serves.lasts {thread : Nat} {id : EndpointId} {stream : StreamId}
    (serves : before.Serves thread id stream) : after.Serves thread id stream := by
  obtain ⟨⟨endpoint, found, given⟩, at_thread⟩ := serves
  obtain ⟨endpoint', found', kept, _⟩ := later.endpoints id endpoint found
  have old : stream < before.fresh := by
    rcases given with given | storing
    · exact (sound.freshEndpoints id endpoint found).2 stream given
    · obtain ⟨_, _, _, _, tstream, lookup, _⟩ := sound.phase _ storing
      exact (sound.freshStreams stream tstream lookup).1
  refine ⟨?_, ?_⟩
  · rcases given with given | storing
    · exact ⟨endpoint', found', .inl (kept stream given)⟩
    · rcases later.setting id stream storing with still | ⟨endpoint'', found'', given⟩
      · exact ⟨endpoint', found', .inr still⟩
      · exact ⟨endpoint'', found'', .inl given⟩
  · intro tstream' lookup'
    obtain ⟨tstream, lookup, same, _⟩ := later.streams stream old tstream' lookup'
    exact same.trans (at_thread tstream lookup)

theorem Settles.lasts {thread : Nat} {id : EndpointId} {endpoint : CountedEndpoint}
    (settles : before.Settles thread id endpoint) : ∃ endpoint', after.Settles thread id endpoint' ∧
      (endpoint.mTportTopic.isSome = true → endpoint'.mTportTopic.isSome = true) := by
  obtain ⟨found, stream, given, all⟩ := settles
  obtain ⟨endpoint', found', kept, on⟩ := later.endpoints id endpoint found
  refine ⟨endpoint', ⟨found', stream, kept stream given, ?_⟩, on⟩
  intro tstream' lookup'
  obtain ⟨tstream, lookup, same, ready⟩ := later.streams stream
    ((sound.freshEndpoints id endpoint found).2 stream given) tstream' lookup'
  obtain ⟨at_thread, was_ready⟩ := all tstream lookup
  exact ⟨same.trans at_thread, ready was_ready⟩

/-- What a step relies on lasts, if the stream is kept that it frees. -/
theorem Owed.lasts {thread : Nat} {step : ThreadStep} (owed : before.Owed thread step)
    (kept : ∀ stream, step = .removeStream stream → (after.streams.find stream).isSome = true) :
    after.Owed thread step := by
  cases step with
  | add id | unhold id | remove id =>
      obtain ⟨stream, serves⟩ := owed
      exact ⟨stream, Serves.lasts later sound serves⟩
  | complete handle id error => exact Serves.lasts later sound owed
  | removeStream stream =>
      obtain ⟨tstream, lookup, at_thread⟩ := owed
      obtain ⟨tstream', lookup'⟩ := Option.isSome_iff_exists.mp (kept stream rfl)
      obtain ⟨old, same_lookup, same, _⟩ := later.streams stream
        (sound.freshStreams stream tstream lookup).1 tstream' lookup'
      rw [lookup] at same_lookup
      cases same_lookup
      exact ⟨tstream', lookup', same.trans at_thread⟩
  | settle id =>
      obtain ⟨endpoint, settles, on⟩ := owed
      obtain ⟨endpoint', settles', on'⟩ := Settles.lasts later sound settles
      exact ⟨endpoint', settles', on' on⟩
  | finish id =>
      obtain ⟨endpoint, settles⟩ := owed
      obtain ⟨endpoint', settles', _⟩ := Settles.lasts later sound settles
      exact ⟨endpoint', settles'⟩

end Later

end StreamCounts

end Sbf
