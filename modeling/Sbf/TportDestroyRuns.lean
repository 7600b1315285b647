import Sbf.TportDestroySteps

set_option autoImplicit false

namespace Sbf

open Octets

/-- A callback that is queued behind everything there is for its thread. -/
theorem DestroyStreamClosure.queued_fits {H S : Type} {tport : Tport H S} (sound : tport.Sound)
    {stream : StreamId} {tstream : TportStream S}
    (lookup : tport.streams.find stream = some tstream) :
    (⟨tstream.mThread, stream, false, tport.queues tstream.mThread⟩ :
      DestroyStreamClosure).Fits tport where
  thread tstream' lookup' := by rw [Option.some.inj (lookup'.symm.trans lookup)]
  order := List.pairwise_of_forall_mem_list fun _ member _ _ _ => member
  behind _ member apart := absurd member apart
  ahead event member removes endpoint found := by
    obtain ⟨endpoint', _, _, due⟩ := sound.events _ event member
    obtain rfl := Option.some.inj (found.symm.trans due.known)
    exact (due.removes removes).1
  leaving second := absurd second Bool.false_ne_true

namespace TportDestroy

variable {H S : Type} {config : TportConfig H S}

/-- What holds between the steps of a transport that may be being destroyed. -/
structure Sound (state : TportDestroy H S) : Prop where
  sound : state.tport.Sound
  tended : state.tport.Tended
  listed : state.tport.Listed
  counted : state.mStreamsWaiting.toNat = state.closures.length
  idle : state.destroying = false → state.closures = []
  waits : state.destroying = true → ∀ stream ∈ state.tport.mStreams,
    ∃ closure ∈ state.closures, closure.mTportStream = stream
  fits : ∀ closure ∈ state.closures, closure.Fits state.tport

theorem new_sound (handler : H) : Sound (new handler : TportDestroy H S) where
  sound := Tport.new_sound handler
  tended := Tport.new_tended handler
  listed := Tport.new_listed handler
  counted := rfl
  idle _ := rfl
  waits started := absurd started Bool.false_ne_true
  fits _ member := absurd member List.not_mem_nil

variable {before after : TportDestroy H S}

/-- The callback that comes next has no event before it. -/
theorem Sound.next (sound : Sound before) {thread : Nat} {closure : DestroyStreamClosure}
    (next : before.next thread = some closure) :
    closure ∈ before.closures ∧
      ∀ event ∈ before.tport.queues closure.mThread, event ∉ closure.ahead := by
  unfold TportDestroy.next at next
  split at next
  · cases next
  · rename_i first found
    split at next
    · cases next
    · rename_i none_before
      cases next
      have member := List.mem_of_find?_eq_some found
      have thread : closure.mThread = thread := by simpa using List.find?_some found
      refine ⟨member, (sound.fits closure member).late fun event head early => none_before ?_⟩
      rw [thread, Option.mem_def] at head
      rw [head]
      exact decide_eq_true early

/-- A step of the transport itself, which makes nothing new. -/
theorem Sound.ebbs (sound : Sound before) {tport : Tport H S} (sound' : tport.Sound)
    (tended : tport.Tended) (listed : tport.Listed) (ebbs : Tport.Ebbs before.tport tport) :
    Sound { before with tport := tport } where
  sound := sound'
  tended := tended
  listed := listed
  counted := sound.counted
  idle := sound.idle
  waits started stream member := by
    obtain ⟨tstream', lookup'⟩ := listed.found.mp member
    obtain ⟨tstream, lookup, -⟩ := ebbs.streams stream tstream' lookup'
    exact sound.waits started stream (sound.listed.found.mpr ⟨tstream, lookup⟩)
  fits closure member := (sound.fits closure member).ebbs ebbs

/-- A step of the transport before it is destroyed. -/
theorem Sound.grow (sound : Sound before) (alive : before.destroying = false) {tport : Tport H S}
    (sound' : tport.Sound) (tended : tport.Tended) (listed : tport.Listed) :
    Sound { before with tport := tport } where
  sound := sound'
  tended := tended
  listed := listed
  counted := sound.counted
  idle := sound.idle
  waits started := absurd (alive.symm.trans started) Bool.false_ne_true
  fits closure member := by
    rw [sound.idle alive] at member
    exact absurd member List.not_mem_nil

/-- A callback whose stream has gone. -/
theorem Sound.second (sound : Sound before) {closure : DestroyStreamClosure}
    (member : closure ∈ before.closures) (away : closure.mTportStream ∉ before.tport.mStreams) :
    Sound (before.secondDestroyStreamCb closure) where
  sound := sound.sound
  tended := sound.tended
  listed := sound.listed
  counted := by
    have positive := List.length_pos_of_mem member
    have counted := sound.counted
    have fewer : (1 : UInt32) ≤ before.mStreamsWaiting := by
      rw [UInt32.le_iff_toNat_le, counted]
      exact positive
    dsimp only [secondDestroyStreamCb]
    rw [UInt32.toNat_sub_of_le _ _ fewer, counted, List.length_erase_of_mem member]
    rfl
  idle alive := by
    dsimp only [secondDestroyStreamCb]
    rw [sound.idle alive]
    rfl
  waits started stream inside := by
    obtain ⟨other, kept, same⟩ := sound.waits started stream inside
    refine ⟨other, (List.mem_erase_of_ne ?_).mpr kept, same⟩
    rintro rfl
    exact away (same ▸ inside)
  fits other inside := sound.fits other (List.mem_of_mem_erase inside)

/-- A first callback that finds its stream, which is ready. -/
theorem Sound.first (sound : Sound before) {closure : DestroyStreamClosure}
    (member : closure ∈ before.closures)
    (late : ∀ event ∈ before.tport.queues closure.mThread, event ∉ closure.ahead)
    (ready : ∀ tstream, before.tport.streams.find closure.mTportStream = some tstream →
      tstream.mReady = true)
    (here : closure.mTportStream ∈ before.tport.mStreams)
    (ran : before.firstDestroyStreamCb closure = .ok after) : Sound after := by
  have fits := sound.fits closure member
  unfold firstDestroyStreamCb at ran
  rw [if_neg (not_not.mpr here)] at ran
  obtain ⟨tstream, read, ran⟩ := bind_ok ran
  obtain ⟨tport, destroyed, ran⟩ := bind_ok ran
  cases ran
  have lookup := Heap.find_of_read read
  have destroys := Tport.destroyEndpoints_destroys sound.sound sound.tended (by
    rintro ⟨type, id⟩ inside endpoint found
    obtain ⟨endpoint', found', -, -, -, of_type⟩ :=
      (sound.sound.endpointsOn lookup type id).mp inside
    obtain rfl := Option.some.inj (found.symm.trans found')
    exact of_type) destroyed
  have later := fits.first late lookup (ready tstream lookup) destroys
  have ebbed := sound.ebbs destroys.sound destroys.tended (sound.listed.still destroys.still)
    destroys.ebbs
  constructor
  · exact ebbed.sound
  · exact ebbed.tended
  · exact ebbed.listed
  · have positive := List.length_pos_of_mem member
    have counted := sound.counted
    dsimp only
    rw [counted, List.length_append, List.length_erase_of_mem member, List.length_singleton]
    omega
  · intro alive
    have none_queued := sound.idle alive
    rw [none_queued] at member
    exact absurd member List.not_mem_nil
  · intro started stream inside
    obtain ⟨other, kept, same⟩ := ebbed.waits started stream inside
    by_cases own : other = closure
    · exact ⟨_, List.mem_append_right _ (List.mem_singleton_self _), own ▸ same⟩
    · exact ⟨other, List.mem_append_left _ ((List.mem_erase_of_ne own).mpr kept), same⟩
  · intro other inside
    rcases List.mem_append.mp inside with old | new
    · exact ebbed.fits other (List.mem_of_mem_erase old)
    · obtain rfl := List.mem_singleton.mp new
      exact later

/-- What `sbfTport_destroy` queues for the streams. -/
structure Enqueued (streams : List StreamId) (closures : List DestroyStreamClosure)
    (before after : TportDestroy H S) : Prop where
  tport : after.tport = before.tport
  destroying : after.destroying = before.destroying
  behind : after.closures = before.closures ++ closures
  waiting : after.mStreamsWaiting = before.mStreamsWaiting + UInt32.ofNat closures.length
  streams : closures.map (·.mTportStream) = streams
  each : ∀ closure ∈ closures, ∃ tstream,
    before.tport.streams.find closure.mTportStream = some tstream ∧
      closure = ⟨tstream.mThread, closure.mTportStream, false, before.tport.queues tstream.mThread⟩

theorem enqueue_all (streams : List StreamId)
    (ran : streams.foldlM (fun state stream => state.enqueue stream) before = .ok after) :
    ∃ closures, Enqueued streams closures before after := by
  induction streams generalizing before with
  | nil =>
      cases ran
      exact ⟨[], rfl, rfl, (List.append_nil _).symm, (UInt32.add_zero _).symm, rfl,
        fun _ member => absurd member List.not_mem_nil⟩
  | cons stream rest ih =>
      rw [List.foldlM_cons] at ran
      obtain ⟨middle, first, ran⟩ := bind_ok ran
      obtain ⟨tstream, read, first⟩ := bind_ok first
      cases first
      obtain ⟨closures, enqueued⟩ := ih ran
      refine ⟨⟨tstream.mThread, stream, false, before.tport.queues tstream.mThread⟩ :: closures,
        enqueued.tport, enqueued.destroying, ?_, ?_, ?_, ?_⟩
      · rw [enqueued.behind, List.append_assoc]
        rfl
      · rw [enqueued.waiting, List.length_cons, Nat.add_comm, UInt32.ofNat_add, UInt32.add_assoc]
        rfl
      · rw [List.map_cons, enqueued.streams]
      · intro closure member
        rcases List.mem_cons.mp member with rfl | behind
        · exact ⟨tstream, Heap.find_of_read read, rfl⟩
        · exact enqueued.each closure behind

theorem Sound.destroy (sound : Sound before)
    (few : before.tport.mStreams.length < UInt32.size) (ran : before.destroy = .ok after) :
    Sound after := by
  unfold TportDestroy.destroy at ran
  split at ran
  · cases ran
    exact sound
  · rename_i alive
    have none_queued := sound.idle (Bool.eq_false_iff.mpr alive)
    have zero : before.mStreamsWaiting = 0 := by
      apply UInt32.toNat_inj.mp
      rw [sound.counted, none_queued]
      rfl
    obtain ⟨closures, enqueued⟩ := enqueue_all _ ran
    have length : closures.length = before.tport.mStreams.length := by
      rw [← enqueued.streams, List.length_map]
    have queued : after.closures = closures := by
      rw [enqueued.behind, none_queued]
      rfl
    have same : after.tport = before.tport := enqueued.tport
    constructor
    · exact same ▸ sound.sound
    · exact same ▸ sound.tended
    · exact same ▸ sound.listed
    · rw [enqueued.waiting, queued, zero, UInt32.zero_add]
      exact UInt32.toNat_ofNat_of_lt (length ▸ few)
    · intro alive
      exact absurd (enqueued.destroying.symm.trans alive) Bool.false_ne_true.symm
    · intro _ stream inside
      rw [same, ← enqueued.streams] at inside
      obtain ⟨closure, member, at_stream⟩ := List.mem_map.mp inside
      exact ⟨closure, queued ▸ member, at_stream⟩
    · intro closure member
      rw [queued] at member
      obtain ⟨tstream, lookup, shape⟩ := enqueued.each closure member
      rw [shape, same]
      exact DestroyStreamClosure.queued_fits sound.sound lookup

theorem inner_ok {result : Except Fault (Tport H S × List EndpointId)} {out : List EndpointId}
    (ran : result.map (fun result => ({ before with tport := result.1 }, result.2)) =
      .ok (after, out)) :
    ∃ tport, result = .ok (tport, out) ∧ after = { before with tport := tport } := by
  cases result with
  | error fault => cases ran
  | ok result =>
      cases ran
      exact ⟨result.1, rfl, rfl⟩

/-- A step of the transport itself. -/
theorem Sound.call (takes : Tport.TakesBack config) (sound : Sound before) (call : Tport.Call)
    {tport : Tport H S} {out : List EndpointId}
    (proper : before.tport.Allowed call ∧ before.tport.Tidy call)
    (ran : Tport.step config call before.tport = .ok (tport, out))
    (ends : before.destroying = false ∨ Tport.Ebbs before.tport tport) :
    Sound { before with tport := tport } := by
  have sound' := Tport.step_sound sound.sound proper ran
  have tended := sound.tended.step takes sound.sound proper ran
  have listed := sound.listed.moves (Tport.step_moves ran)
  rcases ends with alive | ebbs
  · exact sound.grow alive sound' tended listed
  · exact sound.ebbs sound' tended listed ebbs

theorem Sound.event (takes : Tport.TakesBack config) (sound : Sound before) {thread : Nat}
    {failed : Bool} {out : List EndpointId} (clean : before.Clean (.call (.event thread failed)))
    (ran : event config thread failed before = .ok (after, out)) : Sound after := by
  dsimp only [Clean] at clean
  unfold TportDestroy.event at ran
  cases next : before.next thread with
  | none =>
      rw [next] at clean ran
      obtain ⟨tport, inner, rfl⟩ := inner_ok ran
      have proper : before.tport.Allowed (.event thread failed) := trivial
      have sound' := Tport.step_sound sound.sound ⟨proper, clean⟩ inner
      exact sound.call takes _ ⟨proper, clean⟩ inner
        (.inr (Tport.event_ebbs takes sound.tended sound.sound sound' inner))
  | some closure =>
      rw [next] at clean ran
      obtain ⟨member, late⟩ := sound.next next
      dsimp only at clean ran
      split at ran
      · rename_i second
        cases ran
        have away := (sound.fits closure member).second second late sound.sound sound.tended
        refine sound.second member fun inside => ?_
        obtain ⟨tstream, lookup⟩ := sound.listed.found.mp inside
        exact Option.some_ne_none _ (lookup.symm.trans away)
      · rename_i first
        have ran := (silent_ok ran).1
        by_cases inside : closure.mTportStream ∈ before.tport.mStreams
        · exact sound.first member late (clean (by simpa using first)) inside ran
        · unfold firstDestroyStreamCb at ran
          rw [if_pos inside] at ran
          cases ran
          exact sound.second member inside

theorem Sound.step (takes : Tport.TakesBack config) (sound : Sound before) {action : Action}
    {out : List EndpointId} (proper : before.Allowed action ∧ before.Clean action)
    (ran : step config action before = .ok (after, out)) : Sound after := by
  obtain ⟨allowed, clean⟩ := proper
  cases action with
  | destroy => exact sound.destroy clean (silent_ok ran).1
  | call call =>
      cases call with
      | createPub topic0 mReadyCb =>
          obtain ⟨tport, inner, rfl⟩ := inner_ok ran
          exact sound.call takes (.createPub topic0 mReadyCb) ⟨trivial, trivial⟩ inner
            (.inl allowed)
      | createSub topic0 mReadyCb =>
          obtain ⟨tport, inner, rfl⟩ := inner_ok ran
          exact sound.call takes (.createSub topic0 mReadyCb) ⟨trivial, trivial⟩ inner
            (.inl allowed)
      | destroyPub id =>
          obtain ⟨tport, inner, rfl⟩ := inner_ok ran
          exact sound.call takes (.destroyPub id) ⟨allowed, trivial⟩ inner
            (.inr (Tport.destroy_ebbs (silent_ok inner).1))
      | destroySub id =>
          obtain ⟨tport, inner, rfl⟩ := inner_ok ran
          exact sound.call takes (.destroySub id) ⟨allowed, trivial⟩ inner
            (.inr (Tport.destroy_ebbs (silent_ok inner).1))
      | event thread failed => exact sound.event takes clean ran
      | dispatch id =>
          obtain ⟨tport, inner, rfl⟩ := inner_ok ran
          exact sound.call takes (.dispatch id) ⟨trivial, trivial⟩ inner
            (.inr (Tport.dispatch_ebbs inner))

/-- When no callback is awaited, nothing is left. -/
theorem Sound.cleared {state : TportDestroy H S} (sound : Sound state)
    (started : state.destroying = true) (stopped : state.mStreamsWaiting = 0) : Cleared state := by
  have none_queued : state.closures = [] := by
    apply List.eq_nil_of_length_eq_zero
    rw [← sound.counted, stopped]
    rfl
  have no_stream : state.tport.mStreams = [] := by
    apply List.eq_nil_iff_forall_not_mem.mpr
    intro stream member
    obtain ⟨closure, queued, -⟩ := sound.waits started stream member
    rw [none_queued] at queued
    exact List.not_mem_nil queued
  have none_found : ∀ stream tstream, state.tport.streams.find stream ≠ some tstream := by
    intro stream tstream lookup
    have member := sound.listed.found.mpr ⟨tstream, lookup⟩
    rw [no_stream] at member
    exact List.not_mem_nil member
  constructor
  · exact no_stream
  · intro id endpoint found
    by_contra here
    obtain ⟨stream, -, there⟩ := sound.sound.given id endpoint found here
    obtain ⟨tstream, lookup⟩ := Option.isSome_iff_exists.mp there
    exact none_found stream tstream lookup
  · intro thread
    apply List.eq_nil_iff_forall_not_mem.mpr
    intro event member
    obtain ⟨_, stream, tstream, due⟩ := sound.sound.events thread event member
    exact none_found stream tstream due.found
  · exact none_queued

/-- The steps of a run that a program can make, which `Clean` holds of. -/
def AllClean (config : TportConfig H S) : TportDestroy H S → List Action → Prop :=
  Step.Along (step config) (fun state action => state.Allowed action ∧ state.Clean action)

/-- Whatever a transport has been used for, and whoever still uses it: once `sbfTport_destroy`
has stopped waiting, nothing is left. -/
theorem run_cleared (config : TportConfig H S) (takes : Tport.TakesBack config) (mHandler : H)
    (actions : List Action) (clean : AllClean config (new mHandler) actions)
    (state : TportDestroy H S) (out : List EndpointId)
    (ran : run config actions (new mHandler) = .ok (state, out))
    (started : state.destroying = true) (stopped : state.mStreamsWaiting = 0) : Cleared state := by
  have sound : Sound state :=
    clean.keeps (fun before proper ran => before.step takes proper ran) (new_sound mHandler) ran
  exact sound.cleared started stopped

instance (state : TportDestroy H S) : ∀ action, Decidable (state.Allowed action)
  | .call (.createPub _ _) | .call (.createSub _ _) =>
      inferInstanceAs (Decidable (state.destroying = false))
  | .call (.destroyPub id) => inferInstanceAs (Decidable (state.tport.Allowed (.destroyPub id)))
  | .call (.destroySub id) => inferInstanceAs (Decidable (state.tport.Allowed (.destroySub id)))
  | .call (.event _ _) | .call (.dispatch _) | .destroy => inferInstanceAs (Decidable True)

instance (state : TportDestroy H S) : ∀ action, Decidable (state.Clean action)
  | .call (.event thread failed) =>
      match next : state.next thread with
      | none =>
          decidable_of_iff (state.tport.Tidy (.event thread failed)) (by simp only [Clean, next])
      | some closure =>
          decidable_of_iff (closure.second = false →
              ∀ tstream ∈ state.tport.streams.find closure.mTportStream, tstream.mReady = true)
            (by simp only [Clean, next, Option.mem_def])
  | .call (.createPub _ _) | .call (.createSub _ _) | .call (.destroyPub _)
  | .call (.destroySub _) | .call (.dispatch _) => inferInstanceAs (Decidable True)
  | .destroy => inferInstanceAs (Decidable (state.tport.mStreams.length < UInt32.size))

instance (config : TportConfig H S) (state : TportDestroy H S) (actions : List Action) :
    Decidable (AllClean config state actions) :=
  inferInstanceAs (Decidable (Step.Along _ _ _ _))

/-- Two publishers on one stream, and the transport is destroyed while one of them is. -/
def bothLeave : List Action :=
  [.call (.createPub Tport.ticks true), .call (.createPub Tport.ticks true), .call (.event 0 false),
    .call (.event 0 false), .call (.dispatch 0), .destroy, .call (.destroyPub 2),
    .call (.event 0 false), .call (.event 0 false), .call (.event 0 false),
    .call (.event 0 false), .call (.dispatch 2)]

/-- A subscription on a stream that could not be added. -/
def neverAdded : List Action :=
  [.call (.createSub Tport.ticks true), .call (.event 0 true), .destroy, .call (.event 0 false),
    .call (.event 0 false)]

/-- A publisher that takes the node of a subscription with it. -/
def takesNode : List Action :=
  [.call (.createPub Tport.ticks true), .call (.createSub Tport.ticks true), .call (.event 0 false),
    .call (.event 0 false), .call (.destroyPub 0), .call (.event 0 false), .destroy]

theorem run_cleared_bothLeave : ∃ state out,
    run UdpHandler.oneThread bothLeave (new ⟨.empty⟩) = .ok (state, out) ∧ out = [0] ∧
      Cleared state := by
  obtain ⟨state, out, ran, emits, started, stopped⟩ : ∃ state out,
      run UdpHandler.oneThread bothLeave (new ⟨.empty⟩) = .ok (state, out) ∧ out = [0] ∧
        state.destroying = true ∧ state.mStreamsWaiting = 0 := by
    decide +kernel
  exact ⟨state, out, ran, emits, run_cleared UdpHandler.oneThread (UdpHandler.takesBack rfl) ⟨.empty⟩
    bothLeave (by decide +kernel) state out ran started stopped⟩

/-- The stream stays, or the subscription. -/
theorem run_left :
    (Step.Along (step UdpHandler.oneThread) Allowed (new ⟨.empty⟩) neverAdded ∧
      ∃ state out, run UdpHandler.oneThread neverAdded (new ⟨.empty⟩) = .ok (state, out) ∧
        state.destroying = true ∧ state.mStreamsWaiting = 0 ∧ state.tport.mStreams = [1] ∧
        ¬ Cleared state) ∧
    Step.Along (step TcpMeshHandler.oneThread) Allowed (new ⟨none⟩) takesNode ∧
      ∃ state out, run TcpMeshHandler.oneThread takesNode (new ⟨none⟩) = .ok (state, out) ∧
        state.destroying = true ∧ state.mStreamsWaiting = 0 ∧ ¬ state.tport.Gone 2 ∧
        ¬ Cleared state := by
  constructor
  · refine ⟨by decide +kernel, ?_⟩
    obtain ⟨state, out, ran, started, stopped, stays⟩ : ∃ state out,
        run UdpHandler.oneThread neverAdded (new ⟨.empty⟩) = .ok (state, out) ∧
          state.destroying = true ∧ state.mStreamsWaiting = 0 ∧ state.tport.mStreams = [1] := by
      decide +kernel
    refine ⟨state, out, ran, started, stopped, stays, fun cleared => ?_⟩
    rw [cleared.streams] at stays
    cases stays
  · refine ⟨by decide +kernel, ?_⟩
    obtain ⟨state, out, ran, started, stopped, here, found⟩ : ∃ state out,
        run TcpMeshHandler.oneThread takesNode (new ⟨none⟩) = .ok (state, out) ∧
          state.destroying = true ∧ state.mStreamsWaiting = 0 ∧ ¬ state.tport.Gone 2 ∧
            (state.tport.endpoints.find 2).isSome := by
      decide +kernel
    refine ⟨state, out, ran, started, stopped, here, fun cleared => ?_⟩
    obtain ⟨endpoint, found⟩ := Option.isSome_iff_exists.mp found
    exact here (cleared.endpoints 2 endpoint found)

end TportDestroy

end Sbf
