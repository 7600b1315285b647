import Mathlib.Algebra.BigOperators.Group.Finset.Basic
import Sbf.StreamCountRuns

set_option autoImplicit false

/-! The weights of a transport's threads: what a subscription adds to its thread when its stream
is chosen, and takes off when its removal is carried out. -/

namespace Sbf

open Octets

/-- The streams of a transport with the fields of `sbfTport_adjustWeight`. As there, the handler's
`mFindStream` only returns streams that are still there and of the right type. -/
structure SubWeights where
  counts : StreamCounts
  mWeights : Nat → UInt32

namespace SubWeights

def new : SubWeights := ⟨.new, fun _ => 0⟩

/-- `sbfTport_adjustWeight`; the change wraps as unsigned arithmetic does. -/
def adjustWeight (thread : Nat) (change : UInt32) (state : SubWeights) : SubWeights :=
  { state with
    mWeights := Function.update state.mWeights thread (state.mWeights thread + change) }

/-- What is left of a step that has nothing to do with weights. -/
def plain (step : Step Fault StreamCounts FreedStream) : Step Fault SubWeights FreedStream :=
  fun state => (step state.counts).map (fun result => ({ state with counts := result.1 }, result.2))

section Weights

variable (topicWeight : CString → UInt32)

/-- A publisher has no weight; that of a subscription is the one of its topic from its creation
on. -/
def reweigh (thread : Nat) (endpoint : CountedEndpoint) (change : UInt32 → UInt32)
    (state : SubWeights) : SubWeights :=
  match endpoint.mType with
  | .pub => state
  | .sub => state.adjustWeight thread (change (topicWeight endpoint.mTopic))

/-- The next step of `SetStream`. The one that unlocks adjusts the weight first. -/
def setStream (state : SubWeights) : Except Fault SubWeights :=
  match state.counts.setting with
  | some (.unlock id) => do
      let endpoint ← state.counts.endpoints.read id
      let stream ← notNull endpoint.mTportStream
      let tstream ← state.counts.streams.read stream
      let state := state.reweigh topicWeight tstream.mThread endpoint (fun mWeight => mWeight)
      let counts ← state.counts.setStream
      return { state with counts := counts }
  | _ => do
      let counts ← state.counts.setStream
      return { state with counts := counts }

/-- The remove callback from the removal on. -/
def detach (thread : Nat) (id : EndpointId) (endpoint : CountedEndpoint) (state : SubWeights) :
    Except Fault SubWeights := do
  let stream ← notNull endpoint.mTportStream
  let tstream ← state.counts.streams.read stream
  let state := state.reweigh topicWeight tstream.mThread endpoint (fun mWeight => -mWeight)
  let counts ← state.counts.detach thread id endpoint
  return { state with counts := counts }

/-- `sbfPubRemoveEventCb` and `sbfSubRemoveEventCb` -/
def removeEventCb (thread : Nat) (id : EndpointId) (state : SubWeights) :
    Except Fault SubWeights := do
  let endpoint ← state.counts.endpoints.read id
  if !endpoint.mReady then
    return { state with
      counts := { state.counts with
        endpoints := state.counts.endpoints.set id { endpoint with mRemoved := true } } }
  else state.detach topicWeight thread id endpoint

/-- A step of an event thread. Removals adjust the weight, also those that a completion carries
out. -/
def perform (thread : Nat) : ThreadStep → Step Fault SubWeights FreedStream
  | .remove id => fun state => (state.removeEventCb topicWeight thread id).map (·, [])
  | .settle id => fun state => do
      let endpoint ← state.counts.endpoints.read id
      let state := { state with
        counts := { state.counts with
          endpoints := state.counts.endpoints.set id { endpoint with mReady := true } } }
      if endpoint.mRemoved then (state.removeEventCb topicWeight thread id).map (·, [])
      else return (state, [])
  | .finish id => fun state => do
      let endpoint ← state.counts.endpoints.read id
      if endpoint.mRemoved then (state.removeEventCb topicWeight thread id).map (·, [])
      else return (state, [])
  | step => plain (StreamCounts.perform thread step)

/-- An event thread makes its next step, unless it has to wait for the lock. -/
def event (thread : Nat) : Step Fault SubWeights FreedStream := fun state =>
  match state.counts.next thread with
  | none => .ok (state, [])
  | some step =>
      if state.counts.Blocked step then .ok (state, [])
      else perform topicWeight thread step
        { state with
          counts := { state.counts with work := state.counts.work.erase (thread, step) } }

def step : StreamCounts.Action → Step Fault SubWeights FreedStream
  | .setStream => fun state => (state.setStream topicWeight).map (·, [])
  | .event thread => event topicWeight thread
  | action => plain (StreamCounts.step action)

def run (actions : List StreamCounts.Action) : Step Fault SubWeights FreedStream :=
  Step.all (actions.map (step topicWeight))

end Weights

end SubWeights

namespace StreamCounts

/-- The thread of an endpoint's stream. -/
def threadOf (state : StreamCounts) (endpoint : CountedEndpoint) : Option Nat :=
  endpoint.mTportStream.bind (fun stream => (state.streams.find stream).map (·.mThread))

/-- A subscription has been given its stream, one of the thread's, and its removal has not been
carried out. -/
def Weighs (state : StreamCounts) (thread : Nat) (id : EndpointId) (endpoint : CountedEndpoint) :
    Prop :=
  endpoint.mType = .sub ∧ endpoint.gone = false ∧
    state.setting.map (·.endpoint) ≠ some id ∧ state.threadOf endpoint = some thread

instance (state : StreamCounts) (thread : Nat) (id : EndpointId) (endpoint : CountedEndpoint) :
    Decidable (state.Weighs thread id endpoint) := by
  unfold Weighs
  infer_instance

/-- What an endpoint is to add to the weight of a thread. -/
def burden (topicWeight : CString → UInt32) (state : StreamCounts) (thread : Nat)
    (id : EndpointId) : UInt32 :=
  match state.endpoints.find id with
  | none => 0
  | some endpoint => if state.Weighs thread id endpoint then topicWeight endpoint.mTopic else 0

/-- The sum over all endpoints, in the arithmetic of `u_int`. -/
def weightOn (topicWeight : CString → UInt32) (state : StreamCounts) (thread : Nat) : UInt32 :=
  (Finset.range state.fresh).sum (state.burden topicWeight thread)

end StreamCounts

end Sbf
