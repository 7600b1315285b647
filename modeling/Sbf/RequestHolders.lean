import Mathlib.Data.List.Nodup
import Mathlib.Logic.Function.Basic
import Sbf.RequestReply
import Sbf.TotalSteps
import Sbf.TportHeader

set_option autoImplicit false

/-! Who holds the requests that were sent, with publishers and requests that are freed. -/

namespace Sbf

open Octets

/-- Publishers and requests by their numbers; a number without one has been freed, or is not
in use yet. `held` counts the references that callers have to a request. -/
structure RequestHolders where
  pubs : Nat → Option RequestPub
  pubsMade : Nat
  requests : Nat → Option Request
  made : Nat
  held : Nat → Nat

theorem RequestPub.send_requests {pub next : RequestPub} {number : Nat} {data message : Bytes}
    {mGuid : Guid} (sent : pub.send number data = some (next, mGuid, message)) :
    mGuid = pub.mNext.increment 1 ∧ next.mRequests = pub.mRequests.insert mGuid number := by
  unfold RequestPub.send at sent
  split at sent
  · cases sent
  · cases sent
    exact ⟨rfl, rfl⟩

namespace RequestHolders

def create : RequestHolders := ⟨fun _ => none, 0, fun _ => none, 0, fun _ => 0⟩

/-- `sbfRequestPub_create` -/
def createPub (fixed : UInt64 × UInt64 × UInt64) (world : RequestHolders) : RequestHolders :=
  { world with
    pubs := Function.update world.pubs world.pubsMade (some (.create fixed))
    pubsMade := world.pubsMade + 1 }

/-- A ready callback of a publisher. -/
def ready (callback : RequestPub → RequestPub × Bool) (pub : Nat) (world : RequestHolders) :
    RequestHolders :=
  match world.pubs pub with
  | none => world
  | some sender => { world with pubs := Function.update world.pubs pub (some (callback sender).1) }

/-- `sbfRequestPub_send`, whose caller has the first reference. -/
def send (pub : Nat) (data : Bytes) (replyCb : Option Nat) (closure : Nat)
    (world : RequestHolders) : RequestHolders :=
  match world.pubs pub with
  | none => world
  | some sender =>
      match sender.send world.made data with
      | none => world
      | some (sender, mGuid, _) =>
          { world with
            pubs := Function.update world.pubs pub (some sender)
            requests := Function.update world.requests world.made
              (some ⟨some pub, none, mGuid, 1, replyCb, closure⟩)
            made := world.made + 1
            held := Function.update world.held world.made 1 }

/-- `sbfRequest_detach` -/
def detach (number : Nat) (world : RequestHolders) : Except Fault RequestHolders :=
  match world.requests number with
  | none => .error .freed
  | some req =>
      .ok { world with
        requests := Function.update world.requests number
          (some { req with mRefCount := req.mRefCount + 1 })
        held := Function.update world.held number (world.held number + 1) }

/-- `RB_REMOVE` of a request from the tree of its publisher. -/
def remove (number : Nat) (req : Request) (world : RequestHolders) :
    Except Fault RequestHolders :=
  match req.mPub with
  | none => .ok world
  | some pub =>
      match world.pubs pub with
      | none => .error .freed
      | some sender =>
          if sender.mRequests.find req.mGuid = some number then
            .ok { world with
              pubs := Function.update world.pubs pub
                (some { sender with mRequests := sender.mRequests.erase req.mGuid }) }
          else .error .unlinked

/-- `sbfRequest_destroy`, which takes a reference from those that have it. -/
def destroy (number : Nat) (world : RequestHolders) : Except Fault RequestHolders :=
  match world.requests number with
  | none => .error .freed
  | some req =>
      let world := { world with
        held := Function.update world.held number (world.held number - 1) }
      if req.mRefCount - 1 ≠ 0 then
        .ok { world with
          requests := Function.update world.requests number
            (some { req with mRefCount := req.mRefCount - 1 }) }
      else do
        let world ← world.remove number req
        return { world with requests := Function.update world.requests number none }

/-- The loop of `sbfRequestPub_destroy`. -/
def destroyAll (numbers : List Nat) (world : RequestHolders) : Except Fault RequestHolders :=
  numbers.foldlM (fun world number => world.destroy number) world

/-- `sbfRequestPub_destroy`, of a publisher that was not destroyed yet. -/
def pubDestroy (pub : Nat) (world : RequestHolders) : Except Fault RequestHolders :=
  match world.pubs pub with
  | none => .ok world
  | some sender => do
      let world ← world.destroyAll (sender.mRequests.entries.map (·.2))
      return { world with pubs := Function.update world.pubs pub none }

inductive Action where
  | createPub (fixed : UInt64 × UInt64 × UInt64)
  | pubReady (pub : Nat)
  | subReady (pub : Nat)
  | send (pub : Nat) (data : Bytes) (replyCb : Option Nat) (closure : Nat)
  | detach (number : Nat)
  | destroy (number : Nat)
  | pubDestroy (pub : Nat)

/-- A call. Callers detach and destroy only requests that they have references to. -/
def act : Action → RequestHolders → Except Fault RequestHolders
  | .createPub fixed, world => .ok (world.createPub fixed)
  | .pubReady pub, world => .ok (world.ready RequestPub.pubReadyCb pub)
  | .subReady pub, world => .ok (world.ready RequestPub.subReadyCb pub)
  | .send pub data replyCb closure, world => .ok (world.send pub data replyCb closure)
  | .detach number, world => if world.held number = 0 then .ok world else world.detach number
  | .destroy number, world => if world.held number = 0 then .ok world else world.destroy number
  | .pubDestroy pub, world => world.pubDestroy pub

/-- A call, unless memory was touched that had been freed. -/
def step (action : Action) (state : Except Fault RequestHolders) : Except Fault RequestHolders :=
  state.bind (act action)

/-- Nothing that is freed was touched, and each request that someone has a reference to is
there, with a publisher that is there or none. -/
def Safe (state : Except Fault RequestHolders) : Prop :=
  ∃ world, state = .ok world ∧ ∀ number, 0 < world.held number →
    ∃ req, world.requests number = some req ∧ ∀ pub ∈ req.mPub, (world.pubs pub).isSome

/-- No count wraps, and no GUID is used again while a request has it. -/
def Counted : Action → Except Fault RequestHolders → Prop
  | .detach number, .ok world =>
      ∀ req, world.requests number = some req → req.mRefCount + 1 ≠ 0
  | .send pub _ _ _, .ok world =>
      ∀ sender, world.pubs pub = some sender →
        sender.mRequests.find (sender.mNext.increment 1) = none
  | _, _ => True

/-- A publisher is destroyed when each of its requests has one reference. -/
def Released : Action → Except Fault RequestHolders → Prop
  | .pubDestroy pub, .ok world =>
      ∀ number req, world.requests number = some req → req.mPub = some pub → req.mRefCount = 1
  | _, _ => True

/-- Requests and publishers know each other, and counts are the references that there are. -/
structure Sound (world : RequestHolders) : Prop where
  counted : ∀ number req, world.requests number = some req →
    req.mRefCount.toNat = world.held number ∧ 0 < world.held number
  freed : ∀ number, world.requests number = none → world.held number = 0
  above : ∀ number, world.made ≤ number → world.requests number = none
  pubsAbove : ∀ pub, world.pubsMade ≤ pub → world.pubs pub = none
  linked : ∀ number req, world.requests number = some req →
    ∃ pub sender, req.mPub = some pub ∧ world.pubs pub = some sender ∧
      sender.mRequests.find req.mGuid = some number
  listed : ∀ pub sender mGuid number, world.pubs pub = some sender →
    sender.mRequests.find mGuid = some number →
      ∃ req, world.requests number = some req ∧ req.mPub = some pub ∧ req.mGuid = mGuid

namespace Sound

variable {world : RequestHolders}

theorem create : Sound create :=
  ⟨nofun, fun _ _ => rfl, fun _ _ => rfl, fun _ _ => rfl, nofun, nofun⟩

theorem safe (sound : Sound world) : Safe (.ok world) := by
  refine ⟨world, rfl, ?_⟩
  intro number held
  cases found : world.requests number with
  | none => exact absurd (sound.freed number found) (Nat.ne_of_gt held)
  | some req =>
      obtain ⟨pub, sender, its, there, -⟩ := sound.linked number req found
      refine ⟨req, rfl, ?_⟩
      intro other same
      rw [its, Option.mem_some_iff] at same
      rw [← same, there]
      rfl

theorem createPub (sound : Sound world) (fixed : UInt64 × UInt64 × UInt64) :
    Sound (world.createPub fixed) := by
  have unused := sound.pubsAbove world.pubsMade (Nat.le_refl _)
  have old : ∀ {pub sender}, world.pubs pub = some sender → pub ≠ world.pubsMade := by
    rintro pub sender there rfl
    rw [unused] at there
    cases there
  refine ⟨sound.counted, sound.freed, sound.above, ?_, ?_, ?_⟩
  · intro pub above
    have other : pub ≠ world.pubsMade := Nat.ne_of_gt above
    exact (Function.update_of_ne other _ _).trans (sound.pubsAbove pub (Nat.le_of_succ_le above))
  · intro number req found
    obtain ⟨pub, sender, its, there, inside⟩ := sound.linked number req found
    exact ⟨pub, sender, its, (Function.update_of_ne (old there) _ _).trans there, inside⟩
  · intro pub sender mGuid number there inside
    by_cases new : pub = world.pubsMade
    · subst new
      rw [RequestHolders.createPub] at there
      dsimp only at there
      rw [Function.update_self] at there
      cases there
      cases inside
    · exact sound.listed pub sender mGuid number
        ((Function.update_of_ne new _ _).symm.trans there) inside

theorem pubsAbove_update (sound : Sound world) {pub : Nat} {sender : RequestPub}
    (there : world.pubs pub = some sender) (next : Option RequestPub) {other : Nat}
    (above : world.pubsMade ≤ other) : Function.update world.pubs pub next other = none := by
  have apart : other ≠ pub := by
    rintro rfl
    rw [sound.pubsAbove other above] at there
    cases there
  rw [Function.update_of_ne apart]
  exact sound.pubsAbove other above

/-- A request is in the tree of its publisher as long as that keeps it there. -/
theorem linked_update (sound : Sound world) {pub number : Nat} {sender next : RequestPub}
    {req : Request} (there : world.pubs pub = some sender)
    (found : world.requests number = some req)
    (kept : sender.mRequests.find req.mGuid = some number →
      next.mRequests.find req.mGuid = some number) :
    ∃ other its, req.mPub = some other ∧
      Function.update world.pubs pub (some next) other = some its ∧
        its.mRequests.find req.mGuid = some number := by
  obtain ⟨other, its, mine, here, inside⟩ := sound.linked number req found
  by_cases this : other = pub
  · subst this
    rw [there] at here
    cases here
    exact ⟨other, next, mine, Function.update_self .., kept inside⟩
  · exact ⟨other, its, mine, (Function.update_of_ne this _ _).trans here, inside⟩

/-- What a tree has that was there before is a request. -/
theorem listed_update (sound : Sound world) {pub other number : Nat} {sender next its : RequestPub}
    {mGuid : Guid} (there : world.pubs pub = some sender)
    (here : Function.update world.pubs pub (some next) other = some its)
    (inside : its.mRequests.find mGuid = some number)
    (old : other = pub → next.mRequests.find mGuid = some number →
      sender.mRequests.find mGuid = some number) :
    ∃ req, world.requests number = some req ∧ req.mPub = some other ∧ req.mGuid = mGuid := by
  by_cases this : other = pub
  · subst this
    rw [Function.update_self] at here
    cases here
    exact sound.listed other sender mGuid number there (old rfl inside)
  · exact sound.listed other its mGuid number ((Function.update_of_ne this _ _).symm.trans here)
      inside

/-- A change of a publisher's flags. -/
theorem ready (sound : Sound world) {callback : RequestPub → RequestPub × Bool}
    (same : ∀ sender, (callback sender).1.mRequests = sender.mRequests) (pub : Nat) :
    Sound (world.ready callback pub) := by
  unfold RequestHolders.ready
  cases there : world.pubs pub with
  | none => exact sound
  | some sender =>
      refine ⟨sound.counted, sound.freed, sound.above, ?_, ?_, ?_⟩
      · exact fun other => sound.pubsAbove_update there _
      · intro number req found
        exact sound.linked_update there found fun inside => by rwa [same]
      · intro other its mGuid number here inside
        exact sound.listed_update there here inside fun _ found => by rwa [same] at found

/-- A new request with one reference. -/
theorem insert (sound : Sound world) {pub : Nat} {sender next : RequestPub} {req : Request}
    (there : world.pubs pub = some sender) (free : sender.mRequests.find req.mGuid = none)
    (requests : next.mRequests = sender.mRequests.set req.mGuid world.made)
    (mine : req.mPub = some pub) (one : req.mRefCount = 1) :
    Sound { world with
      pubs := Function.update world.pubs pub (some next)
      requests := Function.update world.requests world.made (some req)
      made := world.made + 1
      held := Function.update world.held world.made 1 } := by
  have unused := sound.above world.made (Nat.le_refl _)
  have before : ∀ {number known}, number ≠ world.made →
      Function.update world.requests world.made (some req) number = some known →
        world.requests number = some known :=
    fun apart found => (Function.update_of_ne apart _ _).symm.trans found
  refine ⟨?_, ?_, ?_, fun other => sound.pubsAbove_update there _, ?_, ?_⟩
  · intro number known found
    dsimp only at found ⊢
    by_cases new : number = world.made
    · subst new
      rw [Function.update_self] at found ⊢
      cases found
      rw [one]
      exact ⟨rfl, Nat.one_pos⟩
    · rw [Function.update_of_ne new]
      exact sound.counted number known (before new found)
  · intro number missing
    dsimp only at missing ⊢
    by_cases new : number = world.made
    · subst new
      rw [Function.update_self] at missing
      cases missing
    · rw [Function.update_of_ne new] at missing ⊢
      exact sound.freed number missing
  · intro number above
    have other : number ≠ world.made := Nat.ne_of_gt above
    exact (Function.update_of_ne other _ _).trans (sound.above number (Nat.le_of_succ_le above))
  · intro number known found
    by_cases new : number = world.made
    · subst new
      dsimp only at found
      rw [Function.update_self] at found
      cases found
      exact ⟨pub, next, mine, Function.update_self .., by rw [requests, RbTree.find_set_self]⟩
    · refine sound.linked_update there (before new found) ?_
      intro inside
      have apart : known.mGuid ≠ req.mGuid := by
        intro same
        rw [same, free] at inside
        cases inside
      rw [requests, RbTree.find_set, if_neg apart]
      exact inside
  · intro other its mGuid number here inside
    by_cases new : number = world.made ∧ other = pub
    · obtain ⟨rfl, rfl⟩ := new
      dsimp only at here
      rw [Function.update_self] at here
      cases here
      rw [requests] at inside
      rcases RbTree.find_set_some inside with ⟨rfl, -⟩ | ⟨_, old⟩
      · exact ⟨req, Function.update_self .., mine, rfl⟩
      · obtain ⟨known, found, -, -⟩ := sound.listed other sender mGuid _ there old
        rw [unused] at found
        cases found
    · obtain ⟨known, found, its', guid⟩ := sound.listed_update there here inside (by
        rintro rfl found
        rw [requests] at found
        rcases RbTree.find_set_some found with ⟨-, rfl⟩ | ⟨_, old⟩
        · exact absurd ⟨rfl, rfl⟩ new
        · exact old)
      have apart : number ≠ world.made := by
        rintro rfl
        rw [unused] at found
        cases found
      exact ⟨known, (Function.update_of_ne apart _ _).trans found, its', guid⟩

theorem send (sound : Sound world) {pub : Nat} {data : Bytes} {replyCb : Option Nat}
    {closure : Nat} (counted : Counted (.send pub data replyCb closure) (.ok world)) :
    Sound (world.send pub data replyCb closure) := by
  unfold RequestHolders.send
  cases there : world.pubs pub with
  | none => exact sound
  | some sender =>
      dsimp only
      cases sent : sender.send world.made data with
      | none => exact sound
      | some made =>
          obtain ⟨next, mGuid, message⟩ := made
          obtain ⟨rfl, requests⟩ := RequestPub.send_requests sent
          have free := counted sender there
          rw [RbTree.insert_none free] at requests
          exact sound.insert there free requests rfl rfl

/-- Another count of a request, which its holders have. -/
theorem recount (sound : Sound world) {number : Nat} {req : Request}
    (found : world.requests number = some req) {mRefCount : UInt32} {references : Nat}
    (count : mRefCount.toNat = references) (some_ : 0 < references) :
    Sound { world with
      requests := Function.update world.requests number (some { req with mRefCount })
      held := Function.update world.held number references } := by
  have back : ∀ {other known}, Function.update world.requests number
      (some { req with mRefCount }) other = some known →
        ∃ before, world.requests other = some before ∧ known.mPub = before.mPub ∧
          known.mGuid = before.mGuid := by
    intro other known result
    by_cases here : other = number
    · subst here
      rw [Function.update_self] at result
      cases result
      exact ⟨req, found, rfl, rfl⟩
    · rw [Function.update_of_ne here] at result
      exact ⟨known, result, rfl, rfl⟩
  refine ⟨?_, ?_, ?_, sound.pubsAbove, ?_, ?_⟩
  · intro other known result
    dsimp only at result ⊢
    by_cases here : other = number
    · subst here
      rw [Function.update_self] at result ⊢
      cases result
      exact ⟨count, some_⟩
    · rw [Function.update_of_ne here] at result ⊢
      exact sound.counted other known result
  · intro other missing
    dsimp only at missing ⊢
    by_cases here : other = number
    · subst here
      rw [Function.update_self] at missing
      cases missing
    · rw [Function.update_of_ne here] at missing ⊢
      exact sound.freed other missing
  · intro other above
    have apart : other ≠ number := by
      rintro rfl
      rw [sound.above other above] at found
      cases found
    exact (Function.update_of_ne apart _ _).trans (sound.above other above)
  · intro other known result
    obtain ⟨before, there, mine, guid⟩ := back result
    rw [mine, guid]
    exact sound.linked other before there
  · intro pub sender mGuid other here inside
    obtain ⟨known, there, mine, guid⟩ := sound.listed pub sender mGuid other here inside
    by_cases this : other = number
    · subst this
      rw [found] at there
      cases there
      exact ⟨_, Function.update_self .., mine, guid⟩
    · exact ⟨known, (Function.update_of_ne this _ _).trans there, mine, guid⟩

theorem detach (sound : Sound world) {number : Nat} (counted : Counted (.detach number) (.ok world))
    (held : 0 < world.held number) : ∃ after, world.detach number = .ok after ∧ Sound after := by
  unfold RequestHolders.detach
  cases found : world.requests number with
  | none => exact absurd (sound.freed number found) (Nat.ne_of_gt held)
  | some req =>
      have whole : req.mRefCount + 1 ≠ 0 := counted req found
      have one : (req.mRefCount + 1).toNat = world.held number + 1 := by
        have same := (sound.counted number req found).1
        have small := req.mRefCount.toNat_lt
        have wraps : req.mRefCount.toNat + 1 ≠ 2 ^ 32 := by
          intro wrapped
          apply whole
          apply UInt32.toNat_inj.mp
          rw [UInt32.toNat_add]
          change (req.mRefCount.toNat + 1) % 2 ^ 32 = 0
          omega
        rw [UInt32.toNat_add]
        change (req.mRefCount.toNat + 1) % 2 ^ 32 = _
        omega
      exact ⟨_, rfl, sound.recount found one (Nat.succ_pos _)⟩

/-- The last reference is gone: the request leaves the tree and is freed. -/
theorem unlist (sound : Sound world) {number : Nat} {req : Request}
    (found : world.requests number = some req) :
    ∃ after, RequestHolders.remove number req
        { world with held := Function.update world.held number 0 } = .ok after ∧
      Sound { after with requests := Function.update after.requests number none } ∧
      after.requests = world.requests := by
  obtain ⟨pub, sender, mine, there, inside⟩ := sound.linked number req found
  have alive : ∀ {other known}, Function.update world.requests number none other = some known →
      other ≠ number ∧ world.requests other = some known := by
    intro other known result
    by_cases here : other = number
    · subst here
      rw [Function.update_self] at result
      cases result
    · exact ⟨here, (Function.update_of_ne here _ _).symm.trans result⟩
  unfold RequestHolders.remove
  rw [mine]
  dsimp only
  rw [there]
  dsimp only
  rw [if_pos inside]
  refine ⟨_, rfl, ⟨?_, ?_, ?_, ?_, ?_, ?_⟩, rfl⟩
  · intro other known result
    obtain ⟨apart, before⟩ := alive result
    have same := sound.counted other known before
    rwa [← Function.update_of_ne apart 0 world.held] at same
  · intro other missing
    dsimp only at missing ⊢
    by_cases here : other = number
    · rw [here, Function.update_self]
    · rw [Function.update_of_ne here] at missing ⊢
      exact sound.freed other missing
  · intro other above
    dsimp only
    by_cases here : other = number
    · rw [here, Function.update_self]
    · rw [Function.update_of_ne here]
      exact sound.above other above
  · exact fun other => sound.pubsAbove_update there _
  · intro other known result
    obtain ⟨apart, before⟩ := alive result
    refine sound.linked_update there before ?_
    intro inside'
    have guid : known.mGuid ≠ req.mGuid := by
      intro same
      rw [same, inside, Option.some.injEq] at inside'
      exact apart inside'.symm
    rw [RbTree.find_erase, if_neg guid]
    exact inside'
  · intro other its mGuid entry here inside'
    have kept : other = pub → mGuid ≠ req.mGuid := by
      rintro rfl rfl
      dsimp only at here
      rw [Function.update_self] at here
      cases here
      rw [RbTree.find_erase, if_pos rfl] at inside'
      cases inside'
    obtain ⟨known, found', mine', guid⟩ := sound.listed_update there here inside' (by
      intro same old
      rwa [RbTree.find_erase, if_neg (kept same)] at old)
    have apart : entry ≠ number := by
      rintro rfl
      rw [found] at found'
      cases found'
      rw [mine] at mine'
      cases mine'
      exact kept rfl guid.symm
    exact ⟨known, (Function.update_of_ne apart _ _).trans found', mine', guid⟩

end Sound

/-- What destroying one reference does. -/
structure Dropped (world after : RequestHolders) (number : Nat) (req : Request) : Prop where
  sound : Sound after
  others : ∀ other, other ≠ number → after.requests other = world.requests other
  last : req.mRefCount = 1 → after.requests number = none
  more : req.mRefCount ≠ 1 → ∃ left, after.requests number = some left ∧ left.mPub = req.mPub

variable {world : RequestHolders}

theorem destroy_dropped (sound : Sound world) {number : Nat} {req : Request}
    (found : world.requests number = some req) :
    ∃ after, world.destroy number = .ok after ∧ Dropped world after number req := by
  obtain ⟨count, some_⟩ := sound.counted number req found
  have value : (req.mRefCount - 1).toNat = world.held number - 1 := by
    have one : (1 : UInt32) ≤ req.mRefCount := by
      rw [UInt32.le_iff_toNat_le, count]
      exact some_
    rw [UInt32.toNat_sub_of_le _ _ one, count]
    rfl
  unfold destroy
  rw [found]
  dsimp only
  by_cases last : req.mRefCount = 1
  · have none_ : world.held number - 1 = 0 := by
      rw [← value, last]
      rfl
    obtain ⟨after, removed, sound', same⟩ := sound.unlist found
    have ends : ¬ req.mRefCount - 1 ≠ 0 := by
      rw [last]
      decide
    rw [if_neg ends, none_]
    refine ⟨{ after with requests := Function.update after.requests number none }, ?_, sound', ?_,
      fun _ => Function.update_self .., fun more => absurd last more⟩
    · rw [removed]
      rfl
    · intro other apart
      rw [← same]
      exact Function.update_of_ne apart _ _
  · have goes : req.mRefCount - 1 ≠ 0 := by
      intro zero
      apply last
      have whole := UInt32.sub_add_cancel req.mRefCount 1
      rw [zero] at whole
      exact whole.symm
    have left : 0 < world.held number - 1 := by
      rw [← value]
      exact Nat.pos_of_ne_zero fun zero => goes (UInt32.toNat_inj.mp zero)
    rw [if_pos goes]
    refine ⟨_, rfl, sound.recount found value left, ?_, fun one => absurd one last,
      fun _ => ⟨_, Function.update_self .., rfl⟩⟩
    intro other apart
    exact Function.update_of_ne apart _ _

/-- What the loop over the tree of a publisher does. -/
structure AllDropped (world after : RequestHolders) (numbers : List Nat) : Prop where
  sound : Sound after
  others : ∀ other, other ∉ numbers → after.requests other = world.requests other
  last : ∀ number ∈ numbers, ∀ req, world.requests number = some req → req.mRefCount = 1 →
    after.requests number = none
  more : ∀ number ∈ numbers, ∀ req, world.requests number = some req → req.mRefCount ≠ 1 →
    ∃ left, after.requests number = some left ∧ left.mPub = req.mPub

theorem destroyAll_dropped {numbers : List Nat} (sound : Sound world) (nodup : numbers.Nodup)
    (there : ∀ number ∈ numbers, ∃ req, world.requests number = some req) :
    ∃ after, world.destroyAll numbers = .ok after ∧ AllDropped world after numbers := by
  induction numbers generalizing world with
  | nil =>
      exact ⟨world, rfl, sound, fun _ _ => rfl, fun number member => absurd member List.not_mem_nil,
        fun number member => absurd member List.not_mem_nil⟩
  | cons number rest ih =>
      obtain ⟨fresh, distinct⟩ := List.nodup_cons.mp nodup
      obtain ⟨req, found⟩ := there number List.mem_cons_self
      obtain ⟨next, dropped, one⟩ := destroy_dropped sound found
      have apart : ∀ other ∈ rest, other ≠ number := by
        rintro other member rfl
        exact fresh member
      have kept : ∀ other ∈ rest, next.requests other = world.requests other :=
        fun other member => one.others other (apart other member)
      obtain ⟨after, run, all⟩ := ih one.sound distinct (by
        intro other member
        rw [kept other member]
        exact there other (List.mem_cons_of_mem _ member))
      have here : after.requests number = next.requests number := all.others number fresh
      refine ⟨after, ?_, all.sound, ?_, ?_, ?_⟩
      · rw [destroyAll, List.foldlM_cons, dropped]
        exact run
      · intro other outside
        obtain ⟨differs, behind⟩ := not_or.mp (mt List.mem_cons.mpr outside)
        rw [all.others other behind, one.others other differs]
      · intro other member known found' count
        cases List.mem_cons.mp member with
        | inl same =>
            subst same
            rw [found] at found'
            cases found'
            rw [here, one.last count]
        | inr later =>
            rw [← kept other later] at found'
            exact all.last other later known found' count
      · intro other member known found' count
        cases List.mem_cons.mp member with
        | inl same =>
            subst same
            rw [found] at found'
            cases found'
            rw [here]
            exact one.more count
        | inr later =>
            rw [← kept other later] at found'
            exact all.more other later known found' count

section PubDestroy

variable {pub : Nat} {sender : RequestPub}

theorem mem_listed (sound : Sound world) (there : world.pubs pub = some sender) {number : Nat} :
    number ∈ sender.mRequests.entries.map (·.2) ↔
      ∃ req, world.requests number = some req ∧ req.mPub = some pub := by
  constructor
  · intro member
    obtain ⟨entry, inside, rfl⟩ := List.mem_map.mp member
    have found := (RbTree.mem_entries_iff _ sender.mRequests.sorted entry.1 entry.2).mp inside
    obtain ⟨req, found', mine, -⟩ := sound.listed pub sender entry.1 entry.2 there found
    exact ⟨req, found', mine⟩
  · rintro ⟨req, found, mine⟩
    obtain ⟨other, its, mine', there', inside⟩ := sound.linked number req found
    rw [mine] at mine'
    cases mine'
    rw [there] at there'
    cases there'
    have member := (RbTree.mem_entries_iff _ sender.mRequests.sorted req.mGuid number).mpr inside
    exact List.mem_map.mpr ⟨(req.mGuid, number), member, rfl⟩

theorem listed_nodup (sound : Sound world) (there : world.pubs pub = some sender) :
    (sender.mRequests.entries.map (·.2)).Nodup := by
  have distinct : sender.mRequests.entries.Nodup := by
    refine sender.mRequests.sorted.imp ?_
    rintro left right below rfl
    exact lt_irrefl _ below
  refine distinct.map_on ?_
  intro left inLeft right inRight same
  have guid : ∀ entry ∈ sender.mRequests.entries, ∃ req, world.requests entry.2 = some req ∧
      req.mGuid = entry.1 := by
    intro entry inside
    have found := (RbTree.mem_entries_iff _ sender.mRequests.sorted entry.1 entry.2).mp inside
    obtain ⟨req, found', -, guid⟩ := sound.listed pub sender entry.1 entry.2 there found
    exact ⟨req, found', guid⟩
  obtain ⟨one, foundOne, guidOne⟩ := guid left inLeft
  obtain ⟨two, foundTwo, guidTwo⟩ := guid right inRight
  rw [same, foundTwo] at foundOne
  cases foundOne
  exact Prod.ext (guidOne.symm.trans guidTwo) same

/-- A publisher whose requests have one reference each goes with them, and one with a request
that has more leaves that request behind. -/
theorem pubDestroy_dropped (sound : Sound world) (there : world.pubs pub = some sender) :
    ∃ after, world.pubDestroy pub = .ok { after with pubs := Function.update after.pubs pub none } ∧
      AllDropped world after (sender.mRequests.entries.map (·.2)) := by
  obtain ⟨after, run, all⟩ := destroyAll_dropped sound (listed_nodup sound there)
    fun number member => by
      obtain ⟨req, found, -⟩ := (mem_listed sound there).mp member
      exact ⟨req, found⟩
  refine ⟨after, ?_, all⟩
  rw [pubDestroy, there]
  dsimp only
  rw [run]
  rfl

theorem pubDestroy_sound (sound : Sound world) (released : Released (.pubDestroy pub) (.ok world)) :
    ∃ after, world.pubDestroy pub = .ok after ∧ Sound after := by
  cases there : world.pubs pub with
  | none =>
      refine ⟨world, ?_, sound⟩
      rw [pubDestroy, there]
  | some sender =>
      obtain ⟨after, run, all⟩ := pubDestroy_dropped sound there
      refine ⟨_, run, ?_⟩
      have left : ∀ {number req}, after.requests number = some req →
          world.requests number = some req ∧ req.mPub ≠ some pub := by
        intro number req found
        by_cases member : number ∈ sender.mRequests.entries.map (·.2)
        · obtain ⟨known, found', mine⟩ := (mem_listed sound there).mp member
          have gone := all.last number member known found' (released number known found' mine)
          rw [gone] at found
          cases found
        · rw [all.others number member] at found
          refine ⟨found, ?_⟩
          intro mine
          exact member ((mem_listed sound there).mpr ⟨req, found, mine⟩)
      refine ⟨all.sound.counted, all.sound.freed, all.sound.above, ?_, ?_, ?_⟩
      · intro other above
        dsimp only
        by_cases this : other = pub
        · rw [this, Function.update_self]
        · rw [Function.update_of_ne this]
          exact all.sound.pubsAbove other above
      · intro number req found
        obtain ⟨other, its, mine, here, inside⟩ := all.sound.linked number req found
        have apart : other ≠ pub := by
          rintro rfl
          exact (left found).2 mine
        exact ⟨other, its, mine, (Function.update_of_ne apart _ _).trans here, inside⟩
      · intro other its mGuid number here inside
        dsimp only at here
        by_cases this : other = pub
        · rw [this, Function.update_self] at here
          cases here
        · rw [Function.update_of_ne this] at here
          exact all.sound.listed other its mGuid number here inside

theorem pubDestroy_unsafe (sound : Sound world)
    (unreleased : ¬ Released (.pubDestroy pub) (.ok world)) : ¬ Safe (world.pubDestroy pub) := by
  simp only [Released, not_forall] at unreleased
  obtain ⟨number, req, found, mine, more⟩ := unreleased
  obtain ⟨other, sender, mine', there, -⟩ := sound.linked number req found
  rw [mine] at mine'
  cases mine'
  obtain ⟨after, run, all⟩ := pubDestroy_dropped sound there
  have member := (mem_listed sound there).mpr ⟨req, found, mine⟩
  obtain ⟨left, kept, same⟩ := all.more number member req found more
  rintro ⟨final, ends, safe⟩
  rw [run] at ends
  cases ends
  obtain ⟨known, found', pubs⟩ := safe number (all.sound.counted number left kept).2
  dsimp only at found' pubs
  rw [kept] at found'
  cases found'
  have gone := pubs pub (same.trans mine)
  rw [Function.update_self] at gone
  cases gone

end PubDestroy

theorem act_sound (sound : Sound world) {action : Action} (counted : Counted action (.ok world))
    (released : Released action (.ok world)) :
    ∃ after, act action world = .ok after ∧ Sound after := by
  cases action with
  | createPub fixed => exact ⟨_, rfl, sound.createPub fixed⟩
  | pubReady pub => exact ⟨_, rfl, sound.ready (fun _ => rfl) pub⟩
  | subReady pub => exact ⟨_, rfl, sound.ready (fun _ => rfl) pub⟩
  | send pub data replyCb closure => exact ⟨_, rfl, sound.send counted⟩
  | detach number =>
      rw [act]
      by_cases none_ : world.held number = 0
      · exact ⟨world, if_pos none_, sound⟩
      · rw [if_neg none_]
        exact sound.detach counted (Nat.pos_of_ne_zero none_)
  | destroy number =>
      rw [act]
      by_cases none_ : world.held number = 0
      · exact ⟨world, if_pos none_, sound⟩
      · rw [if_neg none_]
        cases found : world.requests number with
        | none => exact absurd (sound.freed number found) none_
        | some req =>
            obtain ⟨after, run, dropped⟩ := destroy_dropped sound found
            exact ⟨after, run, dropped.sound⟩
  | pubDestroy pub => exact pubDestroy_sound sound released

theorem safe_iff (sound : Sound world) {action : Action} (counted : Counted action (.ok world)) :
    Safe (step action (.ok world)) ↔ Released action (.ok world) := by
  constructor
  · intro safe
    by_contra unreleased
    cases action with
    | pubDestroy pub => exact pubDestroy_unsafe sound unreleased safe
    | _ => exact unreleased trivial
  · intro released
    obtain ⟨after, run, sound'⟩ := act_sound sound counted released
    change Safe (act action world)
    rw [run]
    exact sound'.safe

/-- A run in which no count wraps is safe just when no publisher is destroyed that has a request
with more than one reference: `sbfRequestPub_destroy` drops one, and leaves `mPub` set. -/
theorem run_safe_iff (actions : List Action)
    (counted : TotalStep.Along step Counted actions (.ok create)) :
    TotalStep.Along step (fun action state => Safe (step action state)) actions (.ok create) ↔
      TotalStep.Along step Released actions (.ok create) := by
  let invariant : Except Fault RequestHolders → Prop := fun state =>
    ∃ world, state = .ok world ∧ Sound world
  have same : TotalStep.Along step
        (fun action state => Counted action state ∧ Safe (step action state)) actions (.ok create) ↔
      TotalStep.Along step
        (fun action state => Counted action state ∧ Released action state) actions (.ok create) := by
    refine TotalStep.along_iff invariant ?_ ?_ actions ⟨create, rfl, .create⟩
    · rintro action state ⟨world, rfl, sound⟩ ⟨fine, safe⟩
      obtain ⟨after, run, sound'⟩ := act_sound sound fine ((safe_iff sound fine).mp safe)
      exact ⟨after, run, sound'⟩
    · rintro action state ⟨world, rfl, sound⟩
      exact and_congr_right fun fine => safe_iff sound fine
  rw [TotalStep.along_and, TotalStep.along_and, and_iff_right counted, and_iff_right counted] at same
  exact same

/-- A request with one reference, which its publisher's destruction drops. -/
theorem run_safe_released :
    TotalStep.Along step (fun action state => Safe (step action state))
      [.createPub (0, 0, 0), .pubReady 0, .subReady 0, .send 0 [] none 0, .pubDestroy 0]
      (.ok create) := by
  refine (run_safe_iff [.createPub (0, 0, 0), .pubReady 0, .subReady 0, .send 0 [] none 0,
    .pubDestroy 0] ⟨trivial, trivial, trivial, ?_, trivial, trivial⟩).mpr
    ⟨trivial, trivial, trivial, trivial, ?_, trivial⟩
  · intro sender there
    cases there
    rfl
  · intro number req found _
    by_cases first : number = 0
    · subst first
      cases found
      rfl
    · change Function.update (fun _ => none) 0 _ number = some req at found
      rw [Function.update_of_ne first] at found
      cases found

/-- A request that was detached once, and is destroyed behind its publisher. -/
theorem run_dangles :
    (∃ world, TotalStep.run step [.createPub (0, 0, 0), .pubReady 0, .subReady 0, .send 0 [] none 0,
        .detach 0, .pubDestroy 0] (.ok create) = .ok world ∧ world.held 0 = 1 ∧
      (∃ req, world.requests 0 = some req ∧ req.mPub = some 0) ∧ world.pubs 0 = none) ∧
      TotalStep.run step [.createPub (0, 0, 0), .pubReady 0, .subReady 0, .send 0 [] none 0,
        .detach 0, .pubDestroy 0, .destroy 0] (.ok create) = .error .freed :=
  ⟨⟨_, rfl, rfl, ⟨_, rfl, rfl⟩, rfl⟩, rfl⟩

end RequestHolders

end Sbf
