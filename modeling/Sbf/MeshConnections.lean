import Mathlib.Data.List.Perm.Basic
import Sbf.Octets
import Sbf.TportHeader

set_option autoImplicit false

/-! The connections of the TCP mesh handler: outgoing ones that are tried again and again, incoming
ones that go when they fail, and the messages that are written to those that are connected. -/

namespace Sbf

open Octets

/-- Whether a connect is under way, whether `EV_READ` and `EV_WRITE` are enabled, and what was
added to the output. -/
structure MeshEvent where
  connecting : Bool
  enabled : Bool
  output : List Bytes
deriving DecidableEq, Repr

/-- `struct sbfTcpMeshHandlerConnectionImpl`; `mTimer` tells whether the timer is pending, and
sockets are numbered as they are opened. `since` is history: how many messages had been sent when
it was connected. -/
structure MeshConnection where
  mIncoming : Bool
  mConnected : Bool
  mTimer : Bool
  mSocket : Option Nat
  mEvent : Option MeshEvent
  since : Nat
deriving DecidableEq, Repr

/-- `struct sbfTcpMeshHandlerImpl` and its connections by their numbers. The last four are history:
how many sockets were opened, which were closed, which connections were freed, and the messages
sent. -/
structure MeshHandler where
  mConnections : List Nat
  mListener : Bool
  connection : Nat → MeshConnection
  made : Nat
  opened : Nat
  closed : List Nat
  freed : List Nat
  sent : List Bytes

namespace MeshHandler

def modify (c : Nat) (change : MeshConnection → MeshConnection) (tmh : MeshHandler) :
    MeshHandler :=
  { tmh with connection := Function.update tmh.connection c (change (tmh.connection c)) }

/-- `sbfTcpMeshHandlerNewConnection` -/
def newConnection (mIncoming : Bool) (tmh : MeshHandler) : MeshHandler :=
  { tmh with
    mConnections := tmh.mConnections ++ [tmh.made]
    connection := Function.update tmh.connection tmh.made ⟨mIncoming, false, false, none, none, 0⟩
    made := tmh.made + 1 }

/-- `sbfTcpMeshHandlerSetSocket`, of a socket that was just opened. -/
def setSocket (c : Nat) (tmh : MeshHandler) : MeshHandler :=
  { tmh.modify c (fun connection =>
      { connection with mEvent := some ⟨false, false, []⟩, mSocket := some tmh.opened }) with
    opened := tmh.opened + 1 }

/-- `sbfTcpMeshHandlerCloseSocket` -/
def closeSocket (c : Nat) (tmh : MeshHandler) : MeshHandler :=
  { tmh.modify c (fun connection => { connection with mSocket := none, mEvent := none }) with
    closed := tmh.closed ++ (tmh.connection c).mSocket.toList }

/-- `sbfTcpMeshHandlerFreeConnection` -/
def freeConnection (c : Nat) (tmh : MeshHandler) : MeshHandler :=
  let tmh := (tmh.modify c (fun connection => { connection with mTimer := false })).closeSocket c
  { tmh with mConnections := tmh.mConnections.erase c, freed := tmh.freed ++ [c] }

/-- `sbfTcpMeshHandlerConnectionTimerCb`, with whether `socket` and the connect succeed. -/
def timerCb (c : Nat) (opens connects : Bool) (tmh : MeshHandler) : MeshHandler :=
  if (tmh.connection c).mTimer then
    let tmh := (tmh.modify c (fun connection => { connection with mTimer := false })).closeSocket c
    if opens then
      let tmh := tmh.setSocket c
      if connects then
        tmh.modify c (fun connection => { connection with mEvent := some ⟨true, false, []⟩ })
      else tmh.modify c (fun connection => { connection with mTimer := true })
    else tmh.modify c (fun connection => { connection with mTimer := true })
  else tmh

/-- `sbfTcpMeshHandlerConnectionEventCb`: the connect succeeded, or it or the connection failed. -/
def eventCb (c : Nat) (connected : Bool) (tmh : MeshHandler) : MeshHandler :=
  match (tmh.connection c).mEvent with
  | none => tmh
  | some event =>
      if connected then
        if event.connecting then
          tmh.modify c (fun connection =>
            { connection with
              mConnected := true
              mEvent := some { event with connecting := false, enabled := true }
              since := tmh.sent.length })
        else tmh
      else if event.connecting || event.enabled then
        let tmh := tmh.modify c (fun connection =>
          { connection with
            mConnected := false
            mEvent := some { event with connecting := false, enabled := false } })
        if (tmh.connection c).mIncoming then tmh.freeConnection c
        else tmh.modify c (fun connection => { connection with mTimer := true })
      else tmh

/-- `sbfTcpMeshHandlerListenerAcceptCb` -/
def acceptCb (tmh : MeshHandler) : MeshHandler :=
  if tmh.mListener then
    ((tmh.newConnection true).setSocket tmh.made).modify tmh.made (fun connection =>
      { connection with
        mConnected := true
        mEvent := some ⟨false, true, []⟩
        since := tmh.sent.length })
  else tmh

/-- What `sbfTcpMeshHandlerSendBuffer` does for a connection. -/
def addOutput (data : Bytes) (connection : MeshConnection) : Except Fault MeshConnection :=
  if connection.mConnected then
    match connection.mEvent with
    | none => .error .null
    | some event => .ok { connection with mEvent := some { event with output := event.output ++ [data] } }
  else .ok connection

/-- `sbfTcpMeshHandlerSendBuffer` -/
def sendBuffer (data : Bytes) (tmh : MeshHandler) : Except Fault MeshHandler := do
  let connection ← tmh.mConnections.foldlM (fun connection c => do
    .ok (Function.update connection c (← addOutput data (connection c)))) tmh.connection
  .ok { tmh with connection, sent := tmh.sent ++ [data] }

/-- `sbfTcpMeshHandlerDestroy` -/
def destroy (tmh : MeshHandler) : MeshHandler :=
  { tmh.mConnections.foldl (fun tmh c => tmh.freeConnection c) tmh with mListener := false }

/-- `sbfTcpMeshHandlerCreate` with the outgoing connections and the listener that the properties
ask for. -/
def create (hosts : Nat) (mListener : Bool) : MeshHandler :=
  (List.range hosts).foldl
    (fun tmh _ => (tmh.newConnection false).modify tmh.made
      (fun connection => { connection with mTimer := true }))
    ⟨[], mListener, fun _ => ⟨false, false, false, none, none, 0⟩, 0, 0, [], [], []⟩

inductive Action where
  | timerCb (c : Nat) (opens connects : Bool)
  | eventCb (c : Nat) (connected : Bool)
  | acceptCb
  | sendBuffer (data : Bytes)
deriving DecidableEq, Repr

def step (tmh : MeshHandler) : Action → Except Fault MeshHandler
  | .timerCb c opens connects => .ok (tmh.timerCb c opens connects)
  | .eventCb c connected => .ok (tmh.eventCb c connected)
  | .acceptCb => .ok tmh.acceptCb
  | .sendBuffer data => tmh.sendBuffer data

end MeshHandler

/-- What holds of a connection on the list, after these messages: one that is connected has got
every message since then, and an outgoing one is connected, or connecting, or will be tried. -/
structure MeshConnection.Sound (sent : List Bytes) (connection : MeshConnection) : Prop where
  socket : connection.mEvent.isSome = connection.mSocket.isSome
  connected : connection.mConnected = true → connection.mTimer = false ∧ ∃ event,
    connection.mEvent = some event ∧ event.enabled = true ∧ event.connecting = false ∧
      event.output = sent.drop connection.since ∧ connection.since ≤ sent.length
  connecting : ∀ event, connection.mEvent = some event → event.connecting = true →
    connection.mConnected = false ∧ connection.mTimer = false ∧ event.output = []
  tries : connection.mIncoming = false → connection.mTimer = true ∨ connection.mConnected = true ∨
    ∃ event, connection.mEvent = some event ∧ event.connecting = true
  incoming : connection.mIncoming = true → connection.mConnected = true

namespace MeshHandler

/-- Every connection made is on the list or was freed, once, and every socket opened is closed or
that of one connection on the list, once. -/
structure Sound (tmh : MeshHandler) : Prop where
  listed : (tmh.mConnections ++ tmh.freed).Perm (List.range tmh.made)
  sockets : ∀ socket, tmh.closed.count socket +
    tmh.mConnections.countP (fun c => (tmh.connection c).mSocket = some socket) =
      if socket < tmh.opened then 1 else 0
  each : ∀ c ∈ tmh.mConnections, (tmh.connection c).Sound tmh.sent
  gone : ∀ c, c ∉ tmh.mConnections →
    (tmh.connection c).mTimer = false ∧ (tmh.connection c).mEvent = none

/-- A count over the values of a function changes with the value at one place. -/
theorem countP_update {α : Type} {list : List Nat} (distinct : list.Nodup) {c : Nat}
    (inside : c ∈ list) (f : Nat → α) (value : α) (p : α → Bool) :
    list.countP (fun x => p (Function.update f c value x)) + (if p (f c) then 1 else 0) =
      list.countP (fun x => p (f x)) + if p value then 1 else 0 := by
  obtain ⟨before, after, rfl⟩ := List.append_of_mem inside
  obtain ⟨notBefore, notAfter⟩ : c ∉ before ∧ c ∉ after := by
    have absent := (List.nodup_cons.mp (List.perm_middle.nodup_iff.mp distinct)).1
    rw [List.mem_append] at absent
    exact ⟨fun there => absent (Or.inl there), fun there => absent (Or.inr there)⟩
  have apart (others : List Nat) (absent : c ∉ others) :
      others.countP (fun x => p (Function.update f c value x)) =
        others.countP (fun x => p (f x)) := by
    refine List.countP_congr fun x there => ?_
    rw [Function.update_of_ne]
    rintro rfl
    exact absent there
  simp only [List.countP_append, List.countP_cons, apart before notBefore, apart after notAfter,
    Function.update_self]
  omega

/-- A socket that is closed, if there is one. -/
theorem toList_count (socket : Option Nat) (other : Nat) :
    socket.toList.count other = if socket = some other then 1 else 0 := by
  cases socket with
  | none => rfl
  | some old => simp [List.count_singleton]

theorem lt_next (opened socket : Nat) : (if socket < opened + 1 then 1 else 0) =
    (if opened = socket then 1 else 0) + if socket < opened then 1 else 0 := by
  rcases Nat.lt_trichotomy socket opened with below | rfl | beyond
  · rw [if_pos (by omega), if_neg (by omega), if_pos below]
  · simp
  · rw [if_neg (by omega), if_neg (by omega), if_neg (by omega)]

variable {tmh : MeshHandler} {c : Nat}

namespace Sound

theorem nodup (sound : tmh.Sound) : tmh.mConnections.Nodup :=
  (List.nodup_append.mp (sound.listed.nodup_iff.mpr List.nodup_range)).1

theorem lt_made (sound : tmh.Sound) (inside : c ∈ tmh.mConnections) : c < tmh.made :=
  List.mem_range.mp (sound.listed.subset (List.mem_append_left _ inside))

/-- Another value for a connection on the list, and other sockets with it. -/
theorem replace (sound : tmh.Sound) (inside : c ∈ tmh.mConnections) (connection : MeshConnection)
    (opened : Nat) (closed : List Nat)
    (balance : ∀ socket, closed.count socket +
        (if connection.mSocket = some socket then 1 else 0) +
          (if socket < tmh.opened then 1 else 0) =
      tmh.closed.count socket + (if (tmh.connection c).mSocket = some socket then 1 else 0) +
        if socket < opened then 1 else 0)
    (each : connection.Sound tmh.sent) :
    Sound { tmh with
      connection := Function.update tmh.connection c connection, opened, closed } where
  listed := sound.listed
  sockets := by
    intro socket
    have before := sound.sockets socket
    have moved := countP_update sound.nodup inside tmh.connection connection
      (fun value => decide (value.mSocket = some socket))
    have here := balance socket
    simp only [decide_eq_true_eq] at moved ⊢
    omega
  each := by
    intro other there
    by_cases same : other = c
    · subst same
      simpa using each
    · simp only [Function.update_of_ne same]
      exact sound.each other there
  gone := by
    intro other absent
    have apart : other ≠ c := by
      rintro rfl
      exact absent inside
    simp only [Function.update_of_ne apart]
    exact sound.gone other absent

/-- A new connection at the end of the list, with a socket or without. -/
theorem add (sound : tmh.Sound) (connection : MeshConnection) (opened : Nat)
    (balance : ∀ socket, (if connection.mSocket = some socket then 1 else 0) +
        (if socket < tmh.opened then 1 else 0) = if socket < opened then 1 else 0)
    (each : connection.Sound tmh.sent) :
    Sound { tmh with
      mConnections := tmh.mConnections ++ [tmh.made]
      connection := Function.update tmh.connection tmh.made connection
      made := tmh.made + 1
      opened } where
  listed := by
    rw [List.range_succ, List.append_assoc]
    exact (List.perm_append_comm.append_left _).trans
      (by simpa only [List.append_assoc] using sound.listed.append_right [tmh.made])
  sockets := by
    intro socket
    have before := sound.sockets socket
    have here := balance socket
    have older : tmh.mConnections.countP (fun c => decide
        ((Function.update tmh.connection tmh.made connection c).mSocket = some socket)) =
        tmh.mConnections.countP (fun c => (tmh.connection c).mSocket = some socket) := by
      refine List.countP_congr fun c there => ?_
      rw [Function.update_of_ne (sound.lt_made there).ne]
    simp only [List.countP_append, older, List.countP_singleton, Function.update_self,
      decide_eq_true_eq]
    omega
  each := by
    intro other there
    rcases List.mem_append.mp there with there | here
    · simp only [Function.update_of_ne (sound.lt_made there).ne]
      exact sound.each other there
    · rw [List.mem_singleton.mp here]
      simpa using each
  gone := by
    intro other absent
    rw [List.mem_append, not_or, List.mem_singleton] at absent
    simp only [Function.update_of_ne absent.2]
    exact sound.gone other absent.1

/-- A connection that goes, with its socket, whatever is left in it. -/
theorem remove (sound : tmh.Sound) (inside : c ∈ tmh.mConnections) (connection : MeshConnection)
    (idle : connection.mTimer = false) (none_ : connection.mEvent = none) :
    Sound { tmh with
      mConnections := tmh.mConnections.erase c
      connection := Function.update tmh.connection c connection
      closed := tmh.closed ++ (tmh.connection c).mSocket.toList
      freed := tmh.freed ++ [c] } := by
  have others : ∀ other ∈ tmh.mConnections.erase c, other ≠ c := fun other there =>
    (sound.nodup.mem_erase_iff.mp there).1
  constructor
  · refine List.Perm.trans ?_ sound.listed
    rw [← List.append_assoc]
    refine List.perm_append_comm.trans ?_
    rw [List.singleton_append, ← List.cons_append]
    exact (List.perm_cons_erase inside).symm.append_right _
  · intro socket
    have before := sound.sockets socket
    rw [(List.perm_cons_erase inside).countP_eq, List.countP_cons] at before
    have older : (tmh.mConnections.erase c).countP (fun other => decide
        ((Function.update tmh.connection c connection other).mSocket = some socket)) =
        (tmh.mConnections.erase c).countP (fun c => (tmh.connection c).mSocket = some socket) := by
      refine List.countP_congr fun other there => ?_
      rw [Function.update_of_ne (others other there)]
    simp only [decide_eq_true_eq] at before
    simp only [List.count_append, older, toList_count]
    omega
  · intro other there
    simp only [Function.update_of_ne (others other there)]
    exact sound.each other (List.mem_of_mem_erase there)
  · intro other absent
    by_cases same : other = c
    · subst same
      simpa using ⟨idle, none_⟩
    · simp only [Function.update_of_ne same]
      refine sound.gone other fun there => absent ?_
      exact sound.nodup.mem_erase_iff.mpr ⟨same, there⟩

theorem freeConnection (sound : tmh.Sound) (inside : c ∈ tmh.mConnections) :
    (tmh.freeConnection c).Sound := by
  have after := sound.remove inside
    { tmh.connection c with mTimer := false, mSocket := none, mEvent := none } rfl rfl
  simpa [MeshHandler.freeConnection, closeSocket, modify] using after

/-- What calls back is on the list. -/
theorem inside (sound : tmh.Sound)
    (active : (tmh.connection c).mTimer = true ∨ (tmh.connection c).mEvent.isSome) :
    c ∈ tmh.mConnections := by
  by_contra absent
  obtain ⟨timer, event⟩ := sound.gone c absent
  rw [timer, event] at active
  simp at active

/-- The connection that a timer is pending for is an outgoing one that is not connected. -/
theorem waiting (sound : tmh.Sound) (timer : (tmh.connection c).mTimer = true) :
    (tmh.connection c).mConnected = false ∧ (tmh.connection c).mIncoming = false := by
  have own := sound.each c (sound.inside (Or.inl timer))
  have apart : (tmh.connection c).mConnected = false := by
    cases connected : (tmh.connection c).mConnected with
    | false => rfl
    | true => exact absurd timer (by simp [(own.connected connected).1])
  refine ⟨apart, ?_⟩
  cases incoming : (tmh.connection c).mIncoming with
  | false => rfl
  | true => exact absurd (own.incoming incoming) (by simp [apart])

theorem timerCb (sound : tmh.Sound) (c : Nat) (opens connects : Bool) :
    (tmh.timerCb c opens connects).Sound := by
  rw [MeshHandler.timerCb]
  split
  case isFalse => exact sound
  case isTrue timer =>
    have inside := sound.inside (Or.inl timer)
    obtain ⟨apart, outgoing⟩ := sound.waiting timer
    cases opens with
    | false =>
        have after := sound.replace inside
          { tmh.connection c with mTimer := true, mSocket := none, mEvent := none } tmh.opened
          (tmh.closed ++ (tmh.connection c).mSocket.toList)
          (fun socket => by simp [List.count_append, toList_count])
          (by constructor <;> simp [apart, outgoing])
        simpa [closeSocket, modify] using after
    | true =>
        cases connects with
        | false =>
            have after := sound.replace inside
              { tmh.connection c with
                mTimer := true, mSocket := some tmh.opened, mEvent := some ⟨false, false, []⟩ }
              (tmh.opened + 1) (tmh.closed ++ (tmh.connection c).mSocket.toList)
              (fun socket => by
                simp only [List.count_append, toList_count, Option.some.injEq, lt_next]
                omega)
              (by constructor <;> simp [apart, outgoing])
            simpa [closeSocket, setSocket, modify] using after
        | true =>
            have after := sound.replace inside
              { tmh.connection c with
                mTimer := false, mSocket := some tmh.opened, mEvent := some ⟨true, false, []⟩ }
              (tmh.opened + 1) (tmh.closed ++ (tmh.connection c).mSocket.toList)
              (fun socket => by
                simp only [List.count_append, toList_count, Option.some.injEq, lt_next]
                omega)
              (by constructor <;> simp [apart, outgoing])
            simpa [closeSocket, setSocket, modify] using after

theorem eventCb (sound : tmh.Sound) (c : Nat) (connected : Bool) :
    (tmh.eventCb c connected).Sound := by
  cases found : (tmh.connection c).mEvent with
  | none => simpa only [MeshHandler.eventCb, found] using sound
  | some event =>
      have inside := sound.inside (Or.inr (by rw [found]; rfl))
      have own := sound.each c inside
      simp only [MeshHandler.eventCb, found]
      cases connected with
      | true =>
          rw [if_pos rfl]
          split
          case isFalse => exact sound
          case isTrue connecting =>
            obtain ⟨-, idle, empty⟩ := own.connecting event found connecting
            refine sound.replace inside _ tmh.opened tmh.closed (fun _ => rfl) ?_
            constructor <;> simp [idle, empty, ← own.socket, found]
      | false =>
          rw [if_neg (by decide)]
          split
          case isFalse => exact sound
          case isTrue =>
            cases incoming : (tmh.connection c).mIncoming with
            | true =>
                have after := sound.remove inside
                  { tmh.connection c with
                    mConnected := false, mTimer := false, mSocket := none, mEvent := none } rfl rfl
                simpa [modify, incoming, MeshHandler.freeConnection, closeSocket] using after
            | false =>
                have after := sound.replace inside
                  { tmh.connection c with
                    mConnected := false
                    mTimer := true
                    mEvent := some { event with connecting := false, enabled := false } }
                  tmh.opened tmh.closed (fun _ => rfl)
                  (by constructor <;> simp [incoming, ← own.socket, found])
                simpa [modify, incoming] using after

theorem acceptCb (sound : tmh.Sound) : tmh.acceptCb.Sound := by
  rw [MeshHandler.acceptCb]
  split
  case isFalse => exact sound
  case isTrue =>
    have after := sound.add ⟨true, true, false, some tmh.opened, some ⟨false, true, []⟩,
      tmh.sent.length⟩ (tmh.opened + 1)
      (fun socket => by simp only [Option.some.injEq, lt_next])
      (by constructor <;> simp)
    simpa [newConnection, setSocket, modify] using after

theorem addOutput {sent : List Bytes} {connection : MeshConnection}
    (sound : connection.Sound sent) (data : Bytes) : ∃ after,
    MeshHandler.addOutput data connection = .ok after ∧ after.Sound (sent ++ [data]) ∧
      after.mSocket = connection.mSocket := by
  cases connected : connection.mConnected with
  | false =>
      refine ⟨connection, by simp [MeshHandler.addOutput, connected], ?_, rfl⟩
      exact ⟨sound.socket, fun up => absurd up (by simp [connected]), sound.connecting, sound.tries,
        sound.incoming⟩
  | true =>
      obtain ⟨idle, event, found, enabled, up, output, before⟩ := sound.connected connected
      refine ⟨{ connection with mEvent := some { event with output := event.output ++ [data] } },
        by simp [MeshHandler.addOutput, connected, found], ?_, rfl⟩
      constructor
      · simp [← sound.socket, found]
      · intro _
        refine ⟨idle, _, rfl, enabled, up, ?_, ?_⟩
        · rw [List.drop_append_of_le_length before, output]
        · exact before.trans (by simp)
      · simp [up]
      · simp [connected]
      · simp [connected]

/-- The loop of `sbfTcpMeshHandlerSendBuffer`. -/
theorem addAll {sent : List Bytes} {list : List Nat} (distinct : list.Nodup)
    {connection : Nat → MeshConnection} (sound : ∀ c ∈ list, (connection c).Sound sent)
    (data : Bytes) : ∃ after,
    list.foldlM (fun connection c => do
      .ok (Function.update connection c (← MeshHandler.addOutput data (connection c))))
        connection = .ok after ∧
      (∀ c ∈ list, (after c).Sound (sent ++ [data]) ∧ (after c).mSocket = (connection c).mSocket) ∧
      ∀ c, c ∉ list → after c = connection c := by
  induction list generalizing connection with
  | nil => exact ⟨connection, rfl, fun _ there => absurd there List.not_mem_nil, fun _ _ => rfl⟩
  | cons c rest ih =>
      obtain ⟨absent, distinct⟩ := List.nodup_cons.mp distinct
      obtain ⟨value, ran, good, socket⟩ := addOutput (sound c List.mem_cons_self) data
      have apart : ∀ other ∈ rest, other ≠ c := fun other there same => absent (same ▸ there)
      obtain ⟨after, onward, done, others⟩ := @ih distinct (Function.update connection c value)
        (fun other there => by
          rw [Function.update_of_ne (apart other there)]
          exact sound other (List.mem_cons_of_mem _ there))
      refine ⟨after, ?_, ?_, ?_⟩
      · simp only [List.foldlM_cons, ran, bind, Except.bind]
        exact onward
      · intro other there
        rcases List.mem_cons.mp there with rfl | there
        · rw [others other absent, Function.update_self]
          exact ⟨good, socket⟩
        · have here := done other there
          rwa [Function.update_of_ne (apart other there)] at here
      · intro other outside
        rw [List.mem_cons, not_or] at outside
        rw [others other outside.2, Function.update_of_ne outside.1]

theorem sendBuffer (sound : tmh.Sound) (data : Bytes) : ∃ after,
    tmh.sendBuffer data = .ok after ∧ after.Sound := by
  obtain ⟨connection, ran, done, others⟩ := addAll sound.nodup sound.each data
  refine ⟨{ tmh with connection, sent := tmh.sent ++ [data] }, ?_, sound.listed, ?_, ?_, ?_⟩
  · rw [MeshHandler.sendBuffer, ran]
    rfl
  · intro socket
    refine Eq.trans ?_ (sound.sockets socket)
    congr 1
    refine List.countP_congr fun c there => ?_
    rw [(done c there).2]
  · exact fun c there => (done c there).1
  · intro c absent
    change (connection c).mTimer = false ∧ (connection c).mEvent = none
    rw [others c absent]
    exact sound.gone c absent

theorem step (sound : tmh.Sound) (action : Action) : ∃ after,
    tmh.step action = .ok after ∧ after.Sound := by
  cases action with
  | timerCb c opens connects => exact ⟨_, rfl, sound.timerCb c opens connects⟩
  | eventCb c connected => exact ⟨_, rfl, sound.eventCb c connected⟩
  | acceptCb => exact ⟨_, rfl, sound.acceptCb⟩
  | sendBuffer data => exact sound.sendBuffer data

theorem run (sound : tmh.Sound) (actions : List Action) : ∃ after,
    actions.foldlM MeshHandler.step tmh = .ok after ∧ after.Sound := by
  induction actions generalizing tmh with
  | nil => exact ⟨tmh, rfl, sound⟩
  | cons action rest ih =>
      obtain ⟨next, ran, kept⟩ := sound.step action
      obtain ⟨after, onward, done⟩ := ih kept
      refine ⟨after, ?_, done⟩
      rw [List.foldlM_cons, ran]
      exact onward

/-- The loop of `sbfTcpMeshHandlerDestroy`. -/
theorem freeAll (sound : tmh.Sound) {list : List Nat} (all : tmh.mConnections = list) :
    (list.foldl (fun tmh c => tmh.freeConnection c) tmh).Sound ∧
      (list.foldl (fun tmh c => tmh.freeConnection c) tmh).mConnections = [] := by
  induction list generalizing tmh with
  | nil => exact ⟨sound, all⟩
  | cons c rest ih =>
      refine ih (sound.freeConnection (by rw [all]; exact List.mem_cons_self)) ?_
      change tmh.mConnections.erase c = rest
      rw [all, List.erase_cons_head]

end Sound

theorem create_sound (hosts : Nat) (mListener : Bool) : (create hosts mListener).Sound := by
  rw [create]
  generalize List.range hosts = list
  have start : Sound ⟨[], mListener, fun _ => ⟨false, false, false, none, none, 0⟩, 0, 0, [], [],
      []⟩ := ⟨.refl _, fun _ => rfl, fun _ there => absurd there List.not_mem_nil,
    fun _ _ => ⟨rfl, rfl⟩⟩
  revert start
  generalize MeshHandler.mk [] mListener _ 0 0 [] [] [] = tmh
  intro sound
  induction list generalizing tmh with
  | nil => exact sound
  | cons _ rest ih =>
      refine ih _ ?_
      have after := sound.add ⟨false, false, true, none, none, 0⟩ tmh.opened (fun _ => by simp)
        (by constructor <;> simp)
      simpa [newConnection, modify] using after

/-- In every order of timers, connects, failures, incoming connections and messages: every
connection made is on the list or was freed, once; every socket opened was closed, once, or belongs
to one connection; an outgoing connection is connected or will be tried again; and one that is
connected has got all messages since it was, whole and in order. Then `sbfTcpMeshHandlerDestroy`
closes every socket and frees every connection. -/
theorem mesh_run_connections (hosts : Nat) (mListener : Bool) (actions : List Action) : ∃ tmh,
    actions.foldlM step (create hosts mListener) = .ok tmh ∧
      (tmh.mConnections ++ tmh.freed).Perm (List.range tmh.made) ∧
      (∀ socket, tmh.closed.count socket +
        tmh.mConnections.countP (fun c => (tmh.connection c).mSocket = some socket) =
          if socket < tmh.opened then 1 else 0) ∧
      (∀ c ∈ tmh.mConnections, (tmh.connection c).mIncoming = false →
        (tmh.connection c).mTimer = true ∨ (tmh.connection c).mConnected = true ∨
          ∃ event, (tmh.connection c).mEvent = some event ∧ event.connecting = true) ∧
      (∀ c ∈ tmh.mConnections, (tmh.connection c).mConnected = true →
        ∃ event, (tmh.connection c).mEvent = some event ∧
          event.output = tmh.sent.drop (tmh.connection c).since) ∧
      tmh.destroy.freed.Perm (List.range tmh.destroy.made) ∧
      tmh.destroy.closed.Perm (List.range tmh.destroy.opened) := by
  obtain ⟨tmh, ran, sound⟩ := (create_sound hosts mListener).run actions
  obtain ⟨last, empty⟩ := sound.freeAll rfl
  refine ⟨tmh, ran, sound.listed, sound.sockets, fun c there => (sound.each c there).tries,
    fun c there up => ?_, ?_, ?_⟩
  · obtain ⟨-, event, found, -, -, output, -⟩ := (sound.each c there).connected up
    exact ⟨event, found, output⟩
  · have listed := last.listed
    rw [empty] at listed
    exact listed
  · refine List.perm_iff_count.mpr fun socket => ?_
    have sockets := last.sockets socket
    rw [empty] at sockets
    rw [List.count_range]
    exact sockets

end MeshHandler

end Sbf
