import Sbf.TcpListener

set_option autoImplicit false

namespace Sbf

section Counts

variable {item : TcpItem} {items running : List TcpItem} (p : TcpItem → Bool)

/-- An item that starts is counted as before. -/
theorem TcpItem.countP_started (there : item ∈ items) :
    (items.erase item ++ (running ++ [item])).countP p = (items ++ running).countP p := by
  have here := (List.perm_cons_erase there).countP_eq p
  simp only [List.countP_append, List.countP_cons, List.countP_nil] at here ⊢
  omega

theorem TcpItem.countP_taken (there : item ∈ items) :
    (items ++ running).countP p =
      (items.erase item ++ running).countP p + if p item then 1 else 0 := by
  have here := (List.perm_cons_erase there).countP_eq p
  simp only [List.countP_append, List.countP_cons] at here ⊢
  omega

theorem TcpItem.countP_finished (items : List TcpItem) (there : item ∈ running) :
    (items ++ running).countP p =
      (items ++ running.erase item).countP p + if p item then 1 else 0 := by
  have here := (List.perm_cons_erase there).countP_eq p
  simp only [List.countP_append, List.countP_cons] at here ⊢
  omega

theorem TcpItem.countP_queued (item : TcpItem) (items running : List TcpItem) :
    (items ++ [item] ++ running).countP p =
      (items ++ running).countP p + if p item then 1 else 0 := by
  simp only [List.countP_append, List.countP_cons, List.countP_nil]
  omega

end Counts

theorem TcpItem.count_taken {item : TcpItem} {items : List TcpItem} (other : TcpItem)
    (there : item ∈ items) :
    items.count other = (items.erase item).count other + if item = other then 1 else 0 := by
  have here := (List.perm_cons_erase there).count_eq other
  simp only [List.count_cons, beq_iff_eq] at here
  exact here

theorem TcpItem.count_queued (other item : TcpItem) (items : List TcpItem) :
    (items ++ [item]).count other = items.count other + if item = other then 1 else 0 := by
  simp only [List.count_append, List.count_singleton, beq_iff_eq]

namespace TcpListener

/-- The reference of `sbfTcpListener_create`, until `sbfTcpListener_destroy` drops it. -/
def owner (tl : TcpListener) : Nat := if tl.mListener then 1 else 0

/-- The listener counts its owner and `refs` items, and was freed when there are none. -/
structure Sound (tl : TcpListener) (refs : Nat) : Prop where
  count : tl.mRefCount = tl.owner + refs
  freed : tl.freed = if tl.owner + refs = 0 then 1 else 0
  marked : tl.mListener = false → tl.mDestroyed = true

variable {tl : TcpListener} {refs : Nat}

/-- A reference of an item is dropped. -/
theorem Sound.drop (sound : tl.Sound (refs + 1)) : tl.drop.Sound refs where
  count := by
    have count := sound.count
    show tl.mRefCount - 1 = tl.owner + refs
    omega
  freed := by
    have count := sound.count
    have freed := sound.freed
    show (if tl.mRefCount - 1 = 0 then tl.freed + 1 else tl.freed) =
      if tl.owner + refs = 0 then 1 else 0
    rw [if_neg (by omega)] at freed
    split <;> split <;> omega
  marked := sound.marked

/-- An item gets a reference. -/
theorem Sound.increment (sound : tl.Sound refs) (listening : tl.mListener = true) :
    { tl with mRefCount := tl.mRefCount + 1 : TcpListener }.Sound (refs + 1) where
  count := by
    have count := sound.count
    show tl.mRefCount + 1 = tl.owner + (refs + 1 : Nat)
    omega
  freed := by
    have freed := sound.freed
    have owner : tl.owner = 1 := if_pos listening
    show tl.freed = if tl.owner + (refs + 1) = 0 then 1 else 0
    rw [if_neg (by omega)] at freed ⊢
    exact freed
  marked := sound.marked

theorem Sound.mark (sound : tl.Sound refs) :
    { tl with mDestroyed := true : TcpListener }.Sound refs where
  count := sound.count
  freed := sound.freed
  marked _ := rfl

/-- `evconnlistener_free`, and the reference of the owner is dropped. -/
theorem Sound.close (sound : tl.Sound refs) (listening : tl.mListener = true)
    (destroyed : tl.mDestroyed = true) :
    { tl with mListener := false : TcpListener }.drop.Sound refs where
  count := by
    have count := sound.count
    have owner : tl.owner = 1 := if_pos listening
    show tl.mRefCount - 1 = (0 : Nat) + refs
    omega
  freed := by
    have count := sound.count
    have freed := sound.freed
    have owner : tl.owner = 1 := if_pos listening
    show (if tl.mRefCount - 1 = 0 then tl.freed + 1 else tl.freed) = if 0 + refs = 0 then 1 else 0
    rw [if_neg (by omega)] at freed
    split <;> split <;> omega
  marked _ := destroyed

end TcpListener

namespace TcpConnection

/-- The reference of the user, until `sbfTcpConnection_destroy` drops it. -/
def owner (tc : TcpConnection) : Nat := if tc.destroyCall = .returned then 0 else 1

/-- What holds of a connection with `refs` items that have a reference to it, and `waiting`
items whose accept callback gets it. One that was not accepted has no count: it stands at zero
until it is destroyed. -/
structure Sound (tc : TcpConnection) (refs waiting : Nat) : Prop where
  raw : tc.accepted = false → refs = 0 ∧ tc.mEvent = false ∧
    tc.mRefCount = if tc.destroyCall = .returned then -1 else 0
  count : tc.accepted = true → tc.mRefCount = tc.owner + refs
  freed : tc.accepted = true → tc.freed = if tc.owner + refs = 0 then 1 else 0
  kept : tc.handed = true → tc.accepted = false → tc.freed = 0
  unhanded : tc.handed = false →
    tc.accepted = false ∧ tc.destroyCall = .uncalled ∧ waiting + tc.freed = 1
  taken : tc.handed = true → waiting = 0
  closed : tc.closed = if tc.destroyCall = .uncalled then 0 else 1
  event : tc.mEvent = true → tc.destroyCall ≠ .returned

variable {tc : TcpConnection} {refs waiting : Nat}

/-- A connection that an item has a reference to was accepted. -/
theorem Sound.accepted_of_refs (sound : tc.Sound (refs + 1) waiting) : tc.accepted = true := by
  cases accepted : tc.accepted with
  | true => rfl
  | false => exact absurd (sound.raw accepted).1 (Nat.succ_ne_zero refs)

/-- A connection with a bufferevent was accepted. -/
theorem Sound.accepted_of_event (sound : tc.Sound refs waiting) (event : tc.mEvent = true) :
    tc.accepted = true := by
  cases accepted : tc.accepted with
  | true => rfl
  | false => exact absurd ((sound.raw accepted).2.1.symm.trans event) Bool.false_ne_true

theorem wrap_sound : wrap.Sound 0 1 where
  raw _ := ⟨rfl, rfl, rfl⟩
  count accepted := absurd accepted Bool.false_ne_true
  freed accepted := absurd accepted Bool.false_ne_true
  kept handed := absurd handed Bool.false_ne_true
  unhanded _ := ⟨rfl, rfl, rfl⟩
  taken handed := absurd handed Bool.false_ne_true
  closed := rfl
  event event := absurd event Bool.false_ne_true

/-- A reference of an item is dropped. -/
theorem Sound.drop (sound : tc.Sound (refs + 1) waiting) : tc.drop.Sound refs waiting where
  raw raw := absurd (raw.symm.trans sound.accepted_of_refs) Bool.false_ne_true
  count accepted := by
    have count := sound.count accepted
    show tc.mRefCount - 1 = tc.owner + refs
    omega
  freed accepted := by
    have count := sound.count accepted
    have freed := sound.freed accepted
    show (if tc.mRefCount - 1 = 0 then tc.freed + 1 else tc.freed) =
      if tc.owner + refs = 0 then 1 else 0
    rw [if_neg (by omega)] at freed
    split <;> split <;> omega
  kept _ raw := absurd (raw.symm.trans sound.accepted_of_refs) Bool.false_ne_true
  unhanded unhanded := absurd ((sound.unhanded unhanded).1.symm.trans sound.accepted_of_refs)
    Bool.false_ne_true
  taken := sound.taken
  closed := sound.closed
  event := sound.event

theorem Sound.requeue (sound : tc.Sound refs waiting) (queued : Bool) :
    { tc with mQueued := queued : TcpConnection }.Sound refs waiting :=
  ⟨sound.raw, sound.count, sound.freed, sound.kept, sound.unhanded, sound.taken, sound.closed,
    sound.event⟩

theorem Sound.readDone (sound : tc.Sound (refs + 1) waiting) : tc.readDone.Sound refs waiting := by
  unfold TcpConnection.readDone
  split
  · exact (sound.requeue false).drop
  · exact sound.drop

/-- A callback of the bufferevent enqueues an item. -/
theorem Sound.increment (sound : tc.Sound refs waiting) (event : tc.mEvent = true) :
    { tc with mRefCount := tc.mRefCount + 1 : TcpConnection }.Sound (refs + 1) waiting where
  raw raw := absurd (raw.symm.trans (sound.accepted_of_event event)) Bool.false_ne_true
  count accepted := by
    have count := sound.count accepted
    show tc.mRefCount + 1 = tc.owner + (refs + 1 : Nat)
    omega
  freed accepted := by
    have freed := sound.freed accepted
    have owner : tc.owner = 1 := if_neg (sound.event event)
    show tc.freed = if tc.owner + (refs + 1) = 0 then 1 else 0
    rw [if_neg (by omega)] at freed ⊢
    exact freed
  kept _ raw := absurd (raw.symm.trans (sound.accepted_of_event event)) Bool.false_ne_true
  unhanded unhanded := absurd ((sound.unhanded unhanded).1.symm.trans
    (sound.accepted_of_event event)) Bool.false_ne_true
  taken := sound.taken
  closed := sound.closed
  event := sound.event

/-- The accept callback gets the connection. -/
theorem Sound.hand (sound : tc.Sound refs (waiting + 1)) :
    { tc with handed := true : TcpConnection }.Sound refs waiting ∧ tc.handed = false := by
  have unhanded : tc.handed = false := by
    cases handed : tc.handed with
    | false => rfl
    | true => exact absurd (sound.taken handed) (Nat.succ_ne_zero waiting)
  obtain ⟨raw, uncalled, once⟩ := sound.unhanded unhanded
  refine ⟨?_, unhanded⟩
  exact {
    raw := sound.raw
    count := sound.count
    freed := sound.freed
    kept := fun _ _ => by
      show tc.freed = 0
      omega
    unhanded := fun handed => absurd handed.symm Bool.false_ne_true
    taken := fun _ => by omega
    closed := sound.closed
    event := sound.event }

/-- The connection is freed, since the listener is being destroyed. -/
theorem Sound.lose (sound : tc.Sound refs (waiting + 1)) :
    { tc with freed := tc.freed + 1 : TcpConnection }.Sound refs waiting := by
  have unhanded := sound.hand.2
  obtain ⟨raw, uncalled, once⟩ := sound.unhanded unhanded
  exact {
    raw := sound.raw
    count := sound.count
    freed := fun accepted => absurd (raw.symm.trans accepted) Bool.false_ne_true
    kept := fun handed => absurd (unhanded.symm.trans handed) Bool.false_ne_true
    unhanded := fun _ => ⟨raw, uncalled, by
      show waiting + (tc.freed + 1) = 1
      omega⟩
    taken := fun handed => absurd (unhanded.symm.trans handed) Bool.false_ne_true
    closed := sound.closed
    event := sound.event }

theorem Sound.accept (sound : tc.Sound refs waiting) (success : Bool) :
    (tc.accept success).Sound refs waiting := by
  unfold TcpConnection.accept
  split
  case isFalse => exact sound
  case isTrue fresh =>
    obtain ⟨handed, raw, uncalled⟩ := fresh
    obtain ⟨none, event, count⟩ := sound.raw raw
    have owner : tc.owner = 1 := by rw [TcpConnection.owner, uncalled]; rfl
    exact {
      raw := fun raw => absurd raw.symm Bool.false_ne_true
      count := fun _ => by
        show (1 : Int) = tc.owner + refs
        omega
      freed := fun _ => by
        show tc.freed = if tc.owner + refs = 0 then 1 else 0
        rw [sound.kept handed raw, if_neg (by omega)]
      kept := fun _ raw => absurd raw.symm Bool.false_ne_true
      unhanded := fun unhanded => absurd (unhanded.symm.trans handed) Bool.false_ne_true
      taken := sound.taken
      closed := sound.closed
      event := fun _ => by
        show tc.destroyCall ≠ .returned
        rw [uncalled]
        decide }

/-- The second half of `sbfTcpConnection_destroy`. -/
theorem Sound.destroy_closed (sound : tc.Sound refs waiting) (called : tc.destroyCall = .closed) :
    { tc with mEvent := false, destroyCall := .returned : TcpConnection }.drop.Sound refs
      waiting := by
  have owner : tc.owner = 1 := by rw [TcpConnection.owner, called]; rfl
  have handed : tc.handed = true := by
    cases handed : tc.handed with
    | true => rfl
    | false => exact absurd (called.symm.trans (sound.unhanded handed).2.1) (by decide)
  exact {
    raw := fun raw => by
      obtain ⟨none, event, count⟩ := sound.raw raw
      rw [called] at count
      refine ⟨none, rfl, ?_⟩
      show tc.mRefCount - 1 = -1
      rw [count]
      rfl
    count := fun accepted => by
      have count := sound.count accepted
      show tc.mRefCount - 1 = (0 : Nat) + refs
      omega
    freed := fun accepted => by
      have count := sound.count accepted
      have freed := sound.freed accepted
      show (if tc.mRefCount - 1 = 0 then tc.freed + 1 else tc.freed) = if 0 + refs = 0 then 1 else 0
      rw [if_neg (by omega)] at freed
      split <;> split <;> omega
    kept := fun _ raw => by
      obtain ⟨none, event, count⟩ := sound.raw raw
      rw [called] at count
      show (if tc.mRefCount - 1 = 0 then tc.freed + 1 else tc.freed) = 0
      rw [count, sound.kept handed raw]
      rfl
    unhanded := fun unhanded => absurd (unhanded.symm.trans handed) Bool.false_ne_true
    taken := sound.taken
    closed := by
      show tc.closed = 1
      rw [sound.closed, called]
      rfl
    event := fun event => absurd event Bool.false_ne_true }

theorem Sound.destroy (sound : tc.Sound refs waiting) : tc.destroy.Sound refs waiting := by
  unfold TcpConnection.destroy
  cases called : tc.destroyCall with
  | returned => exact sound
  | closed => exact sound.destroy_closed called
  | uncalled =>
      dsimp only
      cases handed : tc.handed with
      | false => exact sound
      | true =>
          have owner : tc.owner = 1 := by rw [TcpConnection.owner, called]; rfl
          exact {
            raw := fun raw => by
              obtain ⟨none, event, count⟩ := sound.raw raw
              rw [called] at count
              exact ⟨none, event, count⟩
            count := fun accepted => by
              have count := sound.count accepted
              show tc.mRefCount = (1 : Nat) + refs
              omega
            freed := fun accepted => by
              have freed := sound.freed accepted
              rw [owner] at freed
              exact freed
            kept := fun _ => sound.kept handed
            unhanded := fun unhanded => absurd unhanded.symm Bool.false_ne_true
            taken := fun _ => sound.taken handed
            closed := by
              show tc.closed + 1 = 1
              rw [sound.closed, called]
              rfl
            event := fun _ => by
              show TcpDestroy.closed ≠ .returned
              decide }

/-- What the accept callback did not get is not destroyed by the user. -/
theorem Sound.destroy_unhanded (sound : tc.Sound refs waiting)
    (unhanded : tc.destroy.handed = false) :
    tc.handed = false ∧ tc.destroy.freed = tc.freed := by
  unfold TcpConnection.destroy at unhanded ⊢
  cases called : tc.destroyCall with
  | returned => exact ⟨by rwa [called] at unhanded, rfl⟩
  | closed =>
      rw [called] at unhanded
      exact absurd (called.symm.trans (sound.unhanded unhanded).2.1) (by decide)
  | uncalled =>
      cases handed : tc.handed with
      | false => exact ⟨rfl, rfl⟩
      | true =>
          simp only [called, handed, if_true] at unhanded
          exact nomatch unhanded

end TcpConnection

namespace TcpNetwork

/-- How many items have a reference to the connection. -/
def refs (net : TcpNetwork) (number : Nat) : Nat :=
  (net.items ++ net.running).countP (·.holds number)

def listenerRefs (net : TcpNetwork) : Nat := (net.items ++ net.running).countP (·.holdsListener)

/-- How many items wait for the accept callback with the connection. -/
def waiting (net : TcpNetwork) (number : Nat) : Nat := net.items.count (.accept number)

/-- What holds whatever is called, and in whatever order. -/
structure Sound (net : TcpNetwork) : Prop where
  listener : net.listener.Sound net.listenerRefs
  connections : ∀ number tc, net.connections number = some tc →
    tc.Sound (net.refs number) (net.waiting number)
  unmade : ∀ number, net.made ≤ number → net.connections number = none
  absent : ∀ number, net.connections number = none → net.refs number = 0 ∧ net.waiting number = 0
  lost : ∀ number tc, net.connections number = some tc → tc.handed = false → tc.freed ≠ 0 →
    net.listener.mDestroyed = true

variable {net after : TcpNetwork} {number : Nat} {tc tc' : TcpConnection} {item : TcpItem}

section Modify

variable (change : TcpConnection → TcpConnection)

theorem modify_some (found : net.connections number = some tc) :
    net.modify number change =
      { net with connections := Function.update net.connections number (some (change tc)) } := by
  rw [modify, found]

theorem modify_none (absent : net.connections number = none) : net.modify number change = net := by
  rw [modify, absent]

end Modify

theorem create_sound : create.Sound where
  listener := ⟨rfl, rfl, nofun⟩
  connections _ _ found := nomatch found
  unmade _ _ := rfl
  absent _ _ := ⟨rfl, rfl⟩
  lost _ _ found := nomatch found

variable (after) in
/-- A step that changes no connection, nor what has a reference to one. -/
theorem Sound.of_same (sound : net.Sound) (connections : after.connections = net.connections)
    (made : after.made = net.made) (refs : ∀ number, after.refs number = net.refs number)
    (waiting : ∀ number, after.waiting number = net.waiting number)
    (marked : net.listener.mDestroyed = true → after.listener.mDestroyed = true)
    (listener : after.listener.Sound after.listenerRefs) : after.Sound where
  listener := listener
  connections number tc found := by
    rw [refs, waiting]
    exact sound.connections number tc (connections ▸ found)
  unmade number large := by
    rw [connections]
    exact sound.unmade number (made ▸ large)
  absent number absent := by
    rw [refs, waiting]
    exact sound.absent number (connections ▸ absent)
  lost number tc found unhanded freed :=
    marked (sound.lost number tc (connections ▸ found) unhanded freed)

variable (after) in
/-- A step that changes one connection, and what has a reference to it. -/
theorem Sound.of_update (sound : net.Sound)
    (connections : after.connections = Function.update net.connections number (some tc'))
    (made : net.made ≤ after.made) (small : number < after.made)
    (refs : ∀ other, other ≠ number → after.refs other = net.refs other)
    (waiting : ∀ other, other ≠ number → after.waiting other = net.waiting other)
    (own : tc'.Sound (after.refs number) (after.waiting number))
    (marked : net.listener.mDestroyed = true → after.listener.mDestroyed = true)
    (lost : tc'.handed = false → tc'.freed ≠ 0 → after.listener.mDestroyed = true)
    (listener : after.listener.Sound after.listenerRefs) : after.Sound where
  listener := listener
  connections other tc found := by
    rw [connections] at found
    by_cases same : other = number
    · subst same
      rw [Function.update_self, Option.some.injEq] at found
      exact found ▸ own
    · rw [Function.update_of_ne same] at found
      rw [refs other same, waiting other same]
      exact sound.connections other tc found
  unmade other large := by
    have apart : other ≠ number := by omega
    rw [connections, Function.update_of_ne apart]
    exact sound.unmade other (by omega)
  absent other absent := by
    rw [connections] at absent
    by_cases same : other = number
    · subst same
      rw [Function.update_self] at absent
      exact nomatch absent
    · rw [Function.update_of_ne same] at absent
      rw [refs other same, waiting other same]
      exact sound.absent other absent
  lost other tc found unhanded freed := by
    rw [connections] at found
    by_cases same : other = number
    · subst same
      rw [Function.update_self, Option.some.injEq] at found
      subst found
      exact lost unhanded freed
    · rw [Function.update_of_ne same] at found
      exact marked (sound.lost other tc found unhanded freed)

theorem Sound.made_of_some (sound : net.Sound) (found : net.connections number = some tc) :
    number < net.made := by
  by_contra large
  rw [sound.unmade number (Nat.le_of_not_lt large)] at found
  exact nomatch found

section Calls

/-- A call of the user that changes a connection. -/
theorem Sound.modify (sound : net.Sound) (change : TcpConnection → TcpConnection)
    (keeps : ∀ tc, net.connections number = some tc →
      tc.Sound (net.refs number) (net.waiting number) →
      (change tc).Sound (net.refs number) (net.waiting number))
    (lost : ∀ tc, net.connections number = some tc → (change tc).handed = false →
      tc.handed = false ∧ (change tc).freed = tc.freed) : (net.modify number change).Sound := by
  cases found : net.connections number with
  | none => rwa [modify_none change found]
  | some tc =>
      rw [modify_some change found]
      have own := sound.connections number tc found
      apply Sound.of_update _ sound
      · rfl
      · exact Nat.le_refl _
      · exact sound.made_of_some found
      · exact fun _ _ => rfl
      · exact fun _ _ => rfl
      · exact keeps tc found own
      · exact id
      · intro unhanded freed
        obtain ⟨before, same⟩ := lost tc found unhanded
        exact sound.lost number tc found before (same ▸ freed)
      · exact sound.listener

theorem Sound.accept (sound : net.Sound) (success : Bool) : (net.accept number success).Sound := by
  apply sound.modify
  · exact fun tc _ own => own.accept success
  · intro tc _ unhanded
    unfold TcpConnection.accept at unhanded ⊢
    split
    · next fresh =>
        rw [if_pos fresh] at unhanded
        exact ⟨unhanded, rfl⟩
    · next fresh =>
        rw [if_neg fresh] at unhanded
        exact ⟨unhanded, rfl⟩

theorem Sound.destroy (sound : net.Sound) : (net.destroy number).Sound := by
  apply sound.modify
  · exact fun tc _ own => own.destroy
  · intro tc found unhanded
    exact (sound.connections number tc found).destroy_unhanded unhanded

end Calls

section Listener

theorem Sound.destroyListener (sound : net.Sound) : net.destroyListener.Sound := by
  unfold TcpNetwork.destroyListener
  cases destroyed : net.listener.mDestroyed with
  | false =>
      apply Sound.of_same _ sound
      · rfl
      · rfl
      · exact fun _ => rfl
      · exact fun _ => rfl
      · exact fun _ => rfl
      · exact sound.listener.mark
  | true =>
      cases listening : net.listener.mListener with
      | false => exact sound
      | true =>
          apply Sound.of_same _ sound
          · rfl
          · rfl
          · exact fun _ => rfl
          · exact fun _ => rfl
          · exact id
          · exact sound.listener.close listening destroyed

theorem Sound.listenerEventCb (sound : net.Sound) : net.listenerEventCb.Sound := by
  unfold TcpNetwork.listenerEventCb
  cases listening : net.listener.mListener with
  | false => exact sound
  | true =>
      have absent := sound.absent net.made (sound.unmade _ (Nat.le_refl _))
      have refs : (net.items ++ net.running).countP (TcpItem.holds net.made) = 0 := absent.1
      have waiting : net.items.count (.accept net.made) = 0 := absent.2
      rw [if_pos rfl]
      apply Sound.of_update _ sound
      · rfl
      · exact Nat.le_succ _
      · exact Nat.lt_succ_self _
      · intro other apart
        exact TcpItem.countP_queued ..
      · intro other apart
        have count := TcpItem.count_queued (.accept other) (.accept net.made) net.items
        rw [if_neg (fun same => apart (TcpItem.accept.inj same).symm)] at count
        exact count
      · show TcpConnection.wrap.Sound
          ((net.items ++ [TcpItem.accept net.made] ++ net.running).countP (TcpItem.holds net.made))
          ((net.items ++ [TcpItem.accept net.made]).count (.accept net.made))
        rw [TcpItem.countP_queued, TcpItem.count_queued, if_pos rfl, refs, waiting]
        exact TcpConnection.wrap_sound
      · exact id
      · exact fun _ freed => absurd rfl freed
      · show TcpListener.Sound _
          ((net.items ++ [TcpItem.accept net.made] ++ net.running).countP TcpItem.holdsListener)
        rw [TcpItem.countP_queued]
        exact sound.listener.increment listening

end Listener

section Events

/-- A callback of the bufferevent enqueues an item with a reference to the connection. -/
theorem Sound.enqueue (sound : net.Sound) (found : net.connections number = some tc)
    (queues : ∀ refs waiting, tc.Sound refs waiting → tc'.Sound (refs + 1) waiting)
    (handed : tc'.handed = tc.handed) (freed : tc'.freed = tc.freed)
    (holds : ∀ other, item.holds other = decide (number = other))
    (unlistening : item.holdsListener = false) (ready : ∀ other, item ≠ .accept other) :
    { net with
      connections := Function.update net.connections number (some tc')
      items := net.items ++ [item] : TcpNetwork }.Sound := by
  apply Sound.of_update _ sound
  · rfl
  · exact Nat.le_refl _
  · exact sound.made_of_some found
  · intro other apart
    have count := TcpItem.countP_queued (TcpItem.holds other) item net.items net.running
    rw [holds, if_neg (by simpa using apart.symm)] at count
    exact count
  · intro other apart
    have count := TcpItem.count_queued (.accept other) item net.items
    rw [if_neg (ready other)] at count
    exact count
  · show tc'.Sound ((net.items ++ [item] ++ net.running).countP (TcpItem.holds number))
      ((net.items ++ [item]).count (.accept number))
    rw [TcpItem.countP_queued, TcpItem.count_queued, holds, if_neg (ready number)]
    simp only [decide_true, if_true]
    exact queues _ _ (sound.connections number tc found)
  · exact id
  · intro unhanded gone
    exact sound.lost number tc found (handed ▸ unhanded) (freed ▸ gone)
  · show TcpListener.Sound _ ((net.items ++ [item] ++ net.running).countP TcpItem.holdsListener)
    rw [TcpItem.countP_queued, unlistening]
    exact sound.listener

theorem Sound.readCb (sound : net.Sound) : (net.readCb number).Sound := by
  unfold TcpNetwork.readCb
  cases found : net.connections number with
  | none => exact sound
  | some tc =>
      dsimp only
      split
      case isFalse => exact sound
      case isTrue reads =>
        have event : tc.mEvent = true := (Bool.and_eq_true_iff.mp reads).1
        apply sound.enqueue found
        · exact fun refs waiting own => (own.increment event).requeue true
        · rfl
        · rfl
        · exact fun other => rfl
        · rfl
        · exact fun other same => nomatch same

theorem Sound.eventCb (sound : net.Sound) (connected : Bool) :
    (net.eventCb number connected).Sound := by
  unfold TcpNetwork.eventCb
  cases found : net.connections number with
  | none => exact sound
  | some tc =>
      dsimp only
      split
      case isFalse => exact sound
      case isTrue event =>
        apply sound.enqueue found
        · exact fun refs waiting own => own.increment event
        · rfl
        · rfl
        · intro other
          cases connected <;> rfl
        · cases connected <;> rfl
        · intro other same
          cases connected <;> exact nomatch same

end Events

section Items

/-- A callback that drops the reference to its connection returns. -/
theorem Sound.finish_connection (sound : net.Sound) (there : item ∈ net.running)
    (holds : ∀ other, item.holds other = decide (number = other))
    (unlistening : item.holdsListener = false) (change : TcpConnection → TcpConnection)
    (drops : ∀ tc refs waiting, tc.Sound (refs + 1) waiting → (change tc).Sound refs waiting)
    (handed : ∀ tc, (change tc).handed = tc.handed) :
    ({ net with running := net.running.erase item : TcpNetwork }.modify number change).Sound := by
  have refs : ∀ other, net.refs other =
      (net.items ++ net.running.erase item).countP (TcpItem.holds other) +
        if item.holds other then 1 else 0 :=
    fun other => TcpItem.countP_finished (TcpItem.holds other) net.items there
  have listenerRefs : net.listenerRefs =
      (net.items ++ net.running.erase item).countP TcpItem.holdsListener := by
    have count := TcpItem.countP_finished TcpItem.holdsListener net.items there
    rw [unlistening] at count
    exact count
  cases found : net.connections number with
  | none =>
      have none := (sound.absent number found).1
      rw [refs, holds] at none
      simp at none
  | some tc =>
      simp only [TcpNetwork.modify, found]
      have own := sound.connections number tc found
      rw [refs, holds] at own
      simp only [decide_true, if_true] at own
      apply Sound.of_update _ sound
      · rfl
      · exact Nat.le_refl _
      · exact sound.made_of_some found
      · intro other apart
        have count := refs other
        rw [holds, if_neg (by simpa using apart.symm)] at count
        exact count.symm
      · exact fun _ _ => rfl
      · exact drops tc _ _ own
      · exact id
      · intro unhanded gone
        have accepted := own.accepted_of_refs
        rw [handed] at unhanded
        exact absurd ((own.unhanded unhanded).1.symm.trans accepted) Bool.false_ne_true
      · show net.listener.Sound
          ((net.items ++ net.running.erase item).countP TcpItem.holdsListener)
        rw [← listenerRefs]
        exact sound.listener

/-- A callback that drops its reference to the listener returns. -/
theorem Sound.finish_listener (sound : net.Sound) (there : item ∈ net.running)
    (holds : ∀ other, item.holds other = false) (listening : item.holdsListener = true) :
    { net with
      running := net.running.erase item
      listener := net.listener.drop : TcpNetwork }.Sound := by
  apply Sound.of_same _ sound
  · rfl
  · rfl
  · intro other
    have count := TcpItem.countP_finished (TcpItem.holds other) net.items there
    rw [holds] at count
    exact count.symm
  · exact fun _ => rfl
  · exact id
  · have count := TcpItem.countP_finished TcpItem.holdsListener net.items there
    rw [if_pos listening] at count
    have listener := sound.listener
    rw [listenerRefs, count] at listener
    exact listener.drop

theorem Sound.finish (sound : net.Sound) : (net.finish item).Sound := by
  unfold TcpNetwork.finish
  split
  case isFalse => exact sound
  case isTrue there =>
    cases item with
    | listenerReady => exact sound.finish_listener there (fun _ => rfl) rfl
    | accept number => exact sound.finish_listener there (fun _ => rfl) rfl
    | ready number =>
        exact sound.finish_connection there (fun _ => rfl) rfl _ (fun _ _ _ own => own.drop)
          (fun _ => rfl)
    | error number =>
        exact sound.finish_connection there (fun _ => rfl) rfl _ (fun _ _ _ own => own.drop)
          (fun _ => rfl)
    | read number =>
        apply sound.finish_connection there (fun _ => rfl) rfl
        · exact fun _ _ _ own => own.readDone
        · intro tc
          unfold TcpConnection.readDone
          split <;> rfl

/-- A callback starts that is not the accept callback. -/
theorem Sound.start (sound : net.Sound) (there : item ∈ net.items)
    (ready : ∀ other, item ≠ .accept other) :
    { net with
      items := net.items.erase item
      running := net.running ++ [item] : TcpNetwork }.Sound := by
  apply Sound.of_same _ sound
  · rfl
  · rfl
  · exact fun other => TcpItem.countP_started (TcpItem.holds other) there
  · intro other
    have count := TcpItem.count_taken (.accept other) there
    rw [if_neg (ready other)] at count
    exact count.symm
  · exact id
  · show net.listener.Sound
      ((net.items.erase item ++ (net.running ++ [item])).countP TcpItem.holdsListener)
    rw [TcpItem.countP_started TcpItem.holdsListener there]
    exact sound.listener

/-- A connection that waits for its accept callback is there. -/
theorem Sound.found_of_accept (sound : net.Sound) (there : .accept number ∈ net.items) :
    ∃ tc, net.connections number = some tc := by
  cases found : net.connections number with
  | some tc => exact ⟨tc, rfl⟩
  | none =>
      have none : net.items.count (.accept number) = 0 := (sound.absent number found).2
      exact absurd there (List.count_eq_zero.mp none)

theorem waiting_taken (there : .accept number ∈ net.items) (other : Nat) :
    net.waiting other = (net.items.erase (.accept number)).count (.accept other) +
      if number = other then 1 else 0 := by
  have count := TcpItem.count_taken (.accept other) there
  simp only [TcpItem.accept.injEq] at count
  exact count

/-- The accept callback gets its connection. -/
theorem Sound.hand (sound : net.Sound) (there : .accept number ∈ net.items)
    (found : net.connections number = some tc) :
    { net with
      connections := Function.update net.connections number (some { tc with handed := true })
      items := net.items.erase (.accept number)
      running := net.running ++ [.accept number] : TcpNetwork }.Sound := by
  have own := sound.connections number tc found
  rw [waiting_taken there, if_pos rfl] at own
  apply Sound.of_update _ sound
  · rfl
  · exact Nat.le_refl _
  · exact sound.made_of_some found
  · exact fun other _ => TcpItem.countP_started (TcpItem.holds other) there
  · intro other apart
    have count := waiting_taken there other
    rw [if_neg apart.symm] at count
    exact count.symm
  · show TcpConnection.Sound _ ((net.items.erase (TcpItem.accept number) ++
      (net.running ++ [TcpItem.accept number])).countP (TcpItem.holds number)) _
    rw [TcpItem.countP_started (TcpItem.holds number) there]
    exact own.hand.1
  · exact id
  · exact fun unhanded => absurd unhanded.symm Bool.false_ne_true
  · show net.listener.Sound ((net.items.erase (TcpItem.accept number) ++
      (net.running ++ [TcpItem.accept number])).countP TcpItem.holdsListener)
    rw [TcpItem.countP_started TcpItem.holdsListener there]
    exact sound.listener

/-- A connection that comes too late for the listener is freed. -/
theorem Sound.lose (sound : net.Sound) (there : .accept number ∈ net.items)
    (found : net.connections number = some tc) (destroyed : net.listener.mDestroyed = true) :
    { net with
      listener := net.listener.drop
      connections := Function.update net.connections number (some { tc with freed := tc.freed + 1 })
      items := net.items.erase (.accept number) : TcpNetwork }.Sound := by
  have own := sound.connections number tc found
  rw [waiting_taken there, if_pos rfl] at own
  have refs : ∀ other, net.refs other =
      (net.items.erase (.accept number) ++ net.running).countP (TcpItem.holds other) :=
    fun other => TcpItem.countP_taken (TcpItem.holds other) there
  have listenerRefs : net.listenerRefs =
      (net.items.erase (.accept number) ++ net.running).countP TcpItem.holdsListener + 1 :=
    TcpItem.countP_taken TcpItem.holdsListener there
  apply Sound.of_update _ sound
  · rfl
  · exact Nat.le_refl _
  · exact sound.made_of_some found
  · exact fun other _ => (refs other).symm
  · intro other apart
    have count := waiting_taken there other
    rw [if_neg apart.symm] at count
    exact count.symm
  · rw [refs] at own
    exact own.lose
  · exact id
  · exact fun _ _ => destroyed
  · have listener := sound.listener
    rw [listenerRefs] at listener
    exact listener.drop

theorem Sound.dispatch (sound : net.Sound) : (net.dispatch item).Sound := by
  unfold TcpNetwork.dispatch
  split
  case isFalse => exact sound
  case isTrue there =>
    cases item with
    | listenerReady => exact sound.start there (fun _ same => nomatch same)
    | ready tc => exact sound.start there (fun _ same => nomatch same)
    | error tc => exact sound.start there (fun _ same => nomatch same)
    | read tc => exact sound.start there (fun _ same => nomatch same)
    | accept number =>
        obtain ⟨tc, found⟩ := sound.found_of_accept there
        cases destroyed : net.listener.mDestroyed with
        | false =>
            simp only [Bool.not_false, if_true, TcpNetwork.modify, found]
            exact sound.hand there found
        | true =>
            simp only [Bool.not_true, Bool.false_eq_true, if_false, TcpNetwork.modify, found]
            exact sound.lose there found destroyed

end Items

/-- Every step, whatever is called, keeps the counts. -/
theorem Sound.step (sound : net.Sound) (action : Action) : (step action net).Sound := by
  cases action with
  | listenerEventCb => exact sound.listenerEventCb
  | dispatch item => exact sound.dispatch
  | finish item => exact sound.finish
  | accept number success => exact sound.accept success
  | destroy number => exact sound.destroy
  | readCb number => exact sound.readCb
  | eventCb number connected => exact sound.eventCb connected
  | destroyListener => exact sound.destroyListener

end TcpNetwork

end Sbf
