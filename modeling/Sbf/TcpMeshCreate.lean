import Mathlib.Data.List.Forall2
import Sbf.KeyValue
import Sbf.NumberString
import Sbf.ParseAddress

set_option autoImplicit false

/-! The ports that a mesh is configured with. -/

namespace Sbf.TcpMesh

open Octets
open Interface (colon afInet)
open NumberString (IsInteger)

/-- `SBF_TCP_MESH_HANDLER_DEFAULT_PORT` -/
def defaultPort : UInt16 := 12222

/-- A `sbfTcpMeshHandlerConnection`, by where it goes to. -/
structure Connection where
  mHost : CString
  mPort : UInt16

/-- A `sbfTcpMeshHandler`, by the address that its listener is bound to and by its
connections. -/
structure Handler where
  mListener : Option SockaddrIn
  mConnections : List Connection

theorem listen_plain :
    0 ∉ ([116, 99, 112, 109, 101, 115, 104, 46, 108, 105, 115, 116, 101, 110] : Bytes) := by decide

/-- `tcpmesh.listen` -/
def listenKey : CString :=
  ⟨[116, 99, 112, 109, 101, 115, 104, 46, 108, 105, 115, 116, 101, 110], listen_plain⟩

/-- The text of `tcpmesh.connect%u`. -/
def connectText (i : Nat) : Bytes :=
  [116, 99, 112, 109, 101, 115, 104, 46, 99, 111, 110, 110, 101, 99, 116] ++ writeNumber 10 0 i

theorem connect_plain (i : Nat) : 0 ∉ connectText i := by
  intro zero
  cases List.mem_append.mp zero with
  | inl front => exact absurd front (by decide)
  | inr number =>
      have digit := isDigit_writeNumber (by decide : 1 < 10) (by decide) 0 i 0 number
      cases digit

def connectKey (i : Nat) : CString := ⟨connectText i, connect_plain i⟩

/-- The port to listen at, zero for none. -/
def listenPort (properties : KeyValue) : Option UInt64 :=
  match properties.get listenKey with
  | none => some defaultPort.toUInt64
  | some value =>
      let (port, endptr) := strtoul value.chars
      if 65536 < port ∨ endptr ≠ [] then none else some port

/-- The listener. `binds` says where `evconnlistener_new_bind` succeeds. -/
def listen (properties : KeyValue) (binds : SockaddrIn → Bool) : Option (Option SockaddrIn) :=
  match listenPort properties with
  | none => none
  | some port =>
      if port ≠ 0 then
        let sin : SockaddrIn := ⟨afInet, ntohs port.toUInt16, 0⟩
        if binds sin then some (some sin) else none
      else some none

/-- The connection to a host and port. -/
def connection (host : CString) : Option Connection :=
  match host.behind colon with
  | none => some ⟨host, defaultPort⟩
  | some text =>
      let (port, endptr) := strtoul text.chars
      if port = 0 ∨ 65536 < port ∨ endptr ≠ [] then none
      else some ⟨host.upTo colon, port.toUInt16⟩

/-- The loop over the connections. -/
def connect (properties : KeyValue) : List Nat → List Connection → Option (List Connection)
  | [], mConnections => some mConnections
  | i :: rest, mConnections =>
      match properties.get (connectKey i) with
      | none => connect properties rest mConnections
      | some host =>
          match connection host with
          | none => none
          | some c => connect properties rest (mConnections ++ [c])

/-- `sbfTcpMeshHandlerCreate` -/
def create (properties : KeyValue) (binds : SockaddrIn → Bool) : Option Handler :=
  match listen properties binds with
  | none => none
  | some mListener =>
      (connect properties (List.range 65535) []).map fun mConnections =>
        ⟨mListener, mConnections⟩

/-- The values of the keys `tcpmesh.connect0` to `tcpmesh.connect65534` that there are. -/
def hosts (properties : KeyValue) : List CString :=
  (List.range 65535).filterMap fun i => properties.get (connectKey i)

/-- The connection goes to the host and port that the text gives. -/
def GoesTo (c : Connection) (host : CString) : Prop :=
  c.mHost = host.upTo colon ∧
    match host.behind colon with
    | none => c.mPort = defaultPort
    | some text => IsInteger text c.mPort.toNat

/-- The listener and the connections have the ports that the table gives. -/
def Configured (properties : KeyValue) (handler : Handler) : Prop :=
  (∀ sin, handler.mListener = some sin →
    match properties.get listenKey with
    | none => ntohs sin.sin_port = defaultPort
    | some value => IsInteger value (ntohs sin.sin_port).toNat) ∧
  List.Forall₂ GoesTo handler.mConnections (hosts properties)

/-- The number that the text is, if it is one, is no less than 0 and below 65536. -/
def InRange (text : CString) : Prop := ∀ n, IsInteger text n → 0 ≤ n ∧ n ≤ 65535

/-- The ports that are given are. -/
def PortsInRange (properties : KeyValue) : Prop :=
  (∀ value, properties.get listenKey = some value → InRange value) ∧
    ∀ host ∈ hosts properties, ∀ text, host.behind colon = some text → InRange text

section Numbers

variable {text : CString} {port : UInt64}

/-- A number that passes the check is narrowed to itself just when it is in range. -/
theorem narrow_iff {numeral : Numeral} (some_ : numeral.toUnsigned 10 ≠ 0)
    (passes : numeral.toUnsigned 10 ≤ 65536) :
    ((numeral.toUnsigned 10).toUInt16.toNat : Int) = numeral.toInt 10 ↔
      0 ≤ numeral.toInt 10 ∧ numeral.toInt 10 ≤ 65535 := by
  rw [UInt64.le_iff_toNat_le] at passes
  have nonzero : (numeral.toUnsigned 10).toNat ≠ 0 := fun zero => some_ (UInt64.toNat_inj.mp zero)
  rw [UInt64.toNat_toUInt16]
  revert passes nonzero
  unfold Numeral.toUnsigned Numeral.toInt
  dsimp only
  generalize magnitude 10 numeral.digits = n
  by_cases large : 2 ^ 64 ≤ n
  · rw [if_pos large]
    intro passes
    exact absurd passes (by decide)
  · rw [if_neg large]
    cases numeral.negative with
    | true =>
        simp only [↓reduceIte]
        rw [UInt64.toNat_sub, UInt64.toNat_ofNat', Nat.mod_eq_of_lt (Nat.not_le.mp large)]
        change (2 ^ 64 - n + 0) % 2 ^ 64 ≤ 65536 → (2 ^ 64 - n + 0) % 2 ^ 64 ≠ 0 → _
        intro _ nonzero
        have positive : 0 < n := by
          by_contra zero
          have same : n = 0 := by omega
          rw [same] at nonzero
          exact nonzero rfl
        omega
    | false =>
        simp only [Bool.false_eq_true, ↓reduceIte, UInt64.toNat_ofNat',
          Nat.mod_eq_of_lt (Nat.not_le.mp large)]
        change n ≤ 65536 → _
        omega

theorem strtoul_integer (read : strtoul text.chars = (port, [])) (some_ : port ≠ 0) :
    ∃ numeral, Spelled 10 text.chars numeral [] ∧ port = numeral.toUnsigned 10 := by
  unfold strtoul at read
  split at read
  · exact absurd (Prod.mk.inj read).1.symm some_
  · rename_i numeral rest whole
    cases read
    exact ⟨numeral, (readNumeral_ten_iff.mp whole).1, rfl⟩

theorem spelled_unique {left right : Numeral} (one : Spelled 10 text.chars left [])
    (two : Spelled 10 text.chars right []) : left = right := by
  have first := readNumeral_ten_iff.mpr ⟨one, nofun⟩
  have second := readNumeral_ten_iff.mpr ⟨two, nofun⟩
  rw [first] at second
  cases second
  rfl

theorem port_iff (read : strtoul text.chars = (port, [])) (some_ : port ≠ 0)
    (passes : port ≤ 65536) : IsInteger text port.toUInt16.toNat ↔ InRange text := by
  obtain ⟨numeral, spelled, rfl⟩ := strtoul_integer read some_
  have only : ∀ n, IsInteger text n ↔ n = numeral.toInt 10 := by
    intro n
    constructor
    · rintro ⟨other, spelled', rfl⟩
      rw [spelled_unique spelled' spelled]
    · rintro rfl
      exact ⟨numeral, spelled, rfl⟩
  simp only [InRange, only, forall_eq, narrow_iff some_ passes]

theorem toInt_zero {numeral : Numeral} (zero : numeral.toUnsigned 10 = 0) :
    numeral.toInt 10 = 0 := by
  have nothing : (numeral.toUnsigned 10).toNat = 0 := by
    rw [zero]
    rfl
  have unsigned : magnitude 10 numeral.digits = 0 := by
    revert nothing
    unfold Numeral.toUnsigned
    dsimp only
    generalize magnitude 10 numeral.digits = n
    by_cases large : 2 ^ 64 ≤ n
    · rw [if_pos large]
      intro nothing
      exact absurd nothing (by decide)
    · rw [if_neg large]
      cases numeral.negative with
      | true =>
          simp only [↓reduceIte]
          rw [UInt64.toNat_sub, UInt64.toNat_ofNat', Nat.mod_eq_of_lt (Nat.not_le.mp large)]
          change (2 ^ 64 - n + 0) % 2 ^ 64 = 0 → _
          omega
      | false =>
          simp only [Bool.false_eq_true, ↓reduceIte, UInt64.toNat_ofNat',
            Nat.mod_eq_of_lt (Nat.not_le.mp large)]
          exact id
  simp [Numeral.toInt, unsigned]

theorem zero_inRange {endptr : Bytes} (read : strtoul text.chars = (0, endptr)) : InRange text := by
  rintro n ⟨numeral, spelled, rfl⟩
  have whole := readNumeral_ten_iff.mpr ⟨spelled, nofun⟩
  rw [strtoul, whole] at read
  rw [toInt_zero (Prod.mk.inj read).1]
  decide

end Numbers

section Create

variable {properties : KeyValue} {binds : SockaddrIn → Bool}

theorem connection_some {host : CString} {c : Connection} (made : connection host = some c) :
    GoesTo c host ↔ ∀ text, host.behind colon = some text → InRange text := by
  unfold connection at made
  unfold GoesTo
  cases cut : host.behind colon with
  | none =>
      rw [cut] at made
      cases made
      refine iff_of_true ⟨?_, rfl⟩ nofun
      exact (CString.upTo_whole cut).symm
  | some text =>
      rw [cut] at made
      dsimp only at made
      split at made
      · cases made
      · rename_i passes
        cases made
        obtain ⟨some_, small, whole⟩ := not_or.mp passes |>.imp id not_or.mp
        have read : strtoul text.chars = ((strtoul text.chars).1, []) :=
          Prod.ext rfl (not_not.mp whole)
        simp only [true_and, Option.some.injEq, forall_eq']
        exact port_iff read some_ (UInt64.not_lt.mp small)

/-- The connections are those of the hosts, in the order of their numbers. -/
theorem connect_some {indices : List Nat} {before after : List Connection}
    (run : connect properties indices before = some after) :
    ∃ made, after = before ++ made ∧
      List.Forall₂ (fun c host => connection host = some c) made
        (indices.filterMap fun i => properties.get (connectKey i)) := by
  induction indices generalizing before with
  | nil =>
      cases run
      exact ⟨[], (List.append_nil _).symm, .nil⟩
  | cons i rest ih =>
      rw [connect] at run
      cases found : properties.get (connectKey i) with
      | none =>
          rw [found] at run
          obtain ⟨made, shape, all⟩ := ih run
          refine ⟨made, shape, ?_⟩
          rw [List.filterMap_cons, found]
          exact all
      | some host =>
          rw [found] at run
          dsimp only at run
          cases goes : connection host with
          | none =>
              rw [goes] at run
              cases run
          | some c =>
              rw [goes] at run
              obtain ⟨made, shape, all⟩ := ih run
              refine ⟨c :: made, by rw [shape, List.append_assoc]; rfl, ?_⟩
              rw [List.filterMap_cons, found]
              exact .cons goes all

theorem goesTo_all {connections : List Connection} {hosts : List CString}
    (made : List.Forall₂ (fun c host => connection host = some c) connections hosts) :
    List.Forall₂ GoesTo connections hosts ↔
      ∀ host ∈ hosts, ∀ text, host.behind colon = some text → InRange text := by
  induction made with
  | nil => exact iff_of_true .nil nofun
  | cons goes _ ih => rw [List.forall₂_cons, ih, connection_some goes, List.forall_mem_cons]

/-- The listener has the port that is given just when that is in range. -/
theorem listen_some {mListener : Option SockaddrIn}
    (run : listen properties binds = some mListener) :
    (∀ sin, mListener = some sin →
      match properties.get listenKey with
      | none => ntohs sin.sin_port = defaultPort
      | some value => IsInteger value (ntohs sin.sin_port).toNat) ↔
    ∀ value, properties.get listenKey = some value → InRange value := by
  unfold listen listenPort at run
  cases given : properties.get listenKey with
  | none =>
      rw [given] at run
      refine iff_of_true ?_ nofun
      intro sin same
      subst same
      dsimp only at run
      split at run
      · split at run
        · cases run
          rw [ntohs_ntohs]
          rfl
        · cases run
      · cases run
  | some value =>
      rw [given] at run
      dsimp only at run
      simp only [Option.some.injEq, forall_eq']
      by_cases refused : 65536 < (strtoul value.chars).1 ∨ (strtoul value.chars).2 ≠ []
      · rw [if_pos refused] at run
        cases run
      · rw [if_neg refused] at run
        obtain ⟨small, whole⟩ := not_or.mp refused
        by_cases zero : (strtoul value.chars).1 = 0
        · rw [zero] at run
          cases run
          exact iff_of_true nofun (zero_inRange (Prod.ext zero rfl))
        · dsimp only at run
          rw [if_pos zero] at run
          split at run
          · cases run
            have read : strtoul value.chars = ((strtoul value.chars).1, []) :=
              Prod.ext rfl (not_not.mp whole)
            simp only [Option.some.injEq, forall_eq', ntohs_ntohs]
            exact port_iff read zero (UInt64.not_lt.mp small)
          · cases run

/-- A mesh has the ports that it is configured with just when they are in range: the check
lets 65536 and numbers that are negative through. -/
theorem create_configured_iff {handler : Handler} (made : create properties binds = some handler) :
    Configured properties handler ↔ PortsInRange properties := by
  unfold create at made
  cases listens : listen properties binds with
  | none =>
      rw [listens] at made
      cases made
  | some mListener =>
      rw [listens] at made
      obtain ⟨mConnections, connects, rfl⟩ := Option.map_eq_some_iff.mp made
      obtain ⟨connections, rfl, all⟩ := connect_some connects
      exact and_congr (listen_some listens) (goesTo_all all)

end Create

section Listen

variable (value : CString)

theorem connectKey_ne (i : Nat) : connectKey i ≠ listenKey := by
  intro same
  have chars := congrArg (fun key : CString => key.chars[8]?) same
  cases chars

theorem connectKey_injective : Function.Injective connectKey := by
  intro i j same
  have texts := List.append_cancel_left (congrArg CString.chars same)
  rw [← magnitude_writeNumber (by decide : 1 < 10) (by decide) 0 i, texts, magnitude_writeNumber]
  · decide
  · decide

theorem connect_absent {properties : KeyValue} {indices : List Nat}
    (absent : ∀ i ∈ indices, properties.get (connectKey i) = none) (before : List Connection) :
    connect properties indices before = some before := by
  induction indices with
  | nil => rfl
  | cons i rest ih =>
      rw [connect, absent i List.mem_cons_self]
      exact ih fun other member => absent other (List.mem_cons_of_mem _ member)

/-- A table with `tcpmesh.listen` alone. -/
def listenTable : KeyValue := KeyValue.put RbTree.empty listenKey value

theorem create_listen {sin : Option SockaddrIn}
    (listens : listen (listenTable value) (fun _ => true) = some sin) :
    create (listenTable value) (fun _ => true) = some ⟨sin, []⟩ := by
  have absent : ∀ i ∈ List.range 65535, (listenTable value).get (connectKey i) = none := by
    intro i _
    rw [listenTable, KeyValue.get_put, if_neg (connectKey_ne i)]
    rfl
  rw [create, listens, connect_absent absent]
  rfl

/-- A table with `tcpmesh.connect0` besides. -/
def meshTable (host : CString) : KeyValue :=
  KeyValue.put (listenTable value) (connectKey 0) host

theorem get_meshTable (host : CString) (i : Nat) :
    (meshTable value host).get (connectKey i) = if i = 0 then some host else none := by
  rw [meshTable, KeyValue.get_put]
  by_cases first : i = 0
  · rw [if_pos first, first, if_pos rfl]
  · rw [if_neg first, if_neg fun same => first (connectKey_injective same), listenTable,
      KeyValue.get_put, if_neg (connectKey_ne i)]
    rfl

theorem create_mesh {host : CString} {sin : Option SockaddrIn} {c : Connection}
    (listens : listen (meshTable value host) (fun _ => true) = some sin)
    (goes : connection host = some c) :
    create (meshTable value host) (fun _ => true) = some ⟨sin, [c]⟩ := by
  have absent : ∀ i ∈ (List.range 65534).map Nat.succ,
      (meshTable value host).get (connectKey i) = none := by
    intro i inside
    obtain ⟨j, -, rfl⟩ := List.mem_map.mp inside
    rw [get_meshTable, if_neg (Nat.succ_ne_zero j)]
  have split : List.range 65535 = 0 :: (List.range 65534).map Nat.succ :=
    @List.range_succ_eq_map 65534
  rw [create, listens, split, connect, get_meshTable, if_pos rfl]
  simp only [goes, connect_absent absent]
  rfl

theorem inRange_of_read (numeral : Numeral) (read : readNumeral 10 value.chars = some (numeral, []))
    (low : 0 ≤ numeral.toInt 10) (high : numeral.toInt 10 ≤ 65535) : InRange value := by
  rintro n ⟨other, spelled, rfl⟩
  cases read.symm.trans (readNumeral_ten_iff.mpr ⟨spelled, nofun⟩)
  exact ⟨low, high⟩

/-- The listener is given the port 80, and the connection the port 99 of the host h. -/
theorem create_configured_mesh : ∃ handler,
    create (meshTable ⟨[56, 48], by decide⟩ ⟨[104, 58, 57, 57], by decide⟩) (fun _ => true) =
        some handler ∧
      handler.mConnections = [⟨⟨[104], by decide⟩, 99⟩] ∧
      Configured (meshTable ⟨[56, 48], by decide⟩ ⟨[104, 58, 57, 57], by decide⟩) handler := by
  have made := create_mesh ⟨[56, 48], by decide⟩
    (show listen (meshTable _ ⟨[104, 58, 57, 57], by decide⟩) _ = some (some ⟨afInet, ntohs 80, 0⟩)
      by decide)
    (show connection ⟨[104, 58, 57, 57], by decide⟩ = some ⟨⟨[104], by decide⟩, 99⟩ from rfl)
  refine ⟨_, made, rfl, (create_configured_iff made).mpr ⟨fun value given => ?_, ?_⟩⟩
  · have listens : value = ⟨[56, 48], by decide⟩ := by
      rw [meshTable, KeyValue.get_put, if_neg (connectKey_ne 0).symm, listenTable,
        KeyValue.get_put, if_pos rfl] at given
      exact (Option.some.inj given).symm
    rw [listens]
    exact inRange_of_read _ ⟨false, [56, 48]⟩ (by decide) (by decide) (by decide)
  · intro host inside text behind
    obtain ⟨i, -, given⟩ := List.mem_filterMap.mp inside
    rw [get_meshTable] at given
    split at given
    · cases given
      have port : text = ⟨[57, 57], by decide⟩ := by
        have cut : CString.behind ⟨[104, 58, 57, 57], by decide⟩ colon =
          some ⟨[57, 57], by decide⟩ := by decide
        exact Option.some.inj (behind.symm.trans cut)
      rw [port]
      exact inRange_of_read _ ⟨false, [57, 57]⟩ (by decide) (by decide) (by decide)
    · cases given

/-- 65536 is narrowed to 0. -/
theorem create_narrowed :
    create (listenTable ⟨[54, 53, 53, 51, 54], by decide⟩) (fun _ => true) =
        some ⟨some ⟨afInet, ntohs 0, 0⟩, []⟩ ∧
      ¬ Configured (listenTable ⟨[54, 53, 53, 51, 54], by decide⟩)
        ⟨some ⟨afInet, ntohs 0, 0⟩, []⟩ := by
  refine ⟨create_listen ⟨[54, 53, 53, 51, 54], by decide⟩ (by decide), ?_⟩
  rintro ⟨listens, -⟩
  have given := listens ⟨afInet, ntohs 0, 0⟩ rfl
  rw [listenTable, KeyValue.get_put, if_pos rfl] at given
  obtain ⟨numeral, spelled, value⟩ := given
  have read := readNumeral_ten_iff.mpr ⟨spelled, nofun⟩
  have number : readNumeral 10 [54, 53, 53, 51, 54] = some (⟨false, [54, 53, 53, 51, 54]⟩, []) := by
    decide
  rw [number] at read
  cases read
  exact absurd value (by decide)

end Listen

end Sbf.TcpMesh
