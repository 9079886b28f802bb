import Backhaul.Server.Accept
import Backhaul.Server.ChannelHandler
import Backhaul.Client.Pool

/-!
# The TCP server's connections and requests

Once its control channel is up, the TCP server (part_000) moves user connections and
requests between four kinds of goroutine. `acceptLocalConn` (lines 356–406) queues a user
connection on `localChannel` and then asks for one tunnel connection by a non-blocking send
on `reqNewConnChan`; `channelHandler` (lines 185–237) turns each request into an `SG_Chan`
on the control channel; a handle loop (lines 408–436) takes a user connection and tries the
queued tunnel connections until it has sent the target address on one.

This module runs the accepting and pairing machine of `Server.Accept`, the handler of
`Server.ChannelHandler`, the requests and the handle loops' returns on `ctx.Done()` as one
transition system, with a ghost account of where each connection went. Along every run no
user connection and no tunnel connection is lost or duplicated (`TcpServer.Inv`); a handle
loop that returns while it holds a user connection abandons it, and the account keeps those
apart. The handle loops pair user and tunnel connections one to one, and the server never
writes more `SG_Chan` requests than it queued user connections.

The last section joins this to the client of `Client.Transport`: its control channel delivers
in order what the server's `channelHandler` wrote, so the client's dials beyond its own pool
sizing are bounded by the user connections the server queued.
-/

namespace Backhaul.Server

/-! ## The composed server -/

/-- The user connection a handle loop holds. -/
def PairingPc.user : PairingPc → Option Nat
  | .selecting => none
  | .pairing user => some user

/-- The user connections the handle loops hold. -/
def heldUsers (loops : List PairingPc) : List Nat := loops.filterMap PairingPc.user

/-- Whether a handler action is the `reqNewConnChan` case of `channelHandler`. -/
def HandlerAction.isRequest : HandlerAction → Bool
  | .request _ => true
  | _ => false

/-- The TCP server's goroutines around its control channel: the accepting and pairing
state, `channelHandler`, the `acceptLocalConn` goroutines about to send on
`reqNewConnChan`, and the tokens in it; with a ghost account of the connections. -/
structure TcpServer where
  core : TcpTransport
  handler : ChannelHandler Byte
  /-- `acceptLocalConn` goroutines between their send on `localChannel` and their send on
  `reqNewConnChan`. -/
  requesting : Nat
  /-- Tokens in `reqNewConnChan`. -/
  reqNewConnChan : Nat
  /-- Ghost: the user connections `acceptLocalConn` accepted, in order. -/
  users : List Nat
  /-- Ghost: those it closed because `localChannel` was full. -/
  refused : List Nat
  /-- Ghost: each user connection a handle loop sent the target address for, with the
  tunnel connection it went on. -/
  carried : List (Nat × Conn)
  /-- Ghost: the tunnel connections queued on `tunnelChannel`. -/
  tunnels : List Conn
  /-- Ghost: the tunnel connections `channelHandshake` took. -/
  handshaken : List Conn
  /-- Ghost: the tunnel connections closed after a failed send of the target address. -/
  discarded : List Conn
  /-- The handle loops that returned on `ctx.Done()`. -/
  stopped : List Nat
  /-- Ghost: the user connections those loops held when they returned, neither carried nor
  closed. -/
  abandoned : List Nat
  deriving DecidableEq, Repr

/-- The server once `Start` has started the listener and entered `channelHandshake`;
`channelHandler` will read `units` from the control channel once it runs. -/
def TcpServer.init (channelSize handleLoops : Nat) (units : List Byte) : TcpServer :=
  ⟨TcpTransport.init channelSize handleLoops, ChannelHandler.init units, 0, 0, [], [], [], [],
    [], [], [], []⟩

/-- One atomic action of one goroutine of the TCP server. -/
inductive TcpServerAction
  /-- A step of the accepting and pairing machine. -/
  | core (a : TcpAction)
  /-- An `acceptLocalConn` that queued its connection sends on `reqNewConnChan`, which
  drops the request when the buffer is full. -/
  | request
  /-- Such a send meets `channelHandler` waiting on an empty `reqNewConnChan`, which
  writes `SG_Chan`, with success or not. -/
  | requestHandoff (ok : Bool)
  /-- A step of `channelHandler`; its `reqNewConnChan` case takes a token. -/
  | handler (a : HandlerAction)
  /-- Handle loop `l` returns on `ctx.Done()`, at its outer `select` or while it tries
  tunnel connections for a user connection. -/
  | loopReturn (l : Nat)
  deriving DecidableEq, Repr

/-- Whether the goroutine that takes an action of the pairing machine still runs: a handle
loop that returned takes no more connections. -/
def TcpServer.runs (s : TcpServer) : TcpAction → Bool
  | .loopTake l | .pair l _ => l ∉ s.stopped
  | _ => true

/-- The rest of the server after a step `a` of the accepting and pairing machine from
`s.core` to `core`: a user connection queued on `localChannel` leaves its
`acceptLocalConn` about to request a tunnel connection, and the ghost account follows the
connections. -/
def TcpServer.afterCore (s : TcpServer) (core : TcpTransport) : TcpAction → TcpServer
  | .acceptTunnel conn =>
    if ipAllowed s.core.controlChannel conn ∧ s.core.tunnelChannel.length < s.core.channelSize
    then { s with core := core, tunnels := s.tunnels ++ [conn] }
    else { s with core := core }
  | .handshakeTake => { s with core := core, handshaken := s.handshaken ++ s.core.tunnelChannel.take 1 }
  | .acceptLocal user =>
    if s.core.localChannel.length < s.core.channelSize then
      { s with core := core, users := s.users ++ [user], requesting := s.requesting + 1 }
    else { s with core := core, users := s.users ++ [user], refused := s.refused ++ [user] }
  | .pair l ok =>
    match s.core.loops[l]?, s.core.tunnelChannel with
    | some (.pairing user), conn :: _ =>
      if ok then { s with core := core, carried := s.carried ++ [(user, conn)] }
      else { s with core := core, discarded := s.discarded ++ [conn] }
    | _, _ => { s with core := core }
  | .handshakeRead _ | .loopTake _ => { s with core := core }

/-- The transition function of the TCP server; `none` when the action is not enabled.
`channelHandler` runs once `Start` has seen the handshake return; the context it waits on
is the one the handle loops wait on. -/
def tcpServerStep (s : TcpServer) : TcpServerAction → Option TcpServer
  | .core a => if s.runs a then (tcpStep s.core a).map (s.afterCore · a) else none
  | .request =>
    if 0 < s.requesting then
      some { s with requesting := s.requesting - 1,
                    reqNewConnChan := if s.reqNewConnChan < s.core.channelSize then
                      s.reqNewConnChan + 1 else s.reqNewConnChan }
    else none
  | .requestHandoff ok =>
    if 0 < s.requesting ∧ s.reqNewConnChan = 0 ∧ s.core.handshake.established then
      (handlerStep tcpIsClosed s.handler (.request ok)).map fun h =>
        { s with handler := h, requesting := s.requesting - 1 }
    else none
  | .handler a =>
    if s.core.handshake.established ∧ (a.isRequest → 0 < s.reqNewConnChan) then
      (handlerStep tcpIsClosed s.handler a).map fun h =>
        { s with handler := h,
                 reqNewConnChan := if a.isRequest then s.reqNewConnChan - 1 else s.reqNewConnChan }
    else none
  | .loopReturn l =>
    if s.handler.cancelled ∧ l ∉ s.stopped then
      (s.core.loops[l]?).map fun pc =>
        { s with core := { s.core with loops := s.core.loops.set l .selecting },
                 stopped := s.stopped ++ [l], abandoned := s.abandoned ++ pc.user.toList }
    else none

/-! ## What the steps move -/

theorem filterMap_cons_eq_toList {α β : Type} (f : α → Option β) (a : α) (l : List α) :
    (a :: l).filterMap f = (f a).toList ++ l.filterMap f := by
  cases h : f a <;> simp [List.filterMap_cons, h]

/-- Replacing one element of a list moves what `f` keeps of it. -/
theorem filterMap_set_perm {α β : Type} [DecidableEq β] (f : α → Option β) {l : List α}
    {i : Nat} {y : α} (hl : l[i]? = some y) (x : α) :
    ((l.set i x).filterMap f ++ (f y).toList).Perm (l.filterMap f ++ (f x).toList) := by
  induction l generalizing i with
  | nil => cases hl
  | cons z l ih =>
    cases i with
    | zero =>
      obtain rfl : z = y := by simpa using hl
      rw [List.set_cons_zero, filterMap_cons_eq_toList, filterMap_cons_eq_toList]
      exact List.perm_iff_count.2 fun b => by simp only [List.count_append]; omega
    | succ i =>
      rw [List.set_cons_succ, filterMap_cons_eq_toList, filterMap_cons_eq_toList,
        List.append_assoc, List.append_assoc]
      exact (ih (by simpa using hl)).append_left _

@[simp] theorem heldUsers_nil : heldUsers [] = [] := rfl

/-- The handle loops `channelHandshake` starts hold no user connection. -/
@[simp] theorem heldUsers_replicate (n : Nat) : heldUsers (List.replicate n .selecting) = [] := by
  induction n with
  | zero => rfl
  | succ n ih => rwa [List.replicate_succ, heldUsers, filterMap_cons_eq_toList]

/-- `channelHandler` writes `SG_Chan` exactly in its `reqNewConnChan` case. -/
theorem handlerStep_count_sgChan {α : Type} {isClosed : α → Bool} {h h' : ChannelHandler α}
    {a : HandlerAction} (hstep : handlerStep isClosed h a = some h') :
    h'.sent.count sgChan = h.sent.count sgChan + if a.isRequest then 1 else 0 := by
  cases a <;> simp only [handlerStep] at hstep <;> (repeat' split at hstep) <;>
    (try cases hstep) <;> simp_all [ChannelHandler.write, HandlerAction.isRequest, sgChan, sgHB,
      sgClosed]

/-! ## The account along every run -/

/-- The account of a TCP server. No handle loop runs before the handshake has returned.
Every user connection `acceptLocalConn` accepted was refused, or is parked on
`localChannel`, held by a running handle loop, abandoned by one that returned, or carried,
exactly once; every tunnel connection
queued on `tunnelChannel` is still queued, or went to the handshake, carries a user
connection or was discarded, exactly once. The requests pending or written are at most the
user connections queued. -/
structure TcpServer.Inv (s : TcpServer) : Prop where
  loops : s.core.handshake.established = false → s.core.loops = []
  users : s.users.Perm (s.refused ++ s.core.localChannel ++ heldUsers s.core.loops ++
    s.abandoned ++ s.carried.map Prod.fst)
  tunnels : s.tunnels.Perm
    (s.core.tunnelChannel ++ s.handshaken ++ s.carried.map Prod.snd ++ s.discarded)
  requests : s.reqNewConnChan + s.requesting + s.handler.sent.count sgChan + s.refused.length ≤
    s.users.length

theorem TcpServer.inv_init (channelSize handleLoops : Nat) (units : List Byte) :
    (TcpServer.init channelSize handleLoops units).Inv :=
  ⟨fun _ => rfl, List.Perm.refl _, List.Perm.refl _,
    by simp [TcpServer.init, ChannelHandler.init]⟩

/-- A step of the accepting and pairing machine keeps the account. -/
theorem TcpServer.Inv.afterCore {s : TcpServer} {core : TcpTransport} {a : TcpAction}
    (hs : s.Inv) (hcore : tcpStep s.core a = some core) : (s.afterCore core a).Inv := by
  obtain ⟨hloops, husers, htunnels, hreq⟩ := hs
  cases a with
  | acceptTunnel conn =>
    simp only [tcpStep] at hcore
    by_cases hip : ipAllowed s.core.controlChannel conn
    · rw [if_pos hip] at hcore
      cases hcore
      by_cases hroom : s.core.tunnelChannel.length < s.core.channelSize
      · rw [TcpServer.afterCore, if_pos ⟨hip, hroom⟩]
        refine ⟨hloops, husers, List.perm_iff_count.2 fun x => ?_, hreq⟩
        have := htunnels.count_eq x
        simp only [offer, if_pos hroom, List.count_append] at this ⊢
        omega
      · rw [TcpServer.afterCore, if_neg fun h => hroom h.2]
        exact ⟨hloops, husers, by rwa [offer, if_neg hroom], hreq⟩
    · rw [if_neg hip] at hcore
      cases hcore
      rw [TcpServer.afterCore, if_neg fun h => hip h.1]
      exact ⟨hloops, husers, htunnels, hreq⟩
  | handshakeTake =>
    simp only [tcpStep] at hcore
    split at hcore
    · next conn rest hpc hq =>
      cases hcore
      simp only [TcpServer.afterCore, hq]
      refine ⟨fun _ => hloops (by simp [hpc, HandshakePc.established]), husers,
        List.perm_iff_count.2 fun x => ?_, hreq⟩
      have := htunnels.count_eq x
      simp only [hq, List.count_append, List.count_cons, List.take, List.count_nil] at this ⊢
      omega
    · cases hcore
  | handshakeRead ok =>
    simp only [tcpStep] at hcore
    split at hcore
    · next conn hpc =>
      have hnil := hloops (by simp [hpc, HandshakePc.established])
      simp only [TcpServer.afterCore]
      split at hcore <;> cases hcore
      · refine ⟨fun h => absurd h (by simp [HandshakePc.established]), ?_, htunnels, hreq⟩
        simpa only [hnil, heldUsers_replicate, heldUsers_nil] using husers
      · exact ⟨fun _ => hnil, husers, htunnels, hreq⟩
    · cases hcore
  | acceptLocal user =>
    simp only [tcpStep] at hcore
    split at hcore
    · next hest =>
      cases hcore
      by_cases hroom : s.core.localChannel.length < s.core.channelSize
      · rw [TcpServer.afterCore, if_pos hroom]
        refine ⟨hloops, List.perm_iff_count.2 fun x => ?_, htunnels, ?_⟩
        · have := husers.count_eq x
          simp only [offer, if_pos hroom, List.count_append] at this ⊢
          omega
        · simp only [List.length_append, List.length_singleton]
          omega
      · rw [TcpServer.afterCore, if_neg hroom]
        refine ⟨hloops, List.perm_iff_count.2 fun x => ?_, htunnels, ?_⟩
        · have := husers.count_eq x
          simp only [offer, if_neg hroom, List.count_append] at this ⊢
          omega
        · simp only [List.length_append, List.length_singleton]
          omega
    · cases hcore
  | loopTake l =>
    simp only [tcpStep] at hcore
    split at hcore
    · next user rest hl hq =>
      cases hcore
      have hheld := (filterMap_set_perm PairingPc.user hl (.pairing user)).count_eq
      simp only [TcpServer.afterCore]
      refine ⟨fun h => absurd hl (by simp [hloops h]), List.perm_iff_count.2 fun x => ?_,
        htunnels, hreq⟩
      have hu := husers.count_eq x
      have hh := hheld x
      simp only [hq, heldUsers, List.count_append, List.count_cons, List.count_nil,
        PairingPc.user, Option.toList] at hu hh ⊢
      omega
    · cases hcore
  | pair l ok =>
    simp only [tcpStep] at hcore
    split at hcore
    · next user conn rest hl hq =>
      have hheld := (filterMap_set_perm PairingPc.user hl .selecting).count_eq
      simp only [TcpServer.afterCore, hl, hq]
      cases ok <;> simp only [Bool.false_eq_true, ↓reduceIte] at hcore ⊢ <;> cases hcore
      · refine ⟨hloops, husers, List.perm_iff_count.2 fun x => ?_, hreq⟩
        have := htunnels.count_eq x
        simp only [hq, List.count_append, List.count_cons, List.count_nil] at this ⊢
        omega
      · refine ⟨fun h => by simp [hloops h], List.perm_iff_count.2 fun x => ?_,
          List.perm_iff_count.2 fun x => ?_, hreq⟩
        · have hu := husers.count_eq x
          have hh := hheld x
          simp only [heldUsers, List.map_append, List.count_append, List.count_cons,
            List.count_nil, PairingPc.user, Option.toList, List.map] at hu hh ⊢
          omega
        · have := htunnels.count_eq x
          simp only [hq, List.map_append, List.count_append, List.count_cons, List.count_nil,
            List.map] at this ⊢
          omega
    · cases hcore

/-- Every step of the TCP server keeps the account. -/
theorem TcpServer.Inv.step {s s' : TcpServer} {a : TcpServerAction} (hs : s.Inv)
    (h : tcpServerStep s a = some s') : s'.Inv := by
  cases a with
  | core a =>
    simp only [tcpServerStep] at h
    split at h
    · obtain ⟨core, hcore, rfl⟩ := Option.map_eq_some'.mp h
      exact hs.afterCore hcore
    · cases h
  | request =>
    simp only [tcpServerStep] at h
    split at h
    · cases h
      refine ⟨hs.loops, hs.users, hs.tunnels, ?_⟩
      have := hs.requests
      dsimp only
      split <;> omega
    · cases h
  | requestHandoff ok =>
    simp only [tcpServerStep] at h
    split at h
    · obtain ⟨h', hh, rfl⟩ := Option.map_eq_some'.mp h
      have hsent := handlerStep_count_sgChan hh
      have := hs.requests
      refine ⟨hs.loops, hs.users, hs.tunnels, ?_⟩
      simp only [HandlerAction.isRequest, ↓reduceIte] at hsent
      dsimp only
      omega
    · cases h
  | handler a =>
    simp only [tcpServerStep] at h
    split at h
    · next hg =>
      obtain ⟨h', hh, rfl⟩ := Option.map_eq_some'.mp h
      have hsent := handlerStep_count_sgChan hh
      have := hs.requests
      refine ⟨hs.loops, hs.users, hs.tunnels, ?_⟩
      dsimp only
      cases hreq : a.isRequest <;> simp only [hreq, Bool.false_eq_true, ↓reduceIte] at hsent ⊢
      · omega
      · have := hg.2 hreq
        omega
    · cases h
  | loopReturn l =>
    simp only [tcpServerStep] at h
    split at h
    · obtain ⟨pc, hl, rfl⟩ := Option.map_eq_some'.mp h
      have hheld := (filterMap_set_perm PairingPc.user hl .selecting).count_eq
      refine ⟨fun h => by simp [hs.loops h], List.perm_iff_count.2 fun x => ?_, hs.tunnels,
        hs.requests⟩
      have hu := hs.users.count_eq x
      have hh := hheld x
      simp only [heldUsers, List.count_append, PairingPc.user, Option.toList,
        List.count_nil] at hu hh ⊢
      omega
    · cases h

/-- The account holds in every state the TCP server reaches. -/
theorem TcpServer.inv_of_reach {channelSize handleLoops : Nat} {units : List Byte}
    {s : TcpServer} (hs : Reach tcpServerStep (TcpServer.init channelSize handleLoops units) s) :
    s.Inv :=
  Reach.invariant hs (fun h hstep => h.step hstep) (TcpServer.inv_init _ _ _)

/-- A run with one tunnel connection for the control channel and one more from the same IP:
one user connection is queued, requested and carried. -/
def tcpPairingRun : List TcpServerAction :=
  [.core (.acceptTunnel ⟨0, 5⟩), .core .handshakeTake, .core (.handshakeRead true),
    .core (.acceptTunnel ⟨1, 5⟩), .core (.acceptLocal 7), .request, .handler (.request true),
    .core (.loopTake 0), .core (.pair 0 true)]

theorem tcpPairingRun_reach : ∃ s, Reach tcpServerStep (TcpServer.init 1 1 []) s ∧
    s.users = [7] ∧ s.tunnels = [⟨0, 5⟩, ⟨1, 5⟩] ∧ s.carried = [(7, ⟨1, 5⟩)] ∧
    s.handler.sent = [sgChan] := by
  obtain ⟨s, hrun, hs⟩ := Option.map_eq_some'.mp (show
    (runActions tcpServerStep (TcpServer.init 1 1 []) tcpPairingRun).map
      (fun s => (s.users, s.tunnels, s.carried, s.handler.sent)) =
      some ([7], [⟨0, 5⟩, ⟨1, 5⟩], [(7, ⟨1, 5⟩)], [sgChan]) by decide)
  simp only [Prod.mk.injEq] at hs
  exact ⟨s, Reach.start.run hrun, hs⟩

/-! ## What every run keeps -/

section

variable {channelSize handleLoops : Nat} {units : List Byte} {s : TcpServer}

/-- Along every run of the TCP server no user connection and no tunnel connection is lost
or duplicated. Each user connection `acceptLocalConn` accepted is, exactly once, refused,
parked on `localChannel`, held by a handle loop, abandoned by a handle loop that returned on
`ctx.Done()` while holding it, or carried on a tunnel connection; each
tunnel connection queued on `tunnelChannel` is, exactly once, still queued, taken by
`channelHandshake`, carrying a user connection, or closed after a failed send. -/
theorem tcpServer_connection_custody
    (hs : Reach tcpServerStep (TcpServer.init channelSize handleLoops units) s) :
    s.users.Perm
      (s.refused ++ s.core.localChannel ++ heldUsers s.core.loops ++ s.abandoned ++
        s.carried.map Prod.fst) ∧
    s.tunnels.Perm
      (s.core.tunnelChannel ++ s.handshaken ++ s.carried.map Prod.snd ++ s.discarded) :=
  ⟨(TcpServer.inv_of_reach hs).users, (TcpServer.inv_of_reach hs).tunnels⟩

theorem tcpServer_connection_custody_paired : ∃ s, Reach tcpServerStep (TcpServer.init 1 1 []) s ∧
    s.carried = [(7, ⟨1, 5⟩)] ∧
    s.users.Perm
      (s.refused ++ s.core.localChannel ++ heldUsers s.core.loops ++ s.abandoned ++
        s.carried.map Prod.fst) ∧
    s.tunnels.Perm
      (s.core.tunnelChannel ++ s.handshaken ++ s.carried.map Prod.snd ++ s.discarded) := by
  obtain ⟨s, hs, -, -, hc, -⟩ := tcpPairingRun_reach
  exact ⟨s, hs, hc, tcpServer_connection_custody hs⟩

/-- When the listeners hand out distinct connections, the handle loops pair user and tunnel
connections one to one: no user connection is sent on two tunnel connections, and no
tunnel connection carries two user connections. -/
theorem tcpServer_pairing_one_to_one
    (hs : Reach tcpServerStep (TcpServer.init channelSize handleLoops units) s)
    (husers : s.users.Nodup) (htunnels : s.tunnels.Nodup) :
    (s.carried.map Prod.fst).Nodup ∧ (s.carried.map Prod.snd).Nodup :=
  have h := TcpServer.inv_of_reach hs
  ⟨(h.users.nodup_iff.mp husers).sublist (List.sublist_append_right _ _),
    (h.tunnels.nodup_iff.mp htunnels).sublist
      ((List.sublist_append_right _ _).trans (List.sublist_append_left _ _))⟩

theorem tcpServer_pairing_one_to_one_paired : ∃ s, Reach tcpServerStep (TcpServer.init 1 1 []) s ∧
    s.carried = [(7, ⟨1, 5⟩)] ∧ s.users.Nodup ∧ s.tunnels.Nodup ∧
    (s.carried.map Prod.fst).Nodup ∧ (s.carried.map Prod.snd).Nodup := by
  obtain ⟨s, hs, hu, ht, hc, -⟩ := tcpPairingRun_reach
  have hu : s.users.Nodup := by rw [hu]; decide
  have ht : s.tunnels.Nodup := by rw [ht]; decide
  exact ⟨s, hs, hc, hu, ht, tcpServer_pairing_one_to_one hs hu ht⟩

/-- Along every run of the TCP server, the `SG_Chan` requests `channelHandler` wrote, with
the tokens in `reqNewConnChan` and the requests its acceptors are about to send, are at most
the user connections `acceptLocalConn` queued: the server never asks the client for more
tunnel connections than it has user connections for. -/
theorem tcpServer_requests_le_queued
    (hs : Reach tcpServerStep (TcpServer.init channelSize handleLoops units) s) :
    s.handler.sent.count sgChan + s.reqNewConnChan + s.requesting ≤
      s.users.length - s.refused.length := by
  have := (TcpServer.inv_of_reach hs).requests
  omega

theorem tcpServer_requests_le_queued_paired : ∃ s, Reach tcpServerStep (TcpServer.init 1 1 []) s ∧
    s.handler.sent = [sgChan] ∧
    s.handler.sent.count sgChan + s.reqNewConnChan + s.requesting ≤
      s.users.length - s.refused.length := by
  obtain ⟨s, hs, -, -, -, hsent⟩ := tcpPairingRun_reach
  exact ⟨s, hs, hsent, tcpServer_requests_le_queued hs⟩

end

/-! ## What the requests make the client dial -/

/-- Across the two peers of a TCP tunnel, the server's requests never make the client dial
more tunnel connections than the server has user connections for. When the client's control
channel has delivered, in order, a prefix of what the server's `channelHandler` wrote, the
`tunnelDialer` tasks the client started in its lifecycle are at most those of its filling
loop, its pool growth and the shrink token in hand, plus one for each user connection the
server accepted and did not refuse. The premise on the delivered bytes stands for a
completed handshake, which both peers' models start from; with the codec of `Wire.Codec`
the real pair never completes it (`peer_framings_disagree`), so the bound is about the
tunnel the two peers are meant to form. -/
theorem client_dials_le_server_users {channelSize handleLoops : Nat} {units bytes : List Byte}
    {s : TcpServer} {connPoolSize : Int} {c : Client.TcpTransport}
    (hs : Reach tcpServerStep (TcpServer.init channelSize handleLoops units) s)
    (hc : Client.Reachable connPoolSize bytes c) (hdelivered : c.delivered <+: s.handler.sent) :
    (c.spawned : Int) ≤ c.newPoolSize - c.connPoolSize + c.maintainer.filled c.connPoolSize +
      c.maintainer.handing + (s.users.length - s.refused.length) := by
  have hacc := hc.poolInv.accounting
  have hreq := (TcpServer.inv_of_reach hs).requests
  have hconsumed : c.consumed.count sgChan ≤ s.handler.sent.count sgChan := by
    rw [← hc.signalInv.order] at hdelivered
    exact ((List.prefix_append _ _).trans hdelivered).sublist.count_le _
  omega

/-- The paired run's `SG_Chan` reaches a client that has filled its pool of one: it dials a
second tunnel connection, which the server's one user connection accounts for. -/
theorem client_dials_le_server_users_paired :
    ∃ s c, Reach tcpServerStep (TcpServer.init 1 1 []) s ∧ Client.Reachable 1 [sgChan] c ∧
      c.delivered <+: s.handler.sent ∧ c.spawned = 2 ∧
      (c.spawned : Int) ≤ c.newPoolSize - c.connPoolSize + c.maintainer.filled c.connPoolSize +
        c.maintainer.handing + (s.users.length - s.refused.length) := by
  obtain ⟨s, hs, -, -, -, hsent⟩ := tcpPairingRun_reach
  obtain ⟨c, hrun, hc⟩ := Option.map_eq_some'.mp (show
    (Client.run (Client.TcpTransport.init 1 [sgChan]) [.fill, .fillDone, .signal]).map
      (fun c => (c.spawned, c.delivered)) = some (2, [sgChan]) by decide)
  simp only [Prod.mk.injEq] at hc
  have hdelivered : c.delivered <+: s.handler.sent := by
    simp only [hc.2, hsent, List.prefix_refl]
  exact ⟨s, c, hs, Client.Reachable.init.run hrun, hdelivered, hc.1,
    client_dials_le_server_users hs (Client.Reachable.init.run hrun) hdelivered⟩

end Backhaul.Server
