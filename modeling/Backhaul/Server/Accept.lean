import Backhaul.Server.Mux

/-!
# Accepting tunnel connections and establishing the control channel

The TCP server (part_000) and the TCP-mux server (tcpmux.go) accept tunnel connections
in `acceptTunnelConn` while `Start` runs `channelHandshake`. Both check a new connection's
peer IP against `controlChannel` once, at accept time. The TCP server queues every
connection that passes on `tunnelChannel`, which the handshake and, once it has returned,
the handle loops read. The TCP-mux server reads `controlChannel` a second time: when it
is nil the connection goes to the handshake over the unbuffered `handshakeChannel`,
otherwise it is wrapped as a smux session and queued on `tunnelChannel`.

Each server is a transition system over one lifecycle. A ghost log records every tunnel
connection that carries user traffic (TCP) or is queued as a session (TCP-mux), with the
control channel at that moment. Along every run the handshake assigns `controlChannel` at
most once; the logs, however, can hold a connection from a foreign IP, and a ghost list
of the connections that passed the IP check while `controlChannel` was nil shows that
only those can be foreign.
-/

namespace Backhaul.Server

/-! ## Runs of a transition function -/

/-- The states a transition function reaches from `start`. -/
inductive Reach {σ α : Type} (step : σ → α → Option σ) (start : σ) : σ → Prop
  | start : Reach step start start
  | step {s s' : σ} {a : α} : Reach step start s → step s a = some s' → Reach step start s'

/-- Running a list of actions in order. -/
def runActions {σ α : Type} (step : σ → α → Option σ) (s : σ) : List α → Option σ
  | [] => some s
  | a :: rest => (step s a).bind (runActions step · rest)

namespace Reach

variable {σ α : Type} {step : σ → α → Option σ} {start : σ}

theorem run {s s' : σ} {actions : List α} (hs : Reach step start s)
    (h : runActions step s actions = some s') : Reach step start s' := by
  induction actions generalizing s with
  | nil =>
    simp only [runActions, Option.some.injEq] at h
    exact h ▸ hs
  | cons a rest ih =>
    simp only [runActions, Option.bind_eq_some] at h
    obtain ⟨s₁, hstep, hrest⟩ := h
    exact ih (hs.step hstep) hrest

/-- A property of the start state that every step keeps holds in every reached state. -/
theorem invariant {P : σ → Prop} {s : σ} (hs : Reach step start s)
    (hstep : ∀ {s s' : σ} {a : α}, P s → step s a = some s' → P s') (h0 : P start) :
    P s := by
  induction hs with
  | start => exact h0
  | step _ h ih => exact hstep ih h

end Reach

/-! ## The IP check -/

/-- A tunnel connection as `acceptTunnelConn` sees it: an identity and its peer's IP. -/
structure Conn where
  id : Nat
  ip : Nat
  deriving DecidableEq, Repr

/-- The negation of the test `s.controlChannel != nil && controlIP != connIP` under which
`acceptTunnelConn` closes a connection; the same line in both servers. -/
def ipAllowed (controlChannel : Option Conn) (conn : Conn) : Bool :=
  match controlChannel with
  | some c => c.ip == conn.ip
  | none => true

/-- Once a control channel is established, only its IP passes. -/
theorem ipAllowed_some {c conn : Conn} : ipAllowed (some c) conn = true ↔ c.ip = conn.ip := by
  simp only [ipAllowed, beq_iff_eq]

/-- Where `channelHandshake` is. -/
inductive HandshakePc
  /-- At its `select` on `ctx.Done()` and the channel it reads connections from. -/
  | waiting
  /-- Reading and checking the signal and token of a connection it received. -/
  | reading (conn : Conn)
  /-- Returned after setting `controlChannel`. -/
  | returned
  deriving DecidableEq, Repr

/-- Whether the handshake has established the control channel. -/
def HandshakePc.established : HandshakePc → Bool
  | .returned => true
  | _ => false

/-! ## The TCP server -/

/-- Where a TCP `handleLoop` is. -/
inductive PairingPc
  /-- At its outer `select` on `ctx.Done()` and `localChannel`. -/
  | selecting
  /-- In its inner loop with a user connection, at the `select` on `tunnelChannel`. -/
  | pairing (user : Nat)
  deriving DecidableEq, Repr

/-- The TCP server's state over one lifecycle: `config.ChannelSize`, the handle loops
`Start` starts, `controlChannel`, the two channels, the handshake and the loops. -/
structure TcpTransport where
  channelSize : Nat
  handleLoops : Nat
  controlChannel : Option Conn
  tunnelChannel : List Conn
  localChannel : List Nat
  handshake : HandshakePc
  loops : List PairingPc
  /-- Ghost: assignments to `controlChannel`. -/
  assignments : Nat
  /-- Ghost: each tunnel connection a handle loop sent a target address on, with the
  control channel at that moment. -/
  paired : List (Conn × Option Conn)
  /-- Ghost: the connections that passed the IP check while `controlChannel` was nil. -/
  early : List Conn
  deriving DecidableEq, Repr

/-- The state after `Start` has started the listener and entered `channelHandshake`. -/
def TcpTransport.init (channelSize handleLoops : Nat) : TcpTransport :=
  ⟨channelSize, handleLoops, none, [], [], .waiting, [], 0, [], []⟩

/-- One atomic action of one goroutine of the TCP server. -/
inductive TcpAction
  /-- `acceptTunnelConn` accepts a connection, checks its IP and offers it to
  `tunnelChannel`. -/
  | acceptTunnel (conn : Conn)
  /-- `channelHandshake` receives from `tunnelChannel`. -/
  | handshakeTake
  /-- `channelHandshake` reads the signal and token and replies, with success or not;
  on success `Start` starts the handle loops. -/
  | handshakeRead (ok : Bool)
  /-- A port listener's non-blocking send of a user connection. -/
  | acceptLocal (user : Nat)
  /-- Handle loop `l` receives a user connection. -/
  | loopTake (l : Nat)
  /-- Handle loop `l` receives a tunnel connection and sends the target address on it,
  with success or not. -/
  | pair (l : Nat) (sendOk : Bool)
  deriving DecidableEq, Repr

/-- The transition function of the TCP server; `none` when the action is not enabled. -/
def tcpStep (s : TcpTransport) : TcpAction → Option TcpTransport
  | .acceptTunnel conn =>
    if ipAllowed s.controlChannel conn then
      some { s with tunnelChannel := offer s.channelSize s.tunnelChannel conn,
                    early := if s.controlChannel = none then s.early ++ [conn] else s.early }
    else some s
  | .handshakeTake =>
    match s.handshake, s.tunnelChannel with
    | .waiting, conn :: rest => some { s with handshake := .reading conn, tunnelChannel := rest }
    | _, _ => none
  | .handshakeRead ok =>
    match s.handshake with
    | .reading conn =>
      if ok then
        some { s with controlChannel := some conn, handshake := .returned,
                      assignments := s.assignments + 1,
                      loops := List.replicate s.handleLoops .selecting }
      else some { s with handshake := .waiting }
    | _ => none
  | .acceptLocal user =>
    if s.handshake.established then
      some { s with localChannel := offer s.channelSize s.localChannel user }
    else none
  | .loopTake l =>
    match s.loops[l]?, s.localChannel with
    | some .selecting, user :: rest =>
      some { s with loops := s.loops.set l (.pairing user), localChannel := rest }
    | _, _ => none
  | .pair l sendOk =>
    match s.loops[l]?, s.tunnelChannel with
    | some (.pairing _), conn :: rest =>
      if sendOk then
        some { s with tunnelChannel := rest, loops := s.loops.set l .selecting,
                      paired := s.paired ++ [(conn, s.controlChannel)] }
      else some { s with tunnelChannel := rest }
    | _, _ => none

/-- The handshake's account: it assigns `controlChannel` once, when it returns. -/
def TcpTransport.AssignedOnce (s : TcpTransport) : Prop :=
  s.assignments = if s.handshake.established then 1 else 0

theorem tcpStep_assignedOnce {s s' : TcpTransport} {a : TcpAction} (hs : s.AssignedOnce)
    (h : tcpStep s a = some s') : s'.AssignedOnce := by
  unfold TcpTransport.AssignedOnce at hs ⊢
  cases a <;> simp only [tcpStep] at h
  all_goals
    repeat' split at h
    all_goals first
      | (obtain rfl := Option.some.inj h; simp_all [HandshakePc.established])
      | cases h

/-- Along every run the TCP server assigns its control channel at most once. -/
theorem TcpTransport.assignments_le_one {channelSize handleLoops : Nat} {s : TcpTransport}
    (hs : Reach tcpStep (TcpTransport.init channelSize handleLoops) s) : s.assignments ≤ 1 := by
  have h : s.AssignedOnce := hs.invariant tcpStep_assignedOnce rfl
  unfold TcpTransport.AssignedOnce at h
  split at h <;> omega

/-- Where a connection from a foreign IP can be: the control channel is set exactly
once the handshake has returned, and every connection queued on or taken from
`tunnelChannel` passed the IP check before the control channel existed or has its IP. -/
structure TcpTransport.IpChecked (s : TcpTransport) : Prop where
  control : s.controlChannel.isSome = s.handshake.established
  queued : ∀ conn ∈ s.tunnelChannel,
    conn ∈ s.early ∨ ∃ c, s.controlChannel = some c ∧ c.ip = conn.ip
  used : ∀ conn c, (conn, some c) ∈ s.paired → conn ∈ s.early ∨ c.ip = conn.ip

theorem tcpStep_ipChecked {s s' : TcpTransport} {a : TcpAction} (hs : s.IpChecked)
    (h : tcpStep s a = some s') : s'.IpChecked := by
  obtain ⟨hcontrol, hqueued, hused⟩ := hs
  cases a with
  | acceptTunnel conn =>
    simp only [tcpStep] at h
    split_ifs at h with hallowed hnil <;> obtain rfl := Option.some.inj h
    · refine ⟨hcontrol, fun x hx => ?_,
        fun x c hx => (hused x c hx).imp_left (List.mem_append_left _)⟩
      rcases mem_offer hx with hx | rfl
      · exact (hqueued x hx).imp_left (List.mem_append_left _)
      · exact .inl (List.mem_append_right _ (List.mem_singleton_self _))
    · obtain ⟨c, hc⟩ := Option.ne_none_iff_exists'.mp hnil
      refine ⟨hcontrol, fun x hx => ?_, hused⟩
      rcases mem_offer hx with hx | rfl
      · exact hqueued x hx
      · exact .inr ⟨c, hc, ipAllowed_some.mp (hc ▸ hallowed)⟩
    · exact ⟨hcontrol, hqueued, hused⟩
  | handshakeTake =>
    simp only [tcpStep] at h
    split at h
    · rename_i conn rest hhs htc
      obtain rfl := Option.some.inj h
      exact ⟨by simpa [hhs, HandshakePc.established] using hcontrol,
        fun x hx => hqueued x (by simp [htc, hx]), hused⟩
    · cases h
  | handshakeRead ok =>
    simp only [tcpStep] at h
    split at h
    · rename_i conn hhs
      have hnone : s.controlChannel = none := by
        simpa [hhs, HandshakePc.established] using hcontrol
      split_ifs at h <;> obtain rfl := Option.some.inj h
      · exact ⟨rfl, fun x hx => .inl ((hqueued x hx).resolve_right (by simp [hnone])), hused⟩
      · exact ⟨by simp [hnone, HandshakePc.established], hqueued, hused⟩
    · cases h
  | acceptLocal | loopTake =>
    simp only [tcpStep] at h
    repeat' split at h
    all_goals first
      | (obtain rfl := Option.some.inj h; exact ⟨hcontrol, hqueued, hused⟩)
      | cases h
  | pair l sendOk =>
    simp only [tcpStep] at h
    split at h
    · rename_i conn rest hl htc
      have hrest : ∀ x ∈ rest, x ∈ s.early ∨ ∃ c, s.controlChannel = some c ∧ c.ip = x.ip :=
        fun x hx => hqueued x (by simp [htc, hx])
      split_ifs at h <;> obtain rfl := Option.some.inj h
      · refine ⟨hcontrol, hrest, fun x c hx => ?_⟩
        rw [List.mem_append, List.mem_singleton, Prod.mk.injEq] at hx
        rcases hx with hx | ⟨rfl, hc⟩
        · exact hused x c hx
        · rcases hqueued x (by simp [htc]) with hearly | ⟨c', hc', hip⟩
          · exact .inl hearly
          · obtain rfl : c = c' := Option.some.inj (hc.trans hc')
            exact .inr hip
      · exact ⟨hcontrol, hrest, hused⟩
    · cases h

/-- Along every run of the TCP server, a tunnel connection that a handle loop uses
while the control channel is established has the control channel's IP, unless it passed
the IP check before the control channel existed. -/
theorem TcpTransport.paired_ip {channelSize handleLoops : Nat} {s : TcpTransport}
    (hs : Reach tcpStep (TcpTransport.init channelSize handleLoops) s) :
    ∀ conn c, (conn, some c) ∈ s.paired → c.ip = conn.ip ∨ conn ∈ s.early := by
  have h : s.IpChecked :=
    hs.invariant tcpStep_ipChecked ⟨rfl, fun _ h => absurd h (List.not_mem_nil _),
      fun _ _ h => absurd h (List.not_mem_nil _)⟩
  exact fun conn c hmem => (h.used conn c hmem).symm

/-! ## The TCP-mux server -/

/-- Where the TCP-mux `acceptTunnelConn` is. -/
inductive AcceptorPc
  /-- In `listener.Accept()`. -/
  | accepting
  /-- Past the IP check with a connection, before reading `controlChannel` again. -/
  | checked (conn : Conn)
  deriving DecidableEq, Repr

/-- The TCP-mux server's accepting state over one lifecycle: `config.ChannelSize`,
`controlChannel`, the acceptor, the handshake and the sessions queued on
`tunnelChannel`, labelled by their connections. -/
structure TcpMuxListener where
  channelSize : Nat
  controlChannel : Option Conn
  acceptor : AcceptorPc
  handshake : HandshakePc
  tunnelChannel : List Conn
  /-- Ghost: assignments to `controlChannel`. -/
  assignments : Nat
  /-- Ghost: each connection queued as a session, with the control channel at that
  moment. -/
  queued : List (Conn × Option Conn)
  /-- Ghost: the connections that passed the IP check while `controlChannel` was nil. -/
  early : List Conn
  deriving DecidableEq, Repr

def TcpMuxListener.init (channelSize : Nat) : TcpMuxListener :=
  ⟨channelSize, none, .accepting, .waiting, [], 0, [], []⟩

/-- One atomic action of the TCP-mux acceptor or handshake. -/
inductive ListenerAction
  /-- `acceptTunnelConn` accepts a connection and checks its IP. -/
  | accept (conn : Conn)
  /-- `acceptTunnelConn` reads `controlChannel` again: when nil it hands the connection
  to a waiting handshake or closes it, otherwise it wraps it, with `smux.Client`
  succeeding or not, and offers the session to `tunnelChannel`. -/
  | route (smuxOk : Bool)
  /-- `channelHandshake` reads the signal and token and replies, with success or not. -/
  | handshakeRead (ok : Bool)
  deriving DecidableEq, Repr

/-- The transition function of the TCP-mux accepting state. -/
def listenerStep (s : TcpMuxListener) : ListenerAction → Option TcpMuxListener
  | .accept conn =>
    match s.acceptor with
    | .accepting =>
      if ipAllowed s.controlChannel conn then
        some { s with acceptor := .checked conn,
                      early := if s.controlChannel = none then s.early ++ [conn] else s.early }
      else some s
    | .checked _ => none
  | .route smuxOk =>
    match s.acceptor, s.controlChannel with
    | .checked conn, none =>
      some { s with acceptor := .accepting,
                    handshake := if s.handshake = .waiting then .reading conn else s.handshake }
    | .checked conn, some c =>
      if smuxOk ∧ s.tunnelChannel.length < s.channelSize then
        some { s with acceptor := .accepting, tunnelChannel := s.tunnelChannel ++ [conn],
                      queued := s.queued ++ [(conn, some c)] }
      else some { s with acceptor := .accepting }
    | .accepting, _ => none
  | .handshakeRead ok =>
    match s.handshake with
    | .reading conn =>
      if ok then
        some { s with controlChannel := some conn, handshake := .returned,
                      assignments := s.assignments + 1 }
      else some { s with handshake := .waiting }
    | _ => none

def TcpMuxListener.AssignedOnce (s : TcpMuxListener) : Prop :=
  s.assignments = if s.handshake.established then 1 else 0

theorem listenerStep_assignedOnce {s s' : TcpMuxListener} {a : ListenerAction}
    (hs : s.AssignedOnce) (h : listenerStep s a = some s') : s'.AssignedOnce := by
  unfold TcpMuxListener.AssignedOnce at hs ⊢
  cases a <;> simp only [listenerStep] at h
  all_goals
    repeat' split at h
    all_goals first
      | (obtain rfl := Option.some.inj h; simp_all [HandshakePc.established])
      | cases h

/-- Along every run the TCP-mux server assigns its control channel at most once. -/
theorem TcpMuxListener.assignments_le_one {channelSize : Nat} {s : TcpMuxListener}
    (hs : Reach listenerStep (TcpMuxListener.init channelSize) s) : s.assignments ≤ 1 := by
  have h : s.AssignedOnce := hs.invariant listenerStep_assignedOnce rfl
  unfold TcpMuxListener.AssignedOnce at h
  split at h <;> omega

/-- Where a connection from a foreign IP can be: the control channel is set exactly
once the handshake has returned, and the connection the acceptor holds past the IP check,
like every connection queued as a session, passed the check before the control channel
existed or has its IP. -/
structure TcpMuxListener.IpChecked (s : TcpMuxListener) : Prop where
  control : s.controlChannel.isSome = s.handshake.established
  checked : ∀ conn, s.acceptor = .checked conn →
    conn ∈ s.early ∨ ∃ c, s.controlChannel = some c ∧ c.ip = conn.ip
  queued : ∀ conn c, (conn, some c) ∈ s.queued → conn ∈ s.early ∨ c.ip = conn.ip

theorem listenerStep_ipChecked {s s' : TcpMuxListener} {a : ListenerAction}
    (hs : s.IpChecked) (h : listenerStep s a = some s') : s'.IpChecked := by
  obtain ⟨hcontrol, hchecked, hqueued⟩ := hs
  cases a with
  | accept conn =>
    simp only [listenerStep] at h
    split at h
    · split_ifs at h with hallowed hnil <;> obtain rfl := Option.some.inj h
      · refine ⟨hcontrol, fun x hx => ?_,
          fun x c hx => (hqueued x c hx).imp_left (List.mem_append_left _)⟩
        cases hx
        exact .inl (List.mem_append_right _ (List.mem_singleton_self _))
      · obtain ⟨c, hc⟩ := Option.ne_none_iff_exists'.mp hnil
        refine ⟨hcontrol, fun x hx => ?_, hqueued⟩
        cases hx
        exact .inr ⟨c, hc, ipAllowed_some.mp (hc ▸ hallowed)⟩
      · exact ⟨hcontrol, hchecked, hqueued⟩
    · cases h
  | route smuxOk =>
    simp only [listenerStep] at h
    split at h
    · rename_i conn hacceptor hnone
      obtain rfl := Option.some.inj h
      refine ⟨?_, nofun, hqueued⟩
      split_ifs
      · simp [hnone, HandshakePc.established]
      · exact hcontrol
    · rename_i conn c hacceptor hc
      have hconn : conn ∈ s.early ∨ c.ip = conn.ip := by
        rcases hchecked conn hacceptor with hearly | ⟨c', hc', hip⟩
        · exact .inl hearly
        · obtain rfl : c = c' := Option.some.inj (hc.symm.trans hc')
          exact .inr hip
      split_ifs at h <;> obtain rfl := Option.some.inj h
      · refine ⟨hcontrol, nofun, fun x c' hx => ?_⟩
        rw [List.mem_append, List.mem_singleton, Prod.mk.injEq] at hx
        rcases hx with hx | ⟨rfl, hc'⟩
        · exact hqueued x c' hx
        · obtain rfl := Option.some.inj hc'
          exact hconn
      · exact ⟨hcontrol, nofun, hqueued⟩
    · cases h
  | handshakeRead ok =>
    simp only [listenerStep] at h
    split at h
    · rename_i conn hhs
      have hnone : s.controlChannel = none := by
        simpa [hhs, HandshakePc.established] using hcontrol
      split_ifs at h <;> obtain rfl := Option.some.inj h
      · exact ⟨rfl, fun x hx => .inl ((hchecked x hx).resolve_right (by simp [hnone])),
          hqueued⟩
      · exact ⟨by simp [hnone, HandshakePc.established], hchecked, hqueued⟩
    · cases h

/-- Along every run of the TCP-mux server, a session queued while the control channel is
established is on a connection with the control channel's IP, unless the connection
passed the IP check before the control channel existed. -/
theorem TcpMuxListener.queued_ip {channelSize : Nat} {s : TcpMuxListener}
    (hs : Reach listenerStep (TcpMuxListener.init channelSize) s) :
    ∀ conn c, (conn, some c) ∈ s.queued → c.ip = conn.ip ∨ conn ∈ s.early := by
  have h : s.IpChecked :=
    hs.invariant listenerStep_ipChecked ⟨rfl, nofun,
      fun _ _ h => absurd h (List.not_mem_nil _)⟩
  exact fun conn c hmem => (h.queued conn c hmem).symm

/-! ## Foreign connections -/

/-- Reading `controlChannel` once at accept time is the only gap in the IP check. Along
every run of the TCP server, a tunnel connection that a handle loop uses while the control
channel is established, and along every run of the TCP-mux server, a connection queued as a
session, has the control channel's IP unless it passed the check while `controlChannel` was
nil. -/
theorem foreign_conn_checked_early :
    (∀ {channelSize handleLoops : Nat} {s : TcpTransport},
      Reach tcpStep (TcpTransport.init channelSize handleLoops) s →
        ∀ conn c, (conn, some c) ∈ s.paired → c.ip = conn.ip ∨ conn ∈ s.early) ∧
    (∀ {channelSize : Nat} {s : TcpMuxListener},
      Reach listenerStep (TcpMuxListener.init channelSize) s →
        ∀ conn c, (conn, some c) ∈ s.queued → c.ip = conn.ip ∨ conn ∈ s.early) :=
  ⟨TcpTransport.paired_ip, TcpMuxListener.queued_ip⟩

/-- A connection from IP 2 accepted while the handshake reads the client's connection
from IP 1 passes the IP check. In the TCP server it waits on `tunnelChannel` until the
handshake has established the control channel on the client's connection, and a handle
loop then sends user traffic over it. In the TCP-mux server it passes the first read of
`controlChannel` and meets the established channel at the second, so it is queued as a
session. -/
theorem foreign_tunnel_conn_used :
    (∃ s, Reach tcpStep (TcpTransport.init 1 1) s ∧
      ∃ conn c, (conn, some c) ∈ s.paired ∧ conn.ip ≠ c.ip) ∧
    (∃ s, Reach listenerStep (TcpMuxListener.init 1) s ∧
      ∃ conn c, (conn, some c) ∈ s.queued ∧ conn.ip ≠ c.ip) := by
  have htcp : runActions tcpStep (TcpTransport.init 1 1)
      [.acceptTunnel ⟨0, 1⟩, .handshakeTake, .acceptTunnel ⟨1, 2⟩, .handshakeRead true,
        .acceptLocal 100, .loopTake 0, .pair 0 true] =
      some ⟨1, 1, some ⟨0, 1⟩, [], [], .returned, [.selecting], 1,
        [(⟨1, 2⟩, some ⟨0, 1⟩)], [⟨0, 1⟩, ⟨1, 2⟩]⟩ := by
    decide
  have hmux : runActions listenerStep (TcpMuxListener.init 1)
      [.accept ⟨0, 1⟩, .route true, .accept ⟨1, 2⟩, .handshakeRead true, .route true] =
      some ⟨1, some ⟨0, 1⟩, .accepting, .returned, [⟨1, 2⟩], 1,
        [(⟨1, 2⟩, some ⟨0, 1⟩)], [⟨0, 1⟩, ⟨1, 2⟩]⟩ := by
    decide
  exact ⟨⟨_, Reach.run .start htcp, _, _, List.mem_singleton_self _, by decide⟩,
    ⟨_, Reach.run .start hmux, _, _, List.mem_singleton_self _, by decide⟩⟩

end Backhaul.Server
