import Backhaul.Server.Accept

/-!
# The WS-mux server's HTTP handlers

`tunnelListener` of the WS-mux server (part_001, lines 211–263) serves every HTTP request
in a handler goroutine of its own. A handler for `/channel` that finds `controlChannel`
nil assigns it and starts `channelHandler`, `parsePortMappings` and the handle loops; a
handler for `/tunnel` wraps its connection as a smux session and offers it to
`tunnelChannel`. The test of `controlChannel` and the assignment are separate steps of a
handler, so every handler between them sees nil as well.
-/

namespace Backhaul.Server

/-- The paths the handler tells apart. -/
inductive WsPath
  /-- `"/channel"` -/
  | channel
  /-- `"/tunnel"` -/
  | tunnel
  | other
  deriving DecidableEq, Repr

/-- What a request brings: the connection it upgrades to, its path, and whether its
`Authorization` header is `"Bearer "` followed by the token. -/
structure WsRequest where
  conn : Conn
  path : WsPath
  authorized : Bool
  deriving DecidableEq, Repr

/-- Where a handler is. -/
inductive WsHandlerPc
  /-- Serving its request: checks `Authorization` and upgrades. -/
  | received
  /-- Upgraded, at the test of `r.URL.Path` and `s.controlChannel`. -/
  | upgraded
  /-- Found `/channel` and a nil control channel, before assigning it. -/
  | assigning
  | returned
  deriving DecidableEq, Repr

structure WsHandler where
  request : WsRequest
  pc : WsHandlerPc
  deriving DecidableEq, Repr

/-- The WS-mux server's listening state over one lifecycle: `config.ChannelSize`, the
handle loops each assignment starts, `controlChannel`, `tunnelChannel` and the handlers. -/
structure WsMuxTransport where
  channelSize : Nat
  /-- `runtime.NumCPU()`, at most 4. -/
  handleLoops : Nat
  controlChannel : Option Conn
  tunnelChannel : List Conn
  handlers : List WsHandler
  /-- Ghost: assignments to `controlChannel`. -/
  assignments : Nat
  /-- Ghost: `channelHandler` goroutines started. -/
  channelHandlers : Nat
  /-- Ghost: `parsePortMappings` goroutines started. -/
  portMappers : Nat
  /-- Ghost: `handleLoop` goroutines started. -/
  loopsStarted : Nat
  deriving DecidableEq, Repr

def WsMuxTransport.init (channelSize handleLoops : Nat) : WsMuxTransport :=
  ⟨channelSize, handleLoops, none, [], [], 0, 0, 0, 0⟩

/-- One atomic action of the HTTP server or of one handler. -/
inductive WsAction
  /-- The HTTP server starts a handler on a request. -/
  | request (r : WsRequest)
  /-- Handler `i` checks `Authorization` and upgrades, with `Upgrade` succeeding or not. -/
  | upgrade (i : Nat) (ok : Bool)
  /-- Handler `i` tests its path and `controlChannel`; on `/tunnel` it wraps the
  connection, with `smux.Client` succeeding or not, and offers the session. -/
  | dispatch (i : Nat) (smuxOk : Bool)
  /-- Handler `i` assigns the control channel and starts the workers. -/
  | assign (i : Nat)
  deriving DecidableEq, Repr

/-- The transition function of the WS-mux listening state. -/
def wsStep (s : WsMuxTransport) : WsAction → Option WsMuxTransport
  | .request r => some { s with handlers := s.handlers ++ [⟨r, .received⟩] }
  | .upgrade i ok =>
    match s.handlers[i]? with
    | some ⟨r, .received⟩ =>
      some { s with
        handlers := s.handlers.set i ⟨r, if r.authorized && ok then .upgraded else .returned⟩ }
    | _ => none
  | .dispatch i smuxOk =>
    match s.handlers[i]? with
    | some ⟨r, .upgraded⟩ =>
      if r.path = .channel ∧ s.controlChannel = none then
        some { s with handlers := s.handlers.set i ⟨r, .assigning⟩ }
      else if r.path = .tunnel ∧ smuxOk then
        some { s with handlers := s.handlers.set i ⟨r, .returned⟩,
                      tunnelChannel := offer s.channelSize s.tunnelChannel r.conn }
      else some { s with handlers := s.handlers.set i ⟨r, .returned⟩ }
    | _ => none
  | .assign i =>
    match s.handlers[i]? with
    | some ⟨r, .assigning⟩ =>
      some { s with handlers := s.handlers.set i ⟨r, .returned⟩,
                    controlChannel := some r.conn,
                    assignments := s.assignments + 1,
                    channelHandlers := s.channelHandlers + 1,
                    portMappers := s.portMappers + 1,
                    loopsStarted := s.loopsStarted + s.handleLoops }
    | _ => none

/-- Two `/channel` requests whose handlers both test `controlChannel` before either
assigns it: the control channel is assigned twice, and `channelHandler`,
`parsePortMappings` and the four handle loops are each started twice. -/
theorem ws_channel_assigned_twice :
    ∃ s, Reach wsStep (WsMuxTransport.init 1 4) s ∧ s.assignments = 2 ∧
      s.channelHandlers = 2 ∧ s.portMappers = 2 ∧ s.loopsStarted = 8 := by
  have hrun : runActions wsStep (WsMuxTransport.init 1 4)
      [.request ⟨⟨0, 1⟩, .channel, true⟩, .request ⟨⟨1, 1⟩, .channel, true⟩,
        .upgrade 0 true, .upgrade 1 true, .dispatch 0 true, .dispatch 1 true,
        .assign 0, .assign 1] =
      some ⟨1, 4, some ⟨1, 1⟩, [],
        [⟨⟨⟨0, 1⟩, .channel, true⟩, .returned⟩,
          ⟨⟨⟨1, 1⟩, .channel, true⟩, .returned⟩],
        2, 2, 2, 8⟩ := by
    decide
  exact ⟨_, Reach.run .start hrun, rfl, rfl, rfl, rfl⟩

end Backhaul.Server
