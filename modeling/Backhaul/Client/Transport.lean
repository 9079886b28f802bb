import Backhaul.Wire.Codec

/-!
# The client's tunnel pool as a transition system

The client side of `internal/client/transport/tcp.go` once its control channel is up:
`poolMaintainer`, the main loop of `channelHandler`, the `tunnelDialer` tasks they
start, and `Restart`. Each goroutine is a program counter in one record, and a step is
one atomic action of one goroutine. The unbuffered `controlFlow` channel is the
maintainer blocked in its send: a receive in `channelHandler`'s inner `select` succeeds
exactly then. The bytes of the control channel that the reader goroutine has queued on
`msgChan` are `inbox`, consumed in order. `spawned`, `consumed`, `delivered` and
`staleDecrements` are ghost state for the specifications. `step` records a byte in
`consumed` when `channelHandler` takes it from `msgChan`, before the handler's own code runs
on it, so what the handler counts is checked against what it was given.
-/

namespace Backhaul.Client

/-- Where `poolMaintainer` is. -/
inductive MaintainerPc
  /-- In the initial loop `for i := 0; i < ConnPoolSize; i++`. -/
  | filling (i : Nat)
  /-- At its `select` over the two tickers. -/
  | selecting
  /-- In the 60-second case, having read `loadConnections`. -/
  | deciding (load : Int)
  /-- Blocked in `c.controlFlow <- struct{}{}`. -/
  | handingShrink
  deriving DecidableEq, Repr

/-- Where the main loop of `channelHandler` is. -/
inductive HandlerPc
  | selecting
  /-- Returned after `go c.Restart()`. -/
  | restarting
  deriving DecidableEq, Repr

/-- Where a `tunnelDialer` task is. -/
inductive DialerPc
  /-- In `TcpDialer`. -/
  | dialing
  /-- Blocked in `ReceiveBinaryString`, having incremented `poolConnections` in the
  lifecycle with this number. -/
  | pooled (epoch : Nat)
  | finished
  deriving DecidableEq, Repr

/-- A `tunnelDialer` task and the lifecycle that started it. -/
structure Dialer where
  epoch : Nat
  pc : DialerPc
  deriving DecidableEq, Repr

/-- The client's `TcpTransport` with the positions of its goroutines. -/
structure TcpTransport where
  /-- `config.ConnPoolSize`. -/
  connPoolSize : Int
  /-- The lifecycle, counted by `Restart`. -/
  epoch : Nat
  poolConnections : Int
  loadConnections : Int
  /-- `poolMaintainer`'s local `newPoolSize`. -/
  newPoolSize : Int
  /-- `poolMaintainer`'s local `poolConnectionsSum`. -/
  poolConnectionsSum : Int
  maintainer : MaintainerPc
  handler : HandlerPc
  /-- Control-channel bytes received and not yet handled. -/
  inbox : List Byte
  dialers : List Dialer
  /-- Ghost: `tunnelDialer` tasks started in this lifecycle. -/
  spawned : Nat
  /-- Ghost: the bytes this lifecycle's control channel delivered. -/
  delivered : List Byte
  /-- Ghost: the bytes `channelHandler` took from `msgChan` in this lifecycle, in order. -/
  consumed : List Byte
  /-- Ghost: decrements in this lifecycle by dialers that incremented in an earlier one. -/
  staleDecrements : Nat
  deriving DecidableEq, Repr

/-- A lifecycle just after its control channel was established: `poolMaintainer`
starts filling the pool and `channelHandler` waits on `bytes`. -/
def TcpTransport.init (connPoolSize : Int) (bytes : List Byte) : TcpTransport where
  connPoolSize := connPoolSize
  epoch := 0
  poolConnections := 0
  loadConnections := 0
  newPoolSize := connPoolSize
  poolConnectionsSum := 0
  maintainer := .filling 0
  handler := .selecting
  inbox := bytes
  dialers := []
  spawned := 0
  delivered := bytes
  consumed := []
  staleDecrements := 0

/-- `go c.tunnelDialer()`. -/
def TcpTransport.spawn (c : TcpTransport) : TcpTransport :=
  { c with dialers := c.dialers ++ [⟨c.epoch, .dialing⟩], spawned := c.spawned + 1 }

/-- The inner `select` of `channelHandler`'s `SG_Chan` case (tcp.go, lines 251–257): it
takes the token when the maintainer is blocked handing one over, and dials otherwise. -/
def TcpTransport.takeOrDial (c : TcpTransport) : TcpTransport :=
  if c.maintainer = .handingShrink then { c with maintainer := .selecting } else c.spawn

/-- `channelHandler` handling one signal from `msgChan` (tcp.go, lines 247–268). -/
def channelHandlerSignal (c : TcpTransport) (msg : Byte) : TcpTransport :=
  if msg = sgChan then
    TcpTransport.takeOrDial { c with loadConnections := c.loadConnections + 1 }
  else if msg = sgHB then c
  else if msg = sgClosed then { c with handler := .restarting }
  else { c with handler := .restarting }

section channelHandlerSignal

variable (c : TcpTransport) (msg : Byte)

@[simp] theorem channelHandlerSignal_connPoolSize :
    (channelHandlerSignal c msg).connPoolSize = c.connPoolSize := by
  unfold channelHandlerSignal TcpTransport.takeOrDial; split_ifs <;> rfl

@[simp] theorem channelHandlerSignal_newPoolSize :
    (channelHandlerSignal c msg).newPoolSize = c.newPoolSize := by
  unfold channelHandlerSignal TcpTransport.takeOrDial; split_ifs <;> rfl

@[simp] theorem channelHandlerSignal_consumed :
    (channelHandlerSignal c msg).consumed = c.consumed := by
  unfold channelHandlerSignal TcpTransport.takeOrDial; split_ifs <;> rfl

@[simp] theorem channelHandlerSignal_epoch : (channelHandlerSignal c msg).epoch = c.epoch := by
  unfold channelHandlerSignal TcpTransport.takeOrDial; split_ifs <;> rfl

@[simp] theorem channelHandlerSignal_delivered :
    (channelHandlerSignal c msg).delivered = c.delivered := by
  unfold channelHandlerSignal TcpTransport.takeOrDial; split_ifs <;> rfl

@[simp] theorem channelHandlerSignal_inbox : (channelHandlerSignal c msg).inbox = c.inbox := by
  unfold channelHandlerSignal TcpTransport.takeOrDial; split_ifs <;> rfl

@[simp] theorem channelHandlerSignal_poolConnections :
    (channelHandlerSignal c msg).poolConnections = c.poolConnections := by
  unfold channelHandlerSignal TcpTransport.takeOrDial; split_ifs <;> rfl

@[simp] theorem channelHandlerSignal_staleDecrements :
    (channelHandlerSignal c msg).staleDecrements = c.staleDecrements := by
  unfold channelHandlerSignal TcpTransport.takeOrDial; split_ifs <;> rfl

/-- `SG_Chan` counts one load and leaves the handler selecting; `SG_HB` changes nothing
else; every other byte initiates `Restart`. -/
theorem channelHandlerSignal_handler_loadConnections :
    ((channelHandlerSignal c msg).handler, (channelHandlerSignal c msg).loadConnections) =
      if msg = sgChan then (c.handler, c.loadConnections + 1)
      else if msg = sgHB then (c.handler, c.loadConnections)
      else (.restarting, c.loadConnections) := by
  unfold channelHandlerSignal TcpTransport.takeOrDial; split_ifs <;> rfl

/-- Each `SG_Chan` makes exactly one decision: it dials, or it takes the shrink token the
maintainer is blocked handing over. Other bytes decide nothing. -/
theorem channelHandlerSignal_decision :
    if msg = sgChan then
      (c.maintainer ≠ .handingShrink ∧
          (channelHandlerSignal c msg).maintainer = c.maintainer ∧
          (channelHandlerSignal c msg).dialers = c.dialers ++ [⟨c.epoch, .dialing⟩] ∧
          (channelHandlerSignal c msg).spawned = c.spawned + 1) ∨
        (c.maintainer = .handingShrink ∧ (channelHandlerSignal c msg).maintainer = .selecting ∧
          (channelHandlerSignal c msg).dialers = c.dialers ∧
          (channelHandlerSignal c msg).spawned = c.spawned)
    else (channelHandlerSignal c msg).maintainer = c.maintainer ∧
      (channelHandlerSignal c msg).dialers = c.dialers ∧
      (channelHandlerSignal c msg).spawned = c.spawned := by
  unfold channelHandlerSignal TcpTransport.takeOrDial
  by_cases hchan : msg = sgChan
  · by_cases hshrink : c.maintainer = .handingShrink <;> simp [hchan, hshrink, TcpTransport.spawn]
  · split_ifs <;> simp

end channelHandlerSignal

/-- The rest of `poolMaintainer`'s 60-second case once it has read `load` from
`loadConnections` (tcp.go, lines 194–214). Go's `/` truncates, as `Int.tdiv` does. -/
def poolMaintainerWindow (c : TcpTransport) (load : Int) : TcpTransport :=
  let loadConnections := (load + 59).tdiv 60
  let poolConnectionsAvg := (c.poolConnectionsSum + 59).tdiv 60
  let c := { c with loadConnections := 0, poolConnectionsSum := 0 }
  if poolConnectionsAvg < (loadConnections + 4).tdiv 5 then
    TcpTransport.spawn { c with newPoolSize := c.newPoolSize + 1, maintainer := .selecting }
  else if (loadConnections + 3).tdiv 4 < poolConnectionsAvg ∧ c.connPoolSize < c.newPoolSize then
    { c with newPoolSize := c.newPoolSize - 1, maintainer := .handingShrink }
  else { c with maintainer := .selecting }

section poolMaintainerWindow

variable (c : TcpTransport) (load : Int)

@[simp] theorem poolMaintainerWindow_connPoolSize :
    (poolMaintainerWindow c load).connPoolSize = c.connPoolSize := by
  simp only [poolMaintainerWindow]; split_ifs <;> rfl

@[simp] theorem poolMaintainerWindow_consumed :
    (poolMaintainerWindow c load).consumed = c.consumed := by
  simp only [poolMaintainerWindow]; split_ifs <;> rfl

@[simp] theorem poolMaintainerWindow_epoch : (poolMaintainerWindow c load).epoch = c.epoch := by
  simp only [poolMaintainerWindow]; split_ifs <;> rfl

@[simp] theorem poolMaintainerWindow_delivered :
    (poolMaintainerWindow c load).delivered = c.delivered := by
  simp only [poolMaintainerWindow]; split_ifs <;> rfl

@[simp] theorem poolMaintainerWindow_inbox : (poolMaintainerWindow c load).inbox = c.inbox := by
  simp only [poolMaintainerWindow]; split_ifs <;> rfl

@[simp] theorem poolMaintainerWindow_handler :
    (poolMaintainerWindow c load).handler = c.handler := by
  simp only [poolMaintainerWindow]; split_ifs <;> rfl

@[simp] theorem poolMaintainerWindow_poolConnections :
    (poolMaintainerWindow c load).poolConnections = c.poolConnections := by
  simp only [poolMaintainerWindow]; split_ifs <;> rfl

@[simp] theorem poolMaintainerWindow_staleDecrements :
    (poolMaintainerWindow c load).staleDecrements = c.staleDecrements := by
  simp only [poolMaintainerWindow]; split_ifs <;> rfl

/-- The three outcomes of a window: grow by one dial, shrink by one token above the
floor, or keep the target. -/
theorem poolMaintainerWindow_cases :
    ((poolMaintainerWindow c load).maintainer = .selecting ∧
        (poolMaintainerWindow c load).newPoolSize = c.newPoolSize + 1 ∧
        (poolMaintainerWindow c load).dialers = c.dialers ++ [⟨c.epoch, .dialing⟩] ∧
        (poolMaintainerWindow c load).spawned = c.spawned + 1) ∨
      ((poolMaintainerWindow c load).maintainer = .handingShrink ∧
        c.connPoolSize < c.newPoolSize ∧
        (poolMaintainerWindow c load).newPoolSize = c.newPoolSize - 1 ∧
        (poolMaintainerWindow c load).dialers = c.dialers ∧
        (poolMaintainerWindow c load).spawned = c.spawned) ∨
      ((poolMaintainerWindow c load).maintainer = .selecting ∧
        (poolMaintainerWindow c load).newPoolSize = c.newPoolSize ∧
        (poolMaintainerWindow c load).dialers = c.dialers ∧
        (poolMaintainerWindow c load).spawned = c.spawned) := by
  simp only [poolMaintainerWindow]
  split_ifs with hgrow hshrink
  · exact .inl ⟨rfl, rfl, rfl, rfl⟩
  · exact .inr (.inl ⟨rfl, hshrink.2, rfl, rfl, rfl⟩)
  · exact .inr (.inr ⟨rfl, rfl, rfl, rfl⟩)

end poolMaintainerWindow

/-- `Restart` (tcp.go, lines 74–102) up to the next lifecycle's `poolMaintainer` and
`channelHandler`, on a control channel that delivers `bytes`. The dialers of earlier
lifecycles keep running. -/
def TcpTransport.restart (c : TcpTransport) (bytes : List Byte) : TcpTransport where
  connPoolSize := c.connPoolSize
  epoch := c.epoch + 1
  poolConnections := 0
  loadConnections := 0
  newPoolSize := c.connPoolSize
  poolConnectionsSum := 0
  maintainer := .filling 0
  handler := .selecting
  inbox := bytes
  dialers := c.dialers
  spawned := 0
  delivered := bytes
  consumed := []
  staleDecrements := 0

/-- One atomic action of one goroutine. -/
inductive Action
  /-- One iteration of the initial filling loop. -/
  | fill
  /-- The initial filling loop's exit. -/
  | fillDone
  /-- The one-second tick: `poolConnections` added to `poolConnectionsSum`. -/
  | sample
  /-- The 60-second tick, up to reading `loadConnections`. -/
  | windowRead
  /-- The rest of the 60-second case. -/
  | windowDecide
  /-- `channelHandler` takes one byte from `msgChan`. -/
  | signal
  /-- `channelHandler` takes a read error from `errChan`. -/
  | readFail
  /-- Dialer `i` returns from `TcpDialer`, successfully or not. -/
  | dial (i : Nat) (ok : Bool)
  /-- Dialer `i` returns from `ReceiveBinaryString`. -/
  | receive (i : Nat)
  /-- `Restart` runs, and the next control channel delivers the bytes. -/
  | restart (bytes : List Byte)
  deriving DecidableEq, Repr

/-- The transition function; `none` when the action is not enabled. -/
def step (c : TcpTransport) : Action → Option TcpTransport
  | .fill =>
    match c.maintainer with
    | .filling i =>
      if (i : Int) < c.connPoolSize then some { c.spawn with maintainer := .filling (i + 1) }
      else none
    | _ => none
  | .fillDone =>
    match c.maintainer with
    | .filling i =>
      if (i : Int) < c.connPoolSize then none else some { c with maintainer := .selecting }
    | _ => none
  | .sample =>
    if c.maintainer = .selecting then
      some { c with poolConnectionsSum := c.poolConnectionsSum + c.poolConnections }
    else none
  | .windowRead =>
    if c.maintainer = .selecting then some { c with maintainer := .deciding c.loadConnections }
    else none
  | .windowDecide =>
    match c.maintainer with
    | .deciding load => some (poolMaintainerWindow c load)
    | _ => none
  | .signal =>
    match c.handler, c.inbox with
    | .selecting, msg :: rest =>
      some (channelHandlerSignal { c with inbox := rest, consumed := c.consumed ++ [msg] } msg)
    | _, _ => none
  | .readFail => if c.handler = .selecting then some { c with handler := .restarting } else none
  | .dial i ok =>
    match c.dialers[i]? with
    | some ⟨e, .dialing⟩ =>
      some (if ok then
          { c with poolConnections := c.poolConnections + 1,
                   dialers := c.dialers.set i ⟨e, .pooled c.epoch⟩ }
        else { c with dialers := c.dialers.set i ⟨e, .finished⟩ })
    | _ => none
  | .receive i =>
    match c.dialers[i]? with
    | some ⟨e, .pooled p⟩ =>
      some { c with poolConnections := c.poolConnections - 1,
                    dialers := c.dialers.set i ⟨e, .finished⟩,
                    staleDecrements := if p = c.epoch then c.staleDecrements
                      else c.staleDecrements + 1 }
    | _ => none
  | .restart bytes => if c.handler = .restarting then some (c.restart bytes) else none

/-- Case analysis on one step of the client: what holds after every enabled action,
under the guards that enable it, holds after the step. -/
theorem step_cases {P : TcpTransport → Prop} {c c' : TcpTransport} {a : Action}
    (h : step c a = some c')
    (fill : ∀ i : Nat, c.maintainer = .filling i → (i : Int) < c.connPoolSize →
      P { c.spawn with maintainer := .filling (i + 1) })
    (fillDone : ∀ i : Nat, c.maintainer = .filling i → ¬(i : Int) < c.connPoolSize →
      P { c with maintainer := .selecting })
    (sample : c.maintainer = .selecting →
      P { c with poolConnectionsSum := c.poolConnectionsSum + c.poolConnections })
    (windowRead : c.maintainer = .selecting →
      P { c with maintainer := .deciding c.loadConnections })
    (windowDecide : ∀ load : Int, c.maintainer = .deciding load →
      P (poolMaintainerWindow c load))
    (signal : ∀ (msg : Byte) (rest : List Byte), c.handler = .selecting →
      c.inbox = msg :: rest →
      P (channelHandlerSignal { c with inbox := rest, consumed := c.consumed ++ [msg] } msg))
    (readFail : c.handler = .selecting → P { c with handler := .restarting })
    (dialOk : ∀ i e : Nat, c.dialers[i]? = some ⟨e, .dialing⟩ →
      P { c with poolConnections := c.poolConnections + 1,
                 dialers := c.dialers.set i ⟨e, .pooled c.epoch⟩ })
    (dialFail : ∀ i e : Nat, c.dialers[i]? = some ⟨e, .dialing⟩ →
      P { c with dialers := c.dialers.set i ⟨e, .finished⟩ })
    (receive : ∀ i e p : Nat, c.dialers[i]? = some ⟨e, .pooled p⟩ →
      P { c with poolConnections := c.poolConnections - 1,
                 dialers := c.dialers.set i ⟨e, .finished⟩,
                 staleDecrements := if p = c.epoch then c.staleDecrements
                   else c.staleDecrements + 1 })
    (restart : ∀ bytes : List Byte, c.handler = .restarting → P (c.restart bytes)) :
    P c' := by
  cases a <;> simp only [step] at h
  case fill | fillDone =>
    split at h
    · split_ifs at h with hi
      obtain rfl := Option.some.inj h
      first | exact fill _ ‹_› hi | exact fillDone _ ‹_› hi
    · cases h
  case sample | windowRead =>
    split_ifs at h with hm
    obtain rfl := Option.some.inj h
    first | exact sample hm | exact windowRead hm
  case windowDecide =>
    split at h
    · obtain rfl := Option.some.inj h
      exact windowDecide _ ‹_›
    · cases h
  case signal =>
    split at h
    · obtain rfl := Option.some.inj h
      exact signal _ _ ‹_› ‹_›
    · cases h
  case readFail =>
    split_ifs at h with hh
    obtain rfl := Option.some.inj h
    exact readFail hh
  case dial i ok =>
    split at h
    · obtain rfl := Option.some.inj h
      cases ok
      · exact dialFail i _ ‹_›
      · exact dialOk i _ ‹_›
    · cases h
  case receive i =>
    split at h
    · obtain rfl := Option.some.inj h
      exact receive i _ _ ‹_›
    · cases h
  case restart bytes =>
    split_ifs at h with hh
    obtain rfl := Option.some.inj h
    exact restart bytes hh

/-- The states a client reaches from a first lifecycle with these parameters. -/
inductive Reachable (connPoolSize : Int) (bytes : List Byte) : TcpTransport → Prop
  | init : Reachable connPoolSize bytes (TcpTransport.init connPoolSize bytes)
  | step {c c' : TcpTransport} {a : Action} :
      Reachable connPoolSize bytes c → step c a = some c' → Reachable connPoolSize bytes c'

/-- Running a list of actions in order. -/
def run (c : TcpTransport) : List Action → Option TcpTransport
  | [] => some c
  | a :: rest => (step c a).bind (run · rest)

theorem Reachable.run {connPoolSize : Int} {bytes : List Byte} {c c' : TcpTransport}
    {actions : List Action} (hc : Reachable connPoolSize bytes c) (h : run c actions = some c') :
    Reachable connPoolSize bytes c' := by
  induction actions generalizing c with
  | nil =>
    simp only [Client.run, Option.some.injEq] at h
    exact h ▸ hc
  | cons a rest ih =>
    simp only [Client.run, Option.bind_eq_some] at h
    obtain ⟨c₁, hstep, hrest⟩ := h
    exact ih (hc.step hstep) hrest

/-- An invariant that holds initially and is kept by every enabled action holds in
every reachable state. -/
theorem Reachable.invariant {connPoolSize : Int} {bytes : List Byte} {P : TcpTransport → Prop}
    (hinit : P (TcpTransport.init connPoolSize bytes))
    (hstep : ∀ {c c' : TcpTransport} {a : Action}, P c → Client.step c a = some c' → P c')
    {c : TcpTransport} (hc : Reachable connPoolSize bytes c) : P c := by
  induction hc with
  | init => exact hinit
  | step _ hs ih => exact hstep ih hs

@[simp] theorem spawn_spawned (c : TcpTransport) : c.spawn.spawned = c.spawned + 1 := rfl

@[simp] theorem spawn_maintainer (c : TcpTransport) : c.spawn.maintainer = c.maintainer := rfl

@[simp] theorem spawn_newPoolSize (c : TcpTransport) : c.spawn.newPoolSize = c.newPoolSize := rfl

@[simp] theorem spawn_connPoolSize (c : TcpTransport) : c.spawn.connPoolSize = c.connPoolSize := rfl

@[simp] theorem spawn_consumed (c : TcpTransport) : c.spawn.consumed = c.consumed := rfl

@[simp] theorem spawn_handler (c : TcpTransport) : c.spawn.handler = c.handler := rfl

@[simp] theorem spawn_poolConnections (c : TcpTransport) :
    c.spawn.poolConnections = c.poolConnections := rfl

@[simp] theorem spawn_epoch (c : TcpTransport) : c.spawn.epoch = c.epoch := rfl

@[simp] theorem spawn_delivered (c : TcpTransport) : c.spawn.delivered = c.delivered := rfl

@[simp] theorem spawn_inbox (c : TcpTransport) : c.spawn.inbox = c.inbox := rfl

@[simp] theorem spawn_loadConnections (c : TcpTransport) :
    c.spawn.loadConnections = c.loadConnections := rfl

@[simp] theorem spawn_staleDecrements (c : TcpTransport) :
    c.spawn.staleDecrements = c.staleDecrements := rfl

@[simp] theorem spawn_dialers (c : TcpTransport) :
    c.spawn.dialers = c.dialers ++ [⟨c.epoch, .dialing⟩] := rfl

end Backhaul.Client
