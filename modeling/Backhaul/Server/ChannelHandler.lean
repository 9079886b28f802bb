import Backhaul.Client.Signals

/-!
# The servers' control-channel handler

The three servers' `channelHandler` (part_000, lines 185–237; tcpmux.go, lines
203–255; part_001, lines 138–195) start one goroutine that reads a single unit from
the control channel and hands it over `resultChan`; the main loop restarts when that
unit is `SG_Closed` or the read failed, and otherwise keeps writing heartbeats and
`SG_Chan` requests. The unit is a byte on TCP and a WebSocket message on WS-mux, so
the handler is modelled once over the unit type and the test for `SG_Closed`.
-/

namespace Backhaul.Server

/-- Where the reader goroutine is. -/
inductive ReaderPc (α : Type)
  | reading
  /-- Blocked in `resultChan <- ...` with the unit read, or `none` for the error. -/
  | sending (result : Option α)
  | finished
  deriving DecidableEq, Repr

/-- Where the main loop is. -/
inductive LoopPc
  | selecting
  /-- Returned after `go s.Restart()`. -/
  | restarting
  /-- Returned on `ctx.Done()` after writing `SG_Closed`. -/
  | returned
  deriving DecidableEq, Repr

/-- A server's `channelHandler` and its reader goroutine. -/
structure ChannelHandler (α : Type) where
  reader : ReaderPc α
  loop : LoopPc
  /-- Units the control channel delivered that the reader has not read. -/
  inbox : List α
  /-- Ghost: the units the main loop took over `resultChan`. -/
  consumed : List α
  /-- Signals written on the control channel. -/
  sent : List Byte
  cancelled : Bool
  deriving DecidableEq, Repr

/-- The handler when it starts, on a control channel delivering `units`. -/
def ChannelHandler.init {α : Type} (units : List α) : ChannelHandler α :=
  ⟨.reading, .selecting, units, [], [], false⟩

/-- One atomic action of the handler's two goroutines, or the context's cancellation. -/
inductive HandlerAction
  /-- The reader reads the next unit. -/
  | read
  /-- The reader's read fails. -/
  | readFail
  /-- The main loop takes the reader's result. -/
  | result
  /-- The `reqNewConnChan` case writes `SG_Chan`; a failed write restarts. -/
  | request (ok : Bool)
  /-- The ticker case writes `SG_HB`; a failed write restarts. -/
  | tick (ok : Bool)
  | cancel
  /-- The `ctx.Done()` case writes `SG_Closed` and returns. -/
  | done
  deriving DecidableEq, Repr

section

variable {α : Type} (isClosed : α → Bool)

/-- A write of `signal` by the main loop, which restarts when it fails. -/
def ChannelHandler.write (h : ChannelHandler α) (signal : Byte) (ok : Bool) :
    ChannelHandler α :=
  { h with sent := h.sent ++ [signal], loop := if ok then .selecting else .restarting }

/-- The transition function of a server's `channelHandler`. -/
def handlerStep (h : ChannelHandler α) : HandlerAction → Option (ChannelHandler α)
  | .read =>
    match h.reader, h.inbox with
    | .reading, unit :: rest => some { h with reader := .sending (some unit), inbox := rest }
    | _, _ => none
  | .readFail =>
    match h.reader with
    | .reading => some { h with reader := .sending none }
    | _ => none
  | .result =>
    match h.loop, h.reader with
    | .selecting, .sending none => some { h with reader := .finished, loop := .restarting }
    | .selecting, .sending (some unit) =>
      some { h with reader := .finished, consumed := h.consumed ++ [unit],
                    loop := if isClosed unit then .restarting else .selecting }
    | _, _ => none
  | .request ok => if h.loop = .selecting then some (h.write sgChan ok) else none
  | .tick ok => if h.loop = .selecting then some (h.write sgHB ok) else none
  | .cancel => some { h with cancelled := true }
  | .done =>
    if h.loop = .selecting ∧ h.cancelled then
      some { h with sent := h.sent ++ [sgClosed], loop := .returned }
    else none

end

/-- `result.message == utils.SG_Closed` of the TCP and TCP-mux servers. -/
def tcpIsClosed (message : Byte) : Bool := message = sgClosed

end Backhaul.Server
