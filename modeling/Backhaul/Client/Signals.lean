import Backhaul.Client.Transport

/-!
# The client's control-channel consumer

`channelHandler` takes the bytes its reader goroutine queues on `msgChan` in the
order they arrived, and stops at the first byte other than `SG_HB` and `SG_Chan`,
starting `Restart`. Each `SG_Chan` counts one load and makes one decision: a dial, or
the shrink token the maintainer is blocked handing over.
-/

namespace Backhaul.Client

/-- The bytes `channelHandler` handles without restarting. -/
def isKeptSignal (msg : Byte) : Bool := msg = sgHB || msg = sgChan

/-- The consumer's order and stopping point. -/
structure SignalInv (c : TcpTransport) : Prop where
  /-- Bytes are handled in arrival order. -/
  order : c.consumed ++ c.inbox = c.delivered
  /-- Only the last handled byte may be one that restarts. -/
  kept : ∀ msg ∈ c.consumed.dropLast, isKeptSignal msg = true
  /-- While the handler selects, it has handled no byte that restarts. -/
  selecting : c.handler = .selecting → ∀ msg ∈ c.consumed, isKeptSignal msg = true

theorem signalInv_init (connPoolSize : Int) (bytes : List Byte) :
    SignalInv (TcpTransport.init connPoolSize bytes) where
  order := rfl
  kept := by simp [TcpTransport.init]
  selecting := by simp [TcpTransport.init]

/-- The handler's position after one byte: it keeps selecting on `SG_HB` and `SG_Chan`,
and initiates `Restart` on every other byte. -/
theorem channelHandlerSignal_handler (c : TcpTransport) (msg : Byte) :
    (channelHandlerSignal c msg).handler =
      if isKeptSignal msg then c.handler else .restarting := by
  have h := congrArg Prod.fst (channelHandlerSignal_handler_loadConnections c msg)
  simp only at h
  rw [h]
  by_cases hchan : msg = sgChan
  · simp [hchan, isKeptSignal]
  · by_cases hhb : msg = sgHB
    · subst hhb
      simp [isKeptSignal, show sgHB ≠ sgChan by decide]
    · simp [hchan, hhb, isKeptSignal]

/-- Every enabled action keeps the consumer's order and stopping point. -/
theorem signalInv_step {c c' : TcpTransport} {a : Action} (hc : SignalInv c)
    (h : step c a = some c') : SignalInv c' := by
  have hkeep : ∀ {c'' : TcpTransport}, c''.consumed = c.consumed → c''.inbox = c.inbox →
      c''.delivered = c.delivered → c''.handler = c.handler → SignalInv c'' :=
    fun hcons hin hdel hh => ⟨by rw [hcons, hin, hdel]; exact hc.order, hcons ▸ hc.kept,
      fun hsel => hcons ▸ hc.selecting (hh ▸ hsel)⟩
  apply step_cases h
  case signal =>
    intro msg rest hhandler hinbox
    refine ⟨by simp [← hc.order, hinbox], ?_, fun hsel msg' hmsg' => ?_⟩
    · rw [channelHandlerSignal_consumed, List.dropLast_concat]
      exact hc.selecting hhandler
    · rw [channelHandlerSignal_consumed, List.mem_append, List.mem_singleton] at hmsg'
      rw [channelHandlerSignal_handler] at hsel
      rcases hmsg' with hmsg' | rfl
      · exact hc.selecting hhandler msg' hmsg'
      · split_ifs at hsel with hkept
        exact hkept
  case readFail => exact fun _ => ⟨hc.order, hc.kept, fun h => by cases h⟩
  case restart =>
    exact fun _ _ => ⟨by simp [TcpTransport.restart], by simp [TcpTransport.restart],
      by simp [TcpTransport.restart]⟩
  case fill | fillDone => exact fun _ _ _ => hkeep rfl rfl rfl rfl
  case sample | windowRead => exact fun _ => hkeep rfl rfl rfl rfl
  case windowDecide => exact fun _ _ => hkeep (by simp) (by simp) (by simp) (by simp)
  case dialOk | dialFail => exact fun _ _ _ => hkeep rfl rfl rfl rfl
  case receive => exact fun _ _ _ _ => hkeep rfl rfl rfl rfl

/-- In every reachable state the handler has taken the delivered bytes in arrival
order, every handled byte before the last was `SG_HB` or `SG_Chan`, and while it still
selects no handled byte was another. -/
theorem Reachable.signalInv {connPoolSize : Int} {bytes : List Byte} {c : TcpTransport}
    (hc : Reachable connPoolSize bytes c) : SignalInv c :=
  hc.invariant (signalInv_init connPoolSize bytes) signalInv_step

end Backhaul.Client
