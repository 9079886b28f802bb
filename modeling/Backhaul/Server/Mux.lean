import Mathlib.Data.List.Basic

/-!
# The mux pairing machine as a transition system

The pairing part of `internal/server/transport/tcpmux.go` (and of the WS-mux server
in part_001, whose `handleLoop`, `handleSession`, `handleSessionError` and
`finalizeSession` have the same bodies up to a 1 ms sleep): the handle loops, one
`handleSession` task per session they take, the copiers those tasks start, and the
channels between them. Channels with a buffer hold their items in order; a send to an
empty buffer may also meet a waiting receiver directly, as Go hands the value over,
which is the only way through a channel of capacity zero. The unbuffered `next` of a
handle loop is a rendezvous, and the `done` channel of a session is a buffer of
capacity `MuxCon` with the copiers blocked on it counted.
-/

namespace Backhaul.Server

/-- Where a `handleLoop` is. -/
inductive LoopState
  /-- At its `select` on `ctx.Done()` and `tunnelChannel`. -/
  | selecting
  /-- In `<-next`, after starting a `handleSession`. -/
  | awaitingNext
  | returned
  deriving DecidableEq, Repr

/-- Where a `handleSession` task is, with `handleSessionError` and `finalizeSession`
inlined. -/
inductive SessionPc
  /-- At its `select` on `ctx.Done()` and `localChannel`. -/
  | selecting
  /-- In `handleSessionError`'s `s.localChannel <- *incomingConn`. -/
  | requeueing (conn : Nat)
  /-- In `handleSessionError`'s `next <- struct{}{}`. -/
  | errNotifying
  /-- In `handleSessionError`'s loop on `done`, with this many receipts left. -/
  | errDraining (left : Nat)
  /-- In `finalizeSession`'s `next <- struct{}{}`. -/
  | finNotifying
  /-- In `finalizeSession`'s loop on `done`. -/
  | finDraining (left : Nat)
  /-- In the `ctx.Done()` case's loop on `done`. -/
  | cancelDraining (left : Nat)
  /-- Returned after `session.Close()`. -/
  | closed
  /-- Returned from the `ctx.Done()` case, without closing the session. -/
  | returned
  deriving DecidableEq, Repr

/-- A `handleSession` task on one session. -/
structure SessionTask where
  /-- The handle loop whose `next` the task was given. -/
  owner : Nat
  session : Nat
  counter : Nat
  /-- Copiers still copying. -/
  copiers : Nat
  /-- Copiers blocked in `done <- struct{}{}`. -/
  blocked : Nat
  /-- Items in the `done` buffer. -/
  done : Nat
  /-- Ghost: receipts from `done`. -/
  received : Nat
  /-- Ghost: streams opened on the session. -/
  opened : Nat
  pc : SessionPc
  deriving DecidableEq, Repr

/-- The task `handleLoop` starts on a session it took. -/
def SessionTask.start (owner session : Nat) : SessionTask :=
  ⟨owner, session, 0, 0, 0, 0, 0, 0, .selecting⟩

/-- The mux server's pairing state: `config.ChannelSize`, `config.MuxCon`, the
context, the three channels and the tasks. -/
structure TcpMuxTransport where
  channelSize : Nat
  muxCon : Nat
  cancelled : Bool
  /-- User connections parked on `localChannel`, oldest first. -/
  localChannel : List Nat
  /-- Sessions queued on `tunnelChannel`, oldest first. -/
  tunnelChannel : List Nat
  /-- Tokens in `reqNewConnChan`. -/
  reqNewConnChan : Nat
  loops : List LoopState
  sessions : List SessionTask
  deriving DecidableEq, Repr

/-- The pairing state once `Start` has started `handleLoops` handle loops. -/
def TcpMuxTransport.init (channelSize muxCon handleLoops : Nat) : TcpMuxTransport :=
  ⟨channelSize, muxCon, false, [], [], 0, List.replicate handleLoops .selecting, []⟩

/-- `handleSession` with a connection it received (tcpmux.go, lines 460–485): a failed
`OpenStream` or `SendBinaryString` goes to `handleSessionError`; otherwise a copier
starts, and the `MuxCon`-th one goes to `finalizeSession`. -/
def SessionTask.receive (muxCon : Nat) (t : SessionTask) (conn : Nat) (openOk sendOk : Bool) :
    SessionTask :=
  if !openOk then { t with pc := .requeueing conn }
  else if !sendOk then { t with opened := t.opened + 1, pc := .requeueing conn }
  else
    { t with opened := t.opened + 1, copiers := t.copiers + 1, counter := t.counter + 1,
             pc := if t.counter + 1 = muxCon then .finNotifying else .selecting }

/-- A copier's `done <- struct{}{}`: into the buffer when it has room, blocked otherwise. -/
def SessionTask.copierFinish (muxCon : Nat) (t : SessionTask) : SessionTask :=
  if t.done < muxCon then { t with copiers := t.copiers - 1, done := t.done + 1 }
  else { t with copiers := t.copiers - 1, blocked := t.blocked + 1 }

/-- One `<-done`: from the buffer, refilled by a blocked copier, or from a blocked
copier directly when the buffer is empty. -/
def SessionTask.takeDone (t : SessionTask) : Option SessionTask :=
  if 0 < t.done then
    some { t with done := t.done - 1 + (if 0 < t.blocked then 1 else 0),
                  blocked := t.blocked - 1, received := t.received + 1 }
  else if 0 < t.blocked then
    some { t with blocked := t.blocked - 1, received := t.received + 1 }
  else none

/-- The next position of a draining loop after one receipt, and the end of a drained one. -/
def SessionPc.drained : SessionPc → Option SessionPc
  | .errDraining (k + 1) => some (.errDraining k)
  | .finDraining (k + 1) => some (.finDraining k)
  | .cancelDraining (k + 1) => some (.cancelDraining k)
  | _ => none

/-- One atomic action of one task, or the context's cancellation. -/
inductive MuxAction
  /-- `acceptLocalConn`'s non-blocking send of a user connection. -/
  | acceptLocal (conn : Nat)
  /-- `acceptTunnelConn`'s non-blocking send of a new session. -/
  | acceptSession (session : Nat)
  /-- Handle loop `l` takes the oldest queued session. -/
  | loopTake (l : Nat)
  /-- `acceptTunnelConn`'s send meets handle loop `l` waiting on an empty channel. -/
  | loopHandoff (l session : Nat)
  | loopCancel (l : Nat)
  /-- Session task `j` takes the oldest parked connection. -/
  | sessionTake (j : Nat) (openOk sendOk : Bool)
  /-- `acceptLocalConn`'s send meets session task `j` waiting on an empty channel. -/
  | sessionHandoff (j conn : Nat) (openOk sendOk : Bool)
  | sessionCancel (j : Nat)
  /-- Session task `j` returns its connection to `localChannel`'s buffer. -/
  | requeue (j : Nat)
  /-- Session task `j`'s requeue meets session task `k` waiting on an empty channel. -/
  | requeueHandoff (j k : Nat) (openOk sendOk : Bool)
  /-- Session task `j`'s `next <- struct{}{}` meets its loop's `<-next`, followed by the
  non-blocking send on `reqNewConnChan`. -/
  | notify (j : Nat)
  /-- One copier of session task `j` finishes and sends on `done`. -/
  | copierFinish (j : Nat)
  /-- Session task `j` receives once from `done`. -/
  | drain (j : Nat)
  /-- Session task `j` leaves its drained loop, closing the session or not. -/
  | drainEnd (j : Nat)
  | cancel
  deriving DecidableEq, Repr

/-- Where `next <- struct{}{}` leads once its loop has received it. -/
def SessionPc.notified (counter : Nat) : SessionPc → Option SessionPc
  | .errNotifying => some (.errDraining counter)
  | .finNotifying => some (.finDraining counter)
  | _ => none

/-- Where a drained loop on `done` leads: `session.Close()` after `handleSessionError`
and `finalizeSession`, a bare return in the `ctx.Done()` case. -/
def SessionPc.drainEnd : SessionPc → Option SessionPc
  | .errDraining 0 => some .closed
  | .finDraining 0 => some .closed
  | .cancelDraining 0 => some .returned
  | _ => none

/-- The non-blocking `select` send on a buffered channel: dropped when full. -/
def offer {α : Type} (capacity : Nat) (queue : List α) (item : α) : List α :=
  if queue.length < capacity then queue ++ [item] else queue

/-- What a non-blocking send leaves in the buffer is what was there, and the item. -/
theorem mem_offer {α : Type} {capacity : Nat} {queue : List α} {item x : α}
    (h : x ∈ offer capacity queue item) : x ∈ queue ∨ x = item := by
  unfold offer at h
  split_ifs at h
  · simpa using h
  · exact .inl h

/-- Replacing an element by one that `f` reads alike leaves what `f` reads of the list. -/
theorem map_set_of_eq {α β : Type} (f : α → β) {l : List α} {i : Nat} {a b : α}
    (hi : l[i]? = some a) (hb : f b = f a) : (l.set i b).map f = l.map f := by
  induction l generalizing i with
  | nil => cases hi
  | cons x l ih =>
    cases i with
    | zero =>
      obtain rfl : x = a := by simpa using hi
      simp [hb]
    | succ i => simp [ih (by simpa using hi)]

namespace TcpMuxTransport

/-- Replace session task `j`. -/
def setSession (s : TcpMuxTransport) (j : Nat) (t : SessionTask) : TcpMuxTransport :=
  { s with sessions := s.sessions.set j t }

/-- Handle loop `l` starts `handleSession` on `session` and waits on `next`. -/
def startSession (s : TcpMuxTransport) (l session : Nat) : TcpMuxTransport :=
  { s with loops := s.loops.set l .awaitingNext,
           sessions := s.sessions ++ [SessionTask.start l session] }

end TcpMuxTransport

open TcpMuxTransport in
/-- The transition function of the pairing machine; `none` when the action is not
enabled. -/
def muxStep (s : TcpMuxTransport) : MuxAction → Option TcpMuxTransport
  | .acceptLocal conn => some { s with localChannel := offer s.channelSize s.localChannel conn }
  | .acceptSession session =>
    some { s with tunnelChannel := offer s.channelSize s.tunnelChannel session }
  | .loopTake l =>
    match s.loops[l]?, s.tunnelChannel with
    | some .selecting, session :: rest =>
      some ({ s with tunnelChannel := rest }.startSession l session)
    | _, _ => none
  | .loopHandoff l session =>
    match s.loops[l]?, s.tunnelChannel with
    | some .selecting, [] => some (s.startSession l session)
    | _, _ => none
  | .loopCancel l =>
    match s.loops[l]? with
    | some .selecting =>
      if s.cancelled then some { s with loops := s.loops.set l .returned } else none
    | _ => none
  | .sessionTake j openOk sendOk =>
    match s.sessions[j]?, s.localChannel with
    | some t, conn :: rest =>
      if t.pc = .selecting then
        some ({ s with localChannel := rest }.setSession j (t.receive s.muxCon conn openOk sendOk))
      else none
    | _, _ => none
  | .sessionHandoff j conn openOk sendOk =>
    match s.sessions[j]? with
    | some t =>
      if t.pc = .selecting ∧ s.localChannel = [] then
        some (s.setSession j (t.receive s.muxCon conn openOk sendOk))
      else none
    | none => none
  | .sessionCancel j =>
    match s.sessions[j]? with
    | some t =>
      if t.pc = .selecting ∧ s.cancelled then
        some (s.setSession j { t with pc := .cancelDraining t.counter })
      else none
    | none => none
  | .requeue j =>
    match s.sessions[j]? with
    | some t =>
      match t.pc with
      | .requeueing conn =>
        if s.localChannel.length < s.channelSize then
          some ({ s with localChannel := s.localChannel ++ [conn] }.setSession j
            { t with pc := .errNotifying })
        else none
      | _ => none
    | none => none
  | .requeueHandoff j k openOk sendOk =>
    match s.sessions[j]?, s.sessions[k]? with
    | some t, some u =>
      match t.pc with
      | .requeueing conn =>
        if u.pc = .selecting ∧ s.localChannel = [] then
          some ((s.setSession j { t with pc := .errNotifying }).setSession k
            (u.receive s.muxCon conn openOk sendOk))
        else none
      | _ => none
    | _, _ => none
  | .notify j =>
    match s.sessions[j]? with
    | some t =>
      match t.pc.notified t.counter, s.loops[t.owner]? with
      | some pc, some .awaitingNext =>
        some ({ s with loops := s.loops.set t.owner .selecting,
                       reqNewConnChan := if s.reqNewConnChan < s.channelSize then
                         s.reqNewConnChan + 1 else s.reqNewConnChan }.setSession j
          { t with pc := pc })
      | _, _ => none
    | none => none
  | .copierFinish j =>
    match s.sessions[j]? with
    | some t => if 0 < t.copiers then some (s.setSession j (t.copierFinish s.muxCon)) else none
    | none => none
  | .drain j =>
    match s.sessions[j]? with
    | some t =>
      match t.pc.drained, t.takeDone with
      | some pc, some t' => some (s.setSession j { t' with pc := pc })
      | _, _ => none
    | none => none
  | .drainEnd j =>
    match s.sessions[j]? with
    | some t =>
      match t.pc.drainEnd with
      | some pc => some (s.setSession j { t with pc := pc })
      | none => none
    | none => none
  | .cancel => some { s with cancelled := true }

/-- Case analysis on one step of the pairing machine, by its action: what holds of every
enabled action and the state it leads to, under the guards that enable it, holds of the
step. -/
theorem muxStep_action_cases {P : MuxAction → TcpMuxTransport → Prop} {s s' : TcpMuxTransport}
    {a : MuxAction}
    (h : muxStep s a = some s')
    (acceptLocal : ∀ conn : Nat,
      P (.acceptLocal conn) { s with localChannel := offer s.channelSize s.localChannel conn })
    (acceptSession : ∀ session : Nat,
      P (.acceptSession session)
        { s with tunnelChannel := offer s.channelSize s.tunnelChannel session })
    (loopTake : ∀ (l session : Nat) (rest : List Nat), s.loops[l]? = some .selecting →
      s.tunnelChannel = session :: rest →
      P (.loopTake l) ({ s with tunnelChannel := rest }.startSession l session))
    (loopHandoff : ∀ l session : Nat, s.loops[l]? = some .selecting → s.tunnelChannel = [] →
      P (.loopHandoff l session) (s.startSession l session))
    (loopCancel : ∀ l : Nat, s.loops[l]? = some .selecting → s.cancelled = true →
      P (.loopCancel l) { s with loops := s.loops.set l .returned })
    (sessionTake : ∀ (j : Nat) (t : SessionTask) (conn : Nat) (rest : List Nat)
      (openOk sendOk : Bool), s.sessions[j]? = some t →
      s.localChannel = conn :: rest → t.pc = .selecting →
      P (.sessionTake j openOk sendOk)
        ({ s with localChannel := rest }.setSession j (t.receive s.muxCon conn openOk sendOk)))
    (sessionHandoff : ∀ (j : Nat) (t : SessionTask) (conn : Nat) (openOk sendOk : Bool),
      s.sessions[j]? = some t → t.pc = .selecting →
      s.localChannel = [] →
      P (.sessionHandoff j conn openOk sendOk)
        (s.setSession j (t.receive s.muxCon conn openOk sendOk)))
    (sessionCancel : ∀ (j : Nat) (t : SessionTask), s.sessions[j]? = some t →
      t.pc = .selecting → s.cancelled = true →
      P (.sessionCancel j) (s.setSession j { t with pc := .cancelDraining t.counter }))
    (requeue : ∀ (j : Nat) (t : SessionTask) (conn : Nat), s.sessions[j]? = some t →
      t.pc = .requeueing conn → s.localChannel.length < s.channelSize →
      P (.requeue j) ({ s with localChannel := s.localChannel ++ [conn] }.setSession j
        { t with pc := .errNotifying }))
    (requeueHandoff : ∀ (j k : Nat) (t u : SessionTask) (conn : Nat) (openOk sendOk : Bool),
      s.sessions[j]? = some t →
      s.sessions[k]? = some u → t.pc = .requeueing conn → u.pc = .selecting →
      s.localChannel = [] →
      P (.requeueHandoff j k openOk sendOk)
        ((s.setSession j { t with pc := .errNotifying }).setSession k
          (u.receive s.muxCon conn openOk sendOk)))
    (notify : ∀ (j : Nat) (t : SessionTask) (pc : SessionPc), s.sessions[j]? = some t →
      t.pc.notified t.counter = some pc → s.loops[t.owner]? = some .awaitingNext →
      P (.notify j)
        ({ s with loops := s.loops.set t.owner .selecting,
                  reqNewConnChan := if s.reqNewConnChan < s.channelSize then
                    s.reqNewConnChan + 1 else s.reqNewConnChan }.setSession j { t with pc := pc }))
    (copierFinish : ∀ (j : Nat) (t : SessionTask), s.sessions[j]? = some t → 0 < t.copiers →
      P (.copierFinish j) (s.setSession j (t.copierFinish s.muxCon)))
    (drain : ∀ (j : Nat) (t t' : SessionTask) (pc : SessionPc), s.sessions[j]? = some t →
      t.pc.drained = some pc → t.takeDone = some t' →
      P (.drain j) (s.setSession j { t' with pc := pc }))
    (drainEnd : ∀ (j : Nat) (t : SessionTask) (pc : SessionPc), s.sessions[j]? = some t →
      t.pc.drainEnd = some pc → P (.drainEnd j) (s.setSession j { t with pc := pc }))
    (cancel : P .cancel { s with cancelled := true }) : P a s' := by
  cases a <;> simp only [muxStep] at h
  case acceptLocal conn =>
    obtain rfl := Option.some.inj h
    exact acceptLocal conn
  case acceptSession session =>
    obtain rfl := Option.some.inj h
    exact acceptSession session
  case cancel =>
    obtain rfl := Option.some.inj h
    exact cancel
  case loopTake l =>
    split at h
    · obtain rfl := Option.some.inj h
      exact loopTake l _ _ ‹_› ‹_›
    · cases h
  case loopHandoff l session =>
    split at h
    · obtain rfl := Option.some.inj h
      exact loopHandoff l session ‹_› ‹_›
    · cases h
  case loopCancel l =>
    split at h
    · split_ifs at h with hc
      obtain rfl := Option.some.inj h
      exact loopCancel l ‹_› hc
    · cases h
  case sessionTake j openOk sendOk =>
    split at h
    · split_ifs at h with hpc
      obtain rfl := Option.some.inj h
      exact sessionTake j _ _ _ openOk sendOk ‹_› ‹_› hpc
    · cases h
  case sessionHandoff j conn openOk sendOk =>
    split at h
    · split_ifs at h with hpc
      obtain rfl := Option.some.inj h
      exact sessionHandoff j _ conn openOk sendOk ‹_› hpc.1 hpc.2
    · cases h
  case sessionCancel j =>
    split at h
    · split_ifs at h with hpc
      obtain rfl := Option.some.inj h
      exact sessionCancel j _ ‹_› hpc.1 hpc.2
    · cases h
  case requeue j =>
    split at h
    · split at h
      · split_ifs at h with hroom
        obtain rfl := Option.some.inj h
        exact requeue j _ _ ‹_› ‹_› hroom
      · cases h
    · cases h
  case requeueHandoff j k openOk sendOk =>
    split at h
    · rename_i t u hj hk
      split at h
      · split_ifs at h with hu
        obtain rfl := Option.some.inj h
        exact requeueHandoff j k t u _ openOk sendOk hj hk ‹_› hu.1 hu.2
      · cases h
    · cases h
  case notify j =>
    split at h
    · split at h
      · obtain rfl := Option.some.inj h
        exact notify j _ _ ‹_› ‹_› ‹_›
      · cases h
    · cases h
  case copierFinish j =>
    split at h
    · split_ifs at h with hcopying
      obtain rfl := Option.some.inj h
      exact copierFinish j _ ‹_› hcopying
    · cases h
  case drain j =>
    split at h
    · split at h
      · obtain rfl := Option.some.inj h
        exact drain j _ _ _ ‹_› ‹_› ‹_›
      · cases h
    · cases h
  case drainEnd j =>
    split at h
    · split at h
      · obtain rfl := Option.some.inj h
        exact drainEnd j _ _ ‹_› ‹_›
      · cases h
    · cases h

/-- Case analysis on one step of the pairing machine: what holds after every enabled
action, under the guards that enable it, holds after the step. -/
theorem muxStep_cases {P : TcpMuxTransport → Prop} {s s' : TcpMuxTransport} {a : MuxAction}
    (h : muxStep s a = some s')
    (acceptLocal : ∀ conn : Nat,
      P { s with localChannel := offer s.channelSize s.localChannel conn })
    (acceptSession : ∀ session : Nat,
      P { s with tunnelChannel := offer s.channelSize s.tunnelChannel session })
    (loopTake : ∀ (l session : Nat) (rest : List Nat), s.loops[l]? = some .selecting →
      s.tunnelChannel = session :: rest →
      P ({ s with tunnelChannel := rest }.startSession l session))
    (loopHandoff : ∀ l session : Nat, s.loops[l]? = some .selecting → s.tunnelChannel = [] →
      P (s.startSession l session))
    (loopCancel : ∀ l : Nat, s.loops[l]? = some .selecting → s.cancelled = true →
      P { s with loops := s.loops.set l .returned })
    (sessionTake : ∀ (j : Nat) (t : SessionTask) (conn : Nat) (rest : List Nat)
      (openOk sendOk : Bool), s.sessions[j]? = some t →
      s.localChannel = conn :: rest → t.pc = .selecting →
      P ({ s with localChannel := rest }.setSession j (t.receive s.muxCon conn openOk sendOk)))
    (sessionHandoff : ∀ (j : Nat) (t : SessionTask) (conn : Nat) (openOk sendOk : Bool),
      s.sessions[j]? = some t → t.pc = .selecting →
      s.localChannel = [] → P (s.setSession j (t.receive s.muxCon conn openOk sendOk)))
    (sessionCancel : ∀ (j : Nat) (t : SessionTask), s.sessions[j]? = some t →
      t.pc = .selecting → s.cancelled = true →
      P (s.setSession j { t with pc := .cancelDraining t.counter }))
    (requeue : ∀ (j : Nat) (t : SessionTask) (conn : Nat), s.sessions[j]? = some t →
      t.pc = .requeueing conn → s.localChannel.length < s.channelSize →
      P ({ s with localChannel := s.localChannel ++ [conn] }.setSession j
        { t with pc := .errNotifying }))
    (requeueHandoff : ∀ (j k : Nat) (t u : SessionTask) (conn : Nat) (openOk sendOk : Bool),
      s.sessions[j]? = some t →
      s.sessions[k]? = some u → t.pc = .requeueing conn → u.pc = .selecting →
      s.localChannel = [] →
      P ((s.setSession j { t with pc := .errNotifying }).setSession k
        (u.receive s.muxCon conn openOk sendOk)))
    (notify : ∀ (j : Nat) (t : SessionTask) (pc : SessionPc), s.sessions[j]? = some t →
      t.pc.notified t.counter = some pc → s.loops[t.owner]? = some .awaitingNext →
      P ({ s with loops := s.loops.set t.owner .selecting,
                  reqNewConnChan := if s.reqNewConnChan < s.channelSize then
                    s.reqNewConnChan + 1 else s.reqNewConnChan }.setSession j { t with pc := pc }))
    (copierFinish : ∀ (j : Nat) (t : SessionTask), s.sessions[j]? = some t → 0 < t.copiers →
      P (s.setSession j (t.copierFinish s.muxCon)))
    (drain : ∀ (j : Nat) (t t' : SessionTask) (pc : SessionPc), s.sessions[j]? = some t →
      t.pc.drained = some pc → t.takeDone = some t' → P (s.setSession j { t' with pc := pc }))
    (drainEnd : ∀ (j : Nat) (t : SessionTask) (pc : SessionPc), s.sessions[j]? = some t →
      t.pc.drainEnd = some pc → P (s.setSession j { t with pc := pc }))
    (cancel : P { s with cancelled := true }) : P s' :=
  muxStep_action_cases (P := fun _ => P) h acceptLocal acceptSession loopTake loopHandoff loopCancel
    sessionTake sessionHandoff sessionCancel requeue requeueHandoff notify copierFinish drain
    drainEnd cancel

/-- The states the pairing machine reaches from its start. -/
inductive MuxReachable (channelSize muxCon handleLoops : Nat) : TcpMuxTransport → Prop
  | init : MuxReachable channelSize muxCon handleLoops
      (TcpMuxTransport.init channelSize muxCon handleLoops)
  | step {s s' : TcpMuxTransport} {a : MuxAction} :
      MuxReachable channelSize muxCon handleLoops s → muxStep s a = some s' →
      MuxReachable channelSize muxCon handleLoops s'

/-- The states the pairing machine reaches from `s`. -/
inductive MuxFrom (s : TcpMuxTransport) : TcpMuxTransport → Prop
  | refl : MuxFrom s s
  | step {s' s'' : TcpMuxTransport} {a : MuxAction} :
      MuxFrom s s' → muxStep s' a = some s'' → MuxFrom s s''

/-- Running a list of actions in order. -/
def muxRun (s : TcpMuxTransport) : List MuxAction → Option TcpMuxTransport
  | [] => some s
  | a :: rest => (muxStep s a).bind (muxRun · rest)

theorem MuxReachable.run {channelSize muxCon handleLoops : Nat} {s s' : TcpMuxTransport}
    {actions : List MuxAction} (hs : MuxReachable channelSize muxCon handleLoops s)
    (h : muxRun s actions = some s') : MuxReachable channelSize muxCon handleLoops s' := by
  induction actions generalizing s with
  | nil =>
    simp only [muxRun, Option.some.injEq] at h
    exact h ▸ hs
  | cons a rest ih =>
    simp only [muxRun, Option.bind_eq_some] at h
    obtain ⟨s₁, hstep, hrest⟩ := h
    exact ih (hs.step hstep) hrest

/-- A set of states closed under every action contains every state reached from one
of its members. -/
theorem MuxFrom.closed {P : TcpMuxTransport → Prop}
    (hstep : ∀ {s s' : TcpMuxTransport} {a : MuxAction}, P s → muxStep s a = some s' → P s')
    {s s' : TcpMuxTransport} (hfrom : MuxFrom s s') (hs : P s) : P s' := by
  induction hfrom with
  | refl => exact hs
  | step _ h ih => exact hstep ih h

theorem MuxFrom.reachable {channelSize muxCon handleLoops : Nat} {s s' : TcpMuxTransport}
    (hs : MuxReachable channelSize muxCon handleLoops s) (hfrom : MuxFrom s s') :
    MuxReachable channelSize muxCon handleLoops s' :=
  MuxFrom.closed (fun ih h => MuxReachable.step ih h) hfrom hs

end Backhaul.Server
