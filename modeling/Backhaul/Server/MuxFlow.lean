import Backhaul.Server.TcpFlow
import Backhaul.Server.MuxSession

/-!
# The mux servers' user connections and requests

In the TCP-mux server (`internal/server/transport/tcpmux.go`) and the WS-mux server
(part_001) a session task takes user connections from `localChannel` and opens one stream
for each. When `OpenStream` or the address send fails, `handleSessionError` puts the
connection back on `localChannel`; when the session ends, by that error or after `MuxCon`
streams, the task gives its handle loop `next` and asks for a new tunnel connection on
`reqNewConnChan`, which `channelHandler` turns into `SG_Chan`.

This module runs the pairing machine of `Server.Mux` and the handler of
`Server.ChannelHandler` as one transition system, with a ghost account of the user
connections. Each step of the pairing machine satisfies one flow equation (`muxStep_flow`);
from it, along every run no user connection is lost or duplicated, requeues and handoffs
included, so none is streamed twice. The server writes at most one `SG_Chan` per session
task that has given its loop back.
-/

namespace Backhaul.Server

/-! ## What a session task holds -/

/-- The user connection a session task holds: the one `handleSessionError` is putting back
on `localChannel`. -/
def SessionPc.requeued : SessionPc → Option Nat
  | .requeueing conn => some conn
  | _ => none

/-- The user connections the session tasks hold. -/
def heldConns (sessions : List SessionTask) : List Nat := sessions.filterMap (·.pc.requeued)

/-- Whether a session task has sent on its loop's `next`, and with it made its request for
a new tunnel connection: it drains `done` after `handleSessionError` or `finalizeSession`,
or has closed the session after them. -/
def SessionPc.notifiedNext : SessionPc → Bool
  | .errDraining _ | .finDraining _ | .closed => true
  | _ => false

/-- The session tasks that have made their request. -/
def notifiedCount (sessions : List SessionTask) : Nat := sessions.countP (·.pc.notifiedNext)

/-- The user connection an action takes from `acceptLocalConn`: its send into the buffer,
or straight to a waiting session task. -/
def MuxAction.accepted : MuxAction → List Nat
  | .acceptLocal conn => [conn]
  | .sessionHandoff _ conn _ _ => [conn]
  | _ => []

/-- Whether an action is a session task's `next <- struct{}{}` and request. -/
def MuxAction.isNotify : MuxAction → Bool
  | .notify _ => true
  | _ => false

/-- The user connection `acceptLocalConn` closes because `localChannel` is full. -/
def refusedBy (s : TcpMuxTransport) : MuxAction → List Nat
  | .acceptLocal conn => if s.localChannel.length < s.channelSize then [] else [conn]
  | _ => []

/-- The user connection a session task starts copying on a new stream. -/
def streamedBy (s : TcpMuxTransport) : MuxAction → List Nat
  | .sessionTake _ openOk sendOk => if openOk && sendOk then s.localChannel.take 1 else []
  | .sessionHandoff _ conn openOk sendOk => if openOk && sendOk then [conn] else []
  | .requeueHandoff j _ openOk sendOk =>
    if openOk && sendOk then ((s.sessions[j]?).bind (·.pc.requeued)).toList else []
  | _ => []

/-- The session an action takes from `acceptTunnelConn`: its send into the buffer, or
straight to a waiting handle loop. -/
def MuxAction.sessionAccepted : MuxAction → List Nat
  | .acceptSession session => [session]
  | .loopHandoff _ session => [session]
  | _ => []

/-- The session `acceptTunnelConn` closes because `tunnelChannel` is full. -/
def sessionRefusedBy (s : TcpMuxTransport) : MuxAction → List Nat
  | .acceptSession session => if s.tunnelChannel.length < s.channelSize then [] else [session]
  | _ => []

/-! ## The composed server -/

/-- A mux server after the handshake: the pairing machine, `channelHandler` on control
units of type `α`, and a ghost account of the user connections. -/
structure MuxServer (α : Type) where
  core : TcpMuxTransport
  handler : ChannelHandler α
  /-- Ghost: the user connections `acceptLocalConn` accepted, in order. -/
  users : List Nat
  /-- Ghost: those it closed because `localChannel` was full. -/
  refused : List Nat
  /-- Ghost: those a session task opened a stream for and started copying. -/
  streamed : List Nat
  /-- Ghost: the sessions `acceptTunnelConn` made, in order. -/
  sessionsIn : List Nat
  /-- Ghost: those it closed because `tunnelChannel` was full. -/
  sessionsRefused : List Nat
  deriving DecidableEq, Repr

/-- The server once `Start` has started `channelHandler` and the handle loops. -/
def MuxServer.init {α : Type} (channelSize muxCon handleLoops : Nat) (units : List α) :
    MuxServer α :=
  ⟨TcpMuxTransport.init channelSize muxCon handleLoops, ChannelHandler.init units, [], [], [], [],
    []⟩

/-- One atomic action of one goroutine of a mux server. -/
inductive MuxServerAction
  /-- A step of the pairing machine. -/
  | core (a : MuxAction)
  /-- Session task `j`'s request meets `channelHandler` waiting on an empty
  `reqNewConnChan`, which writes `SG_Chan`, with success or not. -/
  | notifyHandoff (j : Nat) (ok : Bool)
  /-- A step of `channelHandler`; its `reqNewConnChan` case takes a token. -/
  | handler (a : HandlerAction)
  deriving DecidableEq, Repr

/-- The transition function of a mux server; `none` when the action is not enabled. -/
def muxServerStep {α : Type} (isClosed : α → Bool) (s : MuxServer α) :
    MuxServerAction → Option (MuxServer α)
  | .core a => (muxStep s.core a).map fun core =>
    { s with core := core, users := s.users ++ a.accepted,
             refused := s.refused ++ refusedBy s.core a,
             streamed := s.streamed ++ streamedBy s.core a,
             sessionsIn := s.sessionsIn ++ a.sessionAccepted,
             sessionsRefused := s.sessionsRefused ++ sessionRefusedBy s.core a }
  | .notifyHandoff j ok =>
    if s.core.reqNewConnChan = 0 then
      match muxStep s.core (.notify j), handlerStep isClosed s.handler (.request ok) with
      | some core, some h => some { s with core := { core with reqNewConnChan := 0 }, handler := h }
      | _, _ => none
    else none
  | .handler a =>
    if a.isRequest → 0 < s.core.reqNewConnChan then
      (handlerStep isClosed s.handler a).map fun h =>
        { s with handler := h,
                 core := { s.core with reqNewConnChan :=
                   if a.isRequest then s.core.reqNewConnChan - 1 else s.core.reqNewConnChan } }
    else none

/-! ## One step of the pairing machine -/

theorem SessionTask.receive_requeued (muxCon : Nat) (t : SessionTask) (conn : Nat)
    (openOk sendOk : Bool) :
    (t.receive muxCon conn openOk sendOk).pc.requeued =
      if openOk && sendOk then none else some conn := by
  unfold SessionTask.receive
  cases openOk <;> cases sendOk <;> simp only [Bool.not_true, Bool.not_false, Bool.and_true,
    Bool.and_false, Bool.false_eq_true, ↓reduceIte, SessionPc.requeued]
  split_ifs <;> rfl

theorem SessionTask.receive_notifiedNext (muxCon : Nat) (t : SessionTask) (conn : Nat)
    (openOk sendOk : Bool) : (t.receive muxCon conn openOk sendOk).pc.notifiedNext = false := by
  unfold SessionTask.receive
  split_ifs <;> rfl

@[simp] theorem SessionTask.copierFinish_pc (muxCon : Nat) (t : SessionTask) :
    (t.copierFinish muxCon).pc = t.pc := by
  unfold SessionTask.copierFinish
  split_ifs <;> rfl

@[simp] theorem heldConns_append_start (sessions : List SessionTask) (owner session : Nat) :
    heldConns (sessions ++ [SessionTask.start owner session]) = heldConns sessions := by
  simp [heldConns, SessionTask.start, SessionPc.requeued]

@[simp] theorem notifiedCount_append_start (sessions : List SessionTask) (owner session : Nat) :
    notifiedCount (sessions ++ [SessionTask.start owner session]) = notifiedCount sessions := by
  simp [notifiedCount, SessionTask.start, SessionPc.notifiedNext]

/-- Replacing one session task moves the user connection it holds. -/
theorem heldConns_set {sessions : List SessionTask} {j : Nat} {t : SessionTask}
    (hj : sessions[j]? = some t) (t' : SessionTask) (x : Nat) :
    (heldConns (sessions.set j t')).count x + t.pc.requeued.toList.count x =
      (heldConns sessions).count x + t'.pc.requeued.toList.count x := by
  simpa only [List.count_append] using (filterMap_set_perm (·.pc.requeued) hj t').count_eq x

/-- A session task putting its connection back and the task it hands it to are two tasks,
so the one it hands to is still there after the first moves on. -/
theorem requeueHandoff_target {sessions : List SessionTask} {j k conn : Nat} {t u : SessionTask}
    (hj : sessions[j]? = some t) (hk : sessions[k]? = some u) (ht : t.pc = .requeueing conn)
    (hu : u.pc = .selecting) (t' : SessionTask) : (sessions.set j t')[k]? = some u := by
  have hjk : j ≠ k := by
    rintro rfl
    obtain rfl : t = u := Option.some.inj (hj.symm.trans hk)
    rw [ht] at hu
    cases hu
  rwa [List.getElem?_set_ne hjk]

/-- Replacing one session task moves its request. -/
theorem notifiedCount_set {sessions : List SessionTask} {j : Nat} {t : SessionTask}
    (hj : sessions[j]? = some t) (t' : SessionTask) :
    notifiedCount (sessions.set j t') + (if t.pc.notifiedNext then 1 else 0) =
      notifiedCount sessions + (if t'.pc.notifiedNext then 1 else 0) := by
  obtain ⟨hlt, rfl⟩ := List.getElem?_eq_some_iff.mp hj
  have := List.boole_getElem_le_countP (·.pc.notifiedNext) sessions j hlt
  rw [notifiedCount, notifiedCount, List.countP_set _ _ _ _ hlt]
  omega

/-- What one step of the pairing machine does with user connections: those it accepts,
with those parked on `localChannel` and held by session tasks before, are those it
refuses, parks and holds after, and those it streams. -/
theorem muxStep_flow {s s' : TcpMuxTransport} {a : MuxAction} (h : muxStep s a = some s')
    (x : Nat) :
    (a.accepted ++ s.localChannel ++ heldConns s.sessions).count x =
      (refusedBy s a ++ s'.localChannel ++ heldConns s'.sessions ++ streamedBy s a).count x := by
  refine muxStep_action_cases (P := fun a s' => (a.accepted ++ s.localChannel ++
      heldConns s.sessions).count x =
      (refusedBy s a ++ s'.localChannel ++ heldConns s'.sessions ++ streamedBy s a).count x) h
    ?acceptLocal ?acceptSession ?loopTake ?loopHandoff ?loopCancel ?sessionTake ?sessionHandoff
    ?sessionCancel ?requeue ?requeueHandoff ?notify ?copierFinish ?drain ?drainEnd ?cancel <;>
    intros <;> simp only [MuxAction.accepted, refusedBy, streamedBy, TcpMuxTransport.setSession,
      TcpMuxTransport.startSession, List.count_append, List.nil_append, List.append_nil,
      heldConns_append_start]
  case acceptLocal conn =>
    unfold offer
    split_ifs <;> simp only [List.count_append, List.count_nil]
    omega
  case sessionTake j t conn rest openOk sendOk hj hq hpc =>
    have := heldConns_set hj (t.receive s.muxCon conn openOk sendOk) x
    rw [SessionTask.receive_requeued, hpc] at this
    rw [hq]
    cases openOk <;> cases sendOk <;> simp [SessionPc.requeued, List.count_cons] at this ⊢ <;>
      omega
  case sessionHandoff j t conn openOk sendOk hj hpc hq =>
    have := heldConns_set hj (t.receive s.muxCon conn openOk sendOk) x
    rw [SessionTask.receive_requeued, hpc] at this
    rw [hq]
    cases openOk <;> cases sendOk <;> simp [SessionPc.requeued, List.count_cons] at this ⊢ <;>
      omega
  case sessionCancel j t hj hpc _ =>
    have := heldConns_set hj { t with pc := .cancelDraining t.counter } x
    simp only [hpc, SessionPc.requeued, Option.toList, List.count_nil] at this
    omega
  case requeue j t conn hj hpc _ =>
    have := heldConns_set hj { t with pc := .errNotifying } x
    simp only [hpc, SessionPc.requeued, Option.toList, List.count_nil] at this
    omega
  case requeueHandoff j k t u conn openOk sendOk hj hk hpc hu hq =>
    have h₁ := heldConns_set hj { t with pc := .errNotifying } x
    have hk' := requeueHandoff_target hj hk hpc hu { t with pc := .errNotifying }
    have h₂ := heldConns_set hk' (u.receive s.muxCon conn openOk sendOk) x
    rw [SessionTask.receive_requeued, hu] at h₂
    rw [hq, hj, Option.some_bind, hpc] at *
    cases openOk <;> cases sendOk <;>
      simp [SessionPc.requeued, List.count_cons] at h₁ h₂ ⊢ <;> omega
  case notify j t pc hj hpc _ =>
    have := heldConns_set hj { t with pc := pc } x
    rcases SessionPc.notified_eq hpc with ⟨ht, rfl⟩ | ⟨ht, rfl⟩ <;>
      simp only [ht, SessionPc.requeued, Option.toList, List.count_nil] at this <;> omega
  case copierFinish j t hj _ =>
    have := heldConns_set hj (t.copierFinish s.muxCon) x
    simp only [SessionTask.copierFinish_pc] at this
    omega
  case drain j t t' pc hj hpc _ =>
    have := heldConns_set hj { t' with pc := pc } x
    rcases SessionPc.drained_eq hpc with ⟨k, ht, rfl⟩ | ⟨k, ht, rfl⟩ | ⟨k, ht, rfl⟩ <;>
      simp only [ht, SessionPc.requeued, Option.toList, List.count_nil] at this <;> omega
  case drainEnd j t pc hj hpc =>
    have := heldConns_set hj { t with pc := pc } x
    rcases SessionPc.drainEnd_eq hpc with ⟨ht | ht, rfl⟩ | ⟨ht, rfl⟩ <;>
      simp only [ht, SessionPc.requeued, Option.toList, List.count_nil] at this <;> omega

/-- What one step of the pairing machine does with requests: a session task's `next` makes
one, with the task counted as notified from then on, and no step takes a task's notice
back. -/
theorem muxStep_requests {s s' : TcpMuxTransport} {a : MuxAction} (h : muxStep s a = some s') :
    notifiedCount s.sessions + (if a.isNotify then 1 else 0) ≤ notifiedCount s'.sessions ∧
      s'.reqNewConnChan ≤ s.reqNewConnChan + (if a.isNotify then 1 else 0) := by
  refine muxStep_action_cases (P := fun a s' =>
      notifiedCount s.sessions + (if a.isNotify then 1 else 0) ≤ notifiedCount s'.sessions ∧
        s'.reqNewConnChan ≤ s.reqNewConnChan + (if a.isNotify then 1 else 0)) h
    ?acceptLocal ?acceptSession ?loopTake ?loopHandoff ?loopCancel ?sessionTake ?sessionHandoff
    ?sessionCancel ?requeue ?requeueHandoff ?notify ?copierFinish ?drain ?drainEnd ?cancel <;>
    intros <;> simp only [MuxAction.isNotify, TcpMuxTransport.setSession,
      TcpMuxTransport.startSession, notifiedCount_append_start, Bool.false_eq_true, ↓reduceIte,
      Nat.add_zero, le_refl, and_true]
  case sessionTake j t conn rest openOk sendOk hj _ hpc =>
    have := notifiedCount_set hj (t.receive s.muxCon conn openOk sendOk)
    rw [SessionTask.receive_notifiedNext, hpc] at this
    simp only [SessionPc.notifiedNext, Bool.false_eq_true, ↓reduceIte] at this
    omega
  case sessionHandoff j t conn openOk sendOk hj hpc _ =>
    have := notifiedCount_set hj (t.receive s.muxCon conn openOk sendOk)
    rw [SessionTask.receive_notifiedNext, hpc] at this
    simp only [SessionPc.notifiedNext, Bool.false_eq_true, ↓reduceIte] at this
    omega
  case sessionCancel j t hj hpc _ =>
    have := notifiedCount_set hj { t with pc := .cancelDraining t.counter }
    simp only [hpc, SessionPc.notifiedNext, Bool.false_eq_true, ↓reduceIte] at this
    omega
  case requeue j t conn hj hpc _ =>
    have := notifiedCount_set hj { t with pc := .errNotifying }
    simp only [hpc, SessionPc.notifiedNext, Bool.false_eq_true, ↓reduceIte] at this
    omega
  case requeueHandoff j k t u conn openOk sendOk hj hk hpc hu _ =>
    have h₁ := notifiedCount_set hj { t with pc := .errNotifying }
    have hk' := requeueHandoff_target hj hk hpc hu { t with pc := .errNotifying }
    have h₂ := notifiedCount_set hk' (u.receive s.muxCon conn openOk sendOk)
    rw [SessionTask.receive_notifiedNext, hu] at h₂
    simp only [hpc, SessionPc.notifiedNext, Bool.false_eq_true, ↓reduceIte] at h₁ h₂
    omega
  case notify j t pc hj hpc _ =>
    have := notifiedCount_set hj { t with pc := pc }
    constructor
    · rcases SessionPc.notified_eq hpc with ⟨ht, rfl⟩ | ⟨ht, rfl⟩ <;>
        simp only [ht, SessionPc.notifiedNext, Bool.false_eq_true, ↓reduceIte] at this <;> omega
    · split <;> omega
  case copierFinish j t hj _ =>
    have := notifiedCount_set hj (t.copierFinish s.muxCon)
    simp only [SessionTask.copierFinish_pc] at this
    omega
  case drain j t t' pc hj hpc _ =>
    have := notifiedCount_set hj { t' with pc := pc }
    rcases SessionPc.drained_eq hpc with ⟨k, ht, rfl⟩ | ⟨k, ht, rfl⟩ | ⟨k, ht, rfl⟩ <;>
      simp only [ht, SessionPc.notifiedNext, Bool.false_eq_true, ↓reduceIte] at this <;> omega
  case drainEnd j t pc hj hpc =>
    have := notifiedCount_set hj { t with pc := pc }
    rcases SessionPc.drainEnd_eq hpc with ⟨ht | ht, rfl⟩ | ⟨ht, rfl⟩ <;>
      simp only [ht, SessionPc.notifiedNext, Bool.false_eq_true, ↓reduceIte] at this <;> omega

@[simp] theorem SessionTask.receive_session (muxCon : Nat) (t : SessionTask) (conn : Nat)
    (openOk sendOk : Bool) : (t.receive muxCon conn openOk sendOk).session = t.session := by
  unfold SessionTask.receive
  split_ifs <;> rfl

@[simp] theorem SessionTask.copierFinish_session (muxCon : Nat) (t : SessionTask) :
    (t.copierFinish muxCon).session = t.session := by
  unfold SessionTask.copierFinish
  split_ifs <;> rfl

theorem SessionTask.takeDone_session {t t' : SessionTask} (h : t.takeDone = some t') :
    t'.session = t.session := by
  unfold SessionTask.takeDone at h
  split_ifs at h <;> cases h <;> rfl

/-- What one step of the pairing machine does with sessions: those it accepts, with those
queued and served before, are those it refuses, queues and serves after; a session task
serves the one session it was started on. -/
theorem muxStep_sessionFlow {s s' : TcpMuxTransport} {a : MuxAction}
    (h : muxStep s a = some s') (x : Nat) :
    (a.sessionAccepted ++ s.tunnelChannel ++ s.sessions.map (·.session)).count x =
      (sessionRefusedBy s a ++ s'.tunnelChannel ++ s'.sessions.map (·.session)).count x := by
  refine muxStep_action_cases (P := fun a s' => (a.sessionAccepted ++ s.tunnelChannel ++
      s.sessions.map (·.session)).count x =
      (sessionRefusedBy s a ++ s'.tunnelChannel ++ s'.sessions.map (·.session)).count x) h
    ?acceptLocal ?acceptSession ?loopTake ?loopHandoff ?loopCancel ?sessionTake ?sessionHandoff
    ?sessionCancel ?requeue ?requeueHandoff ?notify ?copierFinish ?drain ?drainEnd ?cancel <;>
    intros <;> simp only [MuxAction.sessionAccepted, sessionRefusedBy, TcpMuxTransport.setSession,
      TcpMuxTransport.startSession, List.map_append, List.count_append, List.nil_append]
  case acceptSession session =>
    unfold offer
    split_ifs <;> simp only [List.count_append, List.count_nil]
    omega
  case loopTake l session rest _ hq =>
    simp only [hq, SessionTask.start, List.map_cons, List.map_nil, List.count_cons, List.count_nil]
    omega
  case loopHandoff l session _ hq =>
    simp only [hq, SessionTask.start, List.map_cons, List.map_nil, List.count_cons, List.count_nil]
    omega
  case sessionTake j t conn rest openOk sendOk hj _ _ =>
    rw [map_set_of_eq _ hj (SessionTask.receive_session _ _ _ _ _)]
  case sessionHandoff j t conn openOk sendOk hj _ _ =>
    rw [map_set_of_eq _ hj (SessionTask.receive_session _ _ _ _ _)]
  case sessionCancel j t hj _ _ => rw [map_set_of_eq _ hj]; rfl
  case requeue j t conn hj _ _ => rw [map_set_of_eq _ hj]; rfl
  case requeueHandoff j k t u conn openOk sendOk hj hk hpc hu _ =>
    have hk' := requeueHandoff_target hj hk hpc hu { t with pc := .errNotifying }
    rw [map_set_of_eq _ hk' (SessionTask.receive_session _ _ _ _ _), map_set_of_eq _ hj]
    rfl
  case notify j t pc hj _ _ => rw [map_set_of_eq _ hj]; rfl
  case copierFinish j t hj _ => rw [map_set_of_eq _ hj (SessionTask.copierFinish_session _ _)]
  case drain j t t' pc hj _ htake =>
    rw [map_set_of_eq _ hj]
    exact (SessionTask.takeDone_session htake :)
  case drainEnd j t pc hj _ => rw [map_set_of_eq _ hj]; rfl

/-! ## The account along every run -/

section

variable {α : Type} {isClosed : α → Bool}

/-- The account of a mux server. Every user connection `acceptLocalConn` accepted was
refused, or is parked on `localChannel`, held by a session task putting it back, or
streamed, exactly once; every session `acceptTunnelConn` made was closed, is buffered, or
is served by one session task; and the requests in `reqNewConnChan` and the `SG_Chan`
written are at most the session tasks that gave their loop back. -/
structure MuxServer.Inv (s : MuxServer α) : Prop where
  users : s.users.Perm (s.refused ++ s.core.localChannel ++ heldConns s.core.sessions ++ s.streamed)
  sessions : s.sessionsIn.Perm
    (s.sessionsRefused ++ s.core.tunnelChannel ++ s.core.sessions.map (·.session))
  requests : s.core.reqNewConnChan + s.handler.sent.count sgChan ≤ notifiedCount s.core.sessions

theorem MuxServer.inv_init (channelSize muxCon handleLoops : Nat) (units : List α) :
    (MuxServer.init channelSize muxCon handleLoops units).Inv :=
  ⟨by simp [MuxServer.init, TcpMuxTransport.init, heldConns],
    by simp [MuxServer.init, TcpMuxTransport.init],
    by simp [MuxServer.init, TcpMuxTransport.init, ChannelHandler.init]⟩

/-- Every step of a mux server keeps the account. -/
theorem MuxServer.Inv.step {s s' : MuxServer α} {a : MuxServerAction} (hs : s.Inv)
    (h : muxServerStep isClosed s a = some s') : s'.Inv := by
  obtain ⟨husers, hsessions, hreq⟩ := hs
  cases a with
  | core a =>
    obtain ⟨core, hcore, rfl⟩ := Option.map_eq_some'.mp h
    have hreq' := muxStep_requests hcore
    refine ⟨List.perm_iff_count.2 fun x => ?_, List.perm_iff_count.2 fun x => ?_, ?_⟩
    · have hu := husers.count_eq x
      have hflow := muxStep_flow hcore x
      simp only [List.count_append] at hu hflow ⊢
      omega
    · have hu := hsessions.count_eq x
      have hflow := muxStep_sessionFlow hcore x
      simp only [List.count_append] at hu hflow ⊢
      omega
    · dsimp only
      split at hreq' <;> omega
  | notifyHandoff j ok =>
    simp only [muxServerStep] at h
    split at h
    · next htok =>
      split at h
      · next core h' hcore hh =>
        cases h
        have hsent := handlerStep_count_sgChan hh
        have hreq' := muxStep_requests hcore
        simp only [HandlerAction.isRequest, MuxAction.isNotify, ↓reduceIte] at hsent hreq'
        refine ⟨List.perm_iff_count.2 fun x => ?_, List.perm_iff_count.2 fun x => ?_, ?_⟩
        · have hu := husers.count_eq x
          have hflow := muxStep_flow hcore x
          simp only [MuxAction.accepted, refusedBy, streamedBy, List.count_append,
            List.count_nil] at hu hflow ⊢
          omega
        · have hu := hsessions.count_eq x
          have hflow := muxStep_sessionFlow hcore x
          simp only [MuxAction.sessionAccepted, sessionRefusedBy, List.count_append,
            List.count_nil] at hu hflow ⊢
          omega
        · dsimp only
          omega
      · cases h
    · cases h
  | handler a =>
    simp only [muxServerStep] at h
    split at h
    · next hg =>
      obtain ⟨h', hh, rfl⟩ := Option.map_eq_some'.mp h
      have hsent := handlerStep_count_sgChan hh
      refine ⟨husers, hsessions, ?_⟩
      dsimp only
      cases hr : a.isRequest <;> simp only [hr, Bool.false_eq_true, ↓reduceIte] at hsent ⊢
      · omega
      · have := hg hr
        omega
    · cases h

/-- The account holds in every state a mux server reaches. -/
theorem MuxServer.inv_of_reach {channelSize muxCon handleLoops : Nat} {units : List α}
    {s : MuxServer α}
    (hs : Reach (muxServerStep isClosed) (MuxServer.init channelSize muxCon handleLoops units) s) :
    s.Inv :=
  Reach.invariant hs (fun h hstep => h.step hstep) (MuxServer.inv_init _ _ _ _)

end

/-- A TCP-mux run with `MuxCon = 2` in which the first session fails to open a stream: its
task puts the user connection back, gives its loop back and asks for a new tunnel
connection, and the next session streams the connection. -/
def muxRequeueRun : List MuxServerAction :=
  [.core (.acceptSession 0), .core (.loopTake 0), .core (.acceptLocal 100),
    .core (.sessionTake 0 false true), .core (.requeue 0), .core (.notify 0),
    .handler (.request true), .core (.acceptSession 1), .core (.loopTake 0),
    .core (.sessionTake 1 true true)]

theorem muxRequeueRun_reach :
    ∃ s, Reach (muxServerStep tcpIsClosed) (MuxServer.init 1 2 1 []) s ∧ s.users = [100] ∧
      s.streamed = [100] ∧ s.handler.sent = [sgChan] ∧ s.sessionsIn = [0, 1] := by
  obtain ⟨s, hrun, hs⟩ := Option.map_eq_some'.mp (show
    (runActions (muxServerStep tcpIsClosed) (MuxServer.init 1 2 1 []) muxRequeueRun).map
      (fun s => (s.users, s.streamed, s.handler.sent, s.sessionsIn)) =
        some ([100], [100], [sgChan], [0, 1]) by decide)
  simp only [Prod.mk.injEq] at hs
  exact ⟨s, Reach.start.run hrun, hs⟩

/-! ## What every run keeps -/

section

variable {α : Type} {isClosed : α → Bool} {channelSize muxCon handleLoops : Nat}
  {units : List α} {s : MuxServer α}

/-- When `acceptLocalConn` hands out distinct connections, a mux server streams no user
connection twice, however often session tasks put it back. -/
theorem muxServer_streamed_nodup
    (hs : Reach (muxServerStep isClosed) (MuxServer.init channelSize muxCon handleLoops units) s)
    (husers : s.users.Nodup) : s.streamed.Nodup :=
  ((MuxServer.inv_of_reach hs).users.nodup_iff.mp husers).sublist (List.sublist_append_right _ _)

theorem muxServer_streamed_nodup_requeued :
    ∃ s, Reach (muxServerStep tcpIsClosed) (MuxServer.init 1 2 1 []) s ∧ s.users = [100] ∧
      s.users.Nodup ∧ s.streamed.Nodup := by
  obtain ⟨s, hs, hu, -, -, -⟩ := muxRequeueRun_reach
  have hnd : s.users.Nodup := by rw [hu]; decide
  exact ⟨s, hs, hu, hnd, muxServer_streamed_nodup hs hnd⟩

/-- Along every run of a mux server, the `SG_Chan` requests `channelHandler` wrote, with
the tokens in `reqNewConnChan`, are at most the session tasks that gave their handle loop
back through `handleSessionError` or `finalizeSession`: the server asks the client for at
most one tunnel connection per session that ended. -/
theorem muxServer_requests_le_notified
    (hs : Reach (muxServerStep isClosed) (MuxServer.init channelSize muxCon handleLoops units) s) :
    s.handler.sent.count sgChan + s.core.reqNewConnChan ≤ notifiedCount s.core.sessions := by
  have := (MuxServer.inv_of_reach hs).requests
  omega

theorem muxServer_requests_le_notified_requeued :
    ∃ s, Reach (muxServerStep tcpIsClosed) (MuxServer.init 1 2 1 []) s ∧
      s.handler.sent = [sgChan] ∧
      s.handler.sent.count sgChan + s.core.reqNewConnChan ≤ notifiedCount s.core.sessions := by
  obtain ⟨s, hs, -, -, hsent, -⟩ := muxRequeueRun_reach
  exact ⟨s, hs, hsent, muxServer_requests_le_notified hs⟩

/-- Along every run of a mux server, no session is lost or served twice. Each session
`acceptTunnelConn` made is, exactly once, closed because `tunnelChannel` was full, buffered
in `tunnelChannel`, or served by a session task a handle loop started on it; and when the
listener hands out distinct connections, no two session tasks serve one session. -/
theorem muxServer_session_custody
    (hs : Reach (muxServerStep isClosed) (MuxServer.init channelSize muxCon handleLoops units) s) :
    s.sessionsIn.Perm (s.sessionsRefused ++ s.core.tunnelChannel ++ s.core.sessions.map (·.session)) ∧
      (s.sessionsIn.Nodup → (s.core.sessions.map (·.session)).Nodup) := by
  have h := (MuxServer.inv_of_reach hs).sessions
  exact ⟨h, fun hnd => (h.nodup_iff.mp hnd).sublist (List.sublist_append_right _ _)⟩

theorem muxServer_session_custody_requeued :
    ∃ s, Reach (muxServerStep tcpIsClosed) (MuxServer.init 1 2 1 []) s ∧ s.sessionsIn = [0, 1] ∧
      s.sessionsIn.Perm
        (s.sessionsRefused ++ s.core.tunnelChannel ++ s.core.sessions.map (·.session)) ∧
      (s.sessionsIn.Nodup → (s.core.sessions.map (·.session)).Nodup) := by
  obtain ⟨s, hs, -, -, -, hin⟩ := muxRequeueRun_reach
  exact ⟨s, hs, hin, muxServer_session_custody hs⟩

end

end Backhaul.Server
