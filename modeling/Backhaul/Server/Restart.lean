import Backhaul.Server.Accept
import Backhaul.Server.ChannelHandler
import Backhaul.Client.Gauge

/-!
# The servers' restarts

Each server recovers from a broken control channel through `Restart` (part_000, lines
98–131; tcpmux.go, lines 116–149; part_001, lines 103–137). Its only callers are the
`channelHandler` exits that run `go s.Restart()` and return (part_000, lines 208–233).
`Restart` takes `restartMutex` with `TryLock` and returns at once when it is held.
Otherwise it cancels the lifecycle, closes the control channel, sleeps, re-initializes the
channels, and runs `go s.Start()`; its deferred `Unlock` runs only after that. `Start`
blocks in `channelHandshake` until a control channel is established and then starts the
next `channelHandler`. On WS-mux the `/channel` handler starts it, once per lifecycle
unless two requests race (`Server.WsMux`); the model covers the lifecycles with one
handler.

This module runs the current lifecycle's `channelHandler` of `Server.ChannelHandler`, the
handshake, and every goroutine running `Restart` as one transition system. At most one
`Restart` holds the mutex, and at most one call is pending, the one the current lifecycle's
handler made. A `TryLock` fails only in one window: the Restart that started the current
lifecycle has started it but not yet unlocked, and that lifecycle's handler has already
handed over. A call skipped there is lost for good, since no other goroutine ever calls
`Restart` and the server never starts another lifecycle; the loss is a race, since another
interleaving of the same state always starts the next lifecycle.
-/

namespace Backhaul.Server

/-- Where a goroutine running `Restart` is. -/
inductive RestartPc
  /-- Started by `go s.Restart()`, before `restartMutex.TryLock()`. -/
  | trying
  /-- Holding `restartMutex`: cancelling, closing the control channel, sleeping and
  re-initializing. -/
  | restarting
  /-- Past `go s.Start()`, with only the deferred `Unlock` left. -/
  | unlocking
  /-- Returned, after its `Unlock` or after a failed `TryLock`. -/
  | returned
  deriving DecidableEq, Repr

/-- A server as its restarts see it. -/
structure Supervisor (α : Type) where
  /-- The current lifecycle's `channelHandler`, or `none` while `Start` is in
  `channelHandshake`. -/
  handler : Option (ChannelHandler α)
  /-- `restartMutex` is held. -/
  locked : Bool
  /-- The goroutines that ran `Restart`, in the order they were started. -/
  restarts : List RestartPc
  /-- Ghost: the lifecycles `Restart` started. -/
  lifecycles : Nat
  deriving DecidableEq, Repr

/-- The server when `main` has called `Start`. -/
def Supervisor.init {α : Type} : Supervisor α := ⟨none, false, [], 0⟩

/-- One atomic action of the handshake, the handler, or a goroutine running `Restart`. -/
inductive SupervisorAction (α : Type)
  /-- `channelHandshake` establishes a control channel that delivers `units`, and `Start`
  starts `channelHandler`. -/
  | establish (units : List α)
  /-- One action of the current lifecycle's `channelHandler`. -/
  | handler (a : HandlerAction)
  /-- `Restart` goroutine `j` runs `TryLock`. -/
  | tryLock (j : Nat)
  /-- `Restart` goroutine `j` cancels, closes, sleeps, re-initializes and runs
  `go s.Start()`. -/
  | restart (j : Nat)
  /-- `Restart` goroutine `j` runs its deferred `Unlock`. -/
  | unlock (j : Nat)
  deriving DecidableEq, Repr

section

variable {α : Type} (isClosed : α → Bool)

/-- The transition function of a server's restarts. A handler action that moves the loop
from its `select` to `.restarting` is one of the exits that run `go s.Restart()`. -/
def supervisorStep (s : Supervisor α) : SupervisorAction α → Option (Supervisor α)
  | .establish units =>
    match s.handler with
    | none => some { s with handler := some (ChannelHandler.init units) }
    | some _ => none
  | .handler a =>
    match s.handler with
    | some h =>
      (handlerStep isClosed h a).map fun h' =>
        { s with handler := some h',
                 restarts := if h.loop = .selecting ∧ h'.loop = .restarting then
                   s.restarts ++ [.trying] else s.restarts }
    | none => none
  | .tryLock j =>
    if s.restarts[j]? = some .trying then
      if s.locked then some { s with restarts := s.restarts.set j .returned }
      else some { s with locked := true, restarts := s.restarts.set j .restarting }
    else none
  | .restart j =>
    if s.restarts[j]? = some .restarting then
      some { s with handler := none, restarts := s.restarts.set j .unlocking,
                    lifecycles := s.lifecycles + 1 }
    else none
  | .unlock j =>
    if s.restarts[j]? = some .unlocking then
      some { s with locked := false, restarts := s.restarts.set j .returned }
    else none

/-- Only the loop's `select` moves it: once it has returned, it stays where it is. -/
theorem handlerStep_loop {h h' : ChannelHandler α} {a : HandlerAction}
    (hstep : handlerStep isClosed h a = some h') : h'.loop = h.loop ∨ h.loop = .selecting := by
  cases a <;> simp only [handlerStep] at hstep <;> (repeat' split at hstep) <;>
    (try cases hstep) <;> simp_all

end

/-! ## The mutex and the pending call -/

/-- One while the current lifecycle's handler has handed over to `Restart`. -/
def Supervisor.owes {α : Type} (s : Supervisor α) : Nat :=
  match s.handler with
  | some h => if h.loop = .restarting then 1 else 0
  | none => 0

theorem Supervisor.owes_le_one {α : Type} (s : Supervisor α) : s.owes ≤ 1 := by
  unfold Supervisor.owes
  split
  · split_ifs <;> omega
  · omega

/-- The restarts' account: the mutex is held by exactly the goroutine between its
`TryLock` and its `Unlock`, and the only call that has not started a lifecycle is the one
the current lifecycle's handler made. -/
structure Supervisor.Inv {α : Type} (s : Supervisor α) : Prop where
  mutex : s.restarts.count .restarting + s.restarts.count .unlocking = if s.locked then 1 else 0
  pending : s.restarts.count .trying + s.restarts.count .restarting ≤ s.owes

section

variable {α : Type} {isClosed : α → Bool}

theorem Supervisor.inv_init : (Supervisor.init : Supervisor α).Inv :=
  ⟨rfl, Nat.zero_le _⟩

/-- Moving goroutine `j` from `x` to `y` moves one count. -/
theorem count_set_restarts {l : List RestartPc} {j : Nat} {x : RestartPc} (hj : l[j]? = some x)
    (y a : RestartPc) :
    (l.set j y).count a + (if x = a then 1 else 0) = l.count a + (if y = a then 1 else 0) := by
  have := Client.countP_set_add (· == a) y hj
  simpa only [beq_iff_eq] using this

/-- The three counts the account reads, after moving goroutine `j` from `x` to `y`. -/
theorem counts_set_restarts {l : List RestartPc} {j : Nat} {x : RestartPc} (hj : l[j]? = some x)
    (y : RestartPc) :
    ((l.set j y).count .trying + (if x = .trying then 1 else 0) =
        l.count .trying + (if y = .trying then 1 else 0)) ∧
      ((l.set j y).count .restarting + (if x = .restarting then 1 else 0) =
        l.count .restarting + (if y = .restarting then 1 else 0)) ∧
      ((l.set j y).count .unlocking + (if x = .unlocking then 1 else 0) =
        l.count .unlocking + (if y = .unlocking then 1 else 0)) :=
  ⟨count_set_restarts hj y _, count_set_restarts hj y _, count_set_restarts hj y _⟩

/-- What one handler action does to the account: it hands over exactly when it starts a
`Restart` goroutine. -/
theorem handler_owes {h h' : ChannelHandler α} {a : HandlerAction}
    (hstep : handlerStep isClosed h a = some h') :
    (if h'.loop = .restarting then 1 else 0) =
      (if h.loop = .restarting then 1 else 0) +
        (if h.loop = .selecting ∧ h'.loop = .restarting then 1 else 0) := by
  rcases handlerStep_loop isClosed hstep with heq | hsel
  · rw [heq]
    by_cases hr : h.loop = .restarting <;> simp [hr]
  · rw [hsel]
    by_cases hr : h'.loop = .restarting <;> simp [hr]

/-- Every step keeps the account. -/
theorem Supervisor.Inv.step {s s' : Supervisor α} {a : SupervisorAction α} (hs : s.Inv)
    (h : supervisorStep isClosed s a = some s') : s'.Inv := by
  obtain ⟨hmutex, hpending⟩ := hs
  cases a with
  | establish units =>
    simp only [supervisorStep] at h
    split at h
    · next hnone =>
      cases h
      refine ⟨hmutex, ?_⟩
      simp only [Supervisor.owes, hnone] at hpending
      simp only [Supervisor.owes, ChannelHandler.init, reduceCtorEq, ↓reduceIte]
      exact hpending
    · cases h
  | handler a =>
    simp only [supervisorStep] at h
    split at h
    · next hh hsome =>
      obtain ⟨h', hstep, rfl⟩ := Option.map_eq_some'.mp h
      have howes := handler_owes hstep
      simp only [Supervisor.owes, hsome] at hpending
      by_cases hspawn : hh.loop = .selecting ∧ h'.loop = .restarting
      · rw [if_pos hspawn] at howes ⊢
        refine ⟨?_, ?_⟩ <;> simp only [Supervisor.owes, List.count_append, List.count_cons,
          List.count_nil, beq_iff_eq, reduceCtorEq, ↓reduceIte] <;> omega
      · rw [if_neg hspawn] at howes ⊢
        exact ⟨hmutex, by simp only [Supervisor.owes]; omega⟩
    · cases h
  | tryLock j =>
    simp only [supervisorStep] at h
    split_ifs at h with hj hlocked <;> cases h
    · obtain ⟨h1, h2, h3⟩ := counts_set_restarts hj .returned
      simp only [reduceCtorEq, ↓reduceIte, ite_true, ite_false] at h1 h2 h3
      simp only [Supervisor.owes] at hpending
      refine ⟨?_, ?_⟩ <;> dsimp only [Supervisor.owes] <;> omega
    · obtain ⟨h1, h2, h3⟩ := counts_set_restarts hj .restarting
      simp only [reduceCtorEq, ↓reduceIte, ite_true, ite_false] at h1 h2 h3
      simp only [Supervisor.owes] at hpending
      simp only [hlocked, Bool.false_eq_true, ↓reduceIte] at hmutex
      exact ⟨by dsimp only; rw [if_pos rfl]; omega, by dsimp only [Supervisor.owes]; omega⟩
  | restart j =>
    simp only [supervisorStep] at h
    split_ifs at h with hj
    cases h
    obtain ⟨h1, h2, h3⟩ := counts_set_restarts hj .unlocking
    simp only [reduceCtorEq, ↓reduceIte, ite_true, ite_false] at h1 h2 h3
    have howes := s.owes_le_one
    refine ⟨?_, ?_⟩ <;> dsimp only [Supervisor.owes] <;> omega
  | unlock j =>
    simp only [supervisorStep] at h
    split_ifs at h with hj
    cases h
    obtain ⟨h1, h2, h3⟩ := counts_set_restarts hj .returned
    simp only [reduceCtorEq, ↓reduceIte, ite_true, ite_false] at h1 h2 h3
    simp only [Supervisor.owes] at hpending
    refine ⟨?_, by dsimp only [Supervisor.owes]; omega⟩
    cases hlocked : s.locked <;>
      simp only [hlocked, Bool.false_eq_true, ↓reduceIte] at hmutex ⊢ <;> omega

/-- The account holds in every state the server reaches. -/
theorem Supervisor.inv_of_reach {s : Supervisor α}
    (hs : Reach (supervisorStep isClosed) Supervisor.init s) : s.Inv :=
  Reach.invariant hs (fun h hstep => h.step hstep) Supervisor.inv_init

end

/-! ## When a restart is lost -/

section

variable {α : Type} {isClosed : α → Bool}

/-- A `Restart` call is skipped only in one window. Whenever a call is at its `TryLock`
while `restartMutex` is held, the holder is the `Restart` that started the current
lifecycle, with only its deferred `Unlock` left, and that lifecycle's `channelHandler` has
already handed over: the waiting call is its own. -/
theorem restart_skipped_only_after_start {s : Supervisor α} {j : Nat}
    (hs : Reach (supervisorStep isClosed) Supervisor.init s)
    (hj : s.restarts[j]? = some .trying) (hlocked : s.locked = true) :
    (∃ k : Nat, s.restarts[k]? = some .unlocking) ∧
      ∃ h, s.handler = some h ∧ h.loop = .restarting := by
  obtain ⟨hmutex, hpending⟩ := Supervisor.inv_of_reach hs
  have htrying : 0 < s.restarts.count .trying := List.count_pos_iff.mpr (List.getElem?_mem hj)
  rw [hlocked, if_pos rfl] at hmutex
  refine ⟨List.mem_iff_getElem?.mp (List.count_pos_iff.mp ?_), ?_⟩
  · have := s.owes_le_one
    omega
  · unfold Supervisor.owes at hpending
    split at hpending
    · next h hh =>
      refine ⟨h, hh, ?_⟩
      by_contra hr
      rw [if_neg hr] at hpending
      omega
    · omega

/-- A TCP server whose second lifecycle's `channelHandler` fails its first `SG_Chan` write
before the `Restart` that started it has unlocked. -/
def restartWindowRun : List (SupervisorAction Byte) :=
  [.establish [], .handler (.request false), .tryLock 0, .restart 0, .establish [],
    .handler (.request false)]

theorem restart_skipped_only_after_start_window :
    ∃ s, Reach (supervisorStep tcpIsClosed) Supervisor.init s ∧
      s.restarts[1]? = some .trying ∧ s.locked = true ∧
      (∃ k : Nat, s.restarts[k]? = some .unlocking) ∧
        ∃ h, s.handler = some h ∧ h.loop = .restarting := by
  obtain ⟨s, hrun, hs⟩ := Option.map_eq_some'.mp (show
    (runActions (supervisorStep tcpIsClosed) Supervisor.init restartWindowRun).map
      (fun s => (s.restarts, s.locked)) = some ([.unlocking, .trying], true) by decide)
  simp only [Prod.mk.injEq] at hs
  have hj : s.restarts[1]? = some .trying := by rw [hs.1]; rfl
  exact ⟨s, Reach.start.run hrun, hj, hs.2,
    restart_skipped_only_after_start (Reach.start.run hrun) hj hs.2⟩

/-- The pending call that holds the mutex runs its body and starts the next lifecycle. -/
theorem supervisorStep_restart {s : Supervisor α} {j : Nat}
    (hj : s.restarts[j]? = some .restarting) :
    supervisorStep isClosed s (.restart j) =
      some { s with handler := none, restarts := s.restarts.set j .unlocking,
                    lifecycles := s.lifecycles + 1 } := by
  simp only [supervisorStep, hj, ↓reduceIte]

/-- A free mutex goes to the first `TryLock`. -/
theorem supervisorStep_tryLock_free {s : Supervisor α} {j : Nat}
    (hj : s.restarts[j]? = some .trying) (hfree : s.locked = false) :
    supervisorStep isClosed s (.tryLock j) =
      some { s with locked := true, restarts := s.restarts.set j .restarting } := by
  simp only [supervisorStep, hj, hfree, Bool.false_eq_true, ↓reduceIte]

/-- A call at its `TryLock` can always find the mutex free in the same lifecycle: when no
call holds it to restart, its holder has only its deferred `Unlock` left, and that can run
first. -/
theorem unlock_before_tryLock {s : Supervisor α} {j : Nat}
    (hs : Reach (supervisorStep isClosed) Supervisor.init s) (hj : s.restarts[j]? = some .trying)
    (hnone : s.restarts.count .restarting = 0) :
    ∃ t, Reach (supervisorStep isClosed) s t ∧ t.restarts[j]? = some .trying ∧
      t.locked = false ∧ t.lifecycles = s.lifecycles := by
  cases hl : s.locked
  · exact ⟨s, .start, hj, hl, rfl⟩
  · have hmutex := (Supervisor.inv_of_reach hs).mutex
    rw [hl, if_pos rfl] at hmutex
    obtain ⟨k, hk⟩ := List.mem_iff_getElem?.mp
      (List.count_pos_iff.mp (show 0 < s.restarts.count .unlocking by omega))
    have hkj : k ≠ j := fun hkj => by rw [hkj, hj] at hk; cases hk
    exact ⟨{ s with locked := false, restarts := s.restarts.set k .returned },
      Reach.start.step (a := .unlock k) (by simp only [supervisorStep, hk, ↓reduceIte]),
      (List.getElem?_set_ne hkj).trans hj, rfl, rfl⟩

/-- Losing a restart is a race, not a fate. From every state the server reaches with a
`Restart` call pending, some interleaving starts the next lifecycle: the holder's `Unlock`
runs before the pending call's `TryLock`. -/
theorem restart_pending_can_proceed {s : Supervisor α}
    (hs : Reach (supervisorStep isClosed) Supervisor.init s)
    (hpend : 0 < s.restarts.count .trying + s.restarts.count .restarting) :
    ∃ s', Reach (supervisorStep isClosed) s s' ∧ s'.lifecycles = s.lifecycles + 1 := by
  by_cases hr : 0 < s.restarts.count .restarting
  · obtain ⟨j, hj⟩ := List.mem_iff_getElem?.mp (List.count_pos_iff.mp hr)
    exact ⟨_, Reach.start.step (supervisorStep_restart hj), rfl⟩
  · obtain ⟨j, hj⟩ := List.mem_iff_getElem?.mp
      (List.count_pos_iff.mp (show 0 < s.restarts.count .trying by omega))
    obtain ⟨t, ht, htj, hfree, hlife⟩ := unlock_before_tryLock hs hj (by omega)
    have hj' : (t.restarts.set j .restarting)[j]? = some .restarting :=
      List.getElem?_set_self (List.getElem?_eq_some_iff.mp htj).1
    exact ⟨_, (ht.step (supervisorStep_tryLock_free htj hfree)).step (supervisorStep_restart hj'),
      by rw [← hlife]⟩

theorem restart_pending_can_proceed_window :
    ∃ s, Reach (supervisorStep tcpIsClosed) Supervisor.init s ∧ s.locked = true ∧
      0 < s.restarts.count .trying + s.restarts.count .restarting ∧
      ∃ s', Reach (supervisorStep tcpIsClosed) s s' ∧ s'.lifecycles = s.lifecycles + 1 := by
  obtain ⟨s, hrun, hs⟩ := Option.map_eq_some'.mp (show
    (runActions (supervisorStep tcpIsClosed) Supervisor.init restartWindowRun).map
      (fun s => (s.restarts, s.locked)) = some ([.unlocking, .trying], true) by decide)
  simp only [Prod.mk.injEq] at hs
  have hpend : 0 < s.restarts.count .trying + s.restarts.count .restarting := by
    rw [hs.1]
    decide
  exact ⟨s, Reach.start.run hrun, hs.2, hpend,
    restart_pending_can_proceed (Reach.start.run hrun) hpend⟩

/-- A server whose current lifecycle has handed over to `Restart` with no call left to
run it. -/
structure RestartLost (s : Supervisor α) : Prop where
  handedOver : ∃ h, s.handler = some h ∧ h.loop = .restarting
  noPending : s.restarts.count .trying + s.restarts.count .restarting = 0

/-- No step leaves a lost restart, and none starts a lifecycle. -/
theorem RestartLost.step {s s' : Supervisor α} {a : SupervisorAction α} (hs : RestartLost s)
    (h : supervisorStep isClosed s a = some s') :
    RestartLost s' ∧ s'.lifecycles = s.lifecycles := by
  obtain ⟨⟨hh, hsome, hloop⟩, hnone⟩ := hs
  cases a with
  | establish units => simp [supervisorStep, hsome] at h
  | handler a =>
    simp only [supervisorStep, hsome] at h
    obtain ⟨h', hstep, rfl⟩ := Option.map_eq_some'.mp h
    have hloop' : h'.loop = .restarting := by
      rcases handlerStep_loop isClosed hstep with heq | hsel
      · rw [heq, hloop]
      · rw [hloop] at hsel; cases hsel
    have hquiet : ¬(hh.loop = .selecting ∧ h'.loop = .restarting) := fun hc => by
      rw [hloop] at hc
      cases hc.1
    rw [if_neg hquiet]
    exact ⟨⟨⟨h', rfl, hloop'⟩, hnone⟩, rfl⟩
  | tryLock j =>
    simp only [supervisorStep] at h
    split_ifs at h with hj <;> have := List.count_pos_iff.mpr (List.getElem?_mem hj) <;> omega
  | restart j =>
    simp only [supervisorStep] at h
    split_ifs at h with hj
    have := List.count_pos_iff.mpr (List.getElem?_mem hj)
    omega
  | unlock j =>
    simp only [supervisorStep] at h
    split_ifs at h with hj
    cases h
    obtain ⟨h1, h2, -⟩ := counts_set_restarts hj .returned
    simp only [reduceCtorEq, ↓reduceIte, ite_true, ite_false] at h1 h2
    exact ⟨⟨⟨hh, hsome, hloop⟩, by dsimp only; omega⟩, rfl⟩

/-- A lost restart is lost for good. From a state in which the current lifecycle's
`channelHandler` has handed over and no `Restart` call is left to run, whatever the
server's goroutines do, it never starts another lifecycle, and its handler stays handed
over: the control channel is never re-established. -/
theorem restart_lost_forever {s s' : Supervisor α} (hlost : RestartLost s)
    (hs' : Reach (supervisorStep isClosed) s s') :
    s'.lifecycles = s.lifecycles ∧ ∃ h, s'.handler = some h ∧ h.loop = .restarting := by
  have := Reach.invariant (P := fun t => RestartLost t ∧ t.lifecycles = s.lifecycles) hs'
    (fun ht hstep => ⟨(ht.1.step hstep).1, (ht.1.step hstep).2.trans ht.2⟩) ⟨hlost, rfl⟩
  exact ⟨this.2, this.1.handedOver⟩

end

/-- The window of `restartWindowRun` closing: the waiting call's `TryLock` fails, and then
the holder unlocks. -/
def restartLostRun : List (SupervisorAction Byte) :=
  restartWindowRun ++ [.tryLock 1, .unlock 0]

theorem restartLostRun_reach :
    ∃ s, Reach (supervisorStep tcpIsClosed) Supervisor.init s ∧ s.lifecycles = 1 ∧
      RestartLost s := by
  obtain ⟨s, hrun, hs⟩ := Option.map_eq_some'.mp (show
    (runActions (supervisorStep tcpIsClosed) Supervisor.init restartLostRun).map
      (fun s => (s.handler.map (·.loop), s.restarts, s.lifecycles)) =
        some (some .restarting, [.returned, .returned], 1) by decide)
  simp only [Prod.mk.injEq] at hs
  obtain ⟨hloop, hrestarts, hlife⟩ := hs
  obtain ⟨h, hsome, hh⟩ := Option.map_eq_some'.mp hloop
  exact ⟨s, Reach.start.run hrun, hlife, ⟨h, hsome, hh⟩, by rw [hrestarts]; rfl⟩

/-- The lost restart of `restartLostRun`: its one lifecycle after the first is also the
last. -/
theorem restart_lost_forever_window :
    ∃ s, Reach (supervisorStep tcpIsClosed) Supervisor.init s ∧ s.lifecycles = 1 ∧
      RestartLost s ∧ ∀ s', Reach (supervisorStep tcpIsClosed) s s' →
        s'.lifecycles = s.lifecycles ∧ ∃ h, s'.handler = some h ∧ h.loop = .restarting := by
  obtain ⟨s, hs, hlife, hlost⟩ := restartLostRun_reach
  exact ⟨s, hs, hlife, hlost, fun _ hs' => restart_lost_forever hlost hs'⟩

end Backhaul.Server
