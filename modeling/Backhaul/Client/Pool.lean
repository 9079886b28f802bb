import Backhaul.Client.Signals

/-!
# The pool-size accounting of one lifecycle

`poolMaintainer` and `channelHandler` meet on the unbuffered `controlFlow` channel:
a shrink decision leaves the maintainer blocked until the handler's next `SG_Chan`
takes the token in place of dialing. Over every interleaving this keeps an exact
account: every dialer a lifecycle starts is a unit of `newPoolSize`, a handled
`SG_Chan`, or the shrink token in flight. A negative `ConnPoolSize` starts no dialer
but still sets `newPoolSize`, which the account records by `filled`.

Between two 60-second decisions the target stands still, so the account also bounds a
burst: the maintainer holds out at most one token, and every other `SG_Chan` dials.
-/

namespace Backhaul.Client

/-- How many dialers the initial filling loop has started. -/
def MaintainerPc.filled (connPoolSize : Int) : MaintainerPc → Nat
  | .filling i => i
  | _ => connPoolSize.toNat

/-- One while the maintainer is blocked handing a shrink token over `controlFlow`. -/
def MaintainerPc.handing : MaintainerPc → Nat
  | .handingShrink => 1
  | _ => 0

/-- The account of one lifecycle's dialers. -/
structure PoolInv (c : TcpTransport) : Prop where
  /-- The target never drops below the configured floor. -/
  floor : c.connPoolSize ≤ c.newPoolSize
  /-- Every dialer started is filling, growth, a handled `SG_Chan` or a token in flight. -/
  accounting : (c.spawned : Int) = c.newPoolSize - c.connPoolSize +
    c.maintainer.filled c.connPoolSize + c.consumed.count sgChan + c.maintainer.handing
  /-- The filling loop runs before any decision and stops at `max ConnPoolSize 0`. -/
  filling : ∀ i, c.maintainer = .filling i →
    (i : Int) ≤ max c.connPoolSize 0 ∧ c.newPoolSize = c.connPoolSize

theorem poolInv_init (connPoolSize : Int) (bytes : List Byte) :
    PoolInv (TcpTransport.init connPoolSize bytes) where
  floor := Int.le_refl connPoolSize
  accounting := by simp [TcpTransport.init, MaintainerPc.filled, MaintainerPc.handing]
  filling := by
    rintro i ⟨⟩
    exact ⟨by simp only [TcpTransport.init]; omega, rfl⟩

/-- The account only reads these fields, so an action that keeps them keeps it. -/
theorem PoolInv.congr {c c' : TcpTransport} (hc : PoolInv c)
    (hcps : c'.connPoolSize = c.connPoolSize) (hnps : c'.newPoolSize = c.newPoolSize)
    (hm : c'.maintainer = c.maintainer) (hspawned : c'.spawned = c.spawned)
    (hconsumed : c'.consumed.count sgChan = c.consumed.count sgChan) : PoolInv c' where
  floor := hcps ▸ hnps ▸ hc.floor
  accounting := by rw [hcps, hnps, hm, hspawned, hconsumed]; exact hc.accounting
  filling := fun i hi => by rw [hcps, hnps]; exact hc.filling i (hm ▸ hi)

private theorem count_append_singleton (l : List Byte) (msg : Byte) :
    (l ++ [msg]).count sgChan = l.count sgChan + if msg = sgChan then 1 else 0 := by
  by_cases h : msg = sgChan <;> simp [List.count_singleton, h]

/-- A handled signal keeps the account: the `SG_Chan` that `step` records is balanced by
its dial or by the token it takes; other bytes move nothing the account reads. -/
theorem channelHandlerSignal_poolInv {c : TcpTransport} (msg : Byte) (rest : List Byte)
    (hc : PoolInv c) :
    PoolInv
      (channelHandlerSignal { c with inbox := rest, consumed := c.consumed ++ [msg] } msg) := by
  have hdecision :=
    channelHandlerSignal_decision { c with inbox := rest, consumed := c.consumed ++ [msg] } msg
  have hcount := count_append_singleton c.consumed msg
  obtain ⟨hfloor, hacc, hfill⟩ := hc
  by_cases hchan : msg = sgChan
  · subst hchan
    simp only [if_true] at hdecision hcount
    rcases hdecision with ⟨-, hm, -, hspawned⟩ | ⟨hshrink, hm, -, hspawned⟩
    · refine ⟨by simpa using hfloor, ?_, fun i hi => by simpa using hfill i (hm ▸ hi)⟩
      simp only [channelHandlerSignal_connPoolSize, channelHandlerSignal_newPoolSize,
        channelHandlerSignal_consumed, hm, hspawned, hcount]
      push_cast
      omega
    · refine ⟨by simpa using hfloor, ?_, fun i hi => by rw [hm] at hi; cases hi⟩
      simp only [channelHandlerSignal_connPoolSize, channelHandlerSignal_newPoolSize,
        channelHandlerSignal_consumed, hm, hspawned, hcount, MaintainerPc.filled,
        MaintainerPc.handing]
      simp only [hshrink, MaintainerPc.filled, MaintainerPc.handing] at hacc
      push_cast
      omega
  · simp only [hchan, if_false] at hdecision hcount
    exact PoolInv.congr ⟨hfloor, hacc, hfill⟩ (by simp) (by simp) hdecision.1 hdecision.2.2
      (by simpa using hcount)

/-- A window decision keeps the account: growth dials once, a shrink above the floor
hands one token, and keeping the target moves nothing. -/
theorem poolMaintainerWindow_poolInv {c : TcpTransport} {load : Int} (hc : PoolInv c)
    (hm : c.maintainer = .deciding load) : PoolInv (poolMaintainerWindow c load) := by
  obtain ⟨hfloor, hacc, -⟩ := hc
  simp only [hm, MaintainerPc.filled, MaintainerPc.handing] at hacc
  rcases poolMaintainerWindow_cases c load with
    ⟨hm', hnps, -, hspawned⟩ | ⟨hm', hlt, hnps, -, hspawned⟩ |
      ⟨hm', hnps, -, hspawned⟩ <;>
  refine ⟨by simp only [poolMaintainerWindow_connPoolSize, hnps]; omega, ?_,
    fun i hi => by rw [hm'] at hi; cases hi⟩ <;>
  simp only [poolMaintainerWindow_connPoolSize, poolMaintainerWindow_consumed, hm', hnps, hspawned,
    MaintainerPc.filled, MaintainerPc.handing] <;>
  push_cast <;> omega

/-- Every enabled action keeps the account. -/
theorem poolInv_step {c c' : TcpTransport} {a : Action} (hc : PoolInv c)
    (h : step c a = some c') : PoolInv c' := by
  have hacc := hc.accounting
  apply step_cases h
  case fill =>
    intro i hm hi
    have ⟨hbound, hnps⟩ := hc.filling i hm
    simp only [hm, MaintainerPc.filled, MaintainerPc.handing] at hacc
    refine ⟨by simpa using hc.floor, ?_, ?_⟩
    · simp only [spawn_spawned, spawn_newPoolSize, spawn_connPoolSize, spawn_consumed,
        MaintainerPc.filled, MaintainerPc.handing]
      push_cast
      omega
    · rintro j ⟨⟩
      exact ⟨by simp only [spawn_connPoolSize]; omega, by simpa using hnps⟩
  case fillDone =>
    intro i hm hi
    have ⟨hbound, hnps⟩ := hc.filling i hm
    simp only [hm, MaintainerPc.filled, MaintainerPc.handing] at hacc
    refine ⟨hc.floor, ?_, fun j hj => by cases hj⟩
    simp only [MaintainerPc.filled, MaintainerPc.handing]
    omega
  case windowRead =>
    intro hm
    simp only [hm, MaintainerPc.filled, MaintainerPc.handing] at hacc
    exact ⟨hc.floor, by simpa [MaintainerPc.filled, MaintainerPc.handing] using hacc,
      fun j hj => by cases hj⟩
  case windowDecide => exact fun _ hm => poolMaintainerWindow_poolInv hc hm
  case signal =>
    exact fun msg rest _ _ => channelHandlerSignal_poolInv msg rest hc
  case sample | readFail => exact fun _ => hc.congr rfl rfl rfl rfl rfl
  case dialOk | dialFail => exact fun _ _ _ => hc.congr rfl rfl rfl rfl rfl
  case receive => exact fun _ _ _ _ => hc.congr rfl rfl rfl rfl rfl
  case restart =>
    intro bytes _
    refine ⟨Int.le_refl _, ?_, ?_⟩
    · simp [TcpTransport.restart, MaintainerPc.filled, MaintainerPc.handing]
    · rintro i ⟨⟩
      exact ⟨by simp only [TcpTransport.restart]; omega, rfl⟩

/-- The account holds in every reachable state. -/
theorem Reachable.poolInv {connPoolSize : Int} {bytes : List Byte} {c : TcpTransport}
    (hc : Reachable connPoolSize bytes c) : PoolInv c :=
  hc.invariant (poolInv_init connPoolSize bytes) poolInv_step

/-- No action changes the configuration. -/
theorem step_connPoolSize {c c' : TcpTransport} {a : Action} (h : step c a = some c') :
    c'.connPoolSize = c.connPoolSize := by
  apply step_cases h <;> intros <;> first | rfl | simp

theorem Reachable.connPoolSize_eq {connPoolSize : Int} {bytes : List Byte} {c : TcpTransport}
    (hc : Reachable connPoolSize bytes c) : c.connPoolSize = connPoolSize := by
  induction hc with
  | init => rfl
  | step _ h ih => exact (step_connPoolSize h).trans ih

/-- A `signal` step on `SG_Chan` records it and makes exactly one decision: it starts one
new dialer, or it takes the shrink token the maintainer is blocked handing over and starts
none. -/
theorem step_signal_sgChan {c c' : TcpTransport} (h : step c .signal = some c')
    (hchan : c.inbox.head? = some sgChan) :
    c'.consumed = c.consumed ++ [sgChan] ∧
      ((c.maintainer ≠ .handingShrink ∧ c'.maintainer = c.maintainer ∧
          c'.dialers = c.dialers ++ [⟨c.epoch, .dialing⟩] ∧ c'.spawned = c.spawned + 1) ∨
        (c.maintainer = .handingShrink ∧ c'.maintainer = .selecting ∧
          c'.dialers = c.dialers ∧ c'.spawned = c.spawned)) := by
  simp only [step] at h
  split at h
  · next msg rest _ hinbox =>
    obtain rfl := Option.some.inj h
    rw [hinbox, List.head?_cons, Option.some.injEq] at hchan
    subst hchan
    have hdecision := channelHandlerSignal_decision
      { c with inbox := rest, consumed := c.consumed ++ [sgChan] } sgChan
    rw [if_pos rfl] at hdecision
    exact ⟨by simp, hdecision⟩
  · cases h

/-- The pool account of every lifecycle, over every interleaving. The target never drops
below the configured floor, and the signals handled are the delivered bytes in arrival
order. Wherever `poolMaintainer` waits after its filling loop, every dialer of the lifecycle
is a unit of the target, a handled `SG_Chan`, or the shrink token in flight; a negative
`ConnPoolSize` adds the initial dialers it never starts. Each `SG_Chan` handled makes exactly
one decision: a dial, or the take of the token. -/
theorem pool_target_accounting {connPoolSize : Int} {bytes : List Byte} {c : TcpTransport}
    (hc : Reachable connPoolSize bytes c) :
    connPoolSize ≤ c.newPoolSize ∧ c.consumed ++ c.inbox = c.delivered ∧
      ((c.maintainer = .selecting ∨ c.maintainer = .handingShrink) →
        (c.spawned : Int) = c.newPoolSize + (max connPoolSize 0 - connPoolSize) +
          c.consumed.count sgChan + c.maintainer.handing) ∧
      (∀ c', step c .signal = some c' → c.inbox.head? = some sgChan →
        c'.consumed = c.consumed ++ [sgChan] ∧
          ((c.maintainer ≠ .handingShrink ∧ c'.maintainer = c.maintainer ∧
              c'.dialers = c.dialers ++ [⟨c.epoch, .dialing⟩] ∧ c'.spawned = c.spawned + 1) ∨
            (c.maintainer = .handingShrink ∧ c'.maintainer = .selecting ∧
              c'.dialers = c.dialers ∧ c'.spawned = c.spawned))) := by
  have hinv := hc.poolInv
  have hcps := hc.connPoolSize_eq
  refine ⟨hcps ▸ hinv.floor, hc.signalInv.order, fun hm => ?_,
    fun _ h hchan => step_signal_sgChan h hchan⟩
  have hfilled : c.maintainer.filled c.connPoolSize = c.connPoolSize.toNat := by
    rcases hm with hm | hm <;> simp [hm, MaintainerPc.filled]
  have hacc := hinv.accounting
  rw [hfilled, hcps, Int.toNat_eq_max] at hacc
  omega

/-- A pool of one: the filling loop dials once, an `SG_Chan` dials, the first decision
grows the pool, three dials succeed and are sampled, and the second decision shrinks the
pool and blocks on the token, with one more `SG_Chan` queued to take it. -/
def poolTargetRun : List Action :=
  [.fill, .fillDone, .signal, .windowRead, .windowDecide, .dial 0 true, .dial 1 true,
    .dial 2 true, .sample, .windowRead, .windowDecide]

theorem pool_target_accounting_shrinking :
    ∃ c, Reachable 1 [sgChan, sgChan] c ∧ c.maintainer = .handingShrink ∧ c.spawned = 3 ∧
      c.inbox = [sgChan] ∧
      1 ≤ c.newPoolSize ∧ c.consumed ++ c.inbox = c.delivered ∧
      ((c.maintainer = .selecting ∨ c.maintainer = .handingShrink) →
        (c.spawned : Int) = c.newPoolSize + (max 1 0 - 1) +
          c.consumed.count sgChan + c.maintainer.handing) ∧
      (∀ c', step c .signal = some c' → c.inbox.head? = some sgChan →
        c'.consumed = c.consumed ++ [sgChan] ∧
          ((c.maintainer ≠ .handingShrink ∧ c'.maintainer = c.maintainer ∧
              c'.dialers = c.dialers ++ [⟨c.epoch, .dialing⟩] ∧ c'.spawned = c.spawned + 1) ∨
            (c.maintainer = .handingShrink ∧ c'.maintainer = .selecting ∧
              c'.dialers = c.dialers ∧ c'.spawned = c.spawned))) := by
  obtain ⟨c, hrun, hs⟩ := Option.map_eq_some'.mp (show
    (run (TcpTransport.init 1 [sgChan, sgChan]) poolTargetRun).map
      (fun c => (c.maintainer, c.spawned, c.inbox)) = some (.handingShrink, 3, [sgChan]) by
      decide)
  simp only [Prod.mk.injEq] at hs
  have hc := Reachable.run .init hrun
  exact ⟨c, hc, hs.1, hs.2.1, hs.2.2, pool_target_accounting hc⟩

/-- With a negative `ConnPoolSize` the filling loop starts no dialer but `newPoolSize`
starts at `ConnPoolSize`, so the identity without the filling term fails. -/
theorem pool_accounting_negative_floor :
    ∃ c, Reachable (-1) [] c ∧ c.maintainer = .selecting ∧
      (c.spawned : Int) ≠ c.newPoolSize + c.consumed.count sgChan + c.maintainer.handing := by
  have hrun : run (TcpTransport.init (-1) []) [.fillDone] =
      some { TcpTransport.init (-1) [] with maintainer := .selecting } := by decide
  have hc := Reachable.run .init hrun
  exact ⟨_, hc, rfl, by decide⟩

/-! ## Bursts of `SG_Chan` -/

/-- The actions that move the pool target: a 60-second decision, and `Restart`. -/
def Action.movesTarget : Action → Bool
  | .windowDecide | .restart _ => true
  | _ => false

/-- An action that does not move the target keeps it, and never gives back a dialer of the
filling loop. -/
theorem step_keeps_target {c c' : TcpTransport} {a : Action} (hc : PoolInv c)
    (h : step c a = some c') (ha : a.movesTarget = false) :
    c'.connPoolSize = c.connPoolSize ∧ c'.newPoolSize = c.newPoolSize ∧
      c.maintainer.filled c.connPoolSize ≤ c'.maintainer.filled c.connPoolSize := by
  cases a <;> simp only [Action.movesTarget, Bool.true_eq_false] at ha <;> simp only [step] at h
  case fill | fillDone =>
    split at h
    · next i hm =>
      have hbound := (hc.filling i hm).1
      split_ifs at h
      cases h
      refine ⟨rfl, rfl, ?_⟩
      simp only [hm, MaintainerPc.filled]
      omega
    · cases h
  case sample | windowRead | readFail =>
    split_ifs at h with hm
    cases h
    first | exact ⟨rfl, rfl, le_refl _⟩ | simp only [hm, MaintainerPc.filled, le_refl, and_self]
  case signal =>
    split at h
    · next msg rest _ _ =>
      cases h
      have hdecision :=
        channelHandlerSignal_decision { c with inbox := rest, consumed := c.consumed ++ [msg] } msg
      refine ⟨by simp, by simp, ?_⟩
      split_ifs at hdecision
      · rcases hdecision with ⟨-, hm, -⟩ | ⟨hm₀, hm, -⟩
        · exact (congrArg (MaintainerPc.filled _) hm.symm).le
        · dsimp only at hm₀
          rw [hm]
          simp only [hm₀, MaintainerPc.filled, le_refl]
      · rw [hdecision.1]
    · cases h
  case dial i ok =>
    split at h
    · cases h
      cases ok <;> exact ⟨rfl, rfl, le_refl _⟩
    · cases h
  case receive i =>
    split at h
    · cases h
      exact ⟨rfl, rfl, le_refl _⟩
    · cases h

/-- Along a run that does not move the target, the target and `ConnPoolSize` stay, and the
filling loop's count only grows. -/
theorem run_keeps_target {connPoolSize : Int} {bytes : List Byte} {c c' : TcpTransport}
    {actions : List Action} (hc : Reachable connPoolSize bytes c)
    (hrun : run c actions = some c') (hquiet : ∀ a ∈ actions, a.movesTarget = false) :
    c'.connPoolSize = c.connPoolSize ∧ c'.newPoolSize = c.newPoolSize ∧
      c.maintainer.filled c.connPoolSize ≤ c'.maintainer.filled c.connPoolSize := by
  induction actions generalizing c with
  | nil =>
    simp only [run, Option.some.injEq] at hrun
    subst hrun
    exact ⟨rfl, rfl, Nat.le_refl _⟩
  | cons a rest ih =>
    simp only [run, Option.bind_eq_some] at hrun
    obtain ⟨c₁, hstep, hrest⟩ := hrun
    obtain ⟨hcps₁, hnps₁, hfilled₁⟩ :=
      step_keeps_target hc.poolInv hstep (hquiet a (List.mem_cons_self a rest))
    obtain ⟨hcps, hnps, hfilled⟩ :=
      ih (hc.step hstep) hrest (fun b hb => hquiet b (List.mem_cons_of_mem a hb))
    rw [hcps₁] at hcps hfilled
    exact ⟨hcps, hnps.trans hnps₁, hfilled₁.trans hfilled⟩

/-- Between two 60-second decisions of one lifecycle, every `SG_Chan` the client handles
dials a tunnel connection, except the one that takes the shrink token the maintainer may be
holding out when the burst begins: a burst is coalesced by at most one signal, whatever the
pool holds. -/
theorem sgChan_burst_dials {connPoolSize : Int} {bytes : List Byte} {c c' : TcpTransport}
    {actions : List Action} (hc : Reachable connPoolSize bytes c)
    (hrun : run c actions = some c') (hquiet : ∀ a ∈ actions, a.movesTarget = false) :
    (c'.consumed.count sgChan : Int) - c.consumed.count sgChan ≤
      (c'.spawned : Int) - c.spawned + c.maintainer.handing := by
  have hacc := hc.poolInv.accounting
  have hacc' := (hc.run hrun).poolInv.accounting
  obtain ⟨hcps, hnps, hfilled⟩ := run_keeps_target hc hrun hquiet
  rw [hcps, hnps] at hacc'
  omega

/-- Three `SG_Chan` right after the filling loop of a pool of one. -/
def burstRun : List Action := [.fill, .fillDone, .signal, .signal, .signal]

theorem sgChan_burst_dials_three :
    ∃ c', run (TcpTransport.init 1 [sgChan, sgChan, sgChan]) burstRun = some c' ∧
      (∀ a ∈ burstRun, a.movesTarget = false) ∧ c'.spawned = 4 ∧
      (c'.consumed.count sgChan : Int) -
          (TcpTransport.init 1 [sgChan, sgChan, sgChan]).consumed.count sgChan ≤
        (c'.spawned : Int) - (TcpTransport.init 1 [sgChan, sgChan, sgChan]).spawned +
          (TcpTransport.init 1 [sgChan, sgChan, sgChan]).maintainer.handing := by
  obtain ⟨c', hrun, hspawned⟩ := Option.map_eq_some'.mp (show
    (run (TcpTransport.init 1 [sgChan, sgChan, sgChan]) burstRun).map (·.spawned) = some 4 by
      decide)
  have hquiet : ∀ a ∈ burstRun, a.movesTarget = false := by decide
  exact ⟨c', hrun, hquiet, hspawned, sgChan_burst_dials .init hrun hquiet⟩

end Backhaul.Client
