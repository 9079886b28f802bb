import Backhaul.Client.Pool

/-!
# The `poolConnections` gauge across restarts

`tunnelDialer` increments `poolConnections` once dialed and decrements it once its
`ReceiveBinaryString` returns, with no regard to the lifecycle, while `Restart`
resets the gauge to zero. A dialer blocked across a restart therefore decrements the
next lifecycle's gauge, and a dialer still dialing when `Restart` runs increments it. The
account below is exact over every interleaving: the gauge is the number of dialers that
this lifecycle started and that are pooled, plus those of earlier lifecycles pooled since
the reset, less the stale decrements. The stale term is what makes the gauge negative.
-/

namespace Backhaul.Client

/-- Whether a dialer is blocked in `ReceiveBinaryString`, having incremented the gauge. -/
def DialerPc.isPooled : DialerPc → Bool
  | .pooled _ => true
  | _ => false

/-- Dialers pooled since this lifecycle's `Restart`, whichever lifecycle started them. -/
def TcpTransport.pooledNow (c : TcpTransport) : Nat :=
  c.dialers.countP fun d => d.pc = .pooled c.epoch

/-- Dialers started in this lifecycle that have incremented the gauge and not yet
decremented it: what the gauge is meant to count. -/
def TcpTransport.inflight (c : TcpTransport) : Nat :=
  c.dialers.countP fun d => d.epoch = c.epoch ∧ d.pc.isPooled

/-- Dialers of earlier lifecycles that a `Restart` overtook while they were dialing and that
then incremented this lifecycle's gauge. -/
def TcpTransport.latePooled (c : TcpTransport) : Nat :=
  c.dialers.countP fun d => d.epoch < c.epoch ∧ d.pc = .pooled c.epoch

/-- A dialer belongs to no later lifecycle, and a pooled one incremented the gauge in a
lifecycle between the one that started it and the current one. -/
def Dialer.InPast (e : Nat) (d : Dialer) : Prop :=
  d.epoch ≤ e ∧ ∀ p, d.pc = .pooled p → d.epoch ≤ p ∧ p ≤ e

/-- The gauge's account. -/
structure GaugeInv (c : TcpTransport) : Prop where
  accounting : c.poolConnections = (c.pooledNow : Int) - c.staleDecrements
  past : ∀ d ∈ c.dialers, d.InPast c.epoch
  /-- Before the first `Restart` no decrement is stale. -/
  first : c.epoch = 0 → c.staleDecrements = 0

/-- Replacing one element moves a count by the difference of the two elements. -/
theorem countP_set_add {α : Type} (p : α → Bool) {l : List α} {i : Nat} {x : α} (y : α)
    (hx : l[i]? = some x) :
    (l.set i y).countP p + (if p x then 1 else 0) = l.countP p + (if p y then 1 else 0) := by
  induction l generalizing i with
  | nil => simp at hx
  | cons z l ih =>
    cases i with
    | zero =>
      simp only [List.getElem?_cons_zero, Option.some.injEq] at hx
      subst hx
      simp only [List.set_cons_zero, List.countP_cons]
      omega
    | succ i =>
      simp only [List.getElem?_cons_succ] at hx
      simp only [List.set_cons_succ, List.countP_cons]
      have := ih hx
      omega

theorem gaugeInv_init (connPoolSize : Int) (bytes : List Byte) :
    GaugeInv (TcpTransport.init connPoolSize bytes) where
  accounting := rfl
  past := by simp [TcpTransport.init]
  first := fun _ => rfl

/-- A new dialer is still dialing, so it changes neither side of the account. -/
theorem GaugeInv.spawn {c : TcpTransport} (hc : GaugeInv c) : GaugeInv c.spawn where
  accounting := by
    simp only [spawn_poolConnections, spawn_staleDecrements, TcpTransport.pooledNow,
      spawn_dialers, spawn_epoch, List.countP_append]
    simpa [TcpTransport.pooledNow] using hc.accounting
  past := by
    intro d hd
    simp only [spawn_dialers, List.mem_append, List.mem_singleton] at hd
    rcases hd with hd | rfl
    · exact hc.past d hd
    · exact ⟨le_refl _, fun _ hp => by cases hp⟩
  first := hc.first

/-- The gauge's account only reads these fields. -/
theorem GaugeInv.congr {c c' : TcpTransport} (hc : GaugeInv c)
    (hpc : c'.poolConnections = c.poolConnections) (hdialers : c'.dialers = c.dialers)
    (hepoch : c'.epoch = c.epoch) (hstale : c'.staleDecrements = c.staleDecrements) :
    GaugeInv c' where
  accounting := by
    rw [hpc, hstale, TcpTransport.pooledNow, hdialers, hepoch]; exact hc.accounting
  past := by rw [hdialers, hepoch]; exact hc.past
  first := by rw [hepoch, hstale]; exact hc.first

/-- Keeping the gauge fields and at most adding one dialing dialer keeps the account. -/
theorem GaugeInv.of_dialers {c c' : TcpTransport} (hc : GaugeInv c)
    (hpc : c'.poolConnections = c.poolConnections) (hepoch : c'.epoch = c.epoch)
    (hstale : c'.staleDecrements = c.staleDecrements)
    (hdialers : c'.dialers = c.dialers ∨ c'.dialers = c.dialers ++ [⟨c.epoch, .dialing⟩]) :
    GaugeInv c' := by
  rcases hdialers with hdialers | hdialers
  · exact hc.congr hpc hdialers hepoch hstale
  · exact hc.spawn.congr hpc hdialers hepoch hstale

/-- Moving a dialer keeps the dialers' lifecycles in the past. -/
theorem GaugeInv.past_set {c : TcpTransport} (hc : GaugeInv c) {i : Nat} {y : Dialer}
    (hy : y.InPast c.epoch) : ∀ d ∈ c.dialers.set i y, d.InPast c.epoch := by
  intro d hd
  rcases List.mem_or_eq_of_mem_set hd with hd | rfl
  · exact hc.past d hd
  · exact hy

/-- A dial that succeeds counts once on both sides. -/
theorem GaugeInv.dialOk {c : TcpTransport} {i e : Nat} (hc : GaugeInv c)
    (hi : c.dialers[i]? = some ⟨e, .dialing⟩) :
    GaugeInv { c with poolConnections := c.poolConnections + 1,
                      dialers := c.dialers.set i ⟨e, .pooled c.epoch⟩ } := by
  have hcount := countP_set_add (fun d : Dialer => d.pc = .pooled c.epoch)
    ⟨e, .pooled c.epoch⟩ hi
  have hacc := hc.accounting
  have he := (hc.past _ (List.getElem?_mem hi)).1
  simp only [TcpTransport.pooledNow] at hacc
  simp at hcount
  refine ⟨?_, hc.past_set ⟨he, fun p hp => by cases hp; exact ⟨he, le_refl _⟩⟩, hc.first⟩
  simp only [TcpTransport.pooledNow]
  omega

/-- A dial that fails counts on neither side. -/
theorem GaugeInv.dialFail {c : TcpTransport} {i e : Nat} (hc : GaugeInv c)
    (hi : c.dialers[i]? = some ⟨e, .dialing⟩) :
    GaugeInv { c with dialers := c.dialers.set i ⟨e, .finished⟩ } := by
  have hcount := countP_set_add (fun d : Dialer => d.pc = .pooled c.epoch) ⟨e, .finished⟩ hi
  have hacc := hc.accounting
  simp only [TcpTransport.pooledNow] at hacc
  simp at hcount
  refine ⟨?_, hc.past_set ⟨(hc.past _ (List.getElem?_mem hi)).1, fun _ hp => by cases hp⟩,
    hc.first⟩
  simp only [TcpTransport.pooledNow]
  omega

/-- A pooled dialer's decrement is a loss of a counted dialer in its own lifecycle, and
a stale decrement in a later one. -/
theorem GaugeInv.receive {c : TcpTransport} {i e p : Nat} (hc : GaugeInv c)
    (hi : c.dialers[i]? = some ⟨e, .pooled p⟩) :
    GaugeInv { c with poolConnections := c.poolConnections - 1,
                      dialers := c.dialers.set i ⟨e, .finished⟩,
                      staleDecrements := if p = c.epoch then c.staleDecrements
                        else c.staleDecrements + 1 } := by
  have hcount := countP_set_add (fun d : Dialer => d.pc = .pooled c.epoch) ⟨e, .finished⟩ hi
  have hacc := hc.accounting
  have ⟨he, hp⟩ := hc.past _ (List.getElem?_mem hi)
  have hpe := (hp p rfl).2
  simp only [TcpTransport.pooledNow] at hacc
  refine ⟨?_, hc.past_set ⟨he, fun _ h => by cases h⟩, fun h0 => ?_⟩
  · simp only [TcpTransport.pooledNow]
    by_cases hp : p = c.epoch <;> simp [hp] at hcount ⊢ <;> omega
  · dsimp only at h0 ⊢
    rw [if_pos (by omega)]
    exact hc.first h0

/-- Every enabled action keeps the gauge's account. -/
theorem gaugeInv_step {c c' : TcpTransport} {a : Action} (hc : GaugeInv c)
    (h : step c a = some c') : GaugeInv c' := by
  apply step_cases h
  case fill => exact fun _ _ _ => hc.spawn.congr rfl rfl rfl rfl
  case fillDone => exact fun _ _ _ => hc.congr rfl rfl rfl rfl
  case sample | windowRead | readFail => exact fun _ => hc.congr rfl rfl rfl rfl
  case windowDecide =>
    intro load _
    refine hc.of_dialers (by simp) (by simp) (by simp) ?_
    rcases poolMaintainerWindow_cases c load with
      ⟨-, -, hd, -⟩ | ⟨-, -, -, hd, -⟩ | ⟨-, -, hd, -⟩
    · exact .inr hd
    · exact .inl hd
    · exact .inl hd
  case signal =>
    intro msg rest _ _
    have hdecision :=
      channelHandlerSignal_decision { c with inbox := rest, consumed := c.consumed ++ [msg] } msg
    have hrest : GaugeInv { c with inbox := rest, consumed := c.consumed ++ [msg] } :=
      hc.congr rfl rfl rfl rfl
    refine hrest.of_dialers (by simp) (by simp) (by simp) ?_
    split_ifs at hdecision
    · rcases hdecision with ⟨-, -, hd, -⟩ | ⟨-, -, hd, -⟩
      · exact .inr hd
      · exact .inl hd
    · exact .inl hdecision.2.1
  case dialOk => exact fun _ _ hi => hc.dialOk hi
  case dialFail => exact fun _ _ hi => hc.dialFail hi
  case receive => exact fun _ _ _ hi => hc.receive hi
  case restart =>
    intro bytes _
    refine ⟨?_, fun d hd => ?_, fun _ => rfl⟩
    · have hnone : (c.dialers.countP fun d => d.pc = .pooled (c.epoch + 1)) = 0 := by
        rw [List.countP_eq_zero]
        intro d hd hp
        have := ((hc.past d hd).2 _ (of_decide_eq_true hp)).2
        omega
      simp [TcpTransport.restart, TcpTransport.pooledNow, hnone]
    · obtain ⟨hd, hp⟩ := hc.past d hd
      exact ⟨Nat.le_succ_of_le hd, fun p h => ⟨(hp p h).1, Nat.le_succ_of_le (hp p h).2⟩⟩

/-- The gauge's exact account holds in every reachable state. -/
theorem Reachable.gaugeInv {connPoolSize : Int} {bytes : List Byte} {c : TcpTransport}
    (hc : Reachable connPoolSize bytes c) : GaugeInv c :=
  hc.invariant (gaugeInv_init connPoolSize bytes) gaugeInv_step

/-- A dialer pooled in lifecycle `e` was started in `e` or, overtaken by a `Restart` while
dialing, in an earlier one. -/
theorem countP_pooledNow_split {e : Nat} {l : List Dialer} (hl : ∀ d ∈ l, d.InPast e) :
    l.countP (fun d => d.pc = .pooled e) =
      l.countP (fun d => d.epoch = e ∧ d.pc.isPooled) +
        l.countP (fun d => d.epoch < e ∧ d.pc = .pooled e) := by
  induction l with
  | nil => rfl
  | cons d l ih =>
    obtain ⟨hde, hp⟩ := hl d (List.mem_cons_self _ _)
    simp only [List.countP_cons, ih fun x hx => hl x (List.mem_cons_of_mem _ hx)]
    rcases d with ⟨de, _ | p | _⟩
    · simp [DialerPc.isPooled]
    · have hdp := hp p rfl
      dsimp only at hde hdp
      by_cases hpe : p = e
      · subst hpe
        rcases Nat.lt_or_eq_of_le hdp.1 with hlt | rfl
        · simp [hlt, hlt.ne, DialerPc.isPooled]
          omega
        · simp [DialerPc.isPooled]
          omega
      · simp [hpe, show de ≠ e by omega, DialerPc.isPooled]
    · simp [DialerPc.isPooled]

theorem GaugeInv.pooledNow_eq {c : TcpTransport} (hc : GaugeInv c) :
    c.pooledNow = c.inflight + c.latePooled :=
  countP_pooledNow_split hc.past

/-- The gauge over every interleaving of dialers, samples and restarts. It counts the
dialers this lifecycle started that have incremented it and not yet decremented it, which is
what it is meant to count, plus the dialers of earlier lifecycles that a `Restart` overtook
while dialing and that incremented it afterwards, less the decrements by dialers that
incremented an earlier lifecycle's gauge. Before the first `Restart` both error terms
vanish and the gauge is exact. -/
theorem poolConnections_account {connPoolSize : Int} {bytes : List Byte} {c : TcpTransport}
    (hc : Reachable connPoolSize bytes c) :
    c.poolConnections = (c.inflight : Int) + c.latePooled - c.staleDecrements ∧
      (c.epoch = 0 → c.poolConnections = c.inflight) := by
  have hinv := hc.gaugeInv
  have hsplit := hinv.pooledNow_eq
  have hacc := hinv.accounting
  refine ⟨by omega, fun h0 => ?_⟩
  have hlate : c.latePooled = 0 := List.countP_eq_zero.mpr fun d _ hd => by simp [h0] at hd
  have hstale := hinv.first h0
  omega

/-- A dialer of the first lifecycle with `ConnPoolSize = 2` is still dialing when `Restart`
runs, and its dial succeeds in the next lifecycle. -/
def overtakenTrace : List Action :=
  [.fill, .fill, .fillDone, .dial 0 true, .readFail, .restart [], .dial 1 true]

theorem poolConnections_account_overtaken :
    ∃ c, Reachable 2 [] c ∧ c.epoch = 1 ∧ c.poolConnections = 1 ∧ c.inflight = 0 ∧
      c.latePooled = 1 ∧
      c.poolConnections = (c.inflight : Int) + c.latePooled - c.staleDecrements ∧
      (c.epoch = 0 → c.poolConnections = c.inflight) := by
  obtain ⟨c, hrun, hs⟩ := Option.map_eq_some'.mp (show
    (run (TcpTransport.init 2 []) overtakenTrace).map
      (fun c => (c.epoch, c.poolConnections, c.inflight, c.latePooled)) = some (1, 1, 0, 1) by
      decide)
  simp only [Prod.mk.injEq] at hs
  have hc := Reachable.run .init hrun
  exact ⟨c, hc, hs.1, hs.2.1, hs.2.2.1, hs.2.2.2, poolConnections_account hc⟩

/-- Two dialers of a first lifecycle with `ConnPoolSize = 2` get pooled, `Restart` runs,
both return from `ReceiveBinaryString` in the next lifecycle, whose maintainer then
fills its own pool. -/
def staleTrace : List Action :=
  [.fill, .fill, .fillDone, .dial 0 true, .dial 1 true, .readFail, .restart [],
   .receive 0, .receive 1, .fill, .fill, .fillDone]

/-- With no dialer of its own in flight, the lifecycle's gauge is `-2`; a minute of
samples sums to `-120`, which averages to `-1`, and the sizer grows the pool although
no `SG_Chan` was handled. -/
theorem stale_decrement_negative_gauge :
    ∃ c, Reachable 2 [] c ∧ c.maintainer = .selecting ∧ c.inflight = 0 ∧
      c.poolConnections = -2 ∧
      ∃ c', run c (List.replicate 60 .sample) = some c' ∧ c'.poolConnectionsSum = -120 ∧
        (c'.poolConnectionsSum + 59).tdiv 60 = -1 ∧
        ∃ c'', run c' [.windowRead, .windowDecide] = some c'' ∧ c''.consumed = [] ∧
          c''.newPoolSize = c.newPoolSize + 1 := by
  let c := (run (TcpTransport.init 2 []) staleTrace).getD (TcpTransport.init 2 [])
  let c' := (run c (List.replicate 60 .sample)).getD c
  let c'' := (run c' [.windowRead, .windowDecide]).getD c'
  have hc : run (TcpTransport.init 2 []) staleTrace = some c := by decide
  exact ⟨c, Reachable.run .init hc, by decide, by decide, by decide,
    c', by decide, by decide, by decide, c'', by decide, by decide, by decide⟩

end Backhaul.Client
