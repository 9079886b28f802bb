import Backhaul.Server.Mux

/-!
# One session's streams and copiers

`handleSession` counts the copiers it starts on a session, and both of its exits that
close the session first receive from `done` once per copier. For every `MuxCon ≥ 1` and
every run of the pairing machine, each task keeps an exact account of its copiers: each
is copying, buffered in `done` or received, and none ever blocks on `done`. The
stream count stops at `MuxCon`, the `MuxCon`-th copier leads to `finalizeSession`, and
a session is closed only once every copier it started has been received.
-/

namespace Backhaul.Server

/-- What each position of a `handleSession` task implies about its counters. -/
def SessionTask.PcInv (muxCon : Nat) (t : SessionTask) : Prop :=
  match t.pc with
  | .selecting => t.counter < muxCon ∧ t.received = 0 ∧ t.opened = t.counter
  | .requeueing _ => t.counter < muxCon ∧ t.received = 0 ∧ t.opened ≤ t.counter + 1
  | .errNotifying => t.counter < muxCon ∧ t.received = 0 ∧ t.opened ≤ t.counter + 1
  | .errDraining k =>
    t.counter < muxCon ∧ k + t.received = t.counter ∧ t.opened ≤ t.counter + 1
  | .finNotifying => t.counter = muxCon ∧ t.received = 0 ∧ t.opened = t.counter
  | .finDraining k => t.counter = muxCon ∧ k + t.received = t.counter ∧ t.opened = t.counter
  | .cancelDraining k => t.counter < muxCon ∧ k + t.received = t.counter ∧ t.opened = t.counter
  | .closed => t.received = t.counter ∧ t.opened ≤ muxCon
  | .returned => t.counter < muxCon ∧ t.received = t.counter ∧ t.opened = t.counter

/-- The account of one `handleSession` task. -/
structure SessionInv (muxCon : Nat) (t : SessionTask) : Prop where
  /-- Every copier started is copying, blocked, buffered or received. -/
  accounted : t.copiers + t.blocked + t.done + t.received = t.counter
  /-- No copier is blocked on `done`. -/
  unblocked : t.blocked = 0
  bounded : t.counter ≤ muxCon
  position : t.PcInv muxCon

theorem sessionInv_start {muxCon : Nat} (hmux : 0 < muxCon) (owner session : Nat) :
    SessionInv muxCon (SessionTask.start owner session) :=
  ⟨rfl, rfl, Nat.zero_le _, hmux, rfl, rfl⟩

/-- Receiving a connection keeps the account: a failed open or send leaves at most one
stream without a copier, and the `MuxCon`-th copier moves to `finalizeSession`. -/
theorem SessionInv.receive {muxCon : Nat} {t : SessionTask} (ht : SessionInv muxCon t)
    (hpc : t.pc = .selecting) (conn : Nat) (openOk sendOk : Bool) :
    SessionInv muxCon (t.receive muxCon conn openOk sendOk) := by
  obtain ⟨hacc, hunb, hbound, hpos⟩ := ht
  simp only [SessionTask.PcInv, hpc] at hpos
  obtain ⟨hlt, hrec, hopen⟩ := hpos
  unfold SessionTask.receive
  cases openOk <;> cases sendOk <;>
    simp only [Bool.not_false, Bool.not_true, Bool.false_eq_true, if_true, if_false]
  · exact ⟨hacc, hunb, hbound, hlt, hrec, by simp only; omega⟩
  · exact ⟨hacc, hunb, hbound, hlt, hrec, by simp only; omega⟩
  · exact ⟨hacc, hunb, hbound, hlt, hrec, by simp only; omega⟩
  · refine ⟨by simp only; omega, hunb, by simp only; omega, ?_⟩
    split_ifs with hfull <;> simp only [SessionTask.PcInv] <;> omega

/-- A copier that finishes always finds room in `done`. -/
theorem SessionInv.copierFinish {muxCon : Nat} {t : SessionTask} (ht : SessionInv muxCon t)
    (hcopying : 0 < t.copiers) : SessionInv muxCon (t.copierFinish muxCon) := by
  obtain ⟨hacc, hunb, hbound, hpos⟩ := ht
  have hroom : t.done < muxCon := by omega
  simp only [SessionTask.copierFinish, hroom, if_true]
  exact ⟨by simp only; omega, hunb, hbound, hpos⟩

/-- The three draining loops, each one receipt further. -/
theorem SessionPc.drained_eq {pc pc' : SessionPc} (h : pc.drained = some pc') :
    (∃ k, pc = .errDraining (k + 1) ∧ pc' = .errDraining k) ∨
      (∃ k, pc = .finDraining (k + 1) ∧ pc' = .finDraining k) ∨
      (∃ k, pc = .cancelDraining (k + 1) ∧ pc' = .cancelDraining k) := by
  cases pc with
  | errDraining k => cases k <;> cases h; exact .inl ⟨_, rfl, rfl⟩
  | finDraining k => cases k <;> cases h; exact .inr (.inl ⟨_, rfl, rfl⟩)
  | cancelDraining k => cases k <;> cases h; exact .inr (.inr ⟨_, rfl, rfl⟩)
  | _ => cases h

/-- One receipt from `done` in a draining loop keeps the account. -/
theorem SessionInv.drain {muxCon : Nat} {t t' : SessionTask} {pc : SessionPc}
    (ht : SessionInv muxCon t) (hpc : t.pc.drained = some pc) (htake : t.takeDone = some t') :
    SessionInv muxCon { t' with pc := pc } := by
  obtain ⟨hacc, hunb, hbound, hpos⟩ := ht
  unfold SessionTask.takeDone at htake
  simp only [hunb, Nat.lt_irrefl, if_false] at htake
  split_ifs at htake with hdone
  obtain rfl := Option.some.inj htake
  refine ⟨by simp only; omega, ?_, hbound, ?_⟩
  · simp only
  rcases SessionPc.drained_eq hpc with ⟨k, hk, rfl⟩ | ⟨k, hk, rfl⟩ | ⟨k, hk, rfl⟩ <;>
    simp only [SessionTask.PcInv, hk] at hpos <;> simp only [SessionTask.PcInv] <;> omega

/-- The two `next <- struct{}{}` positions and the loops on `done` that follow them. -/
theorem SessionPc.notified_eq {counter : Nat} {pc pc' : SessionPc}
    (h : pc.notified counter = some pc') :
    (pc = .errNotifying ∧ pc' = .errDraining counter) ∨
      (pc = .finNotifying ∧ pc' = .finDraining counter) := by
  cases pc <;> cases h
  · exact .inl ⟨rfl, rfl⟩
  · exact .inr ⟨rfl, rfl⟩

/-- The drained loops on `done`: the two that close the session and the one that
returns without closing it. -/
theorem SessionPc.drainEnd_eq {pc pc' : SessionPc} (h : pc.drainEnd = some pc') :
    ((pc = .errDraining 0 ∨ pc = .finDraining 0) ∧ pc' = .closed) ∨
      (pc = .cancelDraining 0 ∧ pc' = .returned) := by
  cases pc with
  | errDraining k => cases k <;> cases h; exact .inl ⟨.inl rfl, rfl⟩
  | finDraining k => cases k <;> cases h; exact .inl ⟨.inr rfl, rfl⟩
  | cancelDraining k => cases k <;> cases h; exact .inr ⟨rfl, rfl⟩
  | _ => cases h

/-- The account of every task of the machine, for the configured `MuxCon`. -/
def MuxInv (muxCon : Nat) (s : TcpMuxTransport) : Prop :=
  s.muxCon = muxCon ∧ ∀ t ∈ s.sessions, SessionInv muxCon t

theorem MuxInv.setSession {muxCon : Nat} {s : TcpMuxTransport} (hs : MuxInv muxCon s)
    (j : Nat) {t : SessionTask} (ht : SessionInv muxCon t) : MuxInv muxCon (s.setSession j t) :=
  ⟨hs.1, fun u hu => (List.mem_or_eq_of_mem_set hu).elim (hs.2 u) (· ▸ ht)⟩

theorem MuxInv.startSession {muxCon : Nat} (hmux : 0 < muxCon) {s : TcpMuxTransport}
    (hs : MuxInv muxCon s) (l session : Nat) : MuxInv muxCon (s.startSession l session) := by
  refine ⟨hs.1, fun u hu => ?_⟩
  simp only [TcpMuxTransport.startSession, List.mem_append, List.mem_singleton] at hu
  rcases hu with hu | rfl
  · exact hs.2 u hu
  · exact sessionInv_start hmux l session

/-- Every enabled action keeps every task's account. -/
theorem muxInv_step {muxCon : Nat} (hmux : 0 < muxCon) {s s' : TcpMuxTransport} {a : MuxAction}
    (hs : MuxInv muxCon s) (h : muxStep s a = some s') : MuxInv muxCon s' := by
  have hmem : ∀ {j t}, s.sessions[j]? = some t → SessionInv muxCon t :=
    fun hj => hs.2 _ (List.getElem?_mem hj)
  have hrequeued : ∀ {j : Nat} {t : SessionTask} {conn : Nat}, s.sessions[j]? = some t →
      t.pc = .requeueing conn →
      SessionInv muxCon { t with pc := .errNotifying } := fun hj hpc => by
    obtain ⟨hacc, hunb, hbound, hpos⟩ := hmem hj
    simp only [SessionTask.PcInv, hpc] at hpos
    exact ⟨hacc, hunb, hbound, by simpa only [SessionTask.PcInv] using hpos⟩
  apply muxStep_cases h
  case acceptLocal | acceptSession => exact fun _ => hs
  case cancel => exact hs
  case loopTake => exact fun l session _ _ _ => MuxInv.startSession hmux ⟨hs.1, hs.2⟩ l session
  case loopHandoff => exact fun l session _ _ => MuxInv.startSession hmux hs l session
  case loopCancel => exact fun _ _ _ => hs
  case sessionTake =>
    exact fun j t conn _ openOk sendOk hj _ hpc =>
      MuxInv.setSession ⟨hs.1, hs.2⟩ j (hs.1 ▸ (hmem hj).receive hpc conn openOk sendOk)
  case sessionHandoff =>
    exact fun j t conn openOk sendOk hj hpc _ =>
      hs.setSession j (hs.1 ▸ (hmem hj).receive hpc conn openOk sendOk)
  case sessionCancel =>
    intro j t hj hpc _
    obtain ⟨hacc, hunb, hbound, hpos⟩ := hmem hj
    simp only [SessionTask.PcInv, hpc] at hpos
    exact hs.setSession j ⟨hacc, hunb, hbound, by simp only [SessionTask.PcInv]; omega⟩
  case requeue =>
    exact fun j t _ hj hpc _ => MuxInv.setSession ⟨hs.1, hs.2⟩ j (hrequeued hj hpc)
  case requeueHandoff =>
    exact fun j k t u conn openOk sendOk hj hk hpc hu _ =>
      (hs.setSession j (hrequeued hj hpc)).setSession k
        (hs.1 ▸ (hmem hk).receive hu conn openOk sendOk)
  case notify =>
    intro j t pc hj hpc _
    obtain ⟨hacc, hunb, hbound, hpos⟩ := hmem hj
    refine MuxInv.setSession ⟨hs.1, hs.2⟩ j ⟨hacc, hunb, hbound, ?_⟩
    rcases SessionPc.notified_eq hpc with ⟨hpcs, rfl⟩ | ⟨hpcs, rfl⟩ <;>
      simp only [SessionTask.PcInv, hpcs] at hpos <;> simp only [SessionTask.PcInv] <;> omega
  case copierFinish =>
    exact fun j t hj hcopying => hs.setSession j (hs.1 ▸ (hmem hj).copierFinish hcopying)
  case drain => exact fun j t t' pc hj hpc htake => hs.setSession j ((hmem hj).drain hpc htake)
  case drainEnd =>
    intro j t pc hj hpc
    obtain ⟨hacc, hunb, hbound, hpos⟩ := hmem hj
    refine hs.setSession j ⟨hacc, hunb, hbound, ?_⟩
    rcases SessionPc.drainEnd_eq hpc with ⟨hpcs | hpcs, rfl⟩ | ⟨hpcs, rfl⟩ <;>
      simp only [SessionTask.PcInv, hpcs] at hpos <;> simp only [SessionTask.PcInv] <;> omega

theorem MuxReachable.muxInv {channelSize muxCon handleLoops : Nat} (hmux : 0 < muxCon)
    {s : TcpMuxTransport} (hs : MuxReachable channelSize muxCon handleLoops s) :
    MuxInv muxCon s := by
  induction hs with
  | init => exact ⟨rfl, fun _ h => absurd h (List.not_mem_nil _)⟩
  | step _ h ih => exact muxInv_step hmux ih h

/-- The receipts from `done` a draining loop still waits for. -/
def SessionPc.draining : SessionPc → Option Nat
  | .errDraining k | .finDraining k | .cancelDraining k => some k
  | _ => none

section Consequences

variable {muxCon : Nat} {t : SessionTask} (ht : SessionInv muxCon t)
include ht

theorem SessionInv.opened_le : t.opened ≤ muxCon := by
  have hpos := ht.position
  unfold SessionTask.PcInv at hpos
  split at hpos <;> omega

/-- Only `finalizeSession` follows the `MuxCon`-th copier. -/
theorem SessionInv.finalizes (hfull : t.counter = muxCon) :
    t.pc = .finNotifying ∨ (∃ k, t.pc = .finDraining k) ∨ t.pc = .closed := by
  have hpos := ht.position
  unfold SessionTask.PcInv at hpos
  split at hpos <;> first | omega | simp_all

/-- A draining loop waits for exactly the copiers still running or buffered. -/
theorem SessionInv.draining_left {k : Nat} (hk : t.pc.draining = some k) :
    k = t.copiers + t.done := by
  have hacc := ht.accounted
  have hunb := ht.unblocked
  have hpos := ht.position
  cases hpc : t.pc <;> simp only [SessionTask.PcInv, hpc] at hpos <;>
    simp only [SessionPc.draining, hpc, Option.some.injEq, reduceCtorEq] at hk <;> omega

/-- A closed session has had every copier it started received from `done`. -/
theorem SessionInv.closed_received (hclosed : t.pc = .closed) :
    t.received = t.counter ∧ t.copiers = 0 := by
  have hacc := ht.accounted
  have hpos := ht.position
  simp only [SessionTask.PcInv, hclosed] at hpos
  omega

/-- A task returned from the `ctx.Done()` case has no copier left. -/
theorem SessionInv.returned_idle (hreturned : t.pc = .returned) : t.copiers = 0 := by
  have hacc := ht.accounted
  have hpos := ht.position
  simp only [SessionTask.PcInv, hreturned] at hpos
  omega

end Consequences

/-- For every `MuxCon ≥ 1` and every reachable state, each `handleSession` task has
opened at most `MuxCon` streams, has no copier blocked on `done`, reaches
`finalizeSession` when its `MuxCon`-th copier starts, waits in each loop on `done`
for exactly the copiers not yet received, and closes its session only once it has
received every copier it started (`counter` counts them). -/
theorem handleSession_copier_account {channelSize muxCon handleLoops : Nat} (hmux : 0 < muxCon)
    {s : TcpMuxTransport} (hs : MuxReachable channelSize muxCon handleLoops s) :
    ∀ t ∈ s.sessions, t.opened ≤ muxCon ∧ t.blocked = 0 ∧
      (t.counter = muxCon →
        t.pc = .finNotifying ∨ (∃ k, t.pc = .finDraining k) ∨ t.pc = .closed) ∧
      (∀ k, t.pc.draining = some k → k = t.copiers + t.done) ∧
      (t.pc = .closed → t.received = t.counter ∧ t.copiers = 0) := by
  intro t hmem
  have ht := (hs.muxInv hmux).2 t hmem
  exact ⟨ht.opened_le, ht.unblocked, ht.finalizes, fun _ => ht.draining_left,
    ht.closed_received⟩

/-- With `MuxCon = 2` one session takes two connections, notifies its loop and is
closed after two receipts from `done`. -/
theorem handleSession_copier_account_finalized :
    ∃ s, MuxReachable 1 2 1 s ∧ ∃ t ∈ s.sessions,
      t.pc = .closed ∧ t.counter = 2 ∧ t.received = t.counter ∧ t.copiers = 0 ∧ t.opened ≤ 2 := by
  have hrun : muxRun (TcpMuxTransport.init 1 2 1)
      [.acceptSession 0, .loopTake 0, .acceptLocal 100, .sessionTake 0 true true,
        .acceptLocal 101, .sessionTake 0 true true, .notify 0, .copierFinish 0, .drain 0,
        .copierFinish 0, .drain 0, .drainEnd 0] =
      some ⟨1, 2, false, [], [], 1, [.selecting], [⟨0, 0, 2, 0, 0, 0, 2, 2, .closed⟩]⟩ := by
    decide
  have hs := MuxReachable.run .init hrun
  have ht := handleSession_copier_account (by decide) hs _ (List.mem_singleton_self _)
  exact ⟨_, hs, _, List.mem_singleton_self _, rfl, rfl, (ht.2.2.2.2 rfl).1, (ht.2.2.2.2 rfl).2,
    ht.1⟩

end Backhaul.Server
