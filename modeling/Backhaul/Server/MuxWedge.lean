import Backhaul.Server.MuxSession

/-!
# States the mux pairing machine never leaves

Two families of states are closed under every action of the pairing machine, arrivals,
failures and the cancellation included, so a run that enters one stays in it for good.
In a *wedged* state `localChannel` is full and no task can receive from it, so a
`handleSessionError` blocked in its requeue stays blocked, and so does the handle loop
waiting on its `next`. In a state where a handle loop waits on `next` while no task it
started can still send there, the loop waits forever; a task among them that returned from
the `ctx.Done()` case never closes its session. Short runs reach both (tcpmux.go, lines
433–515, and the same bodies in part_001).
-/

namespace Backhaul.Server

open TcpMuxTransport

/-- A non-blocking send on a full buffer drops its item. -/
theorem offer_full {α : Type} {capacity : Nat} {queue : List α} (h : capacity ≤ queue.length)
    (item : α) : offer capacity queue item = queue := by
  simp only [offer, if_neg (Nat.not_lt.mpr h)]

@[simp] theorem SessionTask.receive_owner (muxCon : Nat) (t : SessionTask) (conn : Nat)
    (openOk sendOk : Bool) : (t.receive muxCon conn openOk sendOk).owner = t.owner := by
  unfold SessionTask.receive
  split_ifs <;> rfl

/-- Whether a task at this position can still send on its loop's `next`: at its
`select`, in the requeue of `handleSessionError`, or at the send itself. -/
def SessionPc.owesNext : SessionPc → Bool
  | .selecting | .requeueing _ | .errNotifying | .finNotifying => true
  | _ => false

/-- Each step of a loop on `done` stays in that loop or leaves it past `next`. -/
theorem SessionPc.drained_settles {pc pc' : SessionPc} (h : pc.drained = some pc') :
    pc.draining.isSome ∧ pc'.owesNext = false := by
  rcases SessionPc.drained_eq h with ⟨k, rfl, rfl⟩ | ⟨k, rfl, rfl⟩ | ⟨k, rfl, rfl⟩ <;>
    exact ⟨rfl, rfl⟩

theorem SessionPc.drainEnd_settles {pc pc' : SessionPc} (h : pc.drainEnd = some pc') :
    pc.draining.isSome ∧ pc'.owesNext = false := by
  rcases SessionPc.drainEnd_eq h with ⟨rfl | rfl, rfl⟩ | ⟨rfl, rfl⟩ <;> exact ⟨rfl, rfl⟩

/-- How a task moves once it can neither receive from `localChannel` nor send on
`next`: it keeps its position while a copier of it finishes, or it is in a loop on
`done` and moves on within that loop or past its end. -/
def SessionTask.Settles (t u : SessionTask) : Prop :=
  u.owner = t.owner ∧ u.session = t.session ∧
    (u.pc = t.pc ∨ t.pc.draining.isSome ∧ u.pc.owesNext = false)

namespace SessionTask.Settles

variable {t u v : SessionTask}

theorem refl (t : SessionTask) : t.Settles t := ⟨rfl, rfl, .inl rfl⟩

theorem trans (htu : t.Settles u) (huv : u.Settles v) : t.Settles v := by
  refine ⟨huv.1.trans htu.1, huv.2.1.trans htu.2.1, ?_⟩
  rcases htu.2.2 with htu' | ⟨hdrain, _⟩
  · rcases huv.2.2 with huv' | huv'
    · exact .inl (huv'.trans htu')
    · exact .inr (htu' ▸ huv')
  · rcases huv.2.2 with huv' | ⟨-, hpast⟩
    · exact .inr ⟨hdrain, huv' ▸ ‹u.pc.owesNext = false›⟩
    · exact .inr ⟨hdrain, hpast⟩

theorem copierFinish (muxCon : Nat) (t : SessionTask) : t.Settles (t.copierFinish muxCon) := by
  unfold SessionTask.copierFinish
  split_ifs <;> exact ⟨rfl, rfl, .inl rfl⟩

/-- One receipt in a loop on `done`. -/
theorem takeDone {t' : SessionTask} {pc : SessionPc} (hpc : t.pc.drained = some pc)
    (htake : t.takeDone = some t') : t.Settles { t' with pc := pc } := by
  refine ⟨?_, ?_, .inr (SessionPc.drained_settles hpc)⟩ <;>
  · unfold SessionTask.takeDone at htake
    split_ifs at htake <;> obtain rfl := Option.some.inj htake <;> rfl

/-- A task past its send on `next` stays past it. -/
theorem owesNext (h : t.Settles u) (ht : t.pc.owesNext = false) : u.pc.owesNext = false := by
  rcases h.2.2 with heq | ⟨-, hpast⟩
  · rw [heq, ht]
  · exact hpast

/-- A task outside the loops on `done` keeps its position. -/
theorem pc_eq (h : t.Settles u) (hd : t.pc.draining = none) : u.pc = t.pc := by
  rcases h.2.2 with heq | ⟨hsome, -⟩
  · exact heq
  · rw [hd] at hsome
    exact absurd hsome nofun

end SessionTask.Settles

/-- Every task of `s` started by a loop in `owners` has settled in `s'`. -/
def TasksSettle (owners : Nat → Prop) (s s' : TcpMuxTransport) : Prop :=
  ∀ (j : Nat) (t : SessionTask), s.sessions[j]? = some t → owners t.owner →
    ∃ u, s'.sessions[j]? = some u ∧ t.Settles u

namespace TasksSettle

variable {owners : Nat → Prop} {s s' : TcpMuxTransport}

theorem of_sessions_eq (h : s'.sessions = s.sessions) : TasksSettle owners s s' :=
  fun _ _ hj _ => ⟨_, h ▸ hj, .refl _⟩

theorem of_append {tail : List SessionTask} (h : s'.sessions = s.sessions ++ tail) :
    TasksSettle owners s s' :=
  fun _ _ hj _ => ⟨_, by rw [h, List.getElem?_append_left (List.getElem?_eq_some_iff.1 hj).1, hj],
    .refl _⟩

/-- Replacing task `i` lets every task settle when the new task settles from the old
one, or when loop `i` is not among the owners. -/
theorem of_set {i : Nat} {t' u' : SessionTask} (hi : s.sessions[i]? = some t')
    (hu : owners t'.owner → t'.Settles u') (h : s'.sessions = s.sessions.set i u') :
    TasksSettle owners s s' := by
  intro j t hj hown
  rw [h]
  by_cases hij : i = j
  · subst hij
    obtain rfl : t' = t := Option.some.inj (hi.symm.trans hj)
    exact ⟨u', List.getElem?_set_self (List.getElem?_eq_some_iff.1 hi).1, hu hown⟩
  · exact ⟨t, (List.getElem?_set_ne hij).trans hj, .refl t⟩

theorem trans {s₁ : TcpMuxTransport} (h₁ : TasksSettle owners s s₁)
    (h₂ : TasksSettle owners s₁ s') : TasksSettle owners s s' := by
  intro j t hj hown
  obtain ⟨u, hj₁, hu⟩ := h₁ j t hj hown
  obtain ⟨v, hj', hv⟩ := h₂ j u hj₁ (hu.1 ▸ hown)
  exact ⟨v, hj', hu.trans hv⟩

end TasksSettle

/-! ## A requeue that never completes -/

/-- A state in which no task can receive from `localChannel`, now or later. -/
structure Wedged (s : TcpMuxTransport) : Prop where
  /-- Every handle loop waits on `next` or has returned. -/
  loopsWaiting : ∀ l ∈ s.loops, l ≠ .selecting
  /-- Every task is blocked in a requeue or is past its send on `next`. -/
  tasksBlocked : ∀ t ∈ s.sessions, (∃ conn, t.pc = .requeueing conn) ∨ t.pc.owesNext = false
  /-- The buffer of `localChannel` is full. -/
  full : s.channelSize ≤ s.localChannel.length

namespace Wedged

variable {s : TcpMuxTransport} (hw : Wedged s)
include hw

theorem loop_ne {l : Nat} {state : LoopState} (hl : s.loops[l]? = some state) :
    state ≠ .selecting :=
  hw.loopsWaiting _ (List.getElem?_mem hl)

theorem owesNext_requeueing {j : Nat} {t : SessionTask} (hj : s.sessions[j]? = some t)
    (howes : t.pc.owesNext = true) : ∃ conn, t.pc = .requeueing conn := by
  rcases hw.tasksBlocked _ (List.getElem?_mem hj) with hreq | hpast
  · exact hreq
  · exact absurd (howes.symm.trans hpast) nofun

theorem task_ne {t : SessionTask} (ht : t ∈ s.sessions) : t.pc ≠ .selecting := fun hpc => by
  rcases hw.tasksBlocked t ht with ⟨conn, hreq⟩ | hpast
  · exact absurd (hpc.symm.trans hreq) nofun
  · rw [hpc] at hpast
    exact absurd hpast nofun

theorem notified_none {j : Nat} {t : SessionTask} (hj : s.sessions[j]? = some t) (c : Nat) :
    t.pc.notified c = none := by
  cases hpc : t.pc <;> try rfl
  all_goals
    obtain ⟨conn, hreq⟩ := hw.owesNext_requeueing hj (by rw [hpc]; rfl)
    exact absurd (hpc.symm.trans hreq) nofun

/-- Replacing a task by one it settles into keeps the state wedged. -/
theorem setSession {i : Nat} {t' u' : SessionTask} (hi : s.sessions[i]? = some t')
    (hu : t'.Settles u') :
    Wedged (s.setSession i u') ∧ (s.setSession i u').loops = s.loops ∧
      TasksSettle (fun _ => True) s (s.setSession i u') := by
  refine ⟨⟨hw.loopsWaiting, fun u hmem => ?_, hw.full⟩, rfl,
    TasksSettle.of_set hi (fun _ => hu) rfl⟩
  rcases List.mem_or_eq_of_mem_set hmem with hold | rfl
  · exact hw.tasksBlocked u hold
  · rcases hw.tasksBlocked _ (List.getElem?_mem hi) with ⟨conn, hreq⟩ | hpast
    · exact .inl ⟨conn, (hu.pc_eq (by rw [hreq]; rfl)).trans hreq⟩
    · exact .inr (hu.owesNext hpast)

/-- In a wedged state only arrivals, the cancellation, finishing copiers and the loops on
`done` can move: the state stays wedged, the loops keep their states and every task
settles. -/
theorem step {s' : TcpMuxTransport} {a : MuxAction} (h : muxStep s a = some s') :
    Wedged s' ∧ s'.loops = s.loops ∧ TasksSettle (fun _ => True) s s' := by
  apply muxStep_cases h
  case acceptLocal =>
    intro conn
    rw [offer_full hw.full]
    exact ⟨hw, rfl, .of_sessions_eq rfl⟩
  case acceptSession => exact fun _ => ⟨⟨hw.1, hw.2, hw.3⟩, rfl, .of_sessions_eq rfl⟩
  case cancel => exact ⟨⟨hw.1, hw.2, hw.3⟩, rfl, .of_sessions_eq rfl⟩
  case loopTake => exact fun _ _ _ hl _ => absurd rfl (hw.loop_ne hl)
  case loopHandoff => exact fun _ _ hl _ => absurd rfl (hw.loop_ne hl)
  case loopCancel => exact fun _ hl _ => absurd rfl (hw.loop_ne hl)
  case sessionTake =>
    exact fun _ _ _ _ _ _ hj _ hpc => absurd hpc (hw.task_ne (List.getElem?_mem hj))
  case sessionHandoff =>
    exact fun _ _ _ _ _ hj hpc _ => absurd hpc (hw.task_ne (List.getElem?_mem hj))
  case sessionCancel => exact fun _ _ hj hpc _ => absurd hpc (hw.task_ne (List.getElem?_mem hj))
  case requeue => exact fun _ _ _ _ _ hroom => absurd hw.full (Nat.not_le.mpr hroom)
  case requeueHandoff =>
    exact fun _ _ _ _ _ _ _ _ hk _ hu _ => absurd hu (hw.task_ne (List.getElem?_mem hk))
  case notify => exact fun _ _ _ hj hpc _ => absurd ((hw.notified_none hj _).symm.trans hpc) nofun
  case copierFinish => exact fun _ t hj _ => hw.setSession hj (.copierFinish _ t)
  case drain => exact fun _ _ _ _ hj hpc htake => hw.setSession hj (.takeDone hpc htake)
  case drainEnd =>
    exact fun _ _ _ hj hpc => hw.setSession hj ⟨rfl, rfl, .inr (SessionPc.drainEnd_settles hpc)⟩

end Wedged

/-- Task `j` is blocked in `handleSessionError`'s requeue of `conn` while the
handle loop that started it waits on `next`. -/
def RequeueBlocked (j conn : Nat) (s : TcpMuxTransport) : Prop :=
  ∃ t, s.sessions[j]? = some t ∧ t.pc = .requeueing conn ∧
    s.loops[t.owner]? = some .awaitingNext

/-- A blocked requeue in a wedged state stays blocked after any step. -/
theorem Wedged.requeueBlocked_step {j conn : Nat} {s s' : TcpMuxTransport} {a : MuxAction}
    (hwb : Wedged s ∧ RequeueBlocked j conn s) (h : muxStep s a = some s') :
    Wedged s' ∧ RequeueBlocked j conn s' := by
  obtain ⟨hw', hloops, hsettle⟩ := hwb.1.step h
  obtain ⟨t, hj, hreq, hloop⟩ := hwb.2
  obtain ⟨u, hj', hu⟩ := hsettle _ _ hj trivial
  exact ⟨hw', u, hj', (hu.pc_eq (by rw [hreq]; rfl)).trans hreq,
    by rw [hu.1, hloops, hloop]⟩

/-- With one handle loop and `ChannelSize = 1`, a session whose first
`OpenStream` fails must requeue its connection while a second user connection fills
`localChannel`: from then on, whatever arrives or fails and even after the
cancellation, the requeue stays blocked, its loop stays in `<-next`, `localChannel`
stays full and no task is at a `select` that could receive from it. -/
theorem requeue_wedges_forever :
    ∃ s, MuxReachable 1 2 1 s ∧ s.cancelled = false ∧ ∀ s', MuxFrom s s' →
      RequeueBlocked 0 100 s' ∧ s'.channelSize ≤ s'.localChannel.length ∧
        ∀ t ∈ s'.sessions, t.pc ≠ .selecting := by
  have hrun : muxRun (TcpMuxTransport.init 1 2 1)
      [.acceptSession 0, .loopTake 0, .acceptLocal 100, .sessionTake 0 false true,
        .acceptLocal 101] =
      some ⟨1, 2, false, [101], [], 0, [.awaitingNext],
        [⟨0, 0, 0, 0, 0, 0, 0, 0, .requeueing 100⟩]⟩ := by
    decide
  refine ⟨_, MuxReachable.run .init hrun, rfl, fun s' hfrom => ?_⟩
  have hw : Wedged ⟨1, 2, false, [101], [], 0, [.awaitingNext],
      [⟨0, 0, 0, 0, 0, 0, 0, 0, .requeueing 100⟩]⟩ :=
    ⟨by decide, by simp, le_refl _⟩
  have hwb : Wedged s' ∧ RequeueBlocked 0 100 s' :=
    MuxFrom.closed Wedged.requeueBlocked_step hfrom ⟨hw, _, rfl, rfl, rfl⟩
  obtain ⟨hw', hb'⟩ := hwb
  exact ⟨hb', hw'.full, fun _ => hw'.task_ne⟩

/-! ## A handle loop that nobody notifies -/

/-- Handle loop `l` waits on `next` while no task it started can still send there. -/
structure NextOrphaned (l : Nat) (s : TcpMuxTransport) : Prop where
  /-- The loop is in `<-next`. -/
  waiting : s.loops[l]? = some .awaitingNext
  /-- Every task the loop started is past its send on `next`. -/
  tasksPast : ∀ t ∈ s.sessions, t.owner = l → t.pc.owesNext = false

/-- The positions at a `next <- struct{}{}` can still send there. -/
theorem SessionPc.owesNext_of_notified {c : Nat} {pc pc' : SessionPc}
    (h : pc.notified c = some pc') : pc.owesNext = true := by
  rcases SessionPc.notified_eq h with ⟨rfl, -⟩ | ⟨rfl, -⟩ <;> rfl

namespace NextOrphaned

variable {l : Nat} {s s' : TcpMuxTransport} (ho : NextOrphaned l s)
include ho

/-- A task that can still send on its `next` belongs to another loop. -/
theorem owner_ne {j : Nat} {t : SessionTask} (hj : s.sessions[j]? = some t)
    (howes : t.pc.owesNext = true) : t.owner ≠ l := fun hown =>
  absurd (howes.symm.trans (ho.tasksPast t (List.getElem?_mem hj) hown)) nofun

/-- A loop at its `select` is another loop. -/
theorem loop_ne {l' : Nat} (hl' : s.loops[l']? = some .selecting) : l' ≠ l := by
  rintro rfl
  exact absurd (hl'.symm.trans ho.waiting) nofun

theorem of_loops (hloops : s'.loops[l]? = s.loops[l]?) (hsessions : s'.sessions = s.sessions) :
    NextOrphaned l s' ∧ TasksSettle (· = l) s s' :=
  ⟨⟨hloops.trans ho.waiting, hsessions ▸ ho.tasksPast⟩, .of_sessions_eq hsessions⟩

/-- A loop at its `select` starts a task on a session it took. -/
theorem of_start {l' session : Nat} (hl' : s.loops[l']? = some .selecting)
    (hloops : s'.loops = s.loops.set l' .awaitingNext)
    (hsessions : s'.sessions = s.sessions ++ [SessionTask.start l' session]) :
    NextOrphaned l s' ∧ TasksSettle (· = l) s s' := by
  have hne := ho.loop_ne hl'
  refine ⟨⟨by rw [hloops, List.getElem?_set_ne hne]; exact ho.waiting, fun u hmem hown => ?_⟩,
    .of_append hsessions⟩
  rw [hsessions, List.mem_append, List.mem_singleton] at hmem
  rcases hmem with hold | rfl
  · exact ho.tasksPast u hold hown
  · exact absurd hown hne

/-- Replacing one task, keeping its owner, keeps the loop orphaned when the new task
settles from the old one if it is the loop's. -/
theorem of_set {i : Nat} {t' u' : SessionTask} (hi : s.sessions[i]? = some t')
    (hloops : s'.loops[l]? = s.loops[l]?) (hsessions : s'.sessions = s.sessions.set i u')
    (hu : t'.owner = l → t'.Settles u') (howner : u'.owner = t'.owner) :
    NextOrphaned l s' ∧ TasksSettle (· = l) s s' := by
  refine ⟨⟨hloops.trans ho.waiting, fun u hmem hown => ?_⟩, .of_set hi hu hsessions⟩
  rw [hsessions] at hmem
  rcases List.mem_or_eq_of_mem_set hmem with hold | rfl
  · exact ho.tasksPast u hold hown
  · have hown' : t'.owner = l := howner ▸ hown
    exact (hu hown').owesNext (ho.tasksPast t' (List.getElem?_mem hi) hown')

/-- Replacing a task that can still send on its `next`, keeping its owner. -/
theorem of_set_other {i : Nat} {t' u' : SessionTask} (hi : s.sessions[i]? = some t')
    (howes : t'.pc.owesNext = true) (hloops : s'.loops[l]? = s.loops[l]?)
    (hsessions : s'.sessions = s.sessions.set i u') (howner : u'.owner = t'.owner) :
    NextOrphaned l s' ∧ TasksSettle (· = l) s s' :=
  ho.of_set hi hloops hsessions (fun h => absurd h (ho.owner_ne hi howes)) howner

/-- Every step keeps the loop orphaned and lets each task it started settle: a task that
could send on its `next` would have to be the loop's, and none is. -/
theorem step {a : MuxAction} (h : muxStep s a = some s') :
    NextOrphaned l s' ∧ TasksSettle (· = l) s s' := by
  apply muxStep_cases h
  case acceptLocal | acceptSession => exact fun _ => ho.of_loops rfl rfl
  case cancel => exact ho.of_loops rfl rfl
  case loopTake => exact fun _ _ _ hl _ => ho.of_start hl rfl rfl
  case loopHandoff => exact fun _ _ hl _ => ho.of_start hl rfl rfl
  case loopCancel => exact fun _ hl _ => ho.of_loops (List.getElem?_set_ne (ho.loop_ne hl)) rfl
  case sessionTake =>
    exact fun _ _ _ _ _ _ hj _ hpc =>
      ho.of_set_other hj (by rw [hpc]; rfl) rfl rfl (SessionTask.receive_owner ..)
  case sessionHandoff =>
    exact fun _ _ _ _ _ hj hpc _ =>
      ho.of_set_other hj (by rw [hpc]; rfl) rfl rfl (SessionTask.receive_owner ..)
  case sessionCancel => exact fun _ _ hj hpc _ => ho.of_set_other hj (by rw [hpc]; rfl) rfl rfl rfl
  case requeue => exact fun _ _ _ hj hpc _ => ho.of_set_other hj (by rw [hpc]; rfl) rfl rfl rfl
  case requeueHandoff =>
    intro j k t u conn openOk sendOk hj hk hpc hu _
    have hjk : j ≠ k := by
      rintro rfl
      obtain rfl : t = u := Option.some.inj (hj.symm.trans hk)
      exact absurd (hpc.symm.trans hu) nofun
    have h₁ : NextOrphaned l (s.setSession j { t with pc := .errNotifying }) ∧
        TasksSettle (· = l) s (s.setSession j { t with pc := .errNotifying }) :=
      ho.of_set_other hj (by rw [hpc]; rfl) rfl rfl rfl
    have hk₁ : (s.sessions.set j { t with pc := .errNotifying })[k]? = some u :=
      (List.getElem?_set_ne hjk).trans hk
    exact And.imp_right h₁.2.trans
      (h₁.1.of_set_other hk₁ (by rw [hu]; rfl) rfl rfl (SessionTask.receive_owner ..))
  case notify =>
    intro j t pc hj hpc _
    have howes := SessionPc.owesNext_of_notified hpc
    exact ho.of_set_other hj howes (List.getElem?_set_ne (ho.owner_ne hj howes)) rfl rfl
  case copierFinish =>
    exact fun _ t hj _ => ho.of_set hj rfl rfl (fun _ => .copierFinish _ t)
      (SessionTask.Settles.copierFinish _ t).1
  case drain =>
    exact fun _ _ _ _ hj hpc htake => ho.of_set hj rfl rfl (fun _ => .takeDone hpc htake)
      (SessionTask.Settles.takeDone hpc htake).1
  case drainEnd =>
    exact fun _ _ _ hj hpc =>
      ho.of_set hj rfl rfl (fun _ => ⟨rfl, rfl, .inr (SessionPc.drainEnd_settles hpc)⟩) rfl

end NextOrphaned

/-- Task `j`, started by loop `l` on `session`, has returned from the
`ctx.Done()` case. -/
def ReturnedTask (l j session : Nat) (s : TcpMuxTransport) : Prop :=
  ∃ t, s.sessions[j]? = some t ∧ t.owner = l ∧ t.session = session ∧ t.pc = .returned

/-- A returned task of an orphaned loop stays returned after any step. -/
theorem NextOrphaned.returned_step {l j session : Nat} {s s' : TcpMuxTransport}
    {a : MuxAction} (hp : NextOrphaned l s ∧ ReturnedTask l j session s)
    (h : muxStep s a = some s') : NextOrphaned l s' ∧ ReturnedTask l j session s' := by
  obtain ⟨ho', hsettle⟩ := hp.1.step h
  obtain ⟨t, hj, hown, hsession, hpc⟩ := hp.2
  obtain ⟨u, hj', hu⟩ := hsettle _ _ hj hown
  exact ⟨ho', u, hj', hu.1.trans hown, hu.2.1.trans hsession,
    (hu.pc_eq (by rw [hpc]; rfl)).trans hpc⟩

/-- The state after a cancellation that finds the only task at its `select`, which
then leaves through the `ctx.Done()` case. -/
theorem muxRun_cancelled_session :
    muxRun (TcpMuxTransport.init 1 2 1)
      [.acceptSession 0, .loopTake 0, .cancel, .sessionCancel 0, .drainEnd 0] =
      some ⟨1, 2, true, [], [], 0, [.awaitingNext],
        [⟨0, 0, 0, 0, 0, 0, 0, 0, .returned⟩]⟩ := by
  decide

/-- A cancellation that finds a task at its `select` lets it leave through the
`ctx.Done()` case, which never sends on `next`: from then on, whatever happens,
its handle loop stays in `<-next` and no task the loop started can send there. -/
theorem cancelled_loop_waits_on_next :
    ∃ s, MuxReachable 1 2 1 s ∧ s.cancelled = true ∧ ∀ s', MuxFrom s s' →
      s'.loops[0]? = some .awaitingNext ∧
        ∀ t ∈ s'.sessions, t.owner = 0 → t.pc.owesNext = false := by
  refine ⟨_, MuxReachable.run .init muxRun_cancelled_session, rfl, fun s' hfrom => ?_⟩
  have ho : NextOrphaned 0 s' :=
    MuxFrom.closed (fun ho h => (NextOrphaned.step ho h).1) hfrom ⟨rfl, by decide⟩
  exact ⟨ho.waiting, ho.tasksPast⟩

/-- The `ctx.Done()` case of `handleSession` returns without
`session.Close()`, which only `handleSessionError` and `finalizeSession` call
(position `closed`). After a cancellation that finds a task at its `select`,
its session stays held by a task that has returned, with no copier, and is never
closed, whatever happens later. -/
theorem cancelled_session_left_open :
    ∃ s, MuxReachable 1 2 1 s ∧ s.cancelled = true ∧ ∀ s', MuxFrom s s' →
      ∃ t, s'.sessions[0]? = some t ∧ t.session = 0 ∧ t.pc = .returned ∧ t.copiers = 0 := by
  have hs := MuxReachable.run .init muxRun_cancelled_session
  refine ⟨_, hs, rfl, fun s' hfrom => ?_⟩
  have hleft : NextOrphaned 0 s' ∧ ReturnedTask 0 0 0 s' :=
    MuxFrom.closed NextOrphaned.returned_step hfrom
      ⟨⟨rfl, by decide⟩, _, rfl, rfl, rfl, rfl⟩
  obtain ⟨-, t, hj, -, hsession, hpc⟩ := hleft
  have ht := ((hfrom.reachable hs).muxInv (by decide)).2 t (List.getElem?_mem hj)
  exact ⟨t, hj, hsession, hpc, ht.returned_idle hpc⟩

end Backhaul.Server
