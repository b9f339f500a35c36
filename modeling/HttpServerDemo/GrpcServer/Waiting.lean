import HttpServerDemo.GrpcServer.Connections
import HttpServerDemo.Library.CondVar

/-!
# Waiting for a connection

`acquire` waits on the pool's condition variable while no connection is idle. `WaitStep` adds to
the steps of the server what this makes visible: a call goes to sleep when it finds no idle
connection, `release` notifies one sleeper if there is one, a sleeper can wake up by itself, and a
call that does not sleep can take a connection that another one was notified of.

`no_lost_wake_up` is the result: while some call sleeps, a call that is not waiting itself holds a
connection, or a call that has been woken is about to check again. `wait_run_of_server_run` says
that the condition variable forbids nothing that the server can do.
-/

namespace HttpServerDemo

open Interleaving

/-- One step of the server with the condition variable of its pool. -/
inductive WaitStep (lib : Libraries) : Server → CondVar Nat → Server → CondVar Nat → Prop where
  /-- `acquire` finds an idle connection, at the first check or when the call checks again. -/
  | acquire {c cv c' t ch conn} (hstep : Step (grpcServer lib) c (.op t .acquire ch conn) c')
      (hawake : t ∉ cv.sleeping) : WaitStep lib c cv c' (cv.proceed t)
  /-- `acquire` finds no idle connection. -/
  | sleep {c cv t} (hcall : Awaits c t Op.acquire) (hidle : c.world.idle = [])
      (hawake : t ∉ cv.sleeping) : WaitStep lib c cv c (cv.sleep t)
  /-- `release` notifies a sleeper. -/
  | notify {c cv c' t conn ch r s} (hstep : Step (grpcServer lib) c (.op t (.release conn) ch r) c')
      (hsleeper : s ∈ cv.sleeping) : WaitStep lib c cv c' (cv.notify s)
  /-- `release` finds no sleeper. -/
  | release {c cv c' t conn ch r} (hstep : Step (grpcServer lib) c (.op t (.release conn) ch r) c')
      (hnone : cv.sleeping = ∅) : WaitStep lib c cv c' cv
  /-- A sleeper wakes up by itself. -/
  | wake {c cv t} (hsleeper : t ∈ cv.sleeping) : WaitStep lib c cv c (cv.wake t)
  /-- Any other step of the server. -/
  | other {c cv e c'} (hstep : Step (grpcServer lib) c e c')
      (hother : PoolUntouched e) : WaitStep lib c cv c' cv

/-- What the server reaches from empty stores and a pool of idle connections. -/
inductive WaitRun (lib : Libraries) (poolSize : Nat) : Server → CondVar Nat → Prop where
  | start : WaitRun lib poolSize (.initial (World.initial poolSize)) .initial
  | step {c cv c' cv'} : WaitRun lib poolSize c cv → WaitStep lib c cv c' cv' →
      WaitRun lib poolSize c' cv'

variable {lib : Libraries} {poolSize : Nat} {ok : Server → ServerEvent → Prop} {c c' : Server}
  {cv cv' : CondVar Nat} {t : Nat}

/-- Without the condition variable this is a run of the server. -/
theorem WaitRun.server_run (h : WaitRun lib poolSize c cv) :
    ServerRun lib poolSize (fun _ _ => True) c := by
  induction h with
  | start => exact .start
  | step _ hstep ih =>
      cases hstep with
      | acquire hstep | notify hstep | release hstep | other hstep => exact ih.step hstep trivial
      | sleep | wake => exact ih

/-- Every run of the server is one in which no call ever goes to sleep. -/
theorem wait_run_of_server_run (h : ServerRun lib poolSize ok c) :
    WaitRun lib poolSize c .initial := by
  induction h with
  | start => exact .start
  | @step c e c' hrun hstep hok ih =>
      rcases pool_cases hrun hstep with ⟨t, ch, conn, rfl, -⟩ | ⟨t, conn, ch, r, rfl, -⟩ | ⟨he, -⟩
      · exact ih.step (.acquire hstep (Finset.notMem_empty t))
      · exact ih.step (.release hstep rfl)
      · exact ih.step (.other hstep he)

/-- The condition variable counts the idle connections, and the calls in `wait` stand at
`acquire`. -/
structure Monitored (c : Server) (cv : CondVar Nat) : Prop where
  sound : cv.Sound c.world.idle.length
  standing : ∀ t ∈ cv.waiting, Awaits c t Op.acquire

/-- Every step keeps the count. -/
theorem Monitored.step (hrun : ServerRun lib poolSize ok c) (h : Monitored c cv)
    (hstep : WaitStep lib c cv c' cv') : Monitored c' cv' := by
  cases hstep with
  | acquire hstep hawake =>
      obtain ⟨req, -, -, hexec⟩ := op_point hrun hstep
      have hsound := h.sound
      rw [(exec_acquire hexec).1, List.length_append] at hsound
      refine ⟨hsound.proceed, fun u hu => ?_⟩
      obtain ⟨hwait, hne⟩ := CondVar.mem_waiting_proceed hawake hu
      rcases hstep.awaits (h.standing u hwait) with hat | ⟨ch', conn', he⟩
      · exact hat
      · cases he
        exact absurd rfl hne
  | sleep hcall hidle hawake =>
      have hsound := h.sound
      rw [hidle] at hsound
      refine ⟨hidle ▸ hsound.sleep, fun u hu => ?_⟩
      rcases CondVar.mem_waiting_sleep hu with hwait | rfl
      · exact h.standing u hwait
      · exact hcall
  | notify hstep hsleeper =>
      obtain ⟨req, -, -, hexec⟩ := op_point hrun hstep
      refine ⟨?_, fun u hu => ?_⟩
      · rw [exec_release hexec]
        simpa using h.sound.notify hsleeper
      · rcases hstep.awaits (h.standing u (CondVar.mem_waiting_notify hsleeper hu)) with
          hat | ⟨ch', conn', he⟩
        · exact hat
        · cases he
  | release hstep hnone =>
      refine ⟨h.sound.of_idle hnone _, fun u hu => ?_⟩
      rcases hstep.awaits (h.standing u hu) with hat | ⟨ch', conn', he⟩
      · exact hat
      · cases he
  | wake hsleeper =>
      exact ⟨h.sound.wake, fun u hu => h.standing u (CondVar.mem_waiting_wake hsleeper hu)⟩
  | other hstep hother =>
      refine ⟨(pool_untouched hrun hstep hother).2 ▸ h.sound, fun u hu => ?_⟩
      rcases hstep.awaits (h.standing u hu) with hat | ⟨ch', conn', he⟩
      · exact hat
      · exact absurd he (hother.1 u ch' conn')

/-- Every run keeps the count. -/
theorem monitored (h : WaitRun lib poolSize c cv) : Monitored c cv := by
  induction h with
  | start => exact ⟨CondVar.sound_initial, by simp [CondVar.waiting, CondVar.initial]⟩
  | step hrun hstep ih => exact ih.step hrun.server_run hstep

/-- A call that stands at `acquire` holds no connection. -/
theorem held_of_awaits (hrun : ServerRun lib poolSize ok c) (h : Awaits c t Op.acquire) :
    held t c = none := by
  obtain ⟨th, hth, hhead⟩ := h
  obtain ⟨-, hpoint⟩ := thread_point hrun hth
  rw [hhead] at hpoint
  exact hpoint.acquire

/-- Every operation but `acquire` returns. -/
theorem exec_returns (mysql : NumericPrefix) {o : Op} (h : o ≠ .acquire) (w : World) :
    ∃ ch r w', exec mysql o ch w = some (r, w') := by
  cases o with
  | nowUnixSeconds => exact ⟨.clock 0, _, _, rfl⟩
  | acquire => exact absurd rfl h
  | release | lastInsertId => exact ⟨.ok, _, _, rfl⟩
  | execute | query => exact ⟨.fail, _, _, rfl⟩
  | command cmd =>
      cases herror : w.contextError with
      | true => exact ⟨.fail, _, _, if_pos herror⟩
      | false => exact ⟨.fail, _, _, if_neg (by simp [herror])⟩

/-- A call that holds a connection can go on. -/
theorem holder_can_step (hrun : ServerRun lib poolSize ok c) {conn : Nat}
    (h : held t c = some conn) :
    ∃ o ch r c', Step (grpcServer lib) c (.op t o ch r) c' := by
  have hlt : t < c.threads.length := by
    by_contra hge
    rw [held, hrun.own_eq_nil (Nat.le_of_not_lt hge)] at h
    cases h
  obtain ⟨-, hpoint⟩ := thread_point hrun (List.getElem?_eq_getElem hlt)
  cases hprog : (c.threads[t]).prog with
  | pure resp =>
      rw [hprog] at hpoint
      have := hpoint.done
      rw [held, this] at h
      cases h
  | op o k =>
      rw [hprog] at hpoint
      have hne : o ≠ .acquire := by
        rintro rfl
        have := hpoint.acquire
        rw [held, this] at h
        cases h
      obtain ⟨ch, r, w, hexec⟩ := exec_returns lib.mysql hne c.world
      exact ⟨o, ch, r, _, .op (List.getElem?_eq_getElem hlt) hprog hexec⟩

/-- What holds while calls sleep in `acquire`. -/
structure NoLostWakeUp (lib : Libraries) (c : Server) (cv : CondVar Nat) : Prop where
  /-- The calls in `wait` stand at `acquire`, and none of them holds a connection. -/
  waiting : ∀ t ∈ cv.waiting, Awaits c t Op.acquire ∧ held t c = none
  /-- A call that is not waiting holds a connection, or a woken call is about to check again. -/
  someoneComes : cv.sleeping.Nonempty →
    (∃ t conn, held t c = some conn ∧ ¬ Awaits c t Op.acquire) ∨
      (cv.notified ∪ cv.woken).Nonempty
  /-- Every idle connection has a notified call that is about to check again. -/
  covered : cv.sleeping.Nonempty → c.world.idle.length ≤ cv.notified.card
  /-- Some call that does not sleep can go on. -/
  progress : cv.sleeping.Nonempty →
    ∃ t o ch r c', t ∉ cv.sleeping ∧ Step (grpcServer lib) c (.op t o ch r) c'

/-- When all connections are lent, a call that is not waiting holds one. -/
theorem exists_holder (hpool : 0 < poolSize) (hrun : ServerRun lib poolSize ok c)
    (hidle : c.world.idle = []) : ∃ t conn, held t c = some conn ∧ ¬ Awaits c t Op.acquire := by
  obtain ⟨ledger, hkept⟩ := kept hrun
  rcases hkept.idle_or_held (List.mem_range.mpr hpool) with ⟨hmem, -⟩ | ⟨-, t, ht, -⟩
  · rw [hidle] at hmem
    cases hmem
  · refine ⟨t, 0, ht, fun hawaits => ?_⟩
    rw [held_of_awaits hrun hawaits] at ht
    cases ht

/-- A call that stands at `acquire` can take an idle connection. -/
theorem acquire_can_step (h : Awaits c t Op.acquire) (hidle : c.world.idle ≠ []) :
    ∃ ch conn c', Step (grpcServer lib) c (.op t .acquire ch conn) c' := by
  obtain ⟨th, hth, hhead⟩ := h
  obtain ⟨rest, conn, hlast⟩ := (List.eq_nil_or_concat c.world.idle).resolve_left hidle
  have hexec : exec lib.mysql .acquire .ok c.world =
      some (conn, { c.world with idle := rest }) := by
    simp [exec, hlast]
  cases hprog : th.prog with
  | pure resp =>
      rw [hprog] at hhead
      cases hhead
  | op o k =>
      rw [hprog] at hhead
      cases hhead
      exact ⟨.ok, conn, _, .op hth hprog hexec⟩

/-- With at least one connection, no notification is lost and nobody sleeps for good. -/
theorem no_lost_wake_up (hpool : 0 < poolSize) (hrun : WaitRun lib poolSize c cv) :
    NoLostWakeUp lib c cv := by
  have hserver := hrun.server_run
  have hmonitored := monitored hrun
  -- an idle connection has a notified call
  have hnotified : cv.sleeping.Nonempty → c.world.idle ≠ [] → cv.notified.Nonempty := by
    intro hsleeping hidle
    have hcovered := hmonitored.sound.covered hsleeping
    exact Finset.card_pos.mp (Nat.lt_of_lt_of_le (List.length_pos_iff.mpr hidle) hcovered)
  refine ⟨fun t ht => ?_, fun hsleeping => ?_, hmonitored.sound.covered, fun hsleeping => ?_⟩
  · have hawaits := hmonitored.standing t ht
    exact ⟨hawaits, held_of_awaits hserver hawaits⟩
  · by_cases hidle : c.world.idle = []
    · exact .inl (exists_holder hpool hserver hidle)
    · exact .inr ((hnotified hsleeping hidle).mono Finset.subset_union_left)
  · by_cases hidle : c.world.idle = []
    · obtain ⟨t, conn, hheld, hawaits⟩ := exists_holder hpool hserver hidle
      obtain ⟨o, ch, r, c', hstep⟩ := holder_can_step hserver hheld
      refine ⟨t, o, ch, r, c', fun hsleeps => hawaits (hmonitored.standing t ?_), hstep⟩
      exact Finset.mem_union_left _ hsleeps
    · obtain ⟨t, ht⟩ := hnotified hsleeping hidle
      have hawaits := hmonitored.standing t
        (Finset.mem_union_right _ (Finset.mem_union_left _ ht))
      obtain ⟨ch, conn, c', hstep⟩ := acquire_can_step hawaits hidle
      exact ⟨t, _, ch, conn, c',
        fun hsleeps => Finset.disjoint_left.mp hmonitored.sound.disjoint hsleeps ht, hstep⟩

/-- Two calls and one connection: the second call sleeps while the first holds the connection. -/
theorem no_lost_wake_up_two : ∃ c cv, WaitRun .standard 1 c cv ∧ cv.sleeping.Nonempty ∧
    NoLostWakeUp .standard c cv := by
  have hplay : ∃ c, ServerRun .standard 1 (fun _ _ => True) c ∧
      (c.world.idle = [] ∧ Awaits c 1 Op.acquire) ∧ True :=
    exists_run_with (fun _ _ => true)
      ([.call .getStats] ++ List.replicate 2 (.op 0 .ok) ++ [.call .getStats, .op 1 .ok])
      (fun _ _ _ => trivial) (by decide +kernel) fun _ _ _ => trivial
  obtain ⟨c, hrun, ⟨hidle, hawaits⟩, -⟩ := hplay
  have hsleeps := (wait_run_of_server_run hrun).step (.sleep hawaits hidle (Finset.notMem_empty 1))
  exact ⟨c, _, hsleeps, Finset.insert_nonempty _ _, no_lost_wake_up (by decide) hsleeps⟩

end HttpServerDemo
