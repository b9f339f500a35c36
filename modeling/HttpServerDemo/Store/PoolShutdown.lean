import HttpServerDemo.Store.MysqlPool

/-!
# Shutting the pool down

`shutdown` empties both containers, whatever guards are still out, and `release` puts a connection
on the stack unconditionally. So a guard that outlives the shutdown makes the pool offer a
connection that is destroyed, and `idle_owned_iff` says that nothing else does.
-/

namespace HttpServerDemo

namespace PoolState

variable {s s' : PoolState}

/-- Every idle connection is one that the pool still owns, and so is the one that `acquire`
returns. -/
def Owned (s : PoolState) : Prop :=
  (∀ conn ∈ s.pool.idle, conn ∈ s.pool.conns) ∧
    ∀ conn pool, s.pool.acquire = some (conn, pool) → conn ∈ s.pool.conns

/-- What `acquire` returns is idle. -/
theorem owned_of_idle (h : ∀ conn ∈ s.pool.idle, conn ∈ s.pool.conns) : s.Owned := by
  refine ⟨h, fun conn pool hacquire => ?_⟩
  simp only [MysqlPool.acquire] at hacquire
  split at hacquire
  · rename_i conn' hlast
    cases hacquire
    exact h conn (List.mem_of_getLast? hlast)
  · cases hacquire

/-- The pool owns nothing and offers nothing. -/
def Empty (s : PoolState) : Prop :=
  s.pool.conns = [] ∧ s.pool.idle = []

/-- An empty pool stays empty as long as no guard that holds a connection is destroyed. -/
theorem empty_of_step {e : PoolEvent} (h : s.step e = some s') (hempty : s.Empty)
    (hreturned : ∀ guard, e = .destroy guard → s.held guard = none) : s'.Empty := by
  obtain ⟨hconns, hidle⟩ := hempty
  rcases step_cases h with ⟨conn, idle, -, hpop, rfl⟩ | ⟨guard, conn, -, -, rfl⟩ |
    ⟨guard, conn, rfl, hguard, rfl⟩ | ⟨guard, -, -, rfl⟩ | ⟨-, rfl⟩
  · rw [hidle] at hpop
    simp at hpop
  · exact ⟨hconns, hidle⟩
  · have := hreturned guard rfl
    rw [held_eq_of_get hguard] at this
    cases this
  · exact ⟨hconns, hidle⟩
  · exact ⟨rfl, rfl⟩

/-- Once the pool has been shut down it owns nothing. -/
theorem conns_of_shutdown {events : List PoolEvent} (h : s.run events = some s')
    (hshutdown : s.pool.conns = [] ∨ .shutdown ∈ events) : s'.pool.conns = [] := by
  induction events generalizing s with
  | nil =>
      cases h
      simpa using hshutdown
  | cons e events ih =>
      simp only [run] at h
      split at h
      · rename_i s1 hstep
        refine ih h ?_
        rcases hshutdown with hconns | hmem
        · left
          rcases step_cases hstep with ⟨_, _, -, -, rfl⟩ | ⟨_, _, -, -, rfl⟩ | ⟨_, _, -, -, rfl⟩ |
            ⟨_, -, -, rfl⟩ | ⟨-, rfl⟩
          all_goals first | exact hconns | rfl
        · rcases List.mem_cons.mp hmem with rfl | hmem
          · cases hstep
            exact .inl rfl
          · exact .inr hmem
      · cases h

/-- After a shutdown of this run, no guard that holds a connection is destroyed. -/
def ReturnsBeforeShutdown (s : PoolState) (events : List PoolEvent) : Prop :=
  ∀ before guard rest s1, events = before ++ .destroy guard :: rest → .shutdown ∈ before →
    s.run before = some s1 → s1.held guard = none

/-- A part of the run from its beginning. -/
theorem ReturnsBeforeShutdown.before {before rest : List PoolEvent}
    (h : s.ReturnsBeforeShutdown (before ++ rest)) : s.ReturnsBeforeShutdown before := by
  rintro before' guard rest' s1 rfl hshutdown hrun
  exact h before' guard (rest' ++ rest) s1 (by simp) hshutdown hrun

/-- A run that ends with its only shutdown is one. -/
theorem returnsBeforeShutdown_concat {events : List PoolEvent} (h : .shutdown ∉ events) :
    s.ReturnsBeforeShutdown (events ++ [.shutdown]) := by
  intro before guard rest s1 hevents hshutdown
  rcases List.eq_nil_or_concat rest with rfl | ⟨rest, last, rfl⟩
  · cases (List.append_inj' hevents rfl).2
  · have hcut : events ++ [.shutdown] = (before ++ .destroy guard :: rest) ++ [last] := by
      simpa using hevents
    rw [(List.append_inj' hcut rfl).1] at h
    exact absurd (List.mem_append_left _ hshutdown) h

/-- If so, the pool is empty from the shutdown on. -/
theorem empty_of_run {events : List PoolEvent} (hreturned : s.ReturnsBeforeShutdown events)
    (hshutdown : .shutdown ∈ events) (h : s.run events = some s') : s'.Empty := by
  induction events using List.reverseRecOn generalizing s' with
  | nil => simp at hshutdown
  | append_singleton events e ih =>
      obtain ⟨s1, hrun, -⟩ := Option.bind_eq_some_iff.mp (run_append _ _ ▸ h)
      rw [run_concat hrun] at h
      rcases List.mem_append.mp hshutdown with hbefore | hnow
      · refine empty_of_step h (ih hreturned.before hbefore hrun) ?_
        rintro guard rfl
        exact hreturned events guard [] s1 rfl hbefore hrun
      · cases List.mem_singleton.mp hnow
        cases h
        exact ⟨rfl, rfl⟩

/-- A guard that holds a connection and is destroyed after a shutdown makes the pool offer it. -/
theorem not_owned_of_late_return {before rest : List PoolEvent} {guard conn : Nat} {s1 : PoolState}
    (hrun : s.run (before ++ .destroy guard :: rest) = some s') (hshutdown : .shutdown ∈ before)
    (hbefore : s.run before = some s1) (hheld : s1.held guard = some conn) :
    ∃ s2, s.run (before ++ [.destroy guard]) = some s2 ∧ ¬ s2.Owned := by
  rw [run_append, hbefore, Option.bind_some, run] at hrun
  split at hrun
  · rename_i s2 hstep
    refine ⟨s2, (run_concat hbefore).trans hstep, ?_⟩
    have hconns : s1.pool.conns = [] := conns_of_shutdown hbefore (.inr hshutdown)
    rcases step_cases hstep with ⟨_, _, he, -⟩ | ⟨_, _, he, -⟩ | ⟨guard', conn', he, hguard, rfl⟩ |
      ⟨guard', he, hguard, -⟩ | ⟨he, -⟩
    · cases he
    · cases he
    · intro howned
      have := howned.1 conn' (by simp [MysqlPool.release])
      simp [MysqlPool.release, hconns] at this
    · cases he
      rw [held_eq_of_get hguard] at hheld
      cases hheld
    · cases he
  · cases hrun

end PoolState

/-- On an initialised pool, every state of a run offers only connections that the pool still owns
exactly when no guard that holds a connection is destroyed after a shutdown. -/
theorem idle_owned_iff {cfg : MysqlConfig} {calls : InitCalls} {pool : MysqlPool}
    (hinit : MysqlPool.fresh.init cfg calls = (true, pool)) {events : List PoolEvent}
    {s : PoolState} (hrun : (PoolState.mk pool []).run events = some s) :
    (∀ before rest s1, events = before ++ rest → (PoolState.mk pool []).run before = some s1 →
      s1.Owned) ↔
    (PoolState.mk pool []).ReturnsBeforeShutdown events := by
  constructor
  · rintro howned before guard rest s1 rfl hshutdown hbefore
    cases hheld : s1.held guard with
    | none => rfl
    | some conn =>
        obtain ⟨s2, hs2, hnot⟩ :=
          PoolState.not_owned_of_late_return hrun hshutdown hbefore hheld
        exact absurd (howned (before ++ [.destroy guard]) rest s2 (by simp) hs2) hnot
  · rintro hreturned before rest s1 rfl hbefore
    apply PoolState.owned_of_idle
    by_cases hshutdown : .shutdown ∈ before
    · rw [(PoolState.empty_of_run hreturned.before hshutdown hbefore).2]
      simp
    · obtain ⟨-, hkept0⟩ := MysqlPool.kept_of_init hinit
      obtain ⟨hconns, ledger, hkept⟩ := PoolState.kept_of_run hbefore hshutdown hkept0
      rw [hconns]
      exact fun conn hconn => hkept.mem_stock (.inl hconn)

/-- A guard is destroyed before the shutdown, and the pool owns what it offers. -/
theorem idle_owned_iff_orderly :
    ∃ pool, MysqlPool.fresh.init twoConnections allSucceed = (true, pool) ∧
      ∀ before rest s, [.acquire, .destroy 0, .shutdown] = before ++ rest →
        (PoolState.mk pool []).run before = some s → s.Owned := by
  refine ⟨_, rfl, (@idle_owned_iff twoConnections allSucceed _ rfl
    [.acquire, .destroy 0, .shutdown] _ rfl).mpr ?_⟩
  have hopen : PoolEvent.shutdown ∉ [.acquire, .destroy 0] := by decide
  exact PoolState.returnsBeforeShutdown_concat hopen

/-- A connection that is lent while the pool is shut down is destroyed, and then lent again. -/
theorem destroyed_connection_lent :
    ∃ pool s s', MysqlPool.fresh.init twoConnections allSucceed = (true, pool) ∧
      (PoolState.mk pool []).run [.acquire, .shutdown, .destroy 0] = some s ∧
      s.pool.conns = [] ∧ s.pool.acquire = some (1, s') :=
  ⟨_, _, _, rfl, rfl, rfl, rfl⟩

end HttpServerDemo
