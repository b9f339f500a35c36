import HttpServerDemo.Store.MysqlPool

/-!
# Initialising the pool again

A sequence of calls of `MysqlPool::init` on one pool, each with its configuration and the outcomes
of its calls to MySQL. The connections that the fill loop has registered are released by the
destructor of the pool only, not where `init` returns false. So an attempt that fails at a
connection behind the first leaves the earlier ones idle, and a later attempt adds to them. No
other failure leaves anything behind, as `failed_init_unchanged_iff` says.
-/

namespace HttpServerDemo

namespace MysqlPool

variable {calls : InitCalls} {cfg : MysqlConfig} {pool pool' : MysqlPool} {i left : Nat}

/-! ## How the fill loop fails -/

/-- Behind its first iteration, the loop fails where a connection does. -/
theorem failed_connect_of_fill (h : fill calls (i + 1) left pool = (false, pool')) :
    ∃ m < left, calls.connect (i + 1 + m) pool.cfg ≠ none := by
  induction left generalizing i pool with
  | zero => cases h
  | succ left ih =>
      by_cases hconnect : calls.connect (i + 1) pool.cfg = none
      · rw [fill_succ_registered hconnect] at h
        obtain ⟨m, hlt, hm⟩ := ih h
        refine ⟨m + 1, by omega, ?_⟩
        rw [show i + 1 + (m + 1) = i + 1 + 1 + m by omega]
        exact hm
      · exact ⟨0, by omega, hconnect⟩

/-- A loop that succeeds has connected all of its connections. -/
theorem connected_of_fill_true (h : fill calls (i + 1) left pool = (true, pool')) :
    ∀ m < left, calls.connect (i + 1 + m) pool.cfg = none := by
  induction left generalizing i pool with
  | zero => intro m hlt; cases hlt
  | succ left ih =>
      intro m hlt
      cases hconnect : calls.connect (i + 1) pool.cfg with
      | some error =>
          simp only [fill, hconnect] at h
          cases h
      | none =>
          rw [fill_succ_registered hconnect] at h
          cases m with
          | zero => exact hconnect
          | succ m =>
              rw [show i + 1 + (m + 1) = i + 1 + 1 + m by omega]
              exact ih h m (by omega)

/-- The loop never takes a connection away. -/
theorem idle_prefix_fill (calls : InitCalls) (i left : Nat) (pool : MysqlPool) :
    pool.idle <+: (fill calls i left pool).2.idle := by
  induction left generalizing i pool with
  | zero => exact List.prefix_rfl
  | succ left ih =>
      simp only [fill]
      split
      · exact List.prefix_rfl
      · split
        · exact List.prefix_rfl
        · exact (List.prefix_append _ [pool.constructed]).trans (ih (i + 1) pool.register)

/-! ## How `init` fails -/

/-- A connection other than the first fails, and everything before the second iteration of the
loop has succeeded. -/
def LateFailure (cfg : MysqlConfig) (calls : InitCalls) : Prop :=
  calls.connectServer { cfg with database := "" } = none ∧
    calls.createDatabase ("CREATE DATABASE IF NOT EXISTS `" ++ cfg.database ++
      "` DEFAULT CHARACTER SET utf8mb4") = none ∧
    calls.connect 0 cfg = none ∧
    calls.createTable kCreateTableSql = none ∧
    ∃ i, 0 < i ∧ i < cfg.poolSize.toInt.toNat ∧ calls.connect i cfg ≠ none

/-- What `init` does once the first connection is registered. -/
theorem init_registered (hserver : calls.connectServer { cfg with database := "" } = none)
    (hdatabase : calls.createDatabase ("CREATE DATABASE IF NOT EXISTS `" ++ cfg.database ++
      "` DEFAULT CHARACTER SET utf8mb4") = none)
    (hconnect : calls.connect 0 cfg = none) (htable : calls.createTable kCreateTableSql = none)
    (hsize : cfg.poolSize.toInt.toNat = left + 1) :
    init cfg calls pool = fill calls 1 left (register { pool with cfg }) := by
  simp only [init, hserver, hdatabase, hsize]
  exact fill_registered hconnect fun _ => htable

/-- Everything `init` can do: fail with nothing registered, succeed with nothing to register, or
register the first connection and go on with the loop. -/
theorem init_cases (cfg : MysqlConfig) (calls : InitCalls) (pool : MysqlPool) :
    (∃ constructed err, init cfg calls pool = (false, { pool with cfg, constructed, err })) ∨
    init cfg calls pool = (true, { pool with cfg }) ∨
    (∃ left, cfg.poolSize.toInt.toNat = left + 1 ∧
      calls.connectServer { cfg with database := "" } = none ∧
      calls.createDatabase ("CREATE DATABASE IF NOT EXISTS `" ++ cfg.database ++
        "` DEFAULT CHARACTER SET utf8mb4") = none ∧
      calls.connect 0 cfg = none ∧ calls.createTable kCreateTableSql = none ∧
      init cfg calls pool = fill calls 1 left (register { pool with cfg })) := by
  cases hserver : calls.connectServer { cfg with database := "" } with
  | some error =>
      refine .inl ⟨pool.constructed, "建库连接失败: " ++ error, ?_⟩
      simp only [init, hserver]
  | none =>
      cases hdatabase : calls.createDatabase ("CREATE DATABASE IF NOT EXISTS `" ++ cfg.database ++
        "` DEFAULT CHARACTER SET utf8mb4") with
      | some error =>
          refine .inl ⟨pool.constructed, "CREATE DATABASE 失败: " ++ error, ?_⟩
          simp only [init, hserver, hdatabase]
      | none =>
          cases hsize : cfg.poolSize.toInt.toNat with
          | zero =>
              refine .inr (.inl ?_)
              simp only [init, hserver, hdatabase, hsize, fill]
          | succ left =>
              cases hconnect : calls.connect 0 cfg with
              | some error =>
                  refine .inl ⟨pool.constructed + 1, "连接池初始化失败: " ++ error, ?_⟩
                  simp only [init, hserver, hdatabase, hsize, fill, hconnect]
              | none =>
                  cases htable : calls.createTable kCreateTableSql with
                  | some error =>
                      refine .inl ⟨pool.constructed + 1, "CREATE TABLE 失败: " ++ error, ?_⟩
                      simp only [init, hserver, hdatabase, hsize, fill, hconnect, htable,
                        if_true]
                  | none =>
                      exact .inr (.inr ⟨left, rfl, rfl, rfl, rfl, rfl,
                        init_registered hserver hdatabase hconnect htable hsize⟩)

/-- Any other failure leaves the connections as they were. -/
theorem unchanged_of_failed (h : init cfg calls pool = (false, pool'))
    (hlate : ¬ LateFailure cfg calls) : pool'.idle = pool.idle ∧ pool'.conns = pool.conns := by
  rcases init_cases cfg calls pool with ⟨_, _, hinit⟩ | hinit |
    ⟨left, hsize, hserver, hdatabase, hconnect, htable, hinit⟩
  · cases hinit.symm.trans h
    exact ⟨rfl, rfl⟩
  · cases hinit.symm.trans h
  · obtain ⟨m, hlt, hm⟩ := failed_connect_of_fill (hinit.symm.trans h)
    exact absurd ⟨hserver, hdatabase, hconnect, htable, 0 + 1 + m, by omega, by omega, hm⟩ hlate

/-- A late failure leaves a connection in the pool that was not there. -/
theorem failed_of_late (hlate : LateFailure cfg calls) (pool : MysqlPool) :
    ∃ pool', init cfg calls pool = (false, pool') ∧ pool'.idle ≠ pool.idle := by
  obtain ⟨hserver, hdatabase, hconnect, htable, i, hpos, hlt, hi⟩ := hlate
  obtain ⟨left, hleft⟩ : ∃ left, cfg.poolSize.toInt.toNat = left + 1 :=
    ⟨cfg.poolSize.toInt.toNat - 1, by omega⟩
  rw [init_registered hserver hdatabase hconnect htable hleft]
  generalize hfirst : register { pool with cfg } = first
  have hprefix := (idle_prefix_fill calls 1 left first).length_le
  cases hfill : fill calls 1 left first with
  | mk result pool' =>
      rw [hfill] at hprefix
      subst hfirst
      cases result with
      | true =>
          have hall := connected_of_fill_true hfill (i - 1) (by omega)
          rw [show 0 + 1 + (i - 1) = i by omega] at hall
          exact absurd hall hi
      | false =>
          refine ⟨pool', rfl, fun heq => ?_⟩
          rw [heq, idle_register, List.length_append] at hprefix
          exact absurd hprefix (Nat.not_succ_le_self _)

end MysqlPool

namespace PoolState

/-- With nothing released in between, the pool lends as many connections as are idle. -/
theorem lends_iff (k : Nat) (s : PoolState) :
    (s.run (List.replicate k .acquire)).isSome ↔ k ≤ s.pool.idle.length := by
  induction k generalizing s with
  | zero => simp [run]
  | succ k ih =>
      rw [List.replicate_succ, run, step, MysqlPool.acquire]
      cases hlast : s.pool.idle.getLast? with
      | none =>
          rw [List.getLast?_eq_none_iff] at hlast
          simp [hlast]
      | some conn =>
          have hpos : s.pool.idle.length ≠ 0 := by
            intro hlength
            rw [List.length_eq_zero_iff.mp hlength] at hlast
            cases hlast
          simp only [Option.map_some, ih, List.length_dropLast]
          omega

end PoolState

/-! ## Sequences of attempts -/

/-- A call of `init`: its argument, and how its calls to MySQL end. -/
structure Attempt where
  cfg : MysqlConfig
  calls : InitCalls

namespace MysqlPool

/-- What an attempt returns and leaves. -/
def attempt (pool : MysqlPool) (a : Attempt) : Bool × MysqlPool :=
  pool.init a.cfg a.calls

/-- What attempts one after the other leave. -/
def after (pool : MysqlPool) : List Attempt → MysqlPool
  | [] => pool
  | a :: attempts => (pool.attempt a).2.after attempts

/-- Every one of these attempts returns false. -/
def AllFail (pool : MysqlPool) : List Attempt → Prop
  | [] => True
  | a :: attempts => (pool.attempt a).1 = false ∧ (pool.attempt a).2.AllFail attempts

/-- Attempts that fail, none of them late, leave the connections as they were. -/
theorem after_of_all_fail {attempts : List Attempt} {pool : MysqlPool}
    (hlate : ∀ a ∈ attempts, ¬ LateFailure a.cfg a.calls) (h : pool.AllFail attempts) :
    (pool.after attempts).idle = pool.idle ∧ (pool.after attempts).conns = pool.conns := by
  induction attempts generalizing pool with
  | nil => exact ⟨rfl, rfl⟩
  | cons a attempts ih =>
      obtain ⟨hfalse, hrest⟩ := h
      obtain ⟨hidle, hconns⟩ := unchanged_of_failed (Prod.ext hfalse rfl)
        (hlate a List.mem_cons_self)
      obtain ⟨hidle', hconns'⟩ := ih (fun b hb => hlate b (List.mem_cons_of_mem _ hb)) hrest
      exact ⟨hidle'.trans hidle, hconns'.trans hconns⟩

end MysqlPool

open MysqlPool

/-- Every failed attempt leaves the connections as they were, and a first successful one leaves a
pool that lends as many as it was asked for, if and only if no attempt fails late. -/
theorem failed_init_unchanged_iff (attempts : List Attempt) :
    ((∀ before a rest pool, attempts = before ++ a :: rest →
        (fresh.after before).attempt a = (false, pool) →
        pool.idle = (fresh.after before).idle ∧ pool.conns = (fresh.after before).conns) ∧
      (∀ before a rest pool, attempts = before ++ a :: rest → fresh.AllFail before →
        (fresh.after before).attempt a = (true, pool) →
        pool.conns.Nodup ∧ pool.idle.Perm pool.conns ∧
          ∀ k : Nat, ((PoolState.mk pool []).run (List.replicate (k + 1) .acquire)).isSome ↔
            (k : Int) < a.cfg.poolSize.toInt)) ↔
      ∀ a ∈ attempts, ¬ LateFailure a.cfg a.calls := by
  constructor
  · rintro ⟨hunchanged, -⟩ a ha hlate
    obtain ⟨before, rest, rfl⟩ := List.append_of_mem ha
    obtain ⟨pool, hfailed, hidle⟩ := failed_of_late hlate (fresh.after before)
    exact hidle (hunchanged before a rest pool rfl hfailed).1
  · intro hlate
    refine ⟨?_, ?_⟩
    · rintro before a rest pool rfl hfailed
      exact unchanged_of_failed hfailed (hlate a (by simp))
    · rintro before a rest pool rfl hfail hsucceeded
      obtain ⟨hidle, hconns⟩ := after_of_all_fail (fun b hb => hlate b (by simp [hb])) hfail
      obtain ⟨hidle', hconns'⟩ := range_of_init hidle hconns hsucceeded
      refine ⟨?_, ?_, fun k => ?_⟩
      · rw [hconns']
        exact List.nodup_range'
      · rw [hidle', hconns']
      · rw [PoolState.lends_iff]
        dsimp only
        rw [hidle', List.length_range']
        omega

/-- The second connection fails. -/
def secondFails : InitCalls :=
  { allSucceed with connect := fun i _ => if i = 1 then some "Too many connections" else none }

/-- A failed attempt at two connections leaves one of them, and the next attempt makes it three. -/
theorem connection_left_behind :
    (fresh.attempt ⟨twoConnections, secondFails⟩).1 = false ∧
    (fresh.attempt ⟨twoConnections, secondFails⟩).2.idle = [0] ∧
    (fresh.attempt ⟨twoConnections, secondFails⟩).2.conns = [0] ∧
    ((fresh.after [⟨twoConnections, secondFails⟩]).attempt ⟨twoConnections, allSucceed⟩).1 = true ∧
    ((fresh.after [⟨twoConnections, secondFails⟩]).attempt
      ⟨twoConnections, allSucceed⟩).2.idle = [0, 2, 3] :=
  ⟨rfl, rfl, rfl, rfl, rfl⟩

end HttpServerDemo
