import HttpServerDemo.Library.Lending
import HttpServerDemo.Store.World

/-!
# `MysqlPool`

The connection pool of `store/mysql_pool.cpp`: the fill loop of `init`, `acquire`, `release`,
`shutdown` and the guards that threads build, move and destroy. Connections are numbered in the
order in which they are constructed, and so are guards. `PoolState.step` is one step of any thread,
and `PoolState.run` any interleaving of steps.

While nothing is shut down the pool keeps a ledger (`kept_of_run`), so every connection is idle
once or in the hand of one guard (`lent_exactly_once`). `exec_acquire_pool` and
`exec_release_pool` say that the operations of a `World` are those of the pool.
-/

namespace HttpServerDemo

open Lending

/-- `MysqlConfig`. -/
structure MysqlConfig where
  host : String
  port : Int32
  user : String
  password : String
  database : String
  poolSize : Int32

/-- `kCreateTableSql`. -/
def kCreateTableSql : String :=
  "CREATE TABLE IF NOT EXISTS users (" ++
    "  id BIGINT AUTO_INCREMENT PRIMARY KEY," ++
    "  name VARCHAR(128) NOT NULL," ++
    "  email VARCHAR(256) NOT NULL," ++
    "  created_at BIGINT NOT NULL" ++
    ") ENGINE=InnoDB DEFAULT CHARSET=utf8mb4"

/-- How the calls of one `init` to MySQL end: with success, or with the text of an error. The
connections of the pool are counted from 0. -/
structure InitCalls where
  connectServer : MysqlConfig → Option String
  createDatabase : String → Option String
  connect : Nat → MysqlConfig → Option String
  createTable : String → Option String

/-- The members of `MysqlPool`, and how many connections it has constructed. A pointer in `idle` is
the number of the connection it points to. -/
structure MysqlPool where
  cfg : MysqlConfig
  conns : List Nat
  idle : List Nat
  err : String
  constructed : Nat

namespace MysqlPool

/-- The fill loop of `init`, at its `i`-th iteration of `i + left`. -/
def fill (calls : InitCalls) : (i left : Nat) → MysqlPool → Bool × MysqlPool
  | _, 0, pool => (true, pool)
  | i, left + 1, pool =>
      let conn := pool.constructed
      let pool := { pool with constructed := conn + 1 }
      match calls.connect i pool.cfg with
      | some error => (false, { pool with err := "连接池初始化失败: " ++ error })
      | none =>
          match if i = 0 then calls.createTable kCreateTableSql else none with
          | some error => (false, { pool with err := "CREATE TABLE 失败: " ++ error })
          | none =>
              fill calls (i + 1) left
                { pool with idle := pool.idle ++ [conn], conns := pool.conns ++ [conn] }

/-- `MysqlPool::init`. -/
def init (cfg : MysqlConfig) (calls : InitCalls) (pool : MysqlPool) : Bool × MysqlPool :=
  let pool := { pool with cfg }
  match calls.connectServer { cfg with database := "" } with
  | some error => (false, { pool with err := "建库连接失败: " ++ error })
  | none =>
      let sql := "CREATE DATABASE IF NOT EXISTS `" ++ cfg.database ++
        "` DEFAULT CHARACTER SET utf8mb4"
      match calls.createDatabase sql with
      | some error => (false, { pool with err := "CREATE DATABASE 失败: " ++ error })
      | none => fill calls 0 cfg.poolSize.toInt.toNat pool

/-- The pool with one more connection, in both containers. -/
def register (pool : MysqlPool) : MysqlPool :=
  { pool with
    constructed := pool.constructed + 1
    idle := pool.idle ++ [pool.constructed]
    conns := pool.conns ++ [pool.constructed] }

@[simp] theorem constructed_register (pool : MysqlPool) :
    pool.register.constructed = pool.constructed + 1 :=
  rfl

@[simp] theorem idle_register (pool : MysqlPool) :
    pool.register.idle = pool.idle ++ [pool.constructed] :=
  rfl

/-- `MysqlPool::shutdown`. -/
def shutdown (pool : MysqlPool) : MysqlPool :=
  { pool with idle := [], conns := [] }

/-- `MysqlPool::acquire`: the connection on top of the stack. `none` where the thread waits. -/
def acquire (pool : MysqlPool) : Option (Nat × MysqlPool) :=
  match pool.idle.getLast? with
  | some conn => some (conn, { pool with idle := pool.idle.dropLast })
  | none => none

/-- `MysqlPool::release`. -/
def release (conn : Nat) (pool : MysqlPool) : MysqlPool :=
  { pool with idle := pool.idle ++ [conn] }

/-- `MysqlPool()`, with the default configuration. -/
def fresh : MysqlPool where
  cfg := ⟨"127.0.0.1", 3306, "root", "", "http_server_demo", 8⟩
  conns := []
  idle := []
  err := ""
  constructed := 0

end MysqlPool

/-- A `MysqlPool::Guard`: its connection, or `none` for a null pointer, and whether the object has
not been destroyed. -/
structure Guard where
  conn : Option Nat
  live : Bool
  deriving DecidableEq

/-- What a thread does with the pool and its guards. -/
inductive PoolEvent where
  /-- `acquire` returns a new guard. -/
  | acquire
  /-- A new guard is constructed from this one. -/
  | move (guard : Nat)
  /-- This guard is destroyed. -/
  | destroy (guard : Nat)
  /-- `shutdown` -/
  | shutdown
  deriving DecidableEq

/-- The pool and all guards constructed so far. -/
structure PoolState where
  pool : MysqlPool
  guards : List Guard

namespace PoolState

/-- The connection that a live guard holds. -/
def held (s : PoolState) (guard : Nat) : Option Nat :=
  match s.guards[guard]? with
  | some ⟨conn, true⟩ => conn
  | _ => none

/-- One step of some thread. -/
def step (s : PoolState) : PoolEvent → Option PoolState
  | .acquire =>
      s.pool.acquire.map fun (conn, pool) => ⟨pool, s.guards ++ [⟨some conn, true⟩]⟩
  | .move guard =>
      match s.guards[guard]? with
      | some ⟨conn, true⟩ => some ⟨s.pool, s.guards.set guard ⟨none, true⟩ ++ [⟨conn, true⟩]⟩
      | _ => none
  | .destroy guard =>
      match s.guards[guard]? with
      | some ⟨some conn, true⟩ =>
          some ⟨s.pool.release conn, s.guards.set guard ⟨some conn, false⟩⟩
      | some ⟨none, true⟩ => some ⟨s.pool, s.guards.set guard ⟨none, false⟩⟩
      | _ => none
  | .shutdown => some ⟨s.pool.shutdown, s.guards⟩

/-- The steps of an interleaving one after the other. -/
def run (s : PoolState) : List PoolEvent → Option PoolState
  | [] => some s
  | e :: events =>
      match s.step e with
      | some s => s.run events
      | none => none

/-! ## What one step does -/

variable {s s' : PoolState} {pool : MysqlPool} {guards : List Guard}

theorem held_eq_of_get {guard : Nat} {conn : Option Nat}
    (h : s.guards[guard]? = some ⟨conn, true⟩) : s.held guard = conn := by
  rw [held, h]

theorem get_of_held {guard conn : Nat} (h : s.held guard = some conn) :
    s.guards[guard]? = some ⟨some conn, true⟩ := by
  rw [held] at h
  split at h
  · rename_i hget
    rw [hget, h]
  · cases h

/-- A guard that is yet to be constructed holds nothing. -/
theorem held_length : (PoolState.mk pool guards).held guards.length = none := by
  simp [held]

theorem held_append_length (x : Guard) :
    (PoolState.mk pool (guards ++ [x])).held guards.length = if x.live then x.conn else none := by
  obtain ⟨conn, live⟩ := x
  cases live <;> simp [held]

theorem held_append_ne (x : Guard) (pool' : MysqlPool) {guard : Nat} (h : guard ≠ guards.length) :
    (PoolState.mk pool (guards ++ [x])).held guard = (PoolState.mk pool' guards).held guard := by
  rcases Nat.lt_or_gt_of_ne h with hlt | hgt
  · simp only [held, List.getElem?_append_left hlt]
  · have hnone : guards[guard]? = none := List.getElem?_eq_none (Nat.le_of_lt hgt)
    have hnone' : (guards ++ [x])[guard]? = none :=
      List.getElem?_eq_none (by simpa [Nat.succ_le_iff] using hgt)
    simp only [held, hnone, hnone']

theorem held_set_self (x : Guard) {guard : Nat} (h : guard < guards.length) :
    (PoolState.mk pool (guards.set guard x)).held guard = if x.live then x.conn else none := by
  obtain ⟨conn, live⟩ := x
  cases live <;> simp [held, h]

theorem held_set_ne (x : Guard) (pool' : MysqlPool) {guard other : Nat} (h : other ≠ guard) :
    (PoolState.mk pool (guards.set guard x)).held other =
      (PoolState.mk pool' guards).held other := by
  simp only [held, List.getElem?_set_ne h.symm]

/-- Everything a step can do. -/
theorem step_cases {e : PoolEvent} (h : s.step e = some s') :
    (∃ conn idle, e = .acquire ∧ s.pool.idle = idle ++ [conn] ∧
      s' = ⟨{ s.pool with idle }, s.guards ++ [⟨some conn, true⟩]⟩) ∨
    (∃ guard conn, e = .move guard ∧ s.guards[guard]? = some ⟨conn, true⟩ ∧
      s' = ⟨s.pool, s.guards.set guard ⟨none, true⟩ ++ [⟨conn, true⟩]⟩) ∨
    (∃ guard conn, e = .destroy guard ∧ s.guards[guard]? = some ⟨some conn, true⟩ ∧
      s' = ⟨s.pool.release conn, s.guards.set guard ⟨some conn, false⟩⟩) ∨
    (∃ guard, e = .destroy guard ∧ s.guards[guard]? = some ⟨none, true⟩ ∧
      s' = ⟨s.pool, s.guards.set guard ⟨none, false⟩⟩) ∨
    (e = .shutdown ∧ s' = ⟨s.pool.shutdown, s.guards⟩) := by
  cases e with
  | acquire =>
      simp only [step, MysqlPool.acquire] at h
      split at h
      · rename_i conn hlast
        cases h
        exact .inl ⟨conn, s.pool.idle.dropLast, rfl,
          (List.dropLast_append_getLast? _ hlast).symm, rfl⟩
      · cases h
  | move guard =>
      simp only [step] at h
      split at h
      · rename_i conn hguard
        cases h
        exact .inr (.inl ⟨guard, conn, rfl, hguard, rfl⟩)
      · cases h
  | destroy guard =>
      simp only [step] at h
      split at h
      · rename_i conn hguard
        cases h
        exact .inr (.inr (.inl ⟨guard, conn, rfl, hguard, rfl⟩))
      · rename_i hguard
        cases h
        exact .inr (.inr (.inr (.inl ⟨guard, rfl, hguard, rfl⟩)))
      · cases h
  | shutdown =>
      cases h
      exact .inr (.inr (.inr (.inr ⟨rfl, rfl⟩)))

/-- A run cut in two. -/
theorem run_append (events rest : List PoolEvent) :
    s.run (events ++ rest) = (s.run events).bind fun s => s.run rest := by
  induction events generalizing s with
  | nil => rfl
  | cons e events ih =>
      simp only [List.cons_append, run]
      cases s.step e with
      | none => rfl
      | some s1 => exact ih

/-- A run with its last step. -/
theorem run_concat {events : List PoolEvent} {e : PoolEvent} {s1 : PoolState}
    (h : s.run events = some s1) : s.run (events ++ [e]) = s1.step e := by
  rw [run_append, h, Option.bind_some, run]
  cases s1.step e <;> rfl

/-! ## The ledger of the pool -/

/-- Every step but a shutdown keeps a ledger of the same connections. -/
theorem kept_of_step {e : PoolEvent} (h : s.step e = some s') (hopen : e ≠ .shutdown)
    {stock : List Nat} {ledger : Ledger Nat Nat} (hkept : Kept stock s.pool.idle s.held ledger) :
    s'.pool.conns = s.pool.conns ∧ ∃ ledger', Kept stock s'.pool.idle s'.held ledger' := by
  have hlt : ∀ {guard x}, s.guards[guard]? = some x → guard < s.guards.length :=
    fun hget => (List.getElem?_eq_some_iff.mp hget).1
  rcases step_cases h with ⟨conn, idle, -, hidle, rfl⟩ | ⟨guard, conn, -, hguard, rfl⟩ |
    ⟨guard, conn, -, hguard, rfl⟩ | ⟨guard, -, hguard, rfl⟩ | ⟨rfl, rfl⟩
  -- the new guard takes the connection on top of the stack
  · rw [hidle] at hkept
    exact ⟨rfl, _, hkept.lend (h := s.guards.length) held_length (held_append_length _)
      fun g hg => held_append_ne _ _ hg⟩
  -- the new guard takes what the old one has, and the old one keeps nothing
  · have hlength : (s.guards.set guard ⟨none, true⟩).length = s.guards.length :=
      List.length_set
    refine ⟨rfl, _, hkept.pass (h := guard) (g := s.guards.length) (Nat.ne_of_gt (hlt hguard))
      held_length ?_ ?_ ?_⟩
    · rw [held_append_ne _ s.pool (by rw [hlength]; exact Nat.ne_of_lt (hlt hguard)),
        held_set_self _ (hlt hguard)]
      rfl
    · rw [← hlength, held_append_length, held_eq_of_get hguard]
      rfl
    · intro g hg hnew
      rw [held_append_ne _ s.pool (by rw [hlength]; exact hnew),
        held_set_ne _ s.pool hg]
  -- the guard gives back what it has
  · exact ⟨rfl, _, hkept.giveBack (h := guard) (held_eq_of_get hguard)
      (held_set_self _ (hlt hguard)) fun g hg => held_set_ne _ _ hg⟩
  · refine ⟨rfl, _, hkept.congr fun g => ?_⟩
    by_cases hg : g = guard
    · subst hg
      rw [held_set_self _ (hlt hguard), held_eq_of_get hguard]
      rfl
    · exact held_set_ne _ _ hg
  · exact absurd rfl hopen

/-- Every run without a shutdown keeps a ledger of the same connections. -/
theorem kept_of_run {events : List PoolEvent} (h : s.run events = some s')
    (hopen : .shutdown ∉ events) {stock : List Nat} {ledger : Ledger Nat Nat}
    (hkept : Kept stock s.pool.idle s.held ledger) :
    s'.pool.conns = s.pool.conns ∧ ∃ ledger', Kept stock s'.pool.idle s'.held ledger' := by
  induction events generalizing s ledger with
  | nil =>
      cases h
      exact ⟨rfl, ledger, hkept⟩
  | cons e events ih =>
      simp only [run] at h
      split at h
      · rename_i s1 hstep
        simp only [List.mem_cons, not_or] at hopen
        obtain ⟨hconns, ledger1, hkept1⟩ := kept_of_step hstep (Ne.symm hopen.1) hkept
        obtain ⟨hconns', hkept'⟩ := ih h hopen.2 hkept1
        exact ⟨hconns'.trans hconns, hkept'⟩
      · cases h

end PoolState

/-! ## A pool that has just been initialised -/

namespace MysqlPool

/-- An iteration of the fill loop whose calls succeed registers its connection. -/
theorem fill_registered {calls : InitCalls} {i left : Nat} {pool : MysqlPool}
    (hconnect : calls.connect i pool.cfg = none)
    (htable : i = 0 → calls.createTable kCreateTableSql = none) :
    fill calls i (left + 1) pool = fill calls (i + 1) left pool.register := by
  have hstatement : (if i = 0 then calls.createTable kCreateTableSql else none) = none := by
    split
    · exact htable ‹_›
    · rfl
  simp only [fill, hconnect, hstatement]
  rfl

/-- Behind the first iteration, connecting is all there is to do. -/
theorem fill_succ_registered {calls : InitCalls} {i left : Nat} {pool : MysqlPool}
    (hconnect : calls.connect (i + 1) pool.cfg = none) :
    fill calls (i + 1) (left + 1) pool = fill calls (i + 2) left pool.register :=
  fill_registered hconnect fun h => absurd h (Nat.succ_ne_zero i)

/-- The fill loop that succeeds has constructed its connections, in order, in both containers. -/
theorem fill_true {calls : InitCalls} {i left : Nat} {pool pool' : MysqlPool}
    (h : fill calls i left pool = (true, pool')) :
    pool'.idle = pool.idle ++ List.range' pool.constructed left ∧
      pool'.conns = pool.conns ++ List.range' pool.constructed left := by
  induction left generalizing i pool with
  | zero =>
      cases h
      simp
  | succ left ih =>
      simp only [fill] at h
      split at h
      · cases h
      · split at h
        · cases h
        · obtain ⟨hidle, hconns⟩ := ih h
          rw [hidle, hconns]
          simp [List.range'_succ]

/-- An `init` that succeeds on a pool without connections leaves its own in both containers. -/
theorem range_of_init {cfg : MysqlConfig} {calls : InitCalls} {pool pool' : MysqlPool}
    (hidle : pool.idle = []) (hconns : pool.conns = [])
    (h : init cfg calls pool = (true, pool')) :
    pool'.idle = List.range' pool.constructed cfg.poolSize.toInt.toNat ∧
      pool'.conns = List.range' pool.constructed cfg.poolSize.toInt.toNat := by
  simp only [init] at h
  split at h
  · cases h
  · split at h
    · cases h
    · obtain ⟨hidle', hconns'⟩ := fill_true h
      rw [hidle', hconns', hidle, hconns]
      exact ⟨List.nil_append _, List.nil_append _⟩

/-- A first `init` that succeeds leaves the connections 0, 1, ... in both containers. -/
theorem init_true {cfg : MysqlConfig} {calls : InitCalls} {pool : MysqlPool}
    (h : init cfg calls fresh = (true, pool)) :
    pool.idle = List.range cfg.poolSize.toInt.toNat ∧
      pool.conns = List.range cfg.poolSize.toInt.toNat := by
  rw [List.range_eq_range']
  exact range_of_init rfl rfl h

/-- A pool that has just been initialised keeps a ledger with nothing lent. -/
theorem kept_of_init {cfg : MysqlConfig} {calls : InitCalls} {pool : MysqlPool}
    (h : init cfg calls fresh = (true, pool)) :
    pool.conns.Nodup ∧ Kept pool.conns pool.idle (PoolState.mk pool []).held fun _ => none := by
  obtain ⟨hidle, hconns⟩ := init_true h
  have hnodup : pool.conns.Nodup := hconns ▸ List.nodup_range
  refine ⟨hnodup, ?_⟩
  rw [hidle, ← hconns]
  exact Kept.start hnodup

end MysqlPool

/-! ## The pool of a `World` -/

/-- The idle connections of a server that has just started are those of its pool. -/
theorem initial_idle {cfg : MysqlConfig} {calls : InitCalls} {pool : MysqlPool}
    (hinit : MysqlPool.fresh.init cfg calls = (true, pool)) :
    (World.initial cfg.poolSize.toInt.toNat).idle = pool.idle :=
  (MysqlPool.init_true hinit).1.symm

/-- `acquire` takes from a `World` what it takes from its pool. -/
theorem exec_acquire_pool {mysql : NumericPrefix} {w w' : World} {pool : MysqlPool} {ch : Choice}
    {conn : Nat} (hidle : pool.idle = w.idle) (h : exec mysql .acquire ch w = some (conn, w')) :
    pool.acquire = some (conn, { pool with idle := w'.idle }) := by
  rw [MysqlPool.acquire, hidle, (exec_acquire h).1]
  simp

/-- `release` leaves in a `World` what it leaves in its pool. -/
theorem exec_release_pool {mysql : NumericPrefix} {w w' : World} {pool : MysqlPool} {ch : Choice}
    {conn : Nat} {r : Unit} (hidle : pool.idle = w.idle)
    (h : exec mysql (.release conn) ch w = some (r, w')) :
    (pool.release conn).idle = w'.idle := by
  rw [MysqlPool.release, hidle, exec_release h]

/-! ## Lending -/

/-- In every state that an initialised pool reaches without a shutdown, a connection is idle once
and in no guard's hand, or not idle and in the hand of exactly one guard; nothing else is idle or
held, and when all guards are destroyed the idle connections are a permutation of all. -/
theorem lent_exactly_once {cfg : MysqlConfig} {calls : InitCalls} {pool : MysqlPool}
    (hinit : MysqlPool.fresh.init cfg calls = (true, pool)) {events : List PoolEvent}
    (hopen : .shutdown ∉ events) {s : PoolState}
    (hrun : (PoolState.mk pool []).run events = some s) :
    s.pool.conns = pool.conns ∧
    (∀ conn ∈ s.pool.conns,
      (s.pool.idle.count conn = 1 ∧ ∀ guard, s.held guard ≠ some conn) ∨
        (conn ∉ s.pool.idle ∧ ∃! guard, s.held guard = some conn)) ∧
    (∀ conn, conn ∈ s.pool.idle ∨ (∃ guard, s.held guard = some conn) → conn ∈ s.pool.conns) ∧
    ((∀ guard ∈ s.guards, guard.live = false) → s.pool.idle.Perm s.pool.conns) := by
  obtain ⟨hnodup, hkept0⟩ := MysqlPool.kept_of_init hinit
  obtain ⟨hconns, ledger, hkept⟩ := PoolState.kept_of_run hrun hopen hkept0
  dsimp only at hconns
  rw [hconns]
  refine ⟨rfl, fun conn hconn => ?_, fun conn => hkept.mem_stock, fun hdestroyed => ?_⟩
  · rcases hkept.idle_or_held hconn with ⟨hidle, hnone⟩ | hheld
    · exact .inl ⟨List.count_eq_one_of_mem hkept.nodup hidle, hnone⟩
    · exact .inr hheld
  · refine hkept.perm_stock hnodup fun guard => ?_
    rw [PoolState.held]
    split
    · rename_i conn hget
      have := hdestroyed _ (List.mem_of_getElem? hget)
      cases this
    · rfl

/-- A configuration of two connections. -/
def twoConnections : MysqlConfig :=
  { MysqlPool.fresh.cfg with poolSize := 2 }

/-- Every call of `init` to MySQL succeeds. -/
def allSucceed : InitCalls where
  connectServer _ := none
  createDatabase _ := none
  connect _ _ := none
  createTable _ := none

/-- Two connections are lent, one guard is moved, and then all guards are destroyed. -/
theorem lent_exactly_once_two :
    ∃ pool s, MysqlPool.fresh.init twoConnections allSucceed = (true, pool) ∧
      (PoolState.mk pool []).run
        [.acquire, .acquire, .move 0, .destroy 1, .destroy 0, .destroy 2] = some s ∧
      s.pool.idle.Perm s.pool.conns :=
  ⟨_, _, rfl, rfl, (@lent_exactly_once twoConnections allSucceed _ rfl
    [.acquire, .acquire, .move 0, .destroy 1, .destroy 0, .destroy 2] (by decide) _ rfl).2.2.2
    (by decide)⟩

end HttpServerDemo
