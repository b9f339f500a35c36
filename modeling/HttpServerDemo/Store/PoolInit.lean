import HttpServerDemo.Library.Sequential
import HttpServerDemo.Store.MysqlPool

/-!
# Initialising the pool

`MysqlPool::init` once more, as a program of calls to its connections, so that it can be seen which
connections it leaves connected and which statements it has executed. `init_of_program` and
`program_of_init` say that it computes what `MysqlPool.init` does.

The table is created inside of the loop that fills the pool. So a pool size below one, which `main`
passes on unchecked, makes `init` return true with no table and no connection, and the first
`acquire` waits for good. `init_usable_iff` says that nothing else goes wrong.
-/

namespace HttpServerDemo

open Interleaving

/-- A connection that `init` works with: the temporary one, or one that it constructs for the
pool. -/
inductive ConnId where
  | tmp
  | pooled (conn : Nat)
  deriving DecidableEq

/-- The calls of `init` to its connections. -/
inductive InitOp where
  /-- `MysqlConn::connect` -/
  | connect (conn : ConnId) (cfg : MysqlConfig)
  /-- `MysqlConn::execute` -/
  | execute (conn : ConnId) (sql : String)
  /-- `MysqlConn::~MysqlConn` -/
  | destroy (conn : ConnId)

/-- What a call returns: `none` for success, or the text of the error. -/
abbrev InitOp.Res : InitOp → Type
  | .connect _ _ => Option String
  | .execute _ _ => Option String
  | .destroy _ => Unit

/-- The configuration that each connection is connected with, if it is, and the statements that
MySQL has executed, each with the configuration of its connection. -/
structure MysqlSession where
  connection : ConnId → Option MysqlConfig
  executed : List (MysqlConfig × String)

namespace MysqlSession

/-- Nothing is connected and nothing has been executed. -/
def empty : MysqlSession :=
  ⟨fun _ => none, []⟩

/-- Connect or disconnect. -/
def set (session : MysqlSession) (conn : ConnId) (cfg : Option MysqlConfig) : MysqlSession :=
  { session with connection := fun c => if c = conn then cfg else session.connection c }

/-- The effect of a call with this outcome. A failed `connect` closes its connection, and a
statement needs an open one. -/
def exec : (o : InitOp) → (outcome : Option String) → MysqlSession →
    Option (o.Res × MysqlSession)
  | .connect conn cfg, none, session => some (none, session.set conn (some cfg))
  | .connect conn _, some error, session => some (some error, session.set conn none)
  | .execute conn sql, none, session =>
      (session.connection conn).map fun cfg =>
        (none, { session with executed := session.executed ++ [(cfg, sql)] })
  | .execute conn _, some error, session =>
      (session.connection conn).map fun _ => (some error, session)
  | .destroy conn, none, session => some ((), session.set conn none)
  | .destroy _, some _, _ => none

variable {session : MysqlSession} {conn conn' : ConnId} {cfg : Option MysqlConfig}

@[simp] theorem connection_set_self : (session.set conn cfg).connection conn = cfg :=
  if_pos rfl

theorem connection_set_ne (h : conn' ≠ conn) :
    (session.set conn cfg).connection conn' = session.connection conn' :=
  if_neg h

end MysqlSession

namespace MysqlPool

/-- The fill loop of `init`. -/
def fillProgram (cfg : MysqlConfig) :
    (i left : Nat) → MysqlPool → Program InitOp InitOp.Res (Bool × MysqlPool)
  | _, 0, pool => pure (true, pool)
  | i, left + 1, pool => do
      let conn := pool.constructed
      let pool := { pool with constructed := conn + 1 }
      let error ← Program.call (InitOp.connect (.pooled conn) cfg)
      match error with
      | some error => do
          let _ ← Program.call (InitOp.destroy (.pooled conn))
          return (false, { pool with err := "连接池初始化失败: " ++ error })
      | none => do
          let error ←
            if i = 0 then Program.call (InitOp.execute (.pooled conn) kCreateTableSql)
            else pure none
          match error with
          | some error => do
              let _ ← Program.call (InitOp.destroy (.pooled conn))
              return (false, { pool with err := "CREATE TABLE 失败: " ++ error })
          | none =>
              fillProgram cfg (i + 1) left
                { pool with idle := pool.idle ++ [conn], conns := pool.conns ++ [conn] }

/-- `MysqlPool::init`. -/
def initProgram (cfg : MysqlConfig) (pool : MysqlPool) :
    Program InitOp InitOp.Res (Bool × MysqlPool) := do
  let pool := { pool with cfg }
  let error ← Program.call (InitOp.connect .tmp { cfg with database := "" })
  match error with
  | some error => do
      let _ ← Program.call (InitOp.destroy .tmp)
      return (false, { pool with err := "建库连接失败: " ++ error })
  | none => do
      let error ← Program.call (InitOp.execute .tmp
        ("CREATE DATABASE IF NOT EXISTS `" ++ cfg.database ++ "` DEFAULT CHARACTER SET utf8mb4"))
      let _ ← Program.call (InitOp.destroy .tmp)
      match error with
      | some error => return (false, { pool with err := "CREATE DATABASE 失败: " ++ error })
      | none => fillProgram cfg 0 cfg.poolSize.toInt.toNat pool

/-! ## The program and the function -/

variable {cfg : MysqlConfig} {pool pool' : MysqlPool} {session session' : MysqlSession}
  {outcomes : List (Option String)} {result : Bool × MysqlPool} {calls : InitCalls} {i left : Nat}

/-- The first iteration of the fill loop. -/
theorem fill_program_zero :
    fillProgram cfg 0 (left + 1) pool =
      .op (.connect (.pooled pool.constructed) cfg) fun error =>
        match error with
        | some error => .op (.destroy (.pooled pool.constructed)) fun _ =>
            .pure (false, { pool with
              constructed := pool.constructed + 1, err := "连接池初始化失败: " ++ error })
        | none => .op (.execute (.pooled pool.constructed) kCreateTableSql) fun error =>
            match error with
            | some error => .op (.destroy (.pooled pool.constructed)) fun _ =>
                .pure (false, { pool with
                  constructed := pool.constructed + 1, err := "CREATE TABLE 失败: " ++ error })
            | none => fillProgram cfg 1 left pool.register := by
  refine congrArg (Program.op _) (funext fun error => ?_)
  cases error with
  | some error => rfl
  | none =>
      refine congrArg (Program.op _) (funext fun error => ?_)
      cases error <;> rfl

/-- Every other iteration. -/
theorem fill_program_succ :
    fillProgram cfg (i + 1) (left + 1) pool =
      .op (.connect (.pooled pool.constructed) cfg) fun error =>
        match error with
        | some error => .op (.destroy (.pooled pool.constructed)) fun _ =>
            .pure (false, { pool with
              constructed := pool.constructed + 1, err := "连接池初始化失败: " ++ error })
        | none => fillProgram cfg (i + 2) left pool.register := by
  refine congrArg (Program.op _) (funext fun error => ?_)
  cases error <;> rfl

/-- What a call to connect returns. -/
theorem exec_connect {conn : ConnId} {outcome r : Option String}
    (h : MysqlSession.exec (.connect conn cfg) outcome session = some (r, session')) :
    r = outcome ∧ (r = none → session' = session.set conn (some cfg)) := by
  cases outcome <;> cases h <;> simp

/-- A statement that succeeds is executed. -/
theorem exec_execute_statement {conn : ConnId} {sql : String} {outcome r : Option String}
    (h : MysqlSession.exec (.execute conn sql) outcome session = some (r, session')) :
    r = outcome ∧ session'.connection = session.connection ∧ ∃ cfg,
      session.connection conn = some cfg ∧
        (r = none → session'.executed = session.executed ++ [(cfg, sql)]) := by
  cases outcome <;>
    obtain ⟨cfg, hcfg, hr⟩ := Option.map_eq_some_iff.mp h <;> cases hr <;>
    exact ⟨rfl, rfl, cfg, hcfg, by simp⟩

/-- What is returned after a connection has been destroyed. -/
theorem result_of_destroy {conn : ConnId} {a : Bool × MysqlPool}
    (h : (Program.op (InitOp.destroy conn) fun _ => .pure a).alone MysqlSession.exec outcomes
      session = some (result, session')) : a = result := by
  obtain ⟨_, _, _, _, -, -, h1⟩ := alone_op.mp h
  exact (alone_pure.mp h1).2.1

/-- Calls of the loop that end as in these outcomes, behind the first iteration. -/
def Follows (calls : InitCalls) (cfg : MysqlConfig) (i : Nat) (outcomes : List (Option String)) :
    Prop :=
  ∀ m, calls.connect (i + m) cfg = outcomes[m]?.join

/-- Behind its first iteration, the program of the loop computes the loop. -/
theorem fill_of_program_succ (hcfg : pool.cfg = cfg) (hcalls : Follows calls cfg (i + 1) outcomes)
    (h : (fillProgram cfg (i + 1) left pool).alone MysqlSession.exec outcomes session =
      some (result, session')) : fill calls (i + 1) left pool = result := by
  induction left generalizing i pool outcomes session with
  | zero =>
      obtain ⟨-, rfl, -⟩ := alone_pure.mp h
      rfl
  | succ left ih =>
      rw [fill_program_succ] at h
      obtain ⟨outcome, rest, r, session1, rfl, hconnect, h1⟩ := alone_op.mp h
      obtain ⟨rfl, -⟩ := exec_connect hconnect
      have hfirst : calls.connect (i + 1) pool.cfg = r := hcfg ▸ hcalls 0
      cases r with
      | some error =>
          obtain rfl := result_of_destroy h1
          simp only [fill, hfirst]
      | none =>
          rw [fill_succ_registered hfirst]
          refine ih hcfg (fun m => ?_) h1
          have hnext := hcalls (m + 1)
          rw [List.getElem?_cons_succ] at hnext
          rw [← hnext]
          congr 1
          omega

/-- The program of the loop computes the loop. -/
theorem fill_of_program (pool : MysqlPool) (hcfg : pool.cfg = cfg)
    (h : (fillProgram cfg 0 left pool).alone MysqlSession.exec outcomes session =
      some (result, session')) :
    ∃ connect createTable, ∀ server database,
      fill ⟨server, database, connect, createTable⟩ 0 left pool = result := by
  cases left with
  | zero =>
      obtain ⟨-, rfl, -⟩ := alone_pure.mp h
      exact ⟨fun _ _ => none, fun _ => none, fun _ _ => rfl⟩
  | succ left =>
      rw [fill_program_zero] at h
      obtain ⟨outcome, rest, r, session1, rfl, hconnect, h1⟩ := alone_op.mp h
      obtain ⟨rfl, -⟩ := exec_connect hconnect
      cases r with
      | some error =>
          obtain rfl := result_of_destroy h1
          exact ⟨fun _ _ => some error, fun _ => none, fun _ _ => rfl⟩
      | none =>
          obtain ⟨outcome, others, r, session2, rfl, hexecute, h2⟩ := alone_op.mp h1
          obtain ⟨rfl, -⟩ := exec_execute_statement hexecute
          cases r with
          | some error =>
              obtain rfl := result_of_destroy h2
              exact ⟨fun _ _ => none, fun _ => some error, fun _ _ => rfl⟩
          | none =>
              -- the first connection succeeds, and the others follow the outcomes that are left
              refine ⟨fun i _ => if i = 0 then none else others[i - 1]?.join, fun _ => none, ?_⟩
              intro server database
              refine fill_of_program_succ hcfg (fun m => ?_) h2
              simp only [Nat.zero_add, Nat.add_eq_zero_iff, Nat.one_ne_zero, false_and, if_false,
                Nat.add_sub_cancel_left]

/-- The program computes `init` for some outcomes of its calls. -/
theorem init_of_program
    (h : (initProgram cfg pool).alone MysqlSession.exec outcomes session =
      some (result, session')) : ∃ calls, init cfg calls pool = result := by
  obtain ⟨_, _, r, session1, -, -, h1⟩ := alone_op.mp h
  cases r with
  | some error =>
      obtain rfl := result_of_destroy h1
      exact ⟨⟨fun _ => some error, fun _ => none, fun _ _ => none, fun _ => none⟩, rfl⟩
  | none =>
      obtain ⟨_, _, r, session2, -, -, h2⟩ := alone_op.mp h1
      obtain ⟨_, _, _, session3, -, -, h3⟩ := alone_op.mp h2
      cases r with
      | some error =>
          obtain ⟨-, rfl, -⟩ := alone_pure.mp h3
          exact ⟨⟨fun _ => none, fun _ => some error, fun _ _ => none, fun _ => none⟩, rfl⟩
      | none =>
          obtain ⟨connect, createTable, hfill⟩ := fill_of_program { pool with cfg } rfl h3
          exact ⟨⟨fun _ => none, fun _ => none, connect, createTable⟩, hfill _ _⟩

/-- A statement on an open connection can end with anything. -/
theorem exec_execute_open {conn : ConnId} (h : session.connection conn = some cfg) (sql : String)
    (outcome : Option String) : ∃ session',
      MysqlSession.exec (.execute conn sql) outcome session = some (outcome, session') := by
  cases outcome <;> simp [MysqlSession.exec, h]

/-- The program of the loop can compute the loop, whatever the calls end with. -/
theorem program_of_fill (pool : MysqlPool) (hcfg : pool.cfg = cfg) (calls : InitCalls)
    (i left : Nat) (session : MysqlSession) : ∃ outcomes session',
      (fillProgram cfg i left pool).alone MysqlSession.exec outcomes session =
        some (fill calls i left pool, session') := by
  subst hcfg
  induction left generalizing i pool session with
  | zero => exact ⟨[], session, rfl⟩
  | succ left ih =>
      have hopen := @MysqlSession.connection_set_self session (.pooled pool.constructed)
        (some pool.cfg)
      cases hconnect : calls.connect i pool.cfg with
      | some error =>
          refine ⟨[some error, none], ?_⟩
          cases i <;> simp only [fill, hconnect] <;> exact ⟨_, rfl⟩
      | none =>
          cases i with
          | succ i =>
              obtain ⟨outcomes, session', hrest⟩ := ih pool.register (i + 2)
                (session.set (.pooled pool.constructed) (some pool.cfg))
              refine ⟨none :: outcomes, session', ?_⟩
              rw [fill_program_succ, fill_succ_registered hconnect]
              exact hrest
          | zero =>
              cases htable : calls.createTable kCreateTableSql with
              | some error =>
                  obtain ⟨session1, hexecute⟩ :=
                    exec_execute_open hopen kCreateTableSql (some error)
                  refine ⟨[none, some error, none],
                    session1.set (.pooled pool.constructed) none, ?_⟩
                  rw [fill_program_zero]
                  simp only [fill, hconnect, htable, if_true]
                  exact alone_op.mpr ⟨none, _, none, _, rfl, rfl,
                    alone_op.mpr ⟨_, [none], some error, _, rfl, hexecute, rfl⟩⟩
              | none =>
                  obtain ⟨session1, hexecute⟩ := exec_execute_open hopen kCreateTableSql none
                  obtain ⟨outcomes, session', hrest⟩ := ih pool.register 1 session1
                  refine ⟨none :: none :: outcomes, session', ?_⟩
                  rw [fill_program_zero, fill_registered hconnect fun _ => htable]
                  exact alone_op.mpr ⟨none, _, none, _, rfl, rfl,
                    alone_op.mpr ⟨none, _, none, _, rfl, hexecute, hrest⟩⟩

/-- The program can compute `init`, whatever the calls end with. -/
theorem program_of_init (cfg : MysqlConfig) (calls : InitCalls) (pool : MysqlPool)
    (session : MysqlSession) : ∃ outcomes session',
      (initProgram cfg pool).alone MysqlSession.exec outcomes session =
        some (init cfg calls pool, session') := by
  have hopen := @MysqlSession.connection_set_self session .tmp
    (some { cfg with database := "" })
  simp only [init]
  cases hserver : calls.connectServer { cfg with database := "" } with
  | some error => exact ⟨[some error, none], _, rfl⟩
  | none =>
      dsimp only
      generalize hsql : "CREATE DATABASE IF NOT EXISTS `" ++ cfg.database ++
        "` DEFAULT CHARACTER SET utf8mb4" = sql
      obtain ⟨session1, hexecute⟩ := exec_execute_open hopen sql (calls.createDatabase sql)
      obtain ⟨outcomes, session', hfill⟩ := program_of_fill { pool with cfg } rfl calls 0
        cfg.poolSize.toInt.toNat (session1.set .tmp none)
      cases hdatabase : calls.createDatabase sql with
      | some error =>
          rw [hdatabase] at hexecute
          refine ⟨[none, some error, none], session1.set .tmp none,
            alone_op.mpr ⟨none, _, none, _, rfl, rfl, ?_⟩⟩
          exact alone_op.mpr ⟨_, [none], some error, _, rfl, hsql ▸ hexecute, rfl⟩
      | none =>
          rw [hdatabase] at hexecute
          refine ⟨none :: none :: none :: outcomes, session',
            alone_op.mpr ⟨none, _, none, _, rfl, rfl, ?_⟩⟩
          refine alone_op.mpr ⟨none, _, none, _, rfl, hsql ▸ hexecute, ?_⟩
          exact alone_op.mpr ⟨none, _, (), _, rfl, rfl, hfill⟩

/-! ## What a successful `init` leaves -/

/-- An iteration of the loop with which the loop can still succeed. -/
theorem fill_program_true
    (h : (fillProgram cfg i (left + 1) pool).alone MysqlSession.exec outcomes session =
      some ((true, pool'), session')) :
    ∃ rest session1, session1.connection =
        (session.set (.pooled pool.constructed) (some cfg)).connection ∧
      session.executed <+: session1.executed ∧
      (i = 0 → (cfg, kCreateTableSql) ∈ session1.executed) ∧
      (fillProgram cfg (i + 1) left pool.register).alone MysqlSession.exec rest session1 =
          some ((true, pool'), session') := by
  cases i with
  | succ i =>
      rw [fill_program_succ] at h
      obtain ⟨_, rest, r, session1, rfl, hconnect, h1⟩ := alone_op.mp h
      obtain ⟨rfl, hset⟩ := exec_connect hconnect
      cases r with
      | some error =>
          cases result_of_destroy h1
      | none =>
          obtain rfl := hset rfl
          exact ⟨rest, _, rfl, List.prefix_rfl, nofun, h1⟩
  | zero =>
      rw [fill_program_zero] at h
      obtain ⟨_, rest, r, session1, rfl, hconnect, h1⟩ := alone_op.mp h
      obtain ⟨rfl, hset⟩ := exec_connect hconnect
      cases r with
      | some error =>
          cases result_of_destroy h1
      | none =>
          obtain rfl := hset rfl
          obtain ⟨_, others, r, session2, rfl, hexecute, h2⟩ := alone_op.mp h1
          obtain ⟨rfl, hconnection, cfg', hcfg', hexecuted⟩ := exec_execute_statement hexecute
          cases r with
          | some error =>
              cases result_of_destroy h2
          | none =>
              rw [MysqlSession.connection_set_self] at hcfg'
              cases hcfg'
              refine ⟨others, session2, hconnection, ?_, fun _ => ?_, h2⟩
              · rw [hexecuted rfl]
                exact List.prefix_append _ _
              · rw [hexecuted rfl]
                exact List.mem_append_right _ List.mem_cons_self

/-- The loop that succeeds has connected its connections, and has left the earlier ones and what
they executed as they were. -/
theorem connected_of_fill
    (h : (fillProgram cfg i left pool).alone MysqlSession.exec outcomes session =
      some ((true, pool'), session')) :
    (∀ conn < pool.constructed,
      session'.connection (.pooled conn) = session.connection (.pooled conn)) ∧
    (∀ conn, pool.constructed ≤ conn → conn < pool.constructed + left →
      session'.connection (.pooled conn) = some cfg) ∧
    session.executed <+: session'.executed := by
  induction left generalizing i pool outcomes session with
  | zero =>
      obtain ⟨-, -, rfl⟩ := alone_pure.mp h
      exact ⟨fun _ _ => rfl, fun conn hle hlt => absurd hlt (by omega), List.prefix_rfl⟩
  | succ left ih =>
      obtain ⟨rest, session1, hconnection, hprefix, -, h1⟩ := fill_program_true h
      obtain ⟨hbefore, hconnected, hprefix'⟩ := ih h1
      simp only [constructed_register] at hbefore hconnected
      refine ⟨fun conn hlt => ?_, fun conn hle hlt => ?_, hprefix.trans hprefix'⟩
      · rw [hbefore conn (by omega), hconnection]
        refine MysqlSession.connection_set_ne fun heq => ?_
        cases heq
        omega
      · by_cases hfirst : conn = pool.constructed
        · subst hfirst
          rw [hbefore _ (by omega), hconnection, MysqlSession.connection_set_self]
        · exact hconnected conn (by omega) (by omega)

/-- A pool of this configuration that can be used. -/
structure Usable (cfg : MysqlConfig) (pool : MysqlPool) (session : MysqlSession) : Prop where
  table : (cfg, kCreateTableSql) ∈ session.executed
  atLeastOne : 1 ≤ cfg.poolSize.toInt
  size : (pool.conns.length : Int) = cfg.poolSize.toInt
  distinct : pool.conns.Nodup
  connected : ∀ conn ∈ pool.conns, session.connection (.pooled conn) = some cfg
  idle : pool.idle.Perm pool.conns
  acquire : pool.acquire.isSome

/-- What the program leaves when the loop that ends it succeeds. -/
theorem fill_of_init
    (h : (initProgram cfg pool).alone MysqlSession.exec outcomes session =
      some ((true, pool'), session')) : ∃ rest session1,
      (fillProgram cfg 0 cfg.poolSize.toInt.toNat { pool with cfg }).alone MysqlSession.exec rest
        session1 = some ((true, pool'), session') := by
  obtain ⟨_, _, r, _, -, -, h1⟩ := alone_op.mp h
  cases r with
  | some error =>
      cases result_of_destroy h1
  | none =>
      obtain ⟨_, _, r, _, -, -, h2⟩ := alone_op.mp h1
      obtain ⟨_, rest, _, session3, -, -, h3⟩ := alone_op.mp h2
      cases r with
      | some error =>
          obtain ⟨-, hfalse, -⟩ := alone_pure.mp h3
          cases hfalse
      | none => exact ⟨rest, session3, h3⟩

/-- A first `init` that succeeds with at least one connection leaves a pool that can be used. -/
theorem usable_of_init (hsize : 1 ≤ cfg.poolSize.toInt)
    (h : (initProgram cfg fresh).alone MysqlSession.exec outcomes session =
      some ((true, pool), session')) : Usable cfg pool session' := by
  obtain ⟨calls, hinit⟩ := init_of_program h
  obtain ⟨hidle, hconns⟩ := init_true hinit
  obtain ⟨rest, session1, hfill⟩ := fill_of_init h
  obtain ⟨-, hconnected, -⟩ := connected_of_fill hfill
  obtain ⟨n, hn⟩ : ∃ n, cfg.poolSize.toInt.toNat = n + 1 :=
    ⟨cfg.poolSize.toInt.toNat - 1, by omega⟩
  have htable : (cfg, kCreateTableSql) ∈ session'.executed := by
    rw [hn] at hfill
    obtain ⟨_, _, -, -, hcreated, hrest⟩ := fill_program_true hfill
    exact (connected_of_fill hrest).2.2.subset (hcreated rfl)
  refine ⟨htable, hsize, ?_, ?_, ?_, ?_, ?_⟩
  · rw [hconns, List.length_range]
    omega
  · rw [hconns]
    exact List.nodup_range
  · intro conn hconn
    rw [hconns, List.mem_range] at hconn
    exact hconnected conn (Nat.zero_le _) (by simpa [fresh] using hconn)
  · rw [hidle, hconns]
  · rw [acquire, hidle, hn, List.range_succ, List.getLast?_append_cons]
    rfl

end MysqlPool

open MysqlPool

/-- Every `init` of a fresh pool that succeeds leaves a pool that can be used if and only if the
pool size is at least one. -/
theorem init_usable_iff (cfg : MysqlConfig) :
    (∀ outcomes pool session,
      (initProgram cfg fresh).alone MysqlSession.exec outcomes .empty =
        some ((true, pool), session) → Usable cfg pool session) ↔ 1 ≤ cfg.poolSize.toInt := by
  constructor
  · intro h
    by_contra hsize
    have hzero : cfg.poolSize.toInt.toNat = 0 := by omega
    obtain ⟨outcomes, session, hrun⟩ := program_of_init cfg allSucceed fresh .empty
    have hinit : init cfg allSucceed fresh = (true, { fresh with cfg }) := by
      simp only [init, allSucceed, hzero, fill]
    rw [hinit] at hrun
    exact hsize (h _ _ _ hrun).atLeastOne
  · intro hsize outcomes pool session hrun
    exact usable_of_init hsize hrun

/-- With `--mysql-pool-size=0`, `init` succeeds with no table and no connection, and `acquire`
waits. -/
theorem empty_pool_unusable :
    ∃ outcomes pool session,
      (initProgram { fresh.cfg with poolSize := 0 } fresh).alone MysqlSession.exec outcomes
        .empty = some ((true, pool), session) ∧
      (∀ cfg, (cfg, kCreateTableSql) ∉ session.executed) ∧ pool.conns = [] ∧ pool.idle = [] ∧
      pool.acquire = none := by
  refine ⟨[none, none, none], _, _, rfl, fun cfg hmem => ?_, rfl, rfl, rfl⟩
  cases hmem with
  | tail _ hmem => cases hmem

end HttpServerDemo
