import HttpServerDemo.GrpcServer.Startup
import HttpServerDemo.Library.Ownership

/-!
# Startup closes what it opens

Whatever the calls of `main` end with, every handle that it obtains is closed once, none is used
after it has been closed, and none that requests use is closed while they are served. While they
are served, exactly the connections of the pool and one Redis connection are open.

`safe_init` also says that `MysqlPool::init` over the C API does what the program of `PoolInit`
does over its connections.
-/

namespace HttpServerDemo.Startup

open Interleaving Ownership

variable {Needed : Nat → Process → Prop} {w w' : Process} {entries : List (Nat × Handle)}

/-! ## Handles -/

/-- No server is among the entries. -/
def NoServer (entries : List (Nat × Handle)) : Prop :=
  ∀ p ∈ entries, p.2 ≠ .server

theorem NoServer.mysql (h : NoServer entries) {a : Nat} {session : Option Session} :
    NoServer ((a, .mysql session) :: entries) :=
  List.forall_mem_cons.mpr ⟨Handle.noConfusion, h⟩

theorem NoServer.redis (h : NoServer entries) {ctx : Nat} {error : Option String} :
    NoServer ((ctx, .redis error) :: entries) :=
  List.forall_mem_cons.mpr ⟨Handle.noConfusion, h⟩

theorem stopped_of_inventory (h : Inventory w.handles entries) (hserver : NoServer entries) :
    w.Stopped := by
  intro a ha
  exact hserver _ ((h.eq_some_iff a _).mp ha) rfl

/-- What is given out is new. -/
theorem alloc_cases {address r : Option Nat} {handle : Handle}
    (h : w.alloc address handle = some (r, w')) :
    (r = none ∧ w' = w) ∨
      ∃ a, r = some a ∧ w.handles a = none ∧ w' = w.set a (some handle) := by
  unfold Process.alloc at h
  cases address with
  | none =>
      cases h
      exact .inl ⟨rfl, rfl⟩
  | some a =>
      cases hfree : w.handles a with
      | some handle' =>
          simp only [hfree] at h
          cases h
      | none =>
          simp only [hfree] at h
          cases h
          exact .inr ⟨a, rfl, hfree, rfl⟩

/-! ## `MysqlConn` -/

/-- What `connect` leaves. -/
structure Connected (cfg : MysqlConfig) (entries : List (Nat × Handle)) (w : Process)
    (r : Bool × MysqlConn) (w' : Process) : Prop where
  executed : w'.executed = w.executed
  outcome : (r.1 = true ∧ ∃ a, r.2.mysql = some a ∧
      Inventory w'.handles ((a, .mysql (some (MysqlConn.session cfg))) :: entries)) ∨
    (r.1 = false ∧ r.2.mysql = none ∧ Inventory w'.handles entries)

/-- A `connect` that fails closes what it has opened. -/
theorem safe_connect (cfg : MysqlConfig) (hinventory : Inventory w.handles entries)
    (hserver : NoServer entries) :
    Safe exec (Legal Needed) (MysqlConn.new.connect cfg) w (Connected cfg entries w) := by
  refine .op .mysqlInit fun outcome mysql w1 hexec => ?_
  rcases alloc_cases hexec with ⟨rfl, rfl⟩ | ⟨a, rfl, hfree, rfl⟩
  · exact .pure ⟨rfl, .inr ⟨rfl, rfl, hinventory⟩⟩
  · have hopened := hinventory.alloc hfree (.mysql none)
    refine .op (.mysqlRealConnect hopened.head) fun outcome connected w2 hexec => ?_
    obtain ⟨address, error⟩ := outcome
    cases error with
    | none =>
        cases hexec
        have hconnected := hopened.set (.mysql (some (MysqlConn.session cfg)))
        refine .op (.mysqlSetCharacterSet hconnected.head) fun outcome _ w3 hexec => ?_
        cases hexec
        exact .pure ⟨rfl, .inl ⟨rfl, a, rfl, hconnected⟩⟩
    | some error =>
        cases hexec
        refine .op (.mysqlError hopened.head) fun outcome err w3 hexec => ?_
        cases hexec
        refine .op (.mysqlClose hopened.head (stopped_of_inventory hopened hserver.mysql))
          fun outcome _ w4 hexec => ?_
        cases hexec
        exact .pure ⟨rfl, .inr ⟨rfl, rfl, hopened.free⟩⟩

/-- A statement on an open connection. -/
theorem safe_execute {conn : MysqlConn} {a : Nat} {session : Session} (sql : String)
    (hconn : conn.mysql = some a) (hhandle : w.handles a = some (.mysql (some session))) :
    Safe exec (Legal Needed) (conn.execute sql) w fun r w' =>
      r.2.mysql = some a ∧ w'.handles = w.handles ∧
      w'.executed = if r.1 then w.executed ++ [(session, sql)] else w.executed := by
  unfold MysqlConn.execute
  rw [hconn]
  refine .op (.mysqlQuery hhandle) fun outcome done w1 hexec => ?_
  obtain ⟨address, error⟩ := outcome
  simp only [exec, Option.bind_some, hhandle] at hexec
  cases error with
  | none =>
      cases hexec
      exact .pure ⟨hconn, rfl, rfl⟩
  | some error =>
      cases hexec
      refine .op (.mysqlError hhandle) fun outcome err w2 hexec => ?_
      cases hexec
      exact .pure ⟨rfl, rfl, rfl⟩

/-- The destructor closes an open connection. -/
theorem safe_destructor {conn : MysqlConn} {a : Nat} {session : Option Session}
    (hconn : conn.mysql = some a)
    (hinventory : Inventory w.handles ((a, .mysql session) :: entries))
    (hserver : NoServer entries) :
    Safe exec (Legal Needed) conn.destructor w fun _ w' =>
      Inventory w'.handles entries ∧ w'.executed = w.executed := by
  unfold MysqlConn.destructor MysqlConn.close
  rw [hconn]
  refine .op (.mysqlClose hinventory.head (stopped_of_inventory hinventory hserver.mysql))
    fun outcome _ w1 hexec => ?_
  cases hexec
  exact ⟨hinventory.free, rfl⟩

/-- The destructor does nothing to a closed one. -/
theorem safe_destructor_closed {conn : MysqlConn} {post : Unit → Process → Prop}
    (hconn : conn.mysql = none) (hpost : post () w) :
    Safe exec (Legal Needed) conn.destructor w post := by
  unfold MysqlConn.destructor MysqlConn.close
  rw [hconn]
  exact hpost

/-! ## `MysqlPool` -/

/-- The members that `HttpServerDemo.MysqlPool` has. -/
def MysqlPool.members (pool : MysqlPool) : HttpServerDemo.MysqlPool where
  cfg := pool.cfg
  conns := pool.conns.map Prod.fst
  idle := pool.idle
  err := pool.err
  constructed := pool.constructed

/-- Open connections at these addresses. -/
def connections (cfg : MysqlConfig) (addresses : List Nat) : List (Nat × Handle) :=
  addresses.map fun a => (a, .mysql (some (MysqlConn.session cfg)))

/-- The connections of the pool are at these addresses. -/
def Owns (conns : List (Nat × MysqlConn)) (addresses : List Nat) : Prop :=
  conns.map (fun p => p.2.mysql) = addresses.map some

/-- MySQL has executed the same statements on the same connections. -/
def Agrees (w : Process) (session : MysqlSession) : Prop :=
  w.executed = session.executed.map fun p => (MysqlConn.session p.1, p.2)

variable {cfg : MysqlConfig} {addresses : List Nat} {session : MysqlSession}

theorem noServer_connections : NoServer (connections cfg addresses) := by
  intro p hp
  obtain ⟨a, -, rfl⟩ := List.mem_map.mp hp
  exact Handle.noConfusion

/-- A new connection joins the pool. -/
theorem inventory_append {a : Nat}
    (h : Inventory w.handles
      ((a, .mysql (some (MysqlConn.session cfg))) :: connections cfg addresses)) :
    Inventory w.handles (connections cfg (addresses ++ [a])) := by
  unfold connections
  rw [List.map_append]
  exact h.perm (List.perm_append_singleton _ _).symm

theorem owns_append {conns : List (Nat × MysqlConn)} {conn : MysqlConn} {a i : Nat}
    (h : Owns conns addresses) (hconn : conn.mysql = some a) :
    Owns (conns ++ [(i, conn)]) (addresses ++ [a]) := by
  unfold Owns
  rw [List.map_append, List.map_append, h]
  exact congrArg (_ ++ [·]) hconn

/-- A statement is executed on both sides. -/
theorem agrees_append {sql : String} (h : Agrees w session)
    (hexecuted : w'.executed = w.executed ++ [(MysqlConn.session cfg, sql)]) :
    Agrees w' { session with executed := session.executed ++ [(cfg, sql)] } := by
  show w'.executed = _
  rw [hexecuted, h, List.map_append]
  rfl

/-- The pool holds what is open, and the result is one of the program over connections. -/
def Mirrors (program : Program InitOp InitOp.Res (Bool × HttpServerDemo.MysqlPool))
    (cfg : MysqlConfig) (session : MysqlSession) (r : Bool × MysqlPool) (w : Process) : Prop :=
  ∃ addresses outcomes session',
    Owns r.2.conns addresses ∧ Inventory w.handles (connections cfg addresses) ∧
    program.alone MysqlSession.exec outcomes session = some ((r.1, r.2.members), session') ∧
    Agrees w session'

/-- The program over connections begins with a call. -/
theorem Mirrors.op {o : InitOp}
    {k : o.Res → Program InitOp InitOp.Res (Bool × HttpServerDemo.MysqlPool)}
    (outcome : Option String) {answer : o.Res} {session' : MysqlSession} {r : Bool × MysqlPool}
    (hexec : MysqlSession.exec o outcome session = some (answer, session'))
    (h : Mirrors (k answer) cfg session' r w) : Mirrors (.op o k) cfg session r w := by
  obtain ⟨addresses, outcomes, session'', howns, hinventory, halone, hagrees⟩ := h
  exact ⟨addresses, outcome :: outcomes, session'', howns, hinventory,
    alone_op.mpr ⟨outcome, outcomes, answer, session', rfl, hexec, halone⟩, hagrees⟩

/-- The program over connections returns. -/
theorem Mirrors.pure {r : Bool × MysqlPool} (howns : Owns r.2.conns addresses)
    (hinventory : Inventory w.handles (connections cfg addresses)) (hagrees : Agrees w session) :
    Mirrors (.pure (r.1, r.2.members)) cfg session r w :=
  ⟨addresses, [], session, howns, hinventory, rfl, hagrees⟩

/-- A statement on an open connection. -/
theorem exec_statement {conn : ConnId} (h : session.connection conn = some cfg) (sql : String) :
    MysqlSession.exec (.execute conn sql) none session =
      some (none, { session with executed := session.executed ++ [(cfg, sql)] }) := by
  simp only [MysqlSession.exec, h, Option.map_some]

theorem exec_statement_failed {conn : ConnId} (h : session.connection conn = some cfg)
    (sql error : String) :
    MysqlSession.exec (.execute conn sql) (some error) session = some (some error, session) := by
  simp only [MysqlSession.exec, h, Option.map_some]

/-- A connection that is ready joins the pool. -/
def MysqlPool.register (pool : MysqlPool) (conn : MysqlConn) : MysqlPool :=
  { pool with
    constructed := pool.constructed + 1
    idle := pool.idle ++ [pool.constructed]
    conns := pool.conns ++ [(pool.constructed, conn)] }

theorem members_register (pool : MysqlPool) (conn : MysqlConn) :
    (pool.register conn).members = pool.members.register := by
  simp [MysqlPool.register, MysqlPool.members, HttpServerDemo.MysqlPool.register]

section
variable {pool : MysqlPool} (howns : Owns pool.conns addresses)
  (hinventory : Inventory w.handles (connections pool.cfg addresses)) (hagrees : Agrees w session)
include howns hinventory hagrees

/-- A connection of the fill loop cannot be opened. -/
theorem mirrors_connect_failed (i left : Nat) (error : String) :
    Mirrors (HttpServerDemo.MysqlPool.fillProgram pool.cfg i (left + 1) pool.members) pool.cfg
      session (false, { pool with
        constructed := pool.constructed + 1
        err := "连接池初始化失败: " ++ error }) w := by
  let closed := session.set (.pooled pool.constructed) none
  have hagrees1 : Agrees w (closed.set (.pooled pool.constructed) none) := hagrees
  have hclosed := Mirrors.pure (r := (false, { pool with
    constructed := pool.constructed + 1
    err := "连接池初始化失败: " ++ error })) howns hinventory hagrees1
  cases i with
  | zero =>
      rw [HttpServerDemo.MysqlPool.fill_program_zero]
      exact Mirrors.op (some error) rfl (Mirrors.op none rfl hclosed)
  | succ i =>
      rw [HttpServerDemo.MysqlPool.fill_program_succ]
      exact Mirrors.op (some error) rfl (Mirrors.op none rfl hclosed)

/-- The table cannot be created. -/
theorem mirrors_create_table_failed (left : Nat) (error : String) :
    Mirrors (HttpServerDemo.MysqlPool.fillProgram pool.cfg 0 (left + 1) pool.members) pool.cfg
      session (false, { pool with
        constructed := pool.constructed + 1
        err := "CREATE TABLE 失败: " ++ error }) w := by
  let opened := session.set (.pooled pool.constructed) (some pool.cfg)
  have hopened : opened.connection (.pooled pool.constructed) = some pool.cfg :=
    MysqlSession.connection_set_self
  have hagrees1 : Agrees w (opened.set (.pooled pool.constructed) none) := hagrees
  rw [HttpServerDemo.MysqlPool.fill_program_zero]
  refine Mirrors.op none rfl (Mirrors.op (some error)
    (exec_statement_failed hopened kCreateTableSql error) (Mirrors.op none rfl ?_))
  exact Mirrors.pure (r := (false, { pool with
    constructed := pool.constructed + 1
    err := "CREATE TABLE 失败: " ++ error })) howns hinventory hagrees1

end

/-- The fill loop. -/
theorem safe_fill {pool : MysqlPool} (hcfg : pool.cfg = cfg) (howns : Owns pool.conns addresses)
    (hinventory : Inventory w.handles (connections cfg addresses)) (hagrees : Agrees w session)
    (i left : Nat) : Safe exec (Legal Needed) (pool.fill i left) w
      (Mirrors (HttpServerDemo.MysqlPool.fillProgram cfg i left pool.members) cfg session) := by
  induction left generalizing i pool addresses session w with
  | zero => exact Mirrors.pure (r := (true, pool)) howns hinventory hagrees
  | succ left ih =>
      subst hcfg
      let opened := session.set (.pooled pool.constructed) (some pool.cfg)
      have hopened : opened.connection (.pooled pool.constructed) = some pool.cfg :=
        MysqlSession.connection_set_self
      -- a connection that is ready joins the pool, and the loop goes on
      have hnext : ∀ conn a w2 session2, conn.mysql = some a → Agrees w2 session2 →
          Inventory w2.handles ((a, .mysql (some (MysqlConn.session pool.cfg))) ::
            connections pool.cfg addresses) →
          Safe exec (Legal Needed) ((pool.register conn).fill (i + 1) left) w2
            (Mirrors (HttpServerDemo.MysqlPool.fillProgram pool.cfg (i + 1) left
              pool.members.register) pool.cfg session2) := by
        intro conn a w2 session2 hconn hagrees hinventory
        rw [← members_register pool conn]
        have howns' : Owns (pool.register conn).conns (addresses ++ [a]) := owns_append howns hconn
        have hcfg' : (pool.register conn).cfg = pool.cfg := rfl
        exact ih hcfg' howns' (inventory_append hinventory) hagrees (i + 1)
      refine .seq (safe_connect pool.cfg hinventory noServer_connections) fun r w1 h => ?_
      obtain ⟨connected, conn⟩ := r
      obtain ⟨hexecuted1, houtcome⟩ := h
      have hagrees1 : Agrees w1 opened := hexecuted1.trans hagrees
      rcases houtcome with ⟨hconnected, a, hconn, hinventory1⟩ | ⟨hconnected, hconn, hinventory1⟩
      · obtain rfl : connected = true := hconnected
        cases i with
        | succ i =>
            rw [HttpServerDemo.MysqlPool.fill_program_succ]
            exact (hnext conn a w1 opened hconn hagrees1 hinventory1).mono fun r w2 h =>
              Mirrors.op none rfl h
        | zero =>
            refine .seq (safe_execute kCreateTableSql hconn hinventory1.head) fun r w2 h => ?_
            obtain ⟨done, conn⟩ := r
            obtain ⟨hconn, hhandles, hexecuted⟩ := h
            have hinventory2 := hhandles ▸ hinventory1
            cases done with
            | true =>
                refine (hnext conn a w2 _ hconn (agrees_append hagrees1 hexecuted)
                  hinventory2).mono fun r w3 h => ?_
                rw [HttpServerDemo.MysqlPool.fill_program_zero]
                exact Mirrors.op none rfl
                  (Mirrors.op none (exec_statement hopened kCreateTableSql) h)
            | false =>
                refine .seq (safe_destructor hconn hinventory2 noServer_connections)
                  fun _ w3 h => ?_
                obtain ⟨hinventory3, hexecuted3⟩ := h
                have hagrees3 : Agrees w3 session :=
                  (hexecuted3.trans hexecuted).trans (hexecuted1.trans hagrees)
                exact .pure <| mirrors_create_table_failed howns hinventory3 hagrees3 left conn.err
      · obtain rfl : connected = false := hconnected
        exact .bind (safe_destructor_closed hconn
          (mirrors_connect_failed howns hinventory1 (hexecuted1.trans hagrees) i left conn.err))

/-- `init` of a fresh pool. -/
theorem safe_init (cfg : MysqlConfig) :
    Safe exec (Legal Needed) (MysqlPool.fresh.init cfg) .empty
      (Mirrors (HttpServerDemo.MysqlPool.initProgram cfg .fresh) cfg .empty) := by
  let noDb : MysqlConfig := { cfg with database := "" }
  let opened := MysqlSession.empty.set .tmp (some noDb)
  let pool : MysqlPool := { MysqlPool.fresh with cfg }
  have howns : Owns pool.conns [] := rfl
  have hempty : Inventory Process.empty.handles (connections cfg []) := .empty
  have hopened : opened.connection .tmp = some noDb := MysqlSession.connection_set_self
  refine .seq (safe_connect noDb hempty noServer_connections) fun r w1 h => ?_
  obtain ⟨connected, conn⟩ := r
  obtain ⟨hexecuted, houtcome⟩ := h
  have hagrees1 : Agrees w1 opened := hexecuted
  rcases houtcome with ⟨hconnected, a, hconn, hinventory1⟩ | ⟨hconnected, hconn, hinventory1⟩
  · obtain rfl : connected = true := hconnected
    refine .seq (safe_execute _ hconn hinventory1.head) fun r w2 h => ?_
    obtain ⟨done, conn⟩ := r
    obtain ⟨hconn, hhandles, hexecuted⟩ := h
    have hinventory2 := hhandles ▸ hinventory1
    refine .seq (safe_destructor hconn hinventory2 noServer_connections) fun _ w3 h => ?_
    obtain ⟨hinventory3, hexecuted3⟩ := h
    cases done with
    | true =>
        let created := { opened with executed := opened.executed ++ [(noDb,
          "CREATE DATABASE IF NOT EXISTS `" ++ cfg.database ++ "` DEFAULT CHARACTER SET utf8mb4")] }
        have hagrees3 : Agrees w3 (created.set .tmp none) :=
          agrees_append hagrees1 (hexecuted3.trans hexecuted)
        have hcfg : pool.cfg = cfg := rfl
        refine (safe_fill hcfg howns hinventory3 hagrees3 0 cfg.poolSize.toInt.toNat).mono
          fun r w4 h => ?_
        exact Mirrors.op none rfl (Mirrors.op none (exec_statement hopened _)
          (Mirrors.op none rfl h))
    | false =>
        have hagrees3 : Agrees w3 (opened.set .tmp none) :=
          (hexecuted3.trans hexecuted).trans hagrees1
        have hclosed := Mirrors.pure (r := (false, { pool with
          err := "CREATE DATABASE 失败: " ++ conn.err })) howns hinventory3 hagrees3
        exact Mirrors.op none rfl (Mirrors.op (some conn.err)
          (exec_statement_failed hopened _ conn.err) (Mirrors.op none rfl hclosed))
  · obtain rfl : connected = false := hconnected
    have hagrees2 : Agrees w1 ((MysqlSession.empty.set .tmp none).set .tmp none) := hexecuted
    have hclosed := Mirrors.pure (r := (false, { pool with
      err := "建库连接失败: " ++ conn.err })) howns hinventory1 hagrees2
    refine .bind (safe_destructor_closed hconn ?_)
    exact Mirrors.op (some conn.err) rfl (Mirrors.op none rfl hclosed)

/-- Connections are destroyed one after the other. -/
theorem safe_destroyEach {conns : List (Nat × MysqlConn)} (howns : Owns conns addresses)
    (hinventory : Inventory w.handles (connections cfg addresses)) :
    Safe exec (Legal Needed) (MysqlPool.destroyEach conns) w fun _ w' =>
      ∀ a, w'.handles a = none := by
  induction conns generalizing addresses w with
  | nil =>
      obtain rfl : addresses = [] := List.map_eq_nil_iff.mp howns.symm
      exact hinventory.eq_none_of_nil
  | cons p conns ih =>
      cases addresses with
      | nil => cases howns
      | cons a addresses =>
          obtain ⟨hconn, howns⟩ := List.cons.inj howns
          refine .seq (safe_destructor hconn hinventory noServer_connections) fun _ w1 h => ?_
          exact ih howns h.1

/-! ## `RedisClient` -/

/-- What `connect` leaves. -/
structure RedisConnected (entries : List (Nat × Handle)) (w : Process) (r : Bool × RedisClient)
    (w' : Process) : Prop where
  executed : w'.executed = w.executed
  outcome : (r.1 = true ∧ ∃ ctx, r.2.ctx = some ctx ∧
      Inventory w'.handles ((ctx, .redis none) :: entries)) ∨
    (r.1 = false ∧ r.2.ctx = none ∧ Inventory w'.handles entries)

/-- A `connect` that fails closes what it has opened. -/
theorem safe_redis_connect (host : String) (port : Int32) (hinventory : Inventory w.handles entries)
    (hserver : NoServer entries) :
    Safe exec (Legal Needed) (RedisClient.new.connect host port) w
      (RedisConnected entries w) := by
  refine .op .redisConnectWithTimeout fun outcome ctx w1 hexec => ?_
  obtain ⟨address, error⟩ := outcome
  rcases alloc_cases hexec with ⟨rfl, rfl⟩ | ⟨ctx, rfl, hfree, rfl⟩
  · exact .pure ⟨rfl, .inr ⟨rfl, rfl, hinventory⟩⟩
  · have hopened := hinventory.alloc hfree (.redis error)
    refine .op (.redisError hopened.head) fun outcome errstr w2 hexec => ?_
    have hhandle : (w.set ctx (some (.redis error))).handles ctx = some (.redis error) :=
      hopened.head
    simp only [exec, hhandle] at hexec
    cases hexec
    cases error with
    | none => exact .pure ⟨rfl, .inl ⟨rfl, ctx, rfl, hopened⟩⟩
    | some error =>
        refine .op (.redisFree hopened.head (stopped_of_inventory hopened hserver.redis))
          fun outcome _ w3 hexec => ?_
        cases hexec
        exact .pure ⟨rfl, .inr ⟨rfl, rfl, hopened.free⟩⟩

/-- The destructor closes an open connection. -/
theorem safe_redis_destructor {redis : RedisClient} {ctx : Nat} {error : Option String}
    (hredis : redis.ctx = some ctx)
    (hinventory : Inventory w.handles ((ctx, .redis error) :: entries))
    (hserver : NoServer entries) :
    Safe exec (Legal Needed) redis.destructor w fun _ w' => Inventory w'.handles entries := by
  unfold RedisClient.destructor RedisClient.close
  rw [hredis]
  refine .op (.redisFree hinventory.head (stopped_of_inventory hinventory hserver.redis))
    fun outcome _ w1 hexec => ?_
  cases hexec
  exact hinventory.free

/-- The destructor does nothing to a closed one. -/
theorem safe_redis_destructor_closed {redis : RedisClient} {post : Unit → Process → Prop}
    (hredis : redis.ctx = none) (hpost : post () w) :
    Safe exec (Legal Needed) redis.destructor w post := by
  unfold RedisClient.destructor RedisClient.close
  rw [hredis]
  exact hpost

/-! ## `main` -/

/-- The pool has been initialised, with these statements. -/
structure Initialised (cfg : MysqlConfig) (executed : List (Session × String)) : Prop where
  run : ∃ outcomes pool session,
    (HttpServerDemo.MysqlPool.initProgram cfg .fresh).alone MysqlSession.exec outcomes .empty =
      some ((true, pool), session) ∧
    executed = session.executed.map fun p => (MysqlConn.session p.1, p.2)
  table : 1 ≤ cfg.poolSize.toInt → (MysqlConn.session cfg, kCreateTableSql) ∈ executed

/-- What is there while requests are served: the connections of the pool, one connection to Redis,
the server, and nothing else. -/
structure Serving (cfg : GrpcServerConfig) (server : Nat) (w : Process) : Prop where
  initialised : Initialised (mysqlConfig cfg) w.executed
  opened : ∃ addresses ctx, addresses.length = cfg.mysqlPoolSize.toInt.toNat ∧
    Inventory w.handles
      ((server, .server) :: (ctx, .redis none) :: connections (mysqlConfig cfg) addresses)

/-- What `init` leaves when it succeeds. -/
theorem initialised_of_mirrors {pool : MysqlPool}
    (h : Mirrors (HttpServerDemo.MysqlPool.initProgram cfg .fresh) cfg .empty (true, pool) w) :
    Initialised cfg w.executed ∧ ∃ addresses, Owns pool.conns addresses ∧
      addresses.length = cfg.poolSize.toInt.toNat ∧
      Inventory w.handles (connections cfg addresses) := by
  obtain ⟨addresses, outcomes, session, howns, hinventory, halone, hagrees⟩ := h
  refine ⟨⟨⟨outcomes, _, session, halone, hagrees⟩, fun hsize => ?_⟩, addresses, howns, ?_,
    hinventory⟩
  · have husable := HttpServerDemo.MysqlPool.usable_of_init hsize halone
    rw [show w.executed = _ from hagrees]
    exact List.mem_map.mpr ⟨_, husable.table, rfl⟩
  · obtain ⟨calls, hinit⟩ := HttpServerDemo.MysqlPool.init_of_program halone
    have hconns : pool.conns.map Prod.fst = List.range cfg.poolSize.toInt.toNat :=
      (HttpServerDemo.MysqlPool.init_true hinit).2
    have haddresses := congrArg List.length howns
    have hlength := congrArg List.length hconns
    simp only [List.length_map, List.length_range] at haddresses hlength
    omega

/-- `main` keeps to the libraries. -/
theorem safe_main (env : Octets → Option Octets) (argv : List Octets) :
    Safe exec (Legal fun server w =>
        ∃ cfg, GrpcServerConfig.read env argv = some cfg ∧ Serving cfg server w)
      (main env argv) .empty fun _ w => ∀ a, w.handles a = none := by
  unfold main
  cases hread : GrpcServerConfig.read env argv with
  | none => exact fun _ => rfl
  | some cfg =>
      refine .seq (safe_init (mysqlConfig cfg)) fun r w1 h => ?_
      obtain ⟨ready, pool⟩ := r
      cases ready with
      | false =>
          obtain ⟨addresses, -, -, howns, hinventory, -, -⟩ := h
          exact .seq (safe_destroyEach howns hinventory) fun _ w2 h => h
      | true =>
          obtain ⟨hinitialised, addresses, howns, hsize, hinventory⟩ := initialised_of_mirrors h
          have hnoServer : NoServer (connections (mysqlConfig cfg) addresses) :=
            noServer_connections
          refine .seq (safe_redis_connect _ _ hinventory hnoServer) fun r w2 h => ?_
          obtain ⟨connected, redis⟩ := r
          obtain ⟨hexecuted, houtcome⟩ := h
          rcases houtcome with ⟨hconnected, ctx, hredis, hinventory2⟩ |
            ⟨hconnected, hredis, hinventory2⟩
          · obtain rfl : connected = true := hconnected
            refine .op .buildAndStart fun outcome server w3 hexec => ?_
            rcases alloc_cases hexec with ⟨rfl, rfl⟩ | ⟨server, rfl, hfree, rfl⟩
            · show Safe exec (Legal _) (redis.destructor >>= _) _ _
              refine .seq (safe_redis_destructor hredis hinventory2 hnoServer) fun _ w4 h => ?_
              exact .seq (safe_destroyEach howns h) fun _ w5 h => h
            · have hstarted := hinventory2.alloc hfree .server
              refine .op (.wait ⟨cfg, rfl, hexecuted ▸ hinitialised, addresses, ctx, hsize,
                hstarted⟩) fun outcome _ w4 hexec => ?_
              cases hexec
              refine .op (.destroyServer hstarted.head) fun outcome _ w5 hexec => ?_
              cases hexec
              show Safe exec (Legal _) (redis.destructor >>= _) _ _
              refine .seq (safe_redis_destructor hredis hstarted.free hnoServer) fun _ w6 h => ?_
              exact .seq (safe_destroyEach howns h) fun _ w7 h => h
          · obtain rfl : connected = false := hconnected
            refine .bind (safe_redis_destructor_closed hredis ?_)
            exact .seq (safe_destroyEach howns hinventory2) fun _ w4 h => h

/-- A call that may be made can end. -/
theorem exists_exec {o : Call} (h : Legal Needed w o) :
    ∃ outcome r w', exec o outcome w = some (r, w') := by
  cases h with
  | mysqlInit | redisConnectWithTimeout | buildAndStart => exact ⟨⟨none, none⟩, none, w, rfl⟩
  | mysqlRealConnect | mysqlSetCharacterSet | mysqlQuery => exact ⟨⟨none, some ""⟩, false, w, rfl⟩
  | mysqlError => exact ⟨⟨none, none⟩, "", w, rfl⟩
  | @redisError ctx error hhandle =>
      refine ⟨⟨none, none⟩, error, w, ?_⟩
      simp only [exec, hhandle]
  | mysqlClose | redisFree | destroyServer => exact ⟨⟨none, none⟩, (), w.set _ none, rfl⟩
  | wait => exact ⟨⟨none, none⟩, (), w, rfl⟩

/-- Whatever the calls of `main` end with, it makes each on a handle that is open, waits only while
what requests use is there, closes nothing of it before the server, and has closed everything when
it returns. -/
theorem startup_closes_what_it_opens (env : Octets → Option Octets) (argv : List Octets)
    {q : Prog (Option Nat)} {w : Process} (hreaches : Reaches exec (main env argv) .empty q w) :
    (∀ o k, q = .op o k →
      Legal (fun server w =>
          ∃ cfg, GrpcServerConfig.read env argv = some cfg ∧ Serving cfg server w) w o ∧
        ∃ outcome r w', exec o outcome w = some (r, w')) ∧
    ∀ code, q = .pure code → ∀ a, w.handles a = none := by
  have hsafe := (safe_main env argv).reaches hreaches
  constructor
  · rintro o k rfl
    exact ⟨hsafe.1, exists_exec hsafe.1⟩
  · rintro code rfl
    exact hsafe

/-- A pool of one connection. -/
theorem startup_closes_what_it_opens_serving :
    ∃ w : Process, w.executed.length = 2 ∧ ∃ cfg,
      GrpcServerConfig.read (fun _ => none) [[], .ascii "--mysql-pool-size=1"] = some cfg ∧
      Serving cfg 2 w := by
  have hread : GrpcServerConfig.read (fun _ => none) [[], .ascii "--mysql-pool-size=1"] =
      some ⟨9090, .ascii "127.0.0.1", 3306, .ascii "root", [], .ascii "http_server_demo", 1,
        .ascii "127.0.0.1", 6379⟩ := by
    decide +kernel
  have hrun : ∃ k w, Reaches exec (main (fun _ => none) [[], .ascii "--mysql-pool-size=1"]) .empty
      (.op (.wait 2) k) w ∧ w.executed.length = 2 := by
    unfold main
    rw [hread]
    refine ⟨?_, ?_, ?_, ?_⟩
    rotate_left 2
    -- the temporary connection
    · refine .step (rfl : exec _ ⟨some 0, none⟩ _ = some _) ?_
      refine .step (rfl : exec _ ⟨none, none⟩ _ = some _) ?_
      refine .step (rfl : exec _ ⟨none, none⟩ _ = some _) ?_
      refine .step (rfl : exec _ ⟨none, none⟩ _ = some _) ?_
      refine .step (rfl : exec _ ⟨none, none⟩ _ = some _) ?_
      -- the connection of the pool
      refine .step (rfl : exec _ ⟨some 0, none⟩ _ = some _) ?_
      refine .step (rfl : exec _ ⟨none, none⟩ _ = some _) ?_
      refine .step (rfl : exec _ ⟨none, none⟩ _ = some _) ?_
      refine .step (rfl : exec _ ⟨none, none⟩ _ = some _) ?_
      -- Redis and the server
      refine .step (rfl : exec _ ⟨some 1, none⟩ _ = some _) ?_
      refine .step (rfl : exec _ ⟨none, none⟩ _ = some _) ?_
      refine .step (rfl : exec _ ⟨some 2, none⟩ _ = some _) ?_
      exact .refl _ _
    · rfl
  obtain ⟨k, w, hreaches, hexecuted⟩ := hrun
  obtain ⟨hlegal, -⟩ := (startup_closes_what_it_opens _ _ hreaches).1 _ _ rfl
  cases hlegal with
  | wait hserving => exact ⟨w, hexecuted, hserving⟩

end HttpServerDemo.Startup
