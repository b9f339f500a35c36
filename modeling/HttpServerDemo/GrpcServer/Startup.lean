import HttpServerDemo.Common.Config
import HttpServerDemo.Library.Safety
import HttpServerDemo.Store.PoolInit

/-!
# Starting the gRPC server

`grpc_server/main.cpp` from its arguments to its exit code, over the client libraries: the life of
a `MysqlConn`, of the pool and of the `RedisClient`, with every handle that they obtain and close.
The destructors of the local variables run at every `return`. A byte string is written as the
string of the characters with the numbers of its bytes.
-/

namespace HttpServerDemo.Startup

open Interleaving

/-- What a MySQL connection is opened with. -/
structure Session where
  host : String
  user : String
  password : String
  database : Option String
  port : Int32

/-- An object that a client library or gRPC has given out. -/
inductive Handle where
  /-- A `MYSQL`, connected or not -/
  | mysql (session : Option Session)
  /-- A `redisContext` with its error -/
  | redis (error : Option String)
  /-- A `grpc::Server` that serves requests -/
  | server

/-- The calls of `main` and of what it calls. A pointer that is not checked may be null. -/
inductive Call where
  /-- `mysql_init(nullptr)` -/
  | mysqlInit
  /-- `mysql_real_connect` -/
  | mysqlRealConnect (mysql : Nat) (session : Session)
  /-- `mysql_error` -/
  | mysqlError (mysql : Option Nat)
  /-- `mysql_set_character_set` -/
  | mysqlSetCharacterSet (mysql : Nat) (charset : String)
  /-- `mysql_query` -/
  | mysqlQuery (mysql : Option Nat) (sql : String)
  /-- `mysql_close` -/
  | mysqlClose (mysql : Nat)
  /-- `redisConnectWithTimeout` -/
  | redisConnectWithTimeout (host : String) (port : Int32) (timeoutSec : Nat)
  /-- `ctx->err` and `ctx->errstr` -/
  | redisError (ctx : Nat)
  /-- `redisFree` -/
  | redisFree (ctx : Nat)
  /-- `ServerBuilder::BuildAndStart` -/
  | buildAndStart (port : Int32)
  /-- `Server::Wait` -/
  | wait (server : Nat)
  /-- `Server::~Server` -/
  | destroyServer (server : Nat)

/-- What a call returns: an address, `none` for a null pointer; for `mysqlRealConnect`,
`mysqlSetCharacterSet` and `mysqlQuery` whether it succeeded. -/
abbrev Call.Res : Call → Type
  | .mysqlInit => Option Nat
  | .mysqlRealConnect _ _ => Bool
  | .mysqlError _ => String
  | .mysqlSetCharacterSet _ _ => Bool
  | .mysqlQuery _ _ => Bool
  | .mysqlClose _ => Unit
  | .redisConnectWithTimeout _ _ _ => Option Nat
  | .redisError _ => Option String
  | .redisFree _ => Unit
  | .buildAndStart _ => Option Nat
  | .wait _ => Unit
  | .destroyServer _ => Unit

/-- A program of calls. -/
abbrev Prog (α : Type) : Type := Program Call Call.Res α

/-- The handles that have been given out and not closed, and what MySQL has executed. -/
structure Process where
  handles : Nat → Option Handle
  executed : List (Session × String)

namespace Process

/-- The process has just been started. -/
def empty : Process :=
  ⟨fun _ => none, []⟩

/-- Give out, change or close a handle. -/
def set (w : Process) (a : Nat) (handle : Option Handle) : Process :=
  { w with handles := Function.update w.handles a handle }

/-- Give out a new handle. -/
def alloc (w : Process) (address : Option Nat) (handle : Handle) :
    Option (Option Nat × Process) :=
  match address with
  | none => some (none, w)
  | some a =>
      match w.handles a with
      | some _ => none
      | none => some (some a, w.set a (some handle))

end Process

/-- What becomes of a call: the address of what it gives out, if anything, and its error, if any. -/
structure Outcome where
  address : Option Nat
  error : Option String

/-- The effect of a call. -/
def exec : (o : Call) → Outcome → Process → Option (o.Res × Process)
  | .mysqlInit, outcome, w => w.alloc outcome.address (.mysql none)
  | .mysqlRealConnect a session, outcome, w =>
      match outcome.error with
      | none => some (true, w.set a (some (.mysql (some session))))
      | some _ => some (false, w)
  | .mysqlError _, outcome, w => some (outcome.error.getD "", w)
  | .mysqlSetCharacterSet _ _, outcome, w => some (outcome.error.isNone, w)
  | .mysqlQuery mysql sql, outcome, w =>
      match outcome.error, mysql.bind w.handles with
      | none, some (.mysql (some session)) =>
          some (true, { w with executed := w.executed ++ [(session, sql)] })
      | none, _ => none
      | some _, _ => some (false, w)
  | .mysqlClose a, _, w => some ((), w.set a none)
  | .redisConnectWithTimeout _ _ _, outcome, w => w.alloc outcome.address (.redis outcome.error)
  | .redisError a, _, w =>
      match w.handles a with
      | some (.redis error) => some (error, w)
      | _ => none
  | .redisFree a, _, w => some ((), w.set a none)
  | .buildAndStart _, outcome, w => w.alloc outcome.address .server
  | .wait _, _, w => some ((), w)
  | .destroyServer a, _, w => some ((), w.set a none)

/-- No request is being served. -/
def Process.Stopped (w : Process) : Prop :=
  ∀ a, w.handles a ≠ some .server

/-- The call is made on a handle that has been given out and not closed, in the state that it
needs, and what requests use is not closed while they are served. `Serving` is what they need. -/
inductive Legal (Serving : Nat → Process → Prop) (w : Process) : Call → Prop where
  | mysqlInit : Legal Serving w .mysqlInit
  | mysqlRealConnect {a session} (hhandle : w.handles a = some (.mysql none)) :
      Legal Serving w (.mysqlRealConnect a session)
  | mysqlError {a session} (hhandle : w.handles a = some (.mysql session)) :
      Legal Serving w (.mysqlError (some a))
  | mysqlSetCharacterSet {a session charset}
      (hhandle : w.handles a = some (.mysql (some session))) :
      Legal Serving w (.mysqlSetCharacterSet a charset)
  | mysqlQuery {a session sql} (hhandle : w.handles a = some (.mysql (some session))) :
      Legal Serving w (.mysqlQuery (some a) sql)
  | mysqlClose {a session} (hhandle : w.handles a = some (.mysql session)) (hstopped : w.Stopped) :
      Legal Serving w (.mysqlClose a)
  | redisConnectWithTimeout {host port timeoutSec} :
      Legal Serving w (.redisConnectWithTimeout host port timeoutSec)
  | redisError {ctx error} (hhandle : w.handles ctx = some (.redis error)) :
      Legal Serving w (.redisError ctx)
  | redisFree {ctx error} (hhandle : w.handles ctx = some (.redis error))
      (hstopped : w.Stopped) : Legal Serving w (.redisFree ctx)
  | buildAndStart {port} : Legal Serving w (.buildAndStart port)
  | wait {server} (hserving : Serving server w) : Legal Serving w (.wait server)
  | destroyServer {server} (hhandle : w.handles server = some .server) :
      Legal Serving w (.destroyServer server)

/-! ## `MysqlConn` -/

/-- The members of `MysqlConn`. -/
structure MysqlConn where
  mysql : Option Nat
  err : String

namespace MysqlConn

/-- `MysqlConn()`. -/
def new : MysqlConn :=
  ⟨none, ""⟩

/-- `MysqlConn::close`. -/
def close (conn : MysqlConn) : Prog MysqlConn :=
  match conn.mysql with
  | some a => do
      let _ ← Program.call (Call.mysqlClose a)
      return { conn with mysql := none }
  | none => return conn

/-- `MysqlConn::~MysqlConn`. -/
def destructor (conn : MysqlConn) : Prog Unit := do
  let _ ← conn.close

/-- What `MysqlConn::connect` opens a connection with: no database where its name is empty. -/
def session (cfg : MysqlConfig) : Session where
  host := cfg.host
  user := cfg.user
  password := cfg.password
  database := if cfg.database.isEmpty then none else some cfg.database
  port := cfg.port

/-- `MysqlConn::connect`. -/
def connect (conn : MysqlConn) (cfg : MysqlConfig) : Prog (Bool × MysqlConn) := do
  let conn ← conn.close
  let mysql ← Program.call Call.mysqlInit
  match mysql with
  | none => return (false, { mysql := none, err := "mysql_init failed" })
  | some a => do
      let connected ← Program.call (Call.mysqlRealConnect a (session cfg))
      if connected then do
        let _ ← Program.call (Call.mysqlSetCharacterSet a "utf8mb4")
        return (true, { mysql := some a, err := "" })
      else do
        let err ← Program.call (Call.mysqlError (some a))
        let conn ← close { conn with mysql := some a, err }
        return (false, conn)

/-- `MysqlConn::execute`. -/
def execute (conn : MysqlConn) (sql : String) : Prog (Bool × MysqlConn) := do
  let done ← Program.call (Call.mysqlQuery conn.mysql sql)
  if done then return (true, conn)
  else do
    let err ← Program.call (Call.mysqlError conn.mysql)
    return (false, { conn with err })

end MysqlConn

/-! ## `MysqlPool` -/

/-- The members of `MysqlPool`, with the connections that it owns, each with its number. -/
structure MysqlPool where
  cfg : MysqlConfig
  conns : List (Nat × MysqlConn)
  idle : List Nat
  err : String
  constructed : Nat

namespace MysqlPool

/-- `MysqlPool()`. -/
def fresh : MysqlPool :=
  ⟨HttpServerDemo.MysqlPool.fresh.cfg, [], [], "", 0⟩

/-- The fill loop of `init`. -/
def fill : (i left : Nat) → MysqlPool → Prog (Bool × MysqlPool)
  | _, 0, pool => return (true, pool)
  | i, left + 1, pool => do
      let id := pool.constructed
      let pool := { pool with constructed := id + 1 }
      let (connected, conn) ← MysqlConn.new.connect pool.cfg
      if connected then do
        let (done, conn) ← if i = 0 then conn.execute kCreateTableSql else pure (true, conn)
        if done then
          fill (i + 1) left
            { pool with idle := pool.idle ++ [id], conns := pool.conns ++ [(id, conn)] }
        else do
          conn.destructor
          return (false, { pool with err := "CREATE TABLE 失败: " ++ conn.err })
      else do
        conn.destructor
        return (false, { pool with err := "连接池初始化失败: " ++ conn.err })

/-- `MysqlPool::init`. -/
def init (pool : MysqlPool) (cfg : MysqlConfig) : Prog (Bool × MysqlPool) := do
  let pool := { pool with cfg }
  let (connected, tmp) ← MysqlConn.new.connect { cfg with database := "" }
  if connected then do
    let (done, tmp) ← tmp.execute
      ("CREATE DATABASE IF NOT EXISTS `" ++ cfg.database ++ "` DEFAULT CHARACTER SET utf8mb4")
    tmp.destructor
    if done then fill 0 cfg.poolSize.toInt.toNat pool
    else return (false, { pool with err := "CREATE DATABASE 失败: " ++ tmp.err })
  else do
    tmp.destructor
    return (false, { pool with err := "建库连接失败: " ++ tmp.err })

/-- Destroy connections in order. -/
def destroyEach : List (Nat × MysqlConn) → Prog Unit
  | [] => pure ()
  | (_, conn) :: conns => do
      conn.destructor
      destroyEach conns

/-- `MysqlPool::~MysqlPool`, which calls `shutdown`. -/
def destructor (pool : MysqlPool) : Prog Unit :=
  destroyEach pool.conns

end MysqlPool

/-! ## `RedisClient` -/

/-- The members of `RedisClient`. -/
structure RedisClient where
  ctx : Option Nat
  err : String

namespace RedisClient

/-- `RedisClient()`. -/
def new : RedisClient :=
  ⟨none, ""⟩

/-- `RedisClient::close`. -/
def close (client : RedisClient) : Prog RedisClient :=
  match client.ctx with
  | some ctx => do
      let _ ← Program.call (Call.redisFree ctx)
      return { client with ctx := none }
  | none => return client

/-- `RedisClient::~RedisClient`. -/
def destructor (client : RedisClient) : Prog Unit := do
  let _ ← client.close

/-- `RedisClient::connect`, with its default timeout. -/
def connect (client : RedisClient) (host : String) (port : Int32) : Prog (Bool × RedisClient) := do
  let client ← client.close
  let ctx ← Program.call (Call.redisConnectWithTimeout host port 2)
  match ctx with
  | none => do
      let client ← close
        { client with ctx := none, err := "redisConnectWithTimeout returned null" }
      return (false, client)
  | some ctx => do
      let error ← Program.call (Call.redisError ctx)
      match error with
      | some errstr => do
          let client ← close { client with ctx := some ctx, err := errstr }
          return (false, client)
      | none => return (true, { ctx := some ctx, err := "" })

end RedisClient

/-! ## `main` -/

/-- A byte string as a string. -/
def text (s : Octets) : String :=
  String.ofList (s.map fun b => Char.ofNat b.toNat)

/-- The `MysqlConfig` that `main` fills. -/
def mysqlConfig (cfg : GrpcServerConfig) : MysqlConfig where
  host := text cfg.mysqlHost
  port := cfg.mysqlPort
  user := text cfg.mysqlUser
  password := text cfg.mysqlPassword
  database := text cfg.mysqlDatabase
  poolSize := cfg.mysqlPoolSize

/-- `main`: its exit code, and `none` where an exception ends the process. -/
def main (env : Octets → Option Octets) (argv : List Octets) : Prog (Option Nat) := do
  match GrpcServerConfig.read env argv with
  | none => return none
  | some cfg => do
      let (ready, pool) ← MysqlPool.fresh.init (mysqlConfig cfg)
      if ready then do
        let (connected, redis) ← RedisClient.new.connect (text cfg.redisHost) cfg.redisPort
        if connected then do
          let server ← Program.call (Call.buildAndStart cfg.port)
          match server with
          | none => do
              redis.destructor
              pool.destructor
              return some 1
          | some server => do
              let _ ← Program.call (Call.wait server)
              let _ ← Program.call (Call.destroyServer server)
              redis.destructor
              pool.destructor
              return some 0
        else do
          redis.destructor
          pool.destructor
          return some 1
      else do
        pool.destructor
        return some 1

end HttpServerDemo.Startup
