import HttpServerDemo.GrpcServer.UserService
import HttpServerDemo.Native.ClientLibraries

/-!
# The repository over the client libraries

The functions of `store/mysql_pool.cpp`, `store/redis_client.cpp`, `store/user_repository.cpp` and
`grpc_server/user_service.cpp` once more, with every call into a client library and every object
that has to be freed. A class that frees in its destructor is a block with the call at its end:
however the block is left, the destructors run in the reverse order of the constructors.
-/

namespace HttpServerDemo.Native

open Interleaving

/-- The life of a local object: what is done with it, and its destructor. -/
def scope {ι α : Type} (obj : ι) (destructor : ι → Prog Unit) (block : ι → Prog α) : Prog α := do
  let a ← block obj
  destructor obj
  return a

/-- `RedisReply::~RedisReply`. -/
def RedisReply.destructor : Option Nat → Prog Unit
  | some reply => Program.call (Call.freeReplyObject reply)
  | none => pure ()

/-- What the methods of a `RedisReply` read of the reply, if there is one. -/
def RedisReply.get : Option Nat → Prog (Option Keyspace.Reply)
  | some reply => do
      let r ← Program.call (Call.fields reply)
      return some r
  | none => return none

/-- `MysqlResult::~MysqlResult`. -/
def MysqlResult.destructor : Option Nat → Prog Unit
  | some res => Program.call (Call.mysqlFreeResult res)
  | none => pure ()

/-- `MysqlPool::Guard::~Guard`. -/
def Guard.destructor (conn : Nat) : Prog Unit :=
  Program.call (Call.release conn)

namespace RedisClient

/-- A method of `RedisClient`: send a command, hold the reply in a `RedisReply`, and look at it. -/
def withReply {α : Type} (cmd : Keyspace.Command) (look : Option Keyspace.Reply → α) :
    Prog α := do
  let reply ← Program.call (Call.redisvCommand cmd)
  scope reply RedisReply.destructor fun reply => do
    let r ← RedisReply.get reply
    return look r

/-- `RedisClient::set`. -/
def set (key value : Octets) (ttlSec : Int) : Prog Bool :=
  withReply (.set (Octets.cStr key) (Octets.cStr value)
    (if 0 < ttlSec then some ttlSec.toNat else none)) HttpServerDemo.RedisClient.ok

/-- `RedisClient::get`. -/
def get (key : Octets) : Prog (Option Octets) :=
  withReply (.get (Octets.cStr key)) HttpServerDemo.RedisClient.stringReply

/-- `RedisClient::del`. -/
def del (key : Octets) : Prog Bool :=
  withReply (.del (Octets.cStr key)) HttpServerDemo.RedisClient.ok

/-- The integer in a reply to `INCR`. -/
def integerReply : Option Keyspace.Reply → Option Int64
  | some (.integer n) => some n
  | _ => none

/-- `RedisClient::incr`. -/
def incr (key : Octets) : Prog (Option Int64) :=
  withReply (.incr (Octets.cStr key)) integerReply

/-- `RedisClient::sadd`. -/
def sadd (key member : Octets) : Prog Bool :=
  withReply (.sadd (Octets.cStr key) (Octets.cStr member)) HttpServerDemo.RedisClient.ok

/-- `RedisClient::smembers`. -/
def smembers (key : Octets) : Prog (Option (List Octets)) :=
  withReply (.smembers (Octets.cStr key)) HttpServerDemo.RedisClient.arrayReply

end RedisClient

namespace MysqlConn

/-- `MysqlConn::escape`: a buffer of twice the length and one, and what it holds as a C string. -/
def escape (conn : Nat) (s : Octets) : Prog Octets := do
  let written ← Program.call (Call.mysqlRealEscapeString conn s (s.length * 2 + 1))
  return Octets.cStr written

/-- `MysqlConn::execute`. -/
def execute (conn : Nat) (sql : Octets) : Prog Bool := do
  let done ← Program.call (Call.mysqlQuery conn (Octets.cStr sql))
  if done then return true
  else do
    let _ ← Program.call (Call.mysqlError conn)
    return false

/-- `MysqlConn::query`. -/
def query (conn : Nat) (sql : Octets) : Prog (Option Nat) := do
  let done ← Program.call (Call.mysqlQuery conn (Octets.cStr sql))
  if done then do
    let res ← Program.call (Call.mysqlStoreResult conn)
    match res with
    | some res => return some res
    | none => do
        let fields ← Program.call (Call.mysqlFieldCount conn)
        if 0 < fields then do
          let _ ← Program.call (Call.mysqlError conn)
          return none
        else return none
  else do
    let _ ← Program.call (Call.mysqlError conn)
    return none

/-- `MysqlConn::lastInsertId`. -/
def lastInsertId (conn : Nat) : Prog Nat :=
  Program.call (Call.mysqlInsertId conn)

end MysqlConn

/-- `MysqlPool::acquire`, and the life of the guard that it returns. -/
def withGuard {α : Type} (block : Nat → Prog α) : Prog α := do
  let conn ← Program.call Call.acquire
  scope conn Guard.destructor block

/-- `MysqlResult res(conn->query(sql))`, and the life of `res`. -/
def withResult {α : Type} (conn : Nat) (sql : Octets) (block : Option Nat → Prog α) : Prog α := do
  let res ← MysqlConn.query conn sql
  scope res MysqlResult.destructor block

/-- The statement of `CreateUser`, from the escaped name and email. -/
def insertUserSql (name email : Octets) (now : Int64) : Octets :=
  Octets.ascii "INSERT INTO users(name, email, created_at) VALUES('" ++ name ++
    Octets.ascii "','" ++ email ++ Octets.ascii "'," ++ Decimal.ofInt now.toInt ++
    Octets.ascii ")"

/-- The statement of `GetUser`, from the escaped id. -/
def userByIdSql (id : Octets) : Octets :=
  Octets.ascii "SELECT id, name, email, created_at FROM users WHERE id='" ++ id ++
    Octets.ascii "'"

/-- `SELECT COUNT(*) FROM users` -/
def countUsersSql : Octets :=
  Octets.ascii "SELECT COUNT(*) FROM users"

/-- The statement of `ListUsers`. -/
def usersPageSql (limit offset : Int32) : Octets :=
  Octets.ascii "SELECT id, name, email, created_at FROM users ORDER BY id LIMIT " ++
    Decimal.ofInt limit.toInt ++ Octets.ascii " OFFSET " ++ Decimal.ofInt offset.toInt

/-- `CountRequest`. -/
def countRequest : Prog Unit := do
  let _ ← RedisClient.incr requestCountKey

/-- The loop of `InvalidateListCache`. -/
def delEach : List Octets → Prog Unit
  | [] => pure ()
  | k :: keys => do
      let _ ← RedisClient.del k
      delEach keys

/-- `InvalidateListCache`. -/
def invalidateListCache : Prog Unit := do
  let keys ← RedisClient.smembers kListCacheIndex
  delEach (keys.getD [])
  let _ ← RedisClient.del kListCacheIndex

/-- `CreateUser`. -/
def createUser (json : JsonLibrary) (name email : Text) (out : User) : Prog (Bool × User) := do
  let now ← Program.call Call.nowUnixSeconds
  withGuard fun conn => do
    let escapedName ← MysqlConn.escape conn name.bytes
    let escapedEmail ← MysqlConn.escape conn email.bytes
    let inserted ← MysqlConn.execute conn (insertUserSql escapedName escapedEmail now)
    if inserted then do
      let id ← MysqlConn.lastInsertId conn
      let user : User := { id := Decimal.text id, name, email, createdAt := now }
      let _ ← RedisClient.set (userKey user.id) (userToJsonString json user) kUserCacheTtl
      invalidateListCache
      let _ ← RedisClient.del totalUsersKey
      return (true, user)
    else return (false, out)

/-- The part of `GetUser` that reads the database. -/
def loadUser (json : JsonLibrary) (id : Text) : Prog (Option User) :=
  withGuard fun conn => do
    let escapedId ← MysqlConn.escape conn id.bytes
    withResult conn (userByIdSql escapedId) fun
      | none => return none
      | some res => do
          let row ← Program.call (Call.mysqlFetchRow res)
          match row with
          | none => return none
          | some row => do
              let cells ← Program.call (Call.cells row)
              let u := rowToUser cells
              let _ ← RedisClient.set (userKey id) (userToJsonString json u) kUserCacheTtl
              return some u

/-- `GetUser`. -/
def getUser (json : JsonLibrary) (id : Text) : Prog (Option User) := do
  let cached ← RedisClient.get (userKey id)
  match cached.bind (decodeUser json) with
  | some u => return some u
  | none => loadUser json id

/-- The number in the first row of a result set, and 0 without a row. -/
def fetchCount (res : Nat) : Prog Int64 := do
  let row ← Program.call (Call.mysqlFetchRow res)
  match row with
  | none => return 0
  | some row => do
      let cells ← Program.call (Call.cells row)
      return strtoll (cells.get 0).bytes

/-- The loop of `ListUsers` over the rows, which ends with the row behind the last one: `LIMIT`
bounds how often it can run. -/
def fetchUsers (res : Nat) : (fuel : Nat) → (users : List User) → Prog (List User)
  | 0, users => return users
  | fuel + 1, users => do
      let row ← Program.call (Call.mysqlFetchRow res)
      match row with
      | none => return users
      | some row => do
          let cells ← Program.call (Call.cells row)
          fetchUsers res fuel (users ++ [rowToUser cells])

/-- The part of `ListUsers` that reads the database. -/
def loadUsers (json : JsonLibrary) (limit offset : Int32) (out : List User) (total : Int64) :
    Prog (Bool × List User × Int64) :=
  withGuard fun conn =>
    withResult conn countUsersSql fun
      | none => return (false, out, total)
      | some resCount => do
          let totalCount ← fetchCount resCount
          withResult conn (usersPageSql limit offset) fun
            | none => return (false, out, total)
            | some res => do
                let users ← fetchUsers res (limit.toInt.toNat + 1) []
                let _ ← RedisClient.set (listCacheKey limit offset)
                  (json.dump (pageToJson totalCount users)) kListCacheTtl
                let _ ← RedisClient.sadd kListCacheIndex (listCacheKey limit offset)
                return (true, users, totalCount)

/-- `ListUsers`. -/
def listUsers (json : JsonLibrary) (limit offset : Int32) (out : List User) (total : Int64) :
    Prog (Bool × List User × Int64) := do
  let cached ← RedisClient.get (listCacheKey limit offset)
  let (out, hit) := (cached.map fun s => decodePage json s out).getD (out, none)
  match hit with
  | some cachedTotal => return (true, out, cachedTotal)
  | none => loadUsers json limit offset out total

/-- The end of `GetStats`: read the request counter. -/
def readRequestCount (totalUsers : Int64) : Prog (Bool × Int64 × Int64) := do
  let rc ← RedisClient.get requestCountKey
  return (true, totalUsers, (rc.map strtoll).getD 0)

/-- The part of `GetStats` that reads the database. -/
def loadTotalUsers : Prog (Option Int64) :=
  withGuard fun conn =>
    withResult conn countUsersSql fun
      | none => return none
      | some res => do
          let total ← fetchCount res
          let _ ← RedisClient.set totalUsersKey (Decimal.ofInt total.toInt) kStatsCacheTtl
          return some total

/-- `GetStats`. -/
def getStats (totalUsers requestCount : Int64) : Prog (Bool × Int64 × Int64) := do
  let cached ← RedisClient.get totalUsersKey
  match cached with
  | some s => readRequestCount (strtoll s)
  | none => do
      let total ← loadTotalUsers
      match total with
      | none => return (false, totalUsers, requestCount)
      | some total => readRequestCount total

namespace UserServiceImpl

/-- `UserServiceImpl::CreateUser`. -/
def createUser (json : JsonLibrary) (name email : Text) : Prog Response := do
  countRequest
  if name.bytes.isEmpty then return .error .invalidArgument "name is required"
  else do
    let (created, user) ←
      Native.createUser json name email HttpServerDemo.UserServiceImpl.emptyUser
    if created then return .user user
    else return .error .internal "create user failed"

/-- `UserServiceImpl::GetUser`. -/
def getUser (json : JsonLibrary) (id : Text) : Prog Response := do
  countRequest
  if id.bytes.isEmpty then return .error .invalidArgument "id is required"
  else do
    let user ← Native.getUser json id
    match user with
    | some user => return .user user
    | none => return .error .notFound "user not found"

/-- `UserServiceImpl::ListUsers`. -/
def listUsers (json : JsonLibrary) (limit offset : Int32) : Prog Response := do
  countRequest
  let (found, users, total) ← Native.listUsers json
    (HttpServerDemo.UserServiceImpl.pageLimit limit)
    (HttpServerDemo.UserServiceImpl.pageOffset offset) [] 0
  if found then return .page users total
  else return .error .internal "list users failed"

/-- `UserServiceImpl::GetStats`. -/
def getStats : Prog Response := do
  let (found, totalUsers, requestCount) ← Native.getStats 0 0
  if found then return .stats totalUsers requestCount
  else return .error .internal "get stats failed"

/-- The handler of a request. -/
def handle (json : JsonLibrary) : Request → Prog Response
  | .createUser name email => createUser json name email
  | .getUser id => getUser json id
  | .listUsers limit offset => listUsers json limit offset
  | .getStats => getStats

end UserServiceImpl

/-- The server: handlers that run concurrently over the client libraries. -/
def grpcServer (lib : Libraries) (client : MysqlClient) :
    System Call Call.Res Clients Outcome Drift Request Response where
  exec := exec client lib.mysql
  drift := drift
  code := UserServiceImpl.handle lib.json

end HttpServerDemo.Native
