import HttpServerDemo.Common.JsonUtils
import HttpServerDemo.Store.RedisClient

/-!
# `UserRepository`

The functions of `store/user_repository.cpp` as programs. Output parameters are passed in with
their prior value and returned with the value they are left with. A guard is released where its
scope ends; an exception inside a `try` block is `none`.
-/

namespace HttpServerDemo

open Interleaving

/-- `kUserCacheTtl`. -/
def kUserCacheTtl : Int := 60

/-- `kListCacheTtl`. -/
def kListCacheTtl : Int := 10

/-- `kStatsCacheTtl`. -/
def kStatsCacheTtl : Int := 30

/-- `kListCacheIndex`. -/
def kListCacheIndex : Octets := Octets.ascii "cache:users:list"

/-- `"user:" + id`. -/
def userKey (id : Text) : Octets :=
  Octets.ascii "user:" ++ id.bytes

/-- `"stats:total_users"`. -/
def totalUsersKey : Octets := Octets.ascii "stats:total_users"

/-- `"stats:request_count"`. -/
def requestCountKey : Octets := Octets.ascii "stats:request_count"

/-- `ListCacheKey`. -/
def listCacheKey (limit offset : Int32) : Octets :=
  Octets.ascii "users:list:" ++ Decimal.ofInt limit.toInt ++ Octets.ascii ":" ++
    Decimal.ofInt offset.toInt

/-- `strtoll(s.c_str(), nullptr, 10)`. -/
def strtoll (s : Octets) : Int64 :=
  Decimal.strtoll (Octets.cStr s)

/-- The cell `row[i]` as a C string. -/
def Cells.get (row : Cells) (i : Nat) : Text :=
  (row.getD i .empty).cStr

/-- The `User` that `GetUser` and `ListUsers` fill from a result row. -/
def rowToUser (row : Cells) : User where
  id := row.get 0
  name := row.get 1
  email := row.get 2
  createdAt := strtoll (row.get 3).bytes

/-- The number in the row of a `COUNT(*)`, and 0 without a row. -/
def rowToCount (res : ResultSet) : Int64 :=
  match res with
  | row :: _ => strtoll (row.get 0).bytes
  | [] => 0

/-- The document that `ListUsers` caches. -/
def pageToJson (total : Int64) (users : List User) : Json :=
  .object [(.ascii "total", .int total), (.ascii "users", .arr (users.map userToJson))]

/-- `CountRequest`. -/
def countRequest : Prog Unit := do
  let _ ← RedisClient.incr requestCountKey

/-- The loop of `InvalidateListCache`. -/
def delEach : List Octets → Prog Unit
  | [] => pure ()
  | k :: keys => do
      let _ ← RedisClient.del k
      delEach keys

/-- `InvalidateListCache`. -/
def invalidateListCache : Prog Unit := do
  let keys ← RedisClient.smembers kListCacheIndex
  delEach (keys.getD [])
  let _ ← RedisClient.del kListCacheIndex

/-- `CreateUser`. -/
def createUser (json : JsonLibrary) (name email : Text) (out : User) : Prog (Bool × User) := do
  let now ← Program.call Op.nowUnixSeconds
  let conn ← Program.call Op.acquire
  let inserted ← Program.call (Op.execute conn name email now)
  if inserted then do
    let id ← Program.call (Op.lastInsertId conn)
    let user : User := { id := Decimal.text id, name, email, createdAt := now }
    let _ ← RedisClient.set (userKey user.id) (userToJsonString json user) kUserCacheTtl
    invalidateListCache
    let _ ← RedisClient.del totalUsersKey
    let _ ← Program.call (Op.release conn)
    return (true, user)
  else do
    let _ ← Program.call (Op.release conn)
    return (false, out)

/-- The `try` block of `GetUser`. -/
def decodeUser (json : JsonLibrary) (cached : Octets) : Option User := do
  let j ← json.parse cached
  jsonToUser j

/-- `GetUser`. -/
def getUser (json : JsonLibrary) (id : Text) : Prog (Option User) := do
  let cached ← RedisClient.get (userKey id)
  match cached.bind (decodeUser json) with
  | some u => return some u
  | none => do
      let conn ← Program.call Op.acquire
      let res ← Program.call (Op.query conn (.userById id))
      match res with
      | some (row :: _) => do
          let u := rowToUser row
          let _ ← RedisClient.set (userKey id) (userToJsonString json u) kUserCacheTtl
          let _ ← Program.call (Op.release conn)
          return some u
      | _ => do
          let _ ← Program.call (Op.release conn)
          return none

/-- The loop of the hit path of `ListUsers`: the vector as it is left, and whether the loop ran to
its end. -/
def pushUsers (out : List User) : List Json → List User × Bool
  | [] => (out, true)
  | ju :: rest =>
      match jsonToUser ju with
      | some u => pushUsers (out ++ [u]) rest
      | none => (out, false)

/-- The `try` block of `ListUsers`: the vector as it is left, and the total unless the block
threw. -/
def decodePage (json : JsonLibrary) (cached : Octets) (out : List User) :
    List User × Option Int64 :=
  match json.parse cached with
  | none => (out, none)
  | some j =>
      match j.index (.ascii "users") with
      | none => ([], none)
      | some (users, j) =>
          let (out, done) := pushUsers [] users.items
          if done then (out, j.value Json.getInt64 (.ascii "total") 0) else (out, none)

/-- `ListUsers`. -/
def listUsers (json : JsonLibrary) (limit offset : Int32) (out : List User) (total : Int64) :
    Prog (Bool × List User × Int64) := do
  let cacheKey := listCacheKey limit offset
  let cached ← RedisClient.get cacheKey
  let (out, hit) := (cached.map fun s => decodePage json s out).getD (out, none)
  match hit with
  | some cachedTotal => return (true, out, cachedTotal)
  | none => do
      let conn ← Program.call Op.acquire
      let resCount ← Program.call (Op.query conn .countUsers)
      match resCount with
      | none => do
          let _ ← Program.call (Op.release conn)
          return (false, out, total)
      | some resCount => do
          let totalCount := rowToCount resCount
          let res ← Program.call (Op.query conn (.usersPage limit offset))
          match res with
          | none => do
              let _ ← Program.call (Op.release conn)
              return (false, out, total)
          | some rows => do
              let users := rows.map rowToUser
              let _ ← RedisClient.set cacheKey (json.dump (pageToJson totalCount users))
                kListCacheTtl
              let _ ← RedisClient.sadd kListCacheIndex cacheKey
              let _ ← Program.call (Op.release conn)
              return (true, users, totalCount)

/-- The end of `GetStats`: read the request counter. -/
def readRequestCount (totalUsers : Int64) : Prog (Bool × Int64 × Int64) := do
  let rc ← RedisClient.get requestCountKey
  return (true, totalUsers, (rc.map strtoll).getD 0)

/-- `GetStats`. -/
def getStats (totalUsers requestCount : Int64) : Prog (Bool × Int64 × Int64) := do
  let cached ← RedisClient.get totalUsersKey
  match cached with
  | some s => readRequestCount (strtoll s)
  | none => do
      let conn ← Program.call Op.acquire
      let res ← Program.call (Op.query conn .countUsers)
      match res with
      | none => do
          let _ ← Program.call (Op.release conn)
          return (false, totalUsers, requestCount)
      | some res => do
          let total := rowToCount res
          let _ ← RedisClient.set totalUsersKey (Decimal.ofInt total.toInt) kStatsCacheTtl
          let _ ← Program.call (Op.release conn)
          readRequestCount total

end HttpServerDemo
