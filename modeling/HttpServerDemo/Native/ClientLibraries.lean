import HttpServerDemo.Store.Statements

/-!
# The client libraries

What `libmysqlclient` and `hiredis` do when the repository calls them. A result set and a reply are
objects that the library allocates and that the caller has to free, a row is a pointer into its
result set, and a connection whose result set has not been read takes no other statement.
`exec` gives every call its effect; it has none where the documentation gives the call no meaning,
and `Legal` says where that is. An address may be used again once its object has been freed.

The stores behind the libraries are those of `World`. MySQL executes the text that it is sent.
-/

namespace HttpServerDemo

open Interleaving Sql

/-- The operation that executes a statement. -/
def Statement.op (conn : Nat) : Statement → Op
  | .insertUser name email now => .execute conn name email now
  | .select q => .query conn q

namespace Native

/-- A `MYSQL_ROW`: a row inside of a result set. -/
structure RowPtr where
  res : Nat
  index : Nat
  deriving DecidableEq

/-- The calls of the repository into the client libraries, with the operations of the pool and the
clock. -/
inductive Call where
  /-- `NowUnixSeconds` -/
  | nowUnixSeconds
  /-- `MysqlPool::acquire` -/
  | acquire
  /-- `MysqlPool::release`, run by `Guard::~Guard` -/
  | release (conn : Nat)
  /-- `mysql_real_escape_string` into a buffer of this size -/
  | mysqlRealEscapeString (conn : Nat) (s : Octets) (size : Nat)
  /-- `mysql_query` -/
  | mysqlQuery (conn : Nat) (sql : Octets)
  /-- `mysql_error` -/
  | mysqlError (conn : Nat)
  /-- `mysql_store_result` -/
  | mysqlStoreResult (conn : Nat)
  /-- `mysql_field_count` -/
  | mysqlFieldCount (conn : Nat)
  /-- `mysql_insert_id` -/
  | mysqlInsertId (conn : Nat)
  /-- `mysql_fetch_row` -/
  | mysqlFetchRow (res : Nat)
  /-- Read the cells of a row -/
  | cells (row : RowPtr)
  /-- `mysql_free_result` -/
  | mysqlFreeResult (res : Nat)
  /-- `redisvCommand` -/
  | redisvCommand (cmd : Keyspace.Command)
  /-- Read the fields of a `redisReply` -/
  | fields (reply : Nat)
  /-- `freeReplyObject` -/
  | freeReplyObject (reply : Nat)
  deriving DecidableEq

/-- What a call returns: an address, `none` for a null pointer, or what has been read.
`mysqlQuery` returns whether it returned 0. -/
abbrev Call.Res : Call → Type
  | .nowUnixSeconds => Int64
  | .acquire => Nat
  | .release _ => Unit
  | .mysqlRealEscapeString _ _ _ => Octets
  | .mysqlQuery _ _ => Bool
  | .mysqlError _ => Unit
  | .mysqlStoreResult _ => Option Nat
  | .mysqlFieldCount _ => Nat
  | .mysqlInsertId _ => Nat
  | .mysqlFetchRow _ => Option RowPtr
  | .cells _ => Cells
  | .mysqlFreeResult _ => Unit
  | .redisvCommand _ => Option Nat
  | .fields _ => Keyspace.Reply
  | .freeReplyObject _ => Unit

/-- A program of calls. -/
abbrev Prog (α : Type) : Type := Program Call Call.Res α

/-- An object that a library has allocated. -/
inductive Obj where
  /-- A `MYSQL_RES` with the index of the row that is fetched next -/
  | result (rows : ResultSet) (next : Nat)
  /-- A `redisReply` with everything it points to -/
  | reply (r : Keyspace.Reply)

/-- Whether a connection has a result set that has not been read, and whether reading it will
succeed. -/
inductive Status where
  | ready
  | unread (rows : Option ResultSet)

/-- The stores, the state of every connection of the pool, and the objects by address. -/
structure Clients where
  stores : World
  status : Nat → Status
  heap : Nat → Option Obj

namespace Clients

/-- Empty stores, a pool of this size, and nothing allocated. -/
def initial (poolSize : Nat) : Clients :=
  ⟨.initial poolSize, fun _ => .ready, fun _ => none⟩

/-- Put a connection into a state. -/
def setStatus (w : Clients) (conn : Nat) (status : Status) : Clients :=
  { w with status := Function.update w.status conn status }

/-- Allocate, change or free an object. -/
def setObj (w : Clients) (a : Nat) (obj : Option Obj) : Clients :=
  { w with heap := Function.update w.heap a obj }

/-- The effect of a call that is an operation on the stores. -/
def onStores {ρ : Type} (w : Clients) (r : Option (ρ × World)) : Option (ρ × Clients) :=
  r.map fun p => (p.1, { w with stores := p.2 })

end Clients

/-- What becomes of a call. For `mysqlQuery` it names the statement that the text is, which the
text determines, and for a call that allocates or returns a number it names that. -/
structure Outcome where
  choice : Choice
  number : Nat
  statement : Statement

/-- The effect of a call. -/
def exec (client : MysqlClient) (mysql : NumericPrefix) :
    (o : Call) → Outcome → Clients → Option (o.Res × Clients)
  | .nowUnixSeconds, outcome, w =>
      w.onStores (HttpServerDemo.exec mysql .nowUnixSeconds outcome.choice w.stores)
  | .acquire, outcome, w =>
      w.onStores (HttpServerDemo.exec mysql .acquire outcome.choice w.stores)
  | .release conn, outcome, w =>
      w.onStores (HttpServerDemo.exec mysql (.release conn) outcome.choice w.stores)
  | .mysqlRealEscapeString _ s size, _, w =>
      let escaped := client.realEscapeString s
      if escaped.length < size then some (escaped, w) else none
  | .mysqlQuery conn sql, outcome, w =>
      match w.status conn, outcome.choice, outcome.statement with
      | _, .fail, _ => some (false, w)
      | .ready, .ok, .insertUser name email now =>
          if lex sql = some (Statement.insertUser name email now).tokens then
            w.onStores (HttpServerDemo.exec mysql (.execute conn name email now) .ok w.stores)
          else none
      | .ready, .ok, .select q =>
          if lex sql = some (Statement.select q).tokens then
            (HttpServerDemo.exec mysql (.query conn q) .ok w.stores).map fun p =>
              (true, { w with stores := p.2 }.setStatus conn (.unread p.1))
          else none
      | .ready, .lost _, .select q =>
          -- the server executes it, but the result set will not arrive
          if lex sql = some (Statement.select q).tokens then
            some (true, w.setStatus conn (.unread none))
          else none
      | _, _, _ => none
  | .mysqlError _, _, w => some ((), w)
  | .mysqlStoreResult conn, outcome, w =>
      match w.status conn with
      | .ready => some (none, w)
      | .unread none => some (none, w.setStatus conn .ready)
      | .unread (some rows) =>
          match w.heap outcome.number with
          | some _ => none
          | none => some (some outcome.number,
              (w.setStatus conn .ready).setObj outcome.number (some (.result rows 0)))
  | .mysqlFieldCount _, outcome, w => some (outcome.number, w)
  | .mysqlInsertId conn, outcome, w =>
      w.onStores (HttpServerDemo.exec mysql (.lastInsertId conn) outcome.choice w.stores)
  | .mysqlFetchRow res, _, w =>
      match w.heap res with
      | some (.result rows next) =>
          if next < rows.length then
            some (some ⟨res, next⟩, w.setObj res (some (.result rows (next + 1))))
          else some (none, w)
      | _ => none
  | .cells row, _, w =>
      match w.heap row.res with
      | some (.result rows _) => (rows[row.index]?).map fun cells => (cells, w)
      | _ => none
  | .mysqlFreeResult res, _, w =>
      match w.heap res with
      | some (.result _ _) => some ((), w.setObj res none)
      | _ => none
  | .redisvCommand cmd, outcome, w =>
      match execCommand cmd outcome.choice w.stores with
      | none => none
      | some (none, stores) => some (none, { w with stores })
      | some (some r, stores) =>
          match w.heap outcome.number with
          | some _ => none
          | none => some (some outcome.number,
              { w with stores }.setObj outcome.number (some (.reply r)))
  | .fields reply, _, w =>
      match w.heap reply with
      | some (.reply r) => some (r, w)
      | _ => none
  | .freeReplyObject reply, _, w =>
      match w.heap reply with
      | some (.reply _) => some ((), w.setObj reply none)
      | _ => none

/-- The effect of a move of the environment. -/
def drift (e : Drift) (w : Clients) : Option Clients :=
  (HttpServerDemo.drift e w.stores).map fun stores => { w with stores }

/-- The documentation gives the call a meaning: a connection that is used is borrowed from the pool,
it gets no statement and goes back to no other borrower while a result set waits on it, an escaped
text fits into its buffer, and an object that is read or freed has been allocated and not freed. -/
inductive Legal (client : MysqlClient) (w : Clients) : Call → Prop where
  | nowUnixSeconds : Legal client w .nowUnixSeconds
  | acquire : Legal client w .acquire
  | release {conn} (hlent : conn ∉ w.stores.idle) (hready : w.status conn = .ready) :
      Legal client w (.release conn)
  | mysqlRealEscapeString {conn s size} (hlent : conn ∉ w.stores.idle)
      (hfits : (client.realEscapeString s).length < size) :
      Legal client w (.mysqlRealEscapeString conn s size)
  | mysqlQuery {conn sql} (hlent : conn ∉ w.stores.idle) (hready : w.status conn = .ready) :
      Legal client w (.mysqlQuery conn sql)
  | mysqlError {conn} (hlent : conn ∉ w.stores.idle) : Legal client w (.mysqlError conn)
  | mysqlStoreResult {conn} (hlent : conn ∉ w.stores.idle) :
      Legal client w (.mysqlStoreResult conn)
  | mysqlFieldCount {conn} (hlent : conn ∉ w.stores.idle) : Legal client w (.mysqlFieldCount conn)
  | mysqlInsertId {conn} (hlent : conn ∉ w.stores.idle) : Legal client w (.mysqlInsertId conn)
  | mysqlFetchRow {res rows next} (hobj : w.heap res = some (.result rows next)) :
      Legal client w (.mysqlFetchRow res)
  | cells {row rows next} (hobj : w.heap row.res = some (.result rows next))
      (hrow : row.index < rows.length) : Legal client w (.cells row)
  | mysqlFreeResult {res rows next} (hobj : w.heap res = some (.result rows next)) :
      Legal client w (.mysqlFreeResult res)
  | redisvCommand {cmd} : Legal client w (.redisvCommand cmd)
  | fields {reply r} (hobj : w.heap reply = some (.reply r)) : Legal client w (.fields reply)
  | freeReplyObject {reply r} (hobj : w.heap reply = some (.reply r)) :
      Legal client w (.freeReplyObject reply)

end Native

end HttpServerDemo
