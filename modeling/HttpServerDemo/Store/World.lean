import HttpServerDemo.Library.Keyspace
import HttpServerDemo.Library.NumericPrefix
import HttpServerDemo.Library.Machine
import Mathlib.Data.List.Nodup

/-!
# The stores behind the repository

The `users` table with its statements, the connection pool as a stack of idle connections, the
connection state that `mysql_insert_id` reads, and the one Redis connection. `exec` gives every
operation its effect on them; a `Choice` says whether it succeeds and, where it does not, what
became of it.

A statement is atomic, a failed one has no effect, and ids are handed out in increasing order. A
Redis command is atomic; it may be answered with an error, its reply may be lost with or without
its effect, and the connection may break for good, after which every command returns NULL.
-/

namespace HttpServerDemo

open Interleaving

/-- A row of the `users` table. -/
structure Row where
  id : Nat
  name : Text
  email : Text
  createdAt : Int64
  deriving DecidableEq

/-- The `users` table in primary-key order with its AUTO_INCREMENT counter. Ids are positive, below
the counter and below `2 ^ 63`. -/
structure UsersTable where
  rows : List Row
  autoIncrement : Nat
  sorted : rows.Pairwise fun a b => a.id < b.id
  below : ∀ r ∈ rows, r.id < autoIncrement
  count_lt : rows.length < autoIncrement
  bounded : autoIncrement ≤ 2 ^ 63

namespace UsersTable

/-- The table just created. -/
def empty : UsersTable where
  rows := []
  autoIncrement := 1
  sorted := .nil
  below := by simp
  count_lt := by simp
  bounded := by decide

/-- The row that the next INSERT adds. -/
def nextRow (table : UsersTable) (name email : Text) (createdAt : Int64) : Row :=
  ⟨table.autoIncrement, name, email, createdAt⟩

/-- INSERT a row with the next id. -/
def insert (table : UsersTable) (h : table.autoIncrement < 2 ^ 63) (name email : Text)
    (createdAt : Int64) : UsersTable where
  rows := table.rows ++ [table.nextRow name email createdAt]
  autoIncrement := table.autoIncrement + 1
  sorted := by
    refine List.pairwise_append.mpr ⟨table.sorted, List.pairwise_singleton _ _, ?_⟩
    intro a ha b hb
    rw [List.mem_singleton.mp hb]
    exact table.below a ha
  below := by
    intro r hr
    rcases List.mem_append.mp hr with hr | hr
    · exact Nat.lt_succ_of_lt (table.below r hr)
    · rw [List.mem_singleton.mp hr]
      exact Nat.lt_succ_self _
  count_lt := by
    have := table.count_lt
    simp only [List.length_append, List.length_singleton]
    omega
  bounded := h

/-- Leave a gap in the ids, as a failed INSERT may do. -/
def skip (table : UsersTable) (n : Nat) (h : table.autoIncrement + n ≤ 2 ^ 63) : UsersTable where
  rows := table.rows
  autoIncrement := table.autoIncrement + n
  sorted := table.sorted
  below := fun r hr => Nat.lt_of_lt_of_le (table.below r hr) (Nat.le_add_right _ _)
  count_lt := Nat.lt_of_lt_of_le table.count_lt (Nat.le_add_right _ _)
  bounded := h

theorem length_lt (table : UsersTable) : table.rows.length < 2 ^ 63 :=
  Nat.lt_of_lt_of_le table.count_lt table.bounded

/-- The primary key determines the row. -/
theorem eq_of_id_eq (table : UsersTable) {a b : Row} (ha : a ∈ table.rows) (hb : b ∈ table.rows)
    (h : a.id = b.id) : a = b := by
  have hnodup : (table.rows.map Row.id).Nodup :=
    List.pairwise_map.mpr (table.sorted.imp fun hlt => Nat.ne_of_lt hlt)
  exact List.inj_on_of_nodup_map hnodup ha hb h

end UsersTable

/-- The SELECT statements of the repository. -/
inductive Query where
  /-- `SELECT id, name, email, created_at FROM users WHERE id='...'` -/
  | userById (id : Text)
  /-- `SELECT COUNT(*) FROM users` -/
  | countUsers
  /-- `SELECT id, name, email, created_at FROM users ORDER BY id LIMIT ... OFFSET ...` -/
  | usersPage (limit offset : Int32)
  deriving DecidableEq

/-- The cells of a result row. -/
abbrev Cells : Type := List Text

/-- A result set. -/
abbrev ResultSet : Type := List Cells

/-- The cells of a row of `users`: its columns as text. -/
def Row.cells (r : Row) : Cells :=
  [Decimal.text r.id, r.name, r.email, Decimal.text r.createdAt.toInt]

/-- The row whose id equals the number that the quoted string converts to. -/
def Row.Matches (mysql : NumericPrefix) (id : Text) (r : Row) : Prop :=
  mysql.toNumber id.bytes = r.id

instance (mysql : NumericPrefix) (id : Text) (r : Row) : Decidable (r.Matches mysql id) :=
  inferInstanceAs (Decidable (_ = _))

/-- The rows in `[offset, offset + limit)` in id order. -/
def slice (limit offset : Int32) (rows : List Row) : List Row :=
  (rows.drop offset.toInt.toNat).take limit.toInt.toNat

/-- MySQL rejects a negative LIMIT or OFFSET. -/
def Query.accepted : Query → Bool
  | .usersPage limit offset => decide (0 ≤ limit.toInt) && decide (0 ≤ offset.toInt)
  | _ => true

/-- The result set of a statement. -/
def Query.select (mysql : NumericPrefix) (rows : List Row) : Query → ResultSet
  | .userById id => (rows.filter fun r => decide (r.Matches mysql id)).map Row.cells
  | .countUsers => [[Decimal.text rows.length]]
  | .usersPage limit offset => (slice limit offset rows).map Row.cells

/-- The atomic operations of the repository's functions. -/
inductive Op where
  /-- `NowUnixSeconds` -/
  | nowUnixSeconds
  /-- `MysqlPool::acquire` -/
  | acquire
  /-- `MysqlPool::release`, run by the destructor of a guard -/
  | release (conn : Nat)
  /-- `MysqlConn::execute` of the INSERT with these values -/
  | execute (conn : Nat) (name email : Text) (createdAt : Int64)
  /-- `MysqlConn::lastInsertId` -/
  | lastInsertId (conn : Nat)
  /-- `MysqlConn::query` -/
  | query (conn : Nat) (q : Query)
  /-- `RedisClient::Command` -/
  | command (cmd : Keyspace.Command)
  deriving DecidableEq

/-- What an operation returns. A query returns `none` for a null result set, and a command returns
`none` for a null reply. -/
abbrev Op.Res : Op → Type
  | .nowUnixSeconds => Int64
  | .acquire => Nat
  | .release _ => Unit
  | .execute _ _ _ _ => Bool
  | .lastInsertId _ => Nat
  | .query _ _ => Option ResultSet
  | .command _ => Option Keyspace.Reply

/-- A program over these operations. -/
abbrev Prog (α : Type) : Type := Program Op Op.Res α

/-- What becomes of an operation. -/
inductive Choice where
  /-- It succeeds. -/
  | ok
  /-- The system clock shows this time. -/
  | clock (now : Int64)
  /-- It fails without effect; a Redis command is answered with an error. -/
  | fail
  /-- No reply to a Redis command arrives; the command may have been applied. -/
  | lost (applied : Bool)
  /-- The same, and the connection is in error from now on. -/
  | broken (applied : Bool)
  deriving DecidableEq

/-- The moves of the environment. -/
inductive Drift where
  /-- A second passes. -/
  | tick
  /-- Redis drops a key that has a time to live. -/
  | expire (key : Octets)
  /-- Redis enumerates a set in another order. -/
  | reorder (key : Octets) (members : List Octets)
  /-- MySQL skips ids. -/
  | skipIds (n : Nat)
  deriving DecidableEq

/-- The state that all threads share. -/
structure World where
  table : UsersTable
  insertIds : Nat → Nat
  idle : List Nat
  keyspace : Keyspace
  contextError : Bool

/-- Empty stores and a pool of `poolSize` idle connections. -/
def World.initial (poolSize : Nat) : World where
  table := .empty
  insertIds := fun _ => 0
  idle := List.range poolSize
  keyspace := .empty
  contextError := false

/-- Execute a Redis command over the one connection. -/
def execCommand (cmd : Keyspace.Command) (choice : Choice) (w : World) :
    Option (Option Keyspace.Reply × World) :=
  let applied := { w with keyspace := (cmd.run w.keyspace).2 }
  if w.contextError then some (none, w)
  else
    match choice with
    | .ok => some (some (cmd.run w.keyspace).1, applied)
    | .fail => some (some .error, w)
    | .lost effect => some (none, if effect then applied else w)
    | .broken effect => some (none, { (if effect then applied else w) with contextError := true })
    | .clock _ => none

/-- The effect of an operation. -/
def exec (mysql : NumericPrefix) : (o : Op) → Choice → World → Option (o.Res × World)
  | .nowUnixSeconds, choice, w =>
      match choice with
      | .clock now => some (now, w)
      | _ => none
  | .acquire, choice, w =>
      match choice, w.idle.getLast? with
      | .ok, some conn => some (conn, { w with idle := w.idle.dropLast })
      | _, _ => none
  | .release conn, choice, w =>
      match choice with
      | .ok => some ((), { w with idle := w.idle ++ [conn] })
      | _ => none
  | .execute conn name email createdAt, choice, w =>
      match choice with
      | .ok =>
          if h : w.table.autoIncrement < 2 ^ 63 then
            some (true, { w with
              table := w.table.insert h name email createdAt
              insertIds := fun c => if c = conn then w.table.autoIncrement else w.insertIds c })
          else none
      | .fail => some (false, w)
      | _ => none
  | .lastInsertId conn, choice, w =>
      match choice with
      | .ok => some (w.insertIds conn, w)
      | _ => none
  | .query _ q, choice, w =>
      match choice with
      | .ok => if q.accepted then some (some (q.select mysql w.table.rows), w) else none
      | .fail => some (none, w)
      | _ => none
  | .command cmd, choice, w => execCommand cmd choice w

/-- The effect of a move of the environment. -/
def drift : Drift → World → Option World
  | .tick, w => some { w with keyspace := w.keyspace.tick }
  | .expire key, w => (w.keyspace.expire key).map fun ks => { w with keyspace := ks }
  | .reorder key members, w =>
      (w.keyspace.reorder key members).map fun ks => { w with keyspace := ks }
  | .skipIds n, w =>
      if h : w.table.autoIncrement + n ≤ 2 ^ 63 then
        some { w with table := w.table.skip n h }
      else none

/-! ## What an operation can change -/

section
variable {mysql : NumericPrefix} {o : Op} {choice : Choice} {r : o.Res} {w w' : World}

/-- A command is applied and answered, is applied or not and gets no usable reply, or finds the
connection in error. -/
theorem exec_command {cmd : Keyspace.Command} {r : Option Keyspace.Reply}
    (h : exec mysql (.command cmd) choice w = some (r, w')) :
    (w.contextError = false ∧ choice = .ok ∧ r = some (cmd.run w.keyspace).1 ∧
        w' = { w with keyspace := (cmd.run w.keyspace).2 }) ∨
      ((r = none ∨ r = some .error) ∧ (w.contextError = true ∨ choice ≠ .ok) ∧
        ((∃ error, w' = { w with contextError := error }) ∨
          ∃ error, w' = { w with keyspace := (cmd.run w.keyspace).2, contextError := error })) := by
  simp only [exec, execCommand] at h
  split at h
  · rename_i herror
    cases h
    exact .inr ⟨.inl rfl, .inl herror, .inl ⟨w.contextError, rfl⟩⟩
  · rename_i herror
    cases choice with
    | ok =>
        cases h
        exact .inl ⟨by simpa using herror, rfl, rfl, rfl⟩
    | fail =>
        cases h
        exact .inr ⟨.inr rfl, .inr (by simp), .inl ⟨w.contextError, rfl⟩⟩
    | clock => cases h
    | lost applied | broken applied =>
        cases applied <;> cases h
        · exact .inr ⟨.inl rfl, .inr (by simp), .inl ⟨_, rfl⟩⟩
        · exact .inr ⟨.inl rfl, .inr (by simp), .inr ⟨_, rfl⟩⟩

/-- As long as the connection is not in error, a command that does not fail in another way was
applied and answered. -/
theorem exec_command_live {cmd : Keyspace.Command} {r : Option Keyspace.Reply}
    (h : exec mysql (.command cmd) choice w = some (r, w'))
    (hchoice : choice = .ok ∨ ∃ applied, choice = .broken applied)
    (hlive : w'.contextError = false) :
    w.contextError = false ∧ r = some (cmd.run w.keyspace).1 ∧
      w' = { w with keyspace := (cmd.run w.keyspace).2 } := by
  simp only [exec, execCommand] at h
  split at h
  · rename_i herror
    cases h
    rw [herror] at hlive
    cases hlive
  · rename_i herror
    rcases hchoice with rfl | ⟨applied, rfl⟩
    · cases h
      exact ⟨by simpa using herror, rfl, rfl⟩
    · cases applied <;> cases h <;> cases hlive

/-- A command that is applied and answered gets the reply of the server. -/
theorem exec_command_replied {cmd : Keyspace.Command} {r : Keyspace.Reply}
    (h : exec mysql (.command cmd) .ok w = some (some r, w')) : r = (cmd.run w.keyspace).1 := by
  simp only [exec, execCommand] at h
  split at h
  · cases h
  · cases h
    rfl

/-- A successful INSERT adds its row. -/
theorem exec_execute {conn : Nat} {name email : Text} {now : Int64} {r : Bool}
    (h : exec mysql (.execute conn name email now) choice w = some (r, w')) :
    (r = false ∧ w' = w) ∨
      (r = true ∧ choice = .ok ∧
        w'.table.rows = w.table.rows ++ [w.table.nextRow name email now] ∧
        w'.insertIds = (fun c => if c = conn then w.table.autoIncrement else w.insertIds c) ∧
        w'.idle = w.idle ∧ w'.keyspace = w.keyspace ∧ w'.contextError = w.contextError) := by
  cases choice with
  | ok =>
      simp only [exec] at h
      split at h
      · cases h
        exact .inr ⟨rfl, rfl, rfl, rfl, rfl, rfl, rfl⟩
      · cases h
  | fail =>
      cases h
      exact .inl ⟨rfl, rfl⟩
  | clock | lost | broken => cases h

/-- A query reads the rows. -/
theorem exec_query {conn : Nat} {q : Query} {r : Option ResultSet}
    (h : exec mysql (.query conn q) choice w = some (r, w')) :
    w' = w ∧ (r = none ∨ r = some (q.select mysql w.table.rows) ∧ q.accepted = true) := by
  cases choice with
  | ok =>
      simp only [exec] at h
      split at h
      · cases h
        exact ⟨rfl, .inr ⟨rfl, by assumption⟩⟩
      · cases h
  | fail =>
      cases h
      exact ⟨rfl, .inl rfl⟩
  | clock | lost | broken => cases h

/-- The pool hands out an idle connection. -/
theorem exec_acquire {conn : Nat} (h : exec mysql .acquire choice w = some (conn, w')) :
    w.idle = w'.idle ++ [conn] ∧ w' = { w with idle := w'.idle } := by
  cases choice with
  | ok =>
      simp only [exec] at h
      split at h
      · rename_i hlast
        cases h
        exact ⟨(List.dropLast_append_getLast? _ hlast).symm, rfl⟩
      · cases h
  | clock | fail | lost | broken => cases h

/-- A released connection is idle again. -/
theorem exec_release {conn : Nat} {r : Unit}
    (h : exec mysql (.release conn) choice w = some (r, w')) :
    w' = { w with idle := w.idle ++ [conn] } := by
  cases choice with
  | ok => cases h; rfl
  | clock | fail | lost | broken => cases h

theorem exec_last_insert_id {conn id : Nat}
    (h : exec mysql (.lastInsertId conn) choice w = some (id, w')) :
    id = w.insertIds conn ∧ w' = w := by
  cases choice with
  | ok => cases h; exact ⟨rfl, rfl⟩
  | clock | fail | lost | broken => cases h

theorem exec_now {now : Int64} (h : exec mysql .nowUnixSeconds choice w = some (now, w')) :
    w' = w := by
  cases choice with
  | clock => cases h; rfl
  | ok | fail | lost | broken => cases h

/-- Only a successful INSERT changes the rows. -/
theorem exec_rows (h : exec mysql o choice w = some (r, w')) :
    w'.table.rows = w.table.rows ∨
      ∃ conn name email now, o = .execute conn name email now ∧ choice = .ok ∧
        w'.table.rows = w.table.rows ++ [w.table.nextRow name email now] := by
  cases o with
  | nowUnixSeconds => exact .inl (by rw [exec_now h])
  | acquire => exact .inl (by rw [(exec_acquire h).2])
  | release conn => exact .inl (by rw [exec_release h])
  | execute conn name email now =>
      rcases exec_execute h with ⟨-, rfl⟩ | ⟨-, hok, hrows, -⟩
      · exact .inl rfl
      · exact .inr ⟨conn, name, email, now, rfl, hok, hrows⟩
  | lastInsertId conn => exact .inl (by rw [(exec_last_insert_id h).2])
  | query conn q => exact .inl (by rw [(exec_query h).1])
  | command cmd =>
      rcases exec_command h with ⟨-, -, -, rfl⟩ | ⟨-, -, ⟨_, rfl⟩ | ⟨_, rfl⟩⟩ <;> exact .inl rfl

/-- Only an INSERT on a connection changes the id it remembers. -/
theorem exec_insert_ids (h : exec mysql o choice w = some (r, w')) {conn : Nat}
    (ho : ∀ name email now, o ≠ .execute conn name email now) :
    w'.insertIds conn = w.insertIds conn := by
  cases o with
  | nowUnixSeconds => rw [exec_now h]
  | acquire => rw [(exec_acquire h).2]
  | release _ => rw [exec_release h]
  | execute taken name email now =>
      rcases exec_execute h with ⟨-, rfl⟩ | ⟨-, -, -, hids, -⟩
      · rfl
      · have hne : conn ≠ taken := by
          rintro rfl
          exact ho name email now rfl
        rw [hids]
        exact if_neg hne
  | lastInsertId _ => rw [(exec_last_insert_id h).2]
  | query _ q => rw [(exec_query h).1]
  | command cmd =>
      rcases exec_command h with ⟨-, -, -, rfl⟩ | ⟨-, -, ⟨_, rfl⟩ | ⟨_, rfl⟩⟩ <;> rfl

/-- The connection to Redis never recovers from an error. -/
theorem exec_context (h : exec mysql o choice w = some (r, w')) (hlive : w'.contextError = false) :
    w.contextError = false := by
  cases o with
  | nowUnixSeconds => rwa [exec_now h] at hlive
  | acquire => rwa [(exec_acquire h).2] at hlive
  | release conn => rwa [exec_release h] at hlive
  | execute conn name email now =>
      rcases exec_execute h with ⟨-, rfl⟩ | ⟨-, -, -, -, -, -, hsame⟩
      · exact hlive
      · exact hsame.symm.trans hlive
  | lastInsertId conn => rwa [(exec_last_insert_id h).2] at hlive
  | query conn q => rwa [(exec_query h).1] at hlive
  | command cmd =>
      simp only [exec, execCommand] at h
      split at h
      · cases h
        exact hlive
      · rename_i herror
        simpa using herror

/-- Only commands change the keyspace. -/
theorem exec_keyspace (h : exec mysql o choice w = some (r, w')) :
    w'.keyspace = w.keyspace ∨
      ∃ cmd, o = .command cmd ∧ w'.keyspace = (cmd.run w.keyspace).2 := by
  cases o with
  | nowUnixSeconds => exact .inl (by rw [exec_now h])
  | acquire => exact .inl (by rw [(exec_acquire h).2])
  | release conn => exact .inl (by rw [exec_release h])
  | execute conn name email now =>
      rcases exec_execute h with ⟨-, rfl⟩ | ⟨-, -, -, -, -, hks, -⟩
      · exact .inl rfl
      · exact .inl hks
  | lastInsertId conn => exact .inl (by rw [(exec_last_insert_id h).2])
  | query conn q => exact .inl (by rw [(exec_query h).1])
  | command cmd =>
      rcases exec_command h with ⟨-, -, -, rfl⟩ | ⟨-, -, ⟨_, rfl⟩ | ⟨_, rfl⟩⟩
      · exact .inr ⟨cmd, rfl, rfl⟩
      · exact .inl rfl
      · exact .inr ⟨cmd, rfl, rfl⟩

/-- The environment never changes the rows, the connections or the context. -/
theorem drift_frame {e : Drift} (h : drift e w = some w') :
    w'.table.rows = w.table.rows ∧ w'.insertIds = w.insertIds ∧ w'.idle = w.idle ∧
      w'.contextError = w.contextError := by
  cases e with
  | tick => cases h; exact ⟨rfl, rfl, rfl, rfl⟩
  | expire key | reorder key members =>
      obtain ⟨ks, -, rfl⟩ := Option.map_eq_some_iff.mp h
      exact ⟨rfl, rfl, rfl, rfl⟩
  | skipIds n =>
      simp only [drift] at h
      split at h
      · cases h; exact ⟨rfl, rfl, rfl, rfl⟩
      · cases h

/-- What the environment does to the keyspace. -/
theorem drift_keyspace {e : Drift} (h : drift e w = some w') :
    w'.keyspace = w.keyspace ∨ w'.keyspace = w.keyspace.tick ∨
      (∃ key, w'.keyspace = w.keyspace.drop key ∧ ∃ v d, w.keyspace.slots key = some ⟨v, some d⟩) ∨
      ∃ key old ms d, w.keyspace.slots key = some ⟨.set old, d⟩ ∧ ms.Perm old ∧
        w'.keyspace = w.keyspace.put key ⟨.set ms, d⟩ := by
  cases e with
  | tick => cases h; exact .inr (.inl rfl)
  | expire key =>
      obtain ⟨ks, hks, rfl⟩ := Option.map_eq_some_iff.mp h
      obtain ⟨rfl, hslot⟩ := Keyspace.expire_eq hks
      exact .inr (.inr (.inl ⟨key, rfl, hslot⟩))
  | reorder key members =>
      obtain ⟨ks, hks, rfl⟩ := Option.map_eq_some_iff.mp h
      obtain ⟨old, d, hslot, hperm, rfl⟩ := Keyspace.reorder_eq hks
      exact .inr (.inr (.inr ⟨key, old, members, d, hslot, hperm, rfl⟩))
  | skipIds n =>
      simp only [drift] at h
      split at h
      · cases h; exact .inl rfl
      · cases h
end

end HttpServerDemo
