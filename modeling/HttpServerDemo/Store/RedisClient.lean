import HttpServerDemo.Store.World

/-!
# `RedisClient`

The methods of `store/redis_client.cpp` that the repository uses, as programs over
`RedisClient::Command`. `%s` copies an argument up to its first NUL, so keys, values and members
are sent as C strings. A method tells a null reply and an error reply from the others, and `get`
tells a string from everything else.
-/

namespace HttpServerDemo

open Interleaving Keyspace

namespace RedisClient

/-- `RedisClient::Command`: send one command and read its reply, `none` for a null one. -/
def command (cmd : Command) : Prog (Option Reply) :=
  Program.call (Op.command cmd)

/-- `RedisReply::ok`. -/
def ok : Option Reply → Bool
  | none => false
  | some .error => false
  | some _ => true

/-- `RedisClient::set`: with `EX` when the time to live is positive. -/
def set (key value : Octets) (ttlSec : Int) : Prog Bool := do
  let ttl := if 0 < ttlSec then some ttlSec.toNat else none
  let r ← command (.set (Octets.cStr key) (Octets.cStr value) ttl)
  return ok r

/-- The string in a reply to `GET`. -/
def stringReply : Option Reply → Option Octets
  | some (.string s) => some s
  | _ => none

theorem stringReply_eq_some {r : Option Reply} {s : Octets} (h : stringReply r = some s) :
    r = some (.string s) := by
  unfold stringReply at h
  split at h
  · cases h
    rfl
  · cases h

/-- `RedisClient::get`. -/
def get (key : Octets) : Prog (Option Octets) := do
  let r ← command (.get (Octets.cStr key))
  return stringReply r

/-- `RedisClient::del`. -/
def del (key : Octets) : Prog Bool := do
  let r ← command (.del (Octets.cStr key))
  return ok r

/-- `RedisClient::incr`. -/
def incr (key : Octets) : Prog (Option Int64) := do
  let r ← command (.incr (Octets.cStr key))
  match r with
  | some (.integer n) => return some n
  | _ => return none

/-- `RedisClient::sadd`. -/
def sadd (key member : Octets) : Prog Bool := do
  let r ← command (.sadd (Octets.cStr key) (Octets.cStr member))
  return ok r

/-- The strings in a reply to `SMEMBERS`; elements of another type are left out. -/
def arrayReply : Option Reply → Option (List Octets)
  | some (.array elements) =>
      some (elements.filterMap fun
        | .string s => some s
        | _ => none)
  | _ => none

/-- `RedisClient::smembers`. -/
def smembers (key : Octets) : Prog (Option (List Octets)) := do
  let r ← command (.smembers (Octets.cStr key))
  return arrayReply r

end RedisClient

end HttpServerDemo
