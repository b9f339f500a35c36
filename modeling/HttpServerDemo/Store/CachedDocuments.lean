import HttpServerDemo.Library.JsonText
import HttpServerDemo.Store.BinarySafety
import HttpServerDemo.Store.Codec
import HttpServerDemo.Store.ControlFlow

/-!
# What comes back from the cache

A page or a user that the repository has stored is a C string on its way to Redis and is read back
by length. `list_users_hit` and `get_user_hit` say what the two calls return when they find an entry
that decodes, and `cached_documents_round_trip` that what was stored is returned as it was.
-/

namespace HttpServerDemo

open Interleaving Keyspace

variable {json : JsonLibrary} {mysql : NumericPrefix} {w w' : World} {chs : List Choice}

/-- A `GET` that is answered returns the string under its key. -/
theorem exec_get_hit (mysql : NumericPrefix) {key s : Octets} {deadline : Option Nat}
    (hlive : w.contextError = false)
    (hslot : w.keyspace.slots (Octets.cStr key) = some ⟨.string s, deadline⟩) :
    exec mysql (getOp key) .ok w = some (some (.string s), w) := by
  obtain ⟨table, insertIds, idle, ks, error⟩ := w
  dsimp only at hlive hslot
  subst hlive
  simp [exec, execCommand, Command.run, hslot]

/-- `ListUsers` returns the page that it finds. -/
theorem list_users_hit {limit offset : Int32} {s : Octets} {out users : List User}
    {total cachedTotal : Int64}
    (hget : exec mysql (getOp (listCacheKey limit offset)) .ok w = some (some (.string s), w))
    (hpage : decodePage json s out = (users, some cachedTotal)) :
    (listUsers json limit offset out total).alone (exec mysql) [.ok] w =
      some ((true, users, cachedTotal), w) := by
  rw [list_users_eq]
  refine alone_op.mpr ⟨_, _, _, w, rfl, hget, ?_⟩
  have htried : triedPage json (some (.string s)) out = (users, some cachedTotal) := hpage
  rw [htried]
  exact alone_pure.mpr ⟨rfl, rfl, rfl⟩

/-- `GetUser` returns the user that it finds. -/
theorem get_user_hit {id : Text} {s : Octets} {u : User}
    (hget : exec mysql (getOp (userKey id)) .ok w = some (some (.string s), w))
    (huser : decodeUser json s = some u) :
    (getUser json id).alone (exec mysql) [.ok] w = some (some u, w) := by
  rw [get_user_eq]
  refine alone_op.mpr ⟨_, _, _, w, rfl, hget, ?_⟩
  have hfound : (RedisClient.stringReply (some (.string s))).bind (decodeUser json) = some u :=
    huser
  rw [hfound]
  exact alone_pure.mpr ⟨rfl, rfl, rfl⟩

/-- A page that `ListUsers` has stored comes back and decodes to its users and its total. -/
theorem stored_page_read_back {limit offset : Int32} {users : List User} {total : Int64}
    (h : (RedisClient.set (listCacheKey limit offset) (json.dump (pageToJson total users))
      kListCacheTtl).alone (exec mysql) chs w = some (true, w'))
    {seconds : Nat} (hexpiry : BeforeExpiry kListCacheTtl seconds) :
    (∃ s, readString mysql (listCacheKey limit offset) (w'.elapse seconds) = some (some s) ∧
      ∀ out, decodePage json s out = (users, some total)) ∧
    ∀ out before, (listUsers json limit offset out before).alone (exec mysql) [.ok]
      (w'.elapse seconds) = some ((true, users, total), w'.elapse seconds) := by
  have hcut := cStr_page_text json total users
  obtain ⟨hlive, deadline, hslot⟩ := slot_of_set h hexpiry
  rw [hcut] at hslot
  refine ⟨⟨_, by rw [read_string_set h hexpiry, hcut], decode_page_text json total users⟩, ?_⟩
  intro out before
  exact list_users_hit (exec_get_hit mysql hlive hslot) (decode_page_text json total users out)

/-- A user that is stored under an id comes back and decodes to the user. -/
theorem stored_user_read_back {id : Text} {u : User}
    (h : (RedisClient.set (userKey id) (userToJsonString json u) kUserCacheTtl).alone (exec mysql)
      chs w = some (true, w'))
    {seconds : Nat} (hexpiry : BeforeExpiry kUserCacheTtl seconds) :
    (∃ s j, readString mysql (userKey id) (w'.elapse seconds) = some (some s) ∧
      json.parse s = some j ∧ jsonToUser j = some u) ∧
    (getUser json id).alone (exec mysql) [.ok] (w'.elapse seconds) =
      some (some u, w'.elapse seconds) := by
  have hcut := cStr_user_to_json_string json u
  obtain ⟨hlive, deadline, hslot⟩ := slot_of_set h hexpiry
  rw [hcut] at hslot
  exact ⟨⟨_, _, by rw [read_string_set h hexpiry, hcut], parse_user_to_json_string json u,
    json_to_user_user_to_json u⟩,
    get_user_hit (exec_get_hit mysql hlive hslot) (decode_user_text json u)⟩

/-- Whatever the users and the total are, a page and a user that have been stored are returned as
they were, until they expire. -/
theorem cached_documents_round_trip (json : JsonLibrary) (mysql : NumericPrefix)
    (users : List User) (total : Int64) (u : User) :
    (∀ limit offset chs w w', (RedisClient.set (listCacheKey limit offset)
        (json.dump (pageToJson total users)) kListCacheTtl).alone (exec mysql) chs w =
          some (true, w') →
      ∀ seconds, BeforeExpiry kListCacheTtl seconds →
        (∃ s, readString mysql (listCacheKey limit offset) (w'.elapse seconds) = some (some s) ∧
          ∀ out, decodePage json s out = (users, some total)) ∧
        ∀ out before, (listUsers json limit offset out before).alone (exec mysql) [.ok]
          (w'.elapse seconds) = some ((true, users, total), w'.elapse seconds)) ∧
    ∀ id chs w w', (RedisClient.set (userKey id) (userToJsonString json u) kUserCacheTtl).alone
        (exec mysql) chs w = some (true, w') →
      ∀ seconds, BeforeExpiry kUserCacheTtl seconds →
        (∃ s j, readString mysql (userKey id) (w'.elapse seconds) = some (some s) ∧
          json.parse s = some j ∧ jsonToUser j = some u) ∧
        (getUser json id).alone (exec mysql) [.ok] (w'.elapse seconds) =
          some (some u, w'.elapse seconds) :=
  ⟨fun _ _ _ _ _ h _ hexpiry => stored_page_read_back h hexpiry,
    fun _ _ _ _ h _ hexpiry => stored_user_read_back h hexpiry⟩

/-- A user whose name has U+0000, a quote, a backslash and a line break. -/
def awkwardUser : User :=
  ⟨.ascii "1", ⟨[0x00, 0x22, 0x5C, 0x0A], by decide⟩, .ascii "ann@example.com", -7⟩

/-- The awkward user twice on a page, nine seconds old, and once alone, 59 seconds
old. -/
theorem cached_documents_round_trip_awkward :
    ∃ w1 w2,
      (RedisClient.set (listCacheKey 10 0)
        (JsonText.rfc8259.dump (pageToJson 2 [awkwardUser, awkwardUser])) kListCacheTtl).alone
          (exec NumericPrefix.standard) [.ok] (World.initial 1) = some (true, w1) ∧
      (listUsers JsonText.rfc8259 10 0 [] 0).alone (exec NumericPrefix.standard) [.ok]
        (w1.elapse 9) = some ((true, [awkwardUser, awkwardUser], 2), w1.elapse 9) ∧
      (RedisClient.set (userKey (.ascii "1")) (userToJsonString JsonText.rfc8259 awkwardUser)
        kUserCacheTtl).alone (exec NumericPrefix.standard) [.ok] (World.initial 1) =
          some (true, w2) ∧
      (getUser JsonText.rfc8259 (.ascii "1")).alone (exec NumericPrefix.standard) [.ok]
        (w2.elapse 59) = some (some awkwardUser, w2.elapse 59) := by
  have h := cached_documents_round_trip JsonText.rfc8259 NumericPrefix.standard
    [awkwardUser, awkwardUser] 2 awkwardUser
  have hpage := h.1 10 0 [.ok] (World.initial 1) _ rfl 9 fun _ => by decide
  have huser := h.2 (.ascii "1") [.ok] (World.initial 1) _ rfl 59 fun _ => by decide
  exact ⟨_, _, rfl, hpage.2 [] 0, rfl, huser.2⟩

end HttpServerDemo
