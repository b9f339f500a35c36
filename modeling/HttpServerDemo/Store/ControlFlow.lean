import HttpServerDemo.Store.UserRepository

/-!
# The program points of the repository

For each function of `UserRepository`, an inductive predicate lists the points a call can be at:
the answers it has received so far and the operation it issues next, or the value it returns. The
theorems `create_user_point`, `get_user_point`, `list_users_point` and `get_stats_point` say that
the lists are complete. Everything later that needs to know what a function does is read off
them.
-/

namespace HttpServerDemo

open Interleaving Keyspace

/-- The answers a call has received so far, in order. -/
abbrev History : Type := List (Answer Op Op.Res)

/-- The command that `RedisClient::get` sends. -/
abbrev getOp (key : Octets) : Op := .command (.get (Octets.cStr key))

/-- The command that `RedisClient::set` sends. -/
abbrev setOp (key value : Octets) (ttl : Nat) : Op :=
  .command (.set (Octets.cStr key) (Octets.cStr value) (some ttl))

/-- The command that `RedisClient::del` sends. -/
abbrev delOp (key : Octets) : Op := .command (.del (Octets.cStr key))

/-- The command that `RedisClient::smembers` sends. -/
abbrev smembersOp (key : Octets) : Op := .command (.smembers (Octets.cStr key))

/-- The command that `RedisClient::sadd` sends. -/
abbrev saddOp (key member : Octets) : Op :=
  .command (.sadd (Octets.cStr key) (Octets.cStr member))

/-- A key without NUL is read as it is. -/
theorem get_answer {key : Octets} (h : Octets.cStr key = key) (r : Option Reply) :
    (⟨getOp key, r⟩ : Answer Op Op.Res) = ⟨.command (.get key), r⟩ :=
  congrArg (fun k => (⟨.command (.get k), r⟩ : Answer Op Op.Res)) h

/-- A key without NUL is deleted as it is. -/
theorem del_answer {key : Octets} (h : Octets.cStr key = key) (r : Option Reply) :
    (⟨delOp key, r⟩ : Answer Op Op.Res) = ⟨.command (.del key), r⟩ :=
  congrArg (fun k => (⟨.command (.del k), r⟩ : Answer Op Op.Res)) h

/-- The keys in a reply to `SMEMBERS`, none when it failed. -/
def memberKeys (reply : Option Reply) : List Octets :=
  (RedisClient.arrayReply reply).getD []

/-- The answers to deleting these keys. -/
def Deleted (keys : List Octets) (h : History) : Prop :=
  h.map Sigma.fst = keys.map delOp

/-- Every one of the keys is among the answers. -/
theorem Deleted.exists_mem {keys : List Octets} {d : History} (hd : Deleted keys d) {k : Octets}
    (hk : k ∈ keys) : ∃ r, (⟨delOp k, r⟩ : Answer Op Op.Res) ∈ d := by
  have hmem : delOp k ∈ d.map Sigma.fst := hd ▸ List.mem_map_of_mem hk
  obtain ⟨⟨o, r⟩, ha, ho⟩ := List.mem_map.mp hmem
  dsimp only at ho
  subst ho
  exact ⟨r, ha⟩

/-! ## Programs as trees -/

/-- What the `try` block of `ListUsers` leaves behind, with a missing entry counted as a block that
throws at once. -/
def triedPage (json : JsonLibrary) (r : Option Reply) (out : List User) :
    List User × Option Int64 :=
  ((RedisClient.stringReply r).map fun s => decodePage json s out).getD (out, none)

theorem create_user_eq (json : JsonLibrary) (name email : Text) (out : User) :
    createUser json name email out =
      .op .nowUnixSeconds fun now =>
      .op .acquire fun conn =>
      .op (.execute conn name email now) fun inserted =>
        if inserted then
          .op (.lastInsertId conn) fun id =>
          let user : User := ⟨Decimal.text id, name, email, now⟩
          .op (setOp (userKey user.id) (userToJsonString json user) 60) fun _ =>
          .op (smembersOp kListCacheIndex) fun keys =>
          delEach (memberKeys keys) >>= fun _ =>
          .op (delOp kListCacheIndex) fun _ =>
          .op (delOp totalUsersKey) fun _ =>
          .op (.release conn) fun _ => .pure (true, user)
        else
          .op (.release conn) fun _ => .pure (false, out) := by
  simp only [createUser, invalidateListCache, RedisClient.smembers, RedisClient.del,
    RedisClient.set, RedisClient.command, Program.call_bind, Program.op_bind, Program.bind_assoc]
  rfl

theorem get_user_eq (json : JsonLibrary) (id : Text) :
    getUser json id =
      .op (getOp (userKey id)) fun reply =>
        match (RedisClient.stringReply reply).bind (decodeUser json) with
        | some u => .pure (some u)
        | none =>
            .op .acquire fun conn =>
            .op (.query conn (.userById id)) fun res =>
              match res with
              | some (row :: _) =>
                  .op (setOp (userKey id) (userToJsonString json (rowToUser row)) 60) fun _ =>
                  .op (.release conn) fun _ => .pure (some (rowToUser row))
              | _ => .op (.release conn) fun _ => .pure none := by
  simp only [getUser, RedisClient.get, RedisClient.set, RedisClient.command, Program.call_bind,
    Program.op_bind]
  rfl

theorem list_users_eq (json : JsonLibrary) (limit offset : Int32) (out : List User)
    (total : Int64) :
    listUsers json limit offset out total =
      .op (getOp (listCacheKey limit offset)) fun reply =>
        match (triedPage json reply out).2 with
        | some cachedTotal => .pure (true, (triedPage json reply out).1, cachedTotal)
        | none =>
            .op .acquire fun conn =>
            .op (.query conn .countUsers) fun resCount =>
              match resCount with
              | none => .op (.release conn) fun _ =>
                  .pure (false, (triedPage json reply out).1, total)
              | some resCount =>
                  .op (.query conn (.usersPage limit offset)) fun res =>
                    match res with
                    | none => .op (.release conn) fun _ =>
                        .pure (false, (triedPage json reply out).1, total)
                    | some rows =>
                        .op (setOp (listCacheKey limit offset)
                          (json.dump (pageToJson (rowToCount resCount) (rows.map rowToUser))) 10)
                          fun _ =>
                        .op (saddOp kListCacheIndex (listCacheKey limit offset)) fun _ =>
                        .op (.release conn) fun _ =>
                          .pure (true, rows.map rowToUser, rowToCount resCount) := by
  simp only [listUsers, RedisClient.get, RedisClient.set, RedisClient.sadd, RedisClient.command,
    Program.call_bind, Program.op_bind]
  rfl

theorem get_stats_eq (totalUsers requestCount : Int64) :
    getStats totalUsers requestCount =
      .op (getOp totalUsersKey) fun reply =>
        match RedisClient.stringReply reply with
        | some s =>
            .op (getOp requestCountKey) fun rc =>
              .pure (true, strtoll s, ((RedisClient.stringReply rc).map strtoll).getD 0)
        | none =>
            .op .acquire fun conn =>
            .op (.query conn .countUsers) fun res =>
              match res with
              | none => .op (.release conn) fun _ => .pure (false, totalUsers, requestCount)
              | some res =>
                  .op (setOp totalUsersKey (Decimal.ofInt (rowToCount res).toInt) 30) fun _ =>
                  .op (.release conn) fun _ =>
                  .op (getOp requestCountKey) fun rc =>
                    .pure (true, rowToCount res,
                      ((RedisClient.stringReply rc).map strtoll).getD 0) := by
  simp only [getStats, readRequestCount, RedisClient.get, RedisClient.set, RedisClient.command,
    Program.call_bind, Program.op_bind]
  rfl

/-! ## Program points -/

/-- The answers of `CreateUser` up to the id of the row it inserted. -/
abbrev inserted (now : Int64) (conn : Nat) (name email : Text) (id : Nat) : History :=
  [⟨.nowUnixSeconds, now⟩, ⟨.acquire, conn⟩, ⟨.execute conn name email now, true⟩,
    ⟨.lastInsertId conn, id⟩]

/-- The user that `CreateUser` returns. -/
abbrev createdUser (id : Nat) (name email : Text) (now : Int64) : User :=
  ⟨Decimal.text id, name, email, now⟩

/-- The answers of `CreateUser` up to the keys that `InvalidateListCache` enumerates. -/
abbrev enumerated (json : JsonLibrary) (now : Int64) (conn : Nat) (name email : Text) (id : Nat)
    (set keys : Option Reply) : History :=
  inserted now conn name email id ++
    [⟨setOp (userKey (Decimal.text id)) (userToJsonString json (createdUser id name email now)) 60,
      set⟩, ⟨smembersOp kListCacheIndex, keys⟩]

/-- The points of `CreateUser`. -/
inductive CreateUserPoint (json : JsonLibrary) (name email : Text) (out : User) (h : History)
    (x : Head Op (Bool × User)) : Prop where
  | clock (hh : h = []) (hx : x = .issue .nowUnixSeconds)
  | acquire (now : Int64) (hh : h = [⟨.nowUnixSeconds, now⟩]) (hx : x = .issue .acquire)
  | execute (now : Int64) (conn : Nat) (hh : h = [⟨.nowUnixSeconds, now⟩, ⟨.acquire, conn⟩])
      (hx : x = .issue (.execute conn name email now))
  | releaseFailed (now : Int64) (conn : Nat)
      (hh : h = [⟨.nowUnixSeconds, now⟩, ⟨.acquire, conn⟩, ⟨.execute conn name email now, false⟩])
      (hx : x = .issue (.release conn))
  | failed (now : Int64) (conn : Nat)
      (hh : h = [⟨.nowUnixSeconds, now⟩, ⟨.acquire, conn⟩, ⟨.execute conn name email now, false⟩,
        ⟨.release conn, ()⟩])
      (hx : x = .done (false, out))
  | lastInsertId (now : Int64) (conn : Nat)
      (hh : h = [⟨.nowUnixSeconds, now⟩, ⟨.acquire, conn⟩, ⟨.execute conn name email now, true⟩])
      (hx : x = .issue (.lastInsertId conn))
  | set (now : Int64) (conn id : Nat) (hh : h = inserted now conn name email id)
      (hx : x = .issue (setOp (userKey (Decimal.text id))
        (userToJsonString json (createdUser id name email now)) 60))
  | smembers (now : Int64) (conn id : Nat) (set : Option Reply)
      (hh : h = inserted now conn name email id ++
        [⟨setOp (userKey (Decimal.text id))
          (userToJsonString json (createdUser id name email now)) 60, set⟩])
      (hx : x = .issue (smembersOp kListCacheIndex))
  | del (now : Int64) (conn id : Nat) (set keys : Option Reply) (d : History)
      (done : List Octets) (k : Octets) (rest : List Octets)
      (hkeys : memberKeys keys = done ++ k :: rest) (hd : Deleted done d)
      (hh : h = enumerated json now conn name email id set keys ++ d) (hx : x = .issue (delOp k))
  | delIndex (now : Int64) (conn id : Nat) (set keys : Option Reply) (d : History)
      (hd : Deleted (memberKeys keys) d)
      (hh : h = enumerated json now conn name email id set keys ++ d)
      (hx : x = .issue (delOp kListCacheIndex))
  | delTotal (now : Int64) (conn id : Nat) (set keys : Option Reply) (d : History)
      (r1 : Option Reply) (hd : Deleted (memberKeys keys) d)
      (hh : h = enumerated json now conn name email id set keys ++ d ++
        [⟨delOp kListCacheIndex, r1⟩])
      (hx : x = .issue (delOp totalUsersKey))
  | release (now : Int64) (conn id : Nat) (set keys : Option Reply) (d : History)
      (r1 r2 : Option Reply) (hd : Deleted (memberKeys keys) d)
      (hh : h = enumerated json now conn name email id set keys ++ d ++
        [⟨delOp kListCacheIndex, r1⟩, ⟨delOp totalUsersKey, r2⟩])
      (hx : x = .issue (.release conn))
  | created (now : Int64) (conn id : Nat) (set keys : Option Reply) (d : History)
      (r1 r2 : Option Reply) (hd : Deleted (memberKeys keys) d)
      (hh : h = enumerated json now conn name email id set keys ++ d ++
        [⟨delOp kListCacheIndex, r1⟩, ⟨delOp totalUsersKey, r2⟩, ⟨.release conn, ()⟩])
      (hx : x = .done (true, createdUser id name email now))

/-- The points of `GetUser`. -/
inductive GetUserPoint (json : JsonLibrary) (id : Text) (h : History)
    (x : Head Op (Option User)) : Prop where
  | get (hh : h = []) (hx : x = .issue (getOp (userKey id)))
  | hit (r : Option Reply) (u : User)
      (hhit : (RedisClient.stringReply r).bind (decodeUser json) = some u)
      (hh : h = [⟨getOp (userKey id), r⟩]) (hx : x = .done (some u))
  | acquire (r : Option Reply)
      (hmiss : (RedisClient.stringReply r).bind (decodeUser json) = none)
      (hh : h = [⟨getOp (userKey id), r⟩]) (hx : x = .issue .acquire)
  | query (r : Option Reply) (conn : Nat)
      (hmiss : (RedisClient.stringReply r).bind (decodeUser json) = none)
      (hh : h = [⟨getOp (userKey id), r⟩, ⟨.acquire, conn⟩])
      (hx : x = .issue (.query conn (.userById id)))
  | releaseMissing (r : Option Reply) (conn : Nat) (res : Option ResultSet)
      (hmiss : (RedisClient.stringReply r).bind (decodeUser json) = none)
      (hres : res = none ∨ res = some [])
      (hh : h = [⟨getOp (userKey id), r⟩, ⟨.acquire, conn⟩, ⟨.query conn (.userById id), res⟩])
      (hx : x = .issue (.release conn))
  | missing (r : Option Reply) (conn : Nat) (res : Option ResultSet)
      (hmiss : (RedisClient.stringReply r).bind (decodeUser json) = none)
      (hres : res = none ∨ res = some [])
      (hh : h = [⟨getOp (userKey id), r⟩, ⟨.acquire, conn⟩, ⟨.query conn (.userById id), res⟩,
        ⟨.release conn, ()⟩])
      (hx : x = .done none)
  | set (r : Option Reply) (conn : Nat) (row : Cells) (rest : ResultSet)
      (hmiss : (RedisClient.stringReply r).bind (decodeUser json) = none)
      (hh : h = [⟨getOp (userKey id), r⟩, ⟨.acquire, conn⟩,
        ⟨.query conn (.userById id), some (row :: rest)⟩])
      (hx : x = .issue (setOp (userKey id) (userToJsonString json (rowToUser row)) 60))
  | release (r : Option Reply) (conn : Nat) (row : Cells) (rest : ResultSet)
      (s : Option Reply)
      (hmiss : (RedisClient.stringReply r).bind (decodeUser json) = none)
      (hh : h = [⟨getOp (userKey id), r⟩, ⟨.acquire, conn⟩,
        ⟨.query conn (.userById id), some (row :: rest)⟩,
        ⟨setOp (userKey id) (userToJsonString json (rowToUser row)) 60, s⟩])
      (hx : x = .issue (.release conn))
  | found (r : Option Reply) (conn : Nat) (row : Cells) (rest : ResultSet) (s : Option Reply)
      (hmiss : (RedisClient.stringReply r).bind (decodeUser json) = none)
      (hh : h = [⟨getOp (userKey id), r⟩, ⟨.acquire, conn⟩,
        ⟨.query conn (.userById id), some (row :: rest)⟩,
        ⟨setOp (userKey id) (userToJsonString json (rowToUser row)) 60, s⟩, ⟨.release conn, ()⟩])
      (hx : x = .done (some (rowToUser row)))

/-- The answers of `ListUsers` up to the page it read. -/
abbrev pageRead (limit offset : Int32) (r : Option Reply) (conn : Nat)
    (count rows : ResultSet) : History :=
  [⟨getOp (listCacheKey limit offset), r⟩, ⟨.acquire, conn⟩,
    ⟨.query conn .countUsers, some count⟩, ⟨.query conn (.usersPage limit offset), some rows⟩]

/-- The text that `ListUsers` caches for these result sets. -/
abbrev pageText (json : JsonLibrary) (count rows : ResultSet) : Octets :=
  json.dump (pageToJson (rowToCount count) (rows.map rowToUser))

/-- The points of `ListUsers`. -/
inductive ListUsersPoint (json : JsonLibrary) (limit offset : Int32) (out : List User)
    (total : Int64) (h : History) (x : Head Op (Bool × List User × Int64)) : Prop where
  | get (hh : h = []) (hx : x = .issue (getOp (listCacheKey limit offset)))
  | hit (r : Option Reply) (cachedTotal : Int64)
      (hhit : (triedPage json r out).2 = some cachedTotal)
      (hh : h = [⟨getOp (listCacheKey limit offset), r⟩])
      (hx : x = .done (true, (triedPage json r out).1, cachedTotal))
  | acquire (r : Option Reply) (hmiss : (triedPage json r out).2 = none)
      (hh : h = [⟨getOp (listCacheKey limit offset), r⟩]) (hx : x = .issue .acquire)
  | count (r : Option Reply) (conn : Nat) (hmiss : (triedPage json r out).2 = none)
      (hh : h = [⟨getOp (listCacheKey limit offset), r⟩, ⟨.acquire, conn⟩])
      (hx : x = .issue (.query conn .countUsers))
  | releaseCount (r : Option Reply) (conn : Nat) (hmiss : (triedPage json r out).2 = none)
      (hh : h = [⟨getOp (listCacheKey limit offset), r⟩, ⟨.acquire, conn⟩,
        ⟨.query conn .countUsers, none⟩])
      (hx : x = .issue (.release conn))
  | failedCount (r : Option Reply) (conn : Nat) (hmiss : (triedPage json r out).2 = none)
      (hh : h = [⟨getOp (listCacheKey limit offset), r⟩, ⟨.acquire, conn⟩,
        ⟨.query conn .countUsers, none⟩, ⟨.release conn, ()⟩])
      (hx : x = .done (false, (triedPage json r out).1, total))
  | page (r : Option Reply) (conn : Nat) (count : ResultSet)
      (hmiss : (triedPage json r out).2 = none)
      (hh : h = [⟨getOp (listCacheKey limit offset), r⟩, ⟨.acquire, conn⟩,
        ⟨.query conn .countUsers, some count⟩])
      (hx : x = .issue (.query conn (.usersPage limit offset)))
  | releasePage (r : Option Reply) (conn : Nat) (count : ResultSet)
      (hmiss : (triedPage json r out).2 = none)
      (hh : h = [⟨getOp (listCacheKey limit offset), r⟩, ⟨.acquire, conn⟩,
        ⟨.query conn .countUsers, some count⟩, ⟨.query conn (.usersPage limit offset), none⟩])
      (hx : x = .issue (.release conn))
  | failedPage (r : Option Reply) (conn : Nat) (count : ResultSet)
      (hmiss : (triedPage json r out).2 = none)
      (hh : h = [⟨getOp (listCacheKey limit offset), r⟩, ⟨.acquire, conn⟩,
        ⟨.query conn .countUsers, some count⟩, ⟨.query conn (.usersPage limit offset), none⟩,
        ⟨.release conn, ()⟩])
      (hx : x = .done (false, (triedPage json r out).1, total))
  | set (r : Option Reply) (conn : Nat) (count rows : ResultSet)
      (hmiss : (triedPage json r out).2 = none)
      (hh : h = pageRead limit offset r conn count rows)
      (hx : x = .issue (setOp (listCacheKey limit offset) (pageText json count rows) 10))
  | sadd (r : Option Reply) (conn : Nat) (count rows : ResultSet) (s : Option Reply)
      (hmiss : (triedPage json r out).2 = none)
      (hh : h = pageRead limit offset r conn count rows ++
        [⟨setOp (listCacheKey limit offset) (pageText json count rows) 10, s⟩])
      (hx : x = .issue (saddOp kListCacheIndex (listCacheKey limit offset)))
  | release (r : Option Reply) (conn : Nat) (count rows : ResultSet) (s a : Option Reply)
      (hmiss : (triedPage json r out).2 = none)
      (hh : h = pageRead limit offset r conn count rows ++
        [⟨setOp (listCacheKey limit offset) (pageText json count rows) 10, s⟩,
          ⟨saddOp kListCacheIndex (listCacheKey limit offset), a⟩])
      (hx : x = .issue (.release conn))
  | found (r : Option Reply) (conn : Nat) (count rows : ResultSet) (s a : Option Reply)
      (hmiss : (triedPage json r out).2 = none)
      (hh : h = pageRead limit offset r conn count rows ++
        [⟨setOp (listCacheKey limit offset) (pageText json count rows) 10, s⟩,
          ⟨saddOp kListCacheIndex (listCacheKey limit offset), a⟩, ⟨.release conn, ()⟩])
      (hx : x = .done (true, rows.map rowToUser, rowToCount count))

/-- The points of `GetStats`. -/
inductive GetStatsPoint (totalUsers requestCount : Int64) (h : History)
    (x : Head Op (Bool × Int64 × Int64)) : Prop where
  | get (hh : h = []) (hx : x = .issue (getOp totalUsersKey))
  | hitCount (r : Option Reply) (s : Octets) (hhit : RedisClient.stringReply r = some s)
      (hh : h = [⟨getOp totalUsersKey, r⟩]) (hx : x = .issue (getOp requestCountKey))
  | hit (r : Option Reply) (s : Octets) (rc : Option Reply)
      (hhit : RedisClient.stringReply r = some s)
      (hh : h = [⟨getOp totalUsersKey, r⟩, ⟨getOp requestCountKey, rc⟩])
      (hx : x = .done (true, strtoll s, ((RedisClient.stringReply rc).map strtoll).getD 0))
  | acquire (r : Option Reply) (hmiss : RedisClient.stringReply r = none)
      (hh : h = [⟨getOp totalUsersKey, r⟩]) (hx : x = .issue .acquire)
  | count (r : Option Reply) (conn : Nat) (hmiss : RedisClient.stringReply r = none)
      (hh : h = [⟨getOp totalUsersKey, r⟩, ⟨.acquire, conn⟩])
      (hx : x = .issue (.query conn .countUsers))
  | releaseFailed (r : Option Reply) (conn : Nat) (hmiss : RedisClient.stringReply r = none)
      (hh : h = [⟨getOp totalUsersKey, r⟩, ⟨.acquire, conn⟩, ⟨.query conn .countUsers, none⟩])
      (hx : x = .issue (.release conn))
  | failed (r : Option Reply) (conn : Nat) (hmiss : RedisClient.stringReply r = none)
      (hh : h = [⟨getOp totalUsersKey, r⟩, ⟨.acquire, conn⟩, ⟨.query conn .countUsers, none⟩,
        ⟨.release conn, ()⟩])
      (hx : x = .done (false, totalUsers, requestCount))
  | set (r : Option Reply) (conn : Nat) (count : ResultSet)
      (hmiss : RedisClient.stringReply r = none)
      (hh : h = [⟨getOp totalUsersKey, r⟩, ⟨.acquire, conn⟩,
        ⟨.query conn .countUsers, some count⟩])
      (hx : x = .issue (setOp totalUsersKey (Decimal.ofInt (rowToCount count).toInt) 30))
  | release (r : Option Reply) (conn : Nat) (count : ResultSet) (s : Option Reply)
      (hmiss : RedisClient.stringReply r = none)
      (hh : h = [⟨getOp totalUsersKey, r⟩, ⟨.acquire, conn⟩,
        ⟨.query conn .countUsers, some count⟩,
        ⟨setOp totalUsersKey (Decimal.ofInt (rowToCount count).toInt) 30, s⟩])
      (hx : x = .issue (.release conn))
  | missCount (r : Option Reply) (conn : Nat) (count : ResultSet) (s : Option Reply)
      (hmiss : RedisClient.stringReply r = none)
      (hh : h = [⟨getOp totalUsersKey, r⟩, ⟨.acquire, conn⟩,
        ⟨.query conn .countUsers, some count⟩,
        ⟨setOp totalUsersKey (Decimal.ofInt (rowToCount count).toInt) 30, s⟩,
        ⟨.release conn, ()⟩])
      (hx : x = .issue (getOp requestCountKey))
  | counted (r : Option Reply) (conn : Nat) (count : ResultSet) (s rc : Option Reply)
      (hmiss : RedisClient.stringReply r = none)
      (hh : h = [⟨getOp totalUsersKey, r⟩, ⟨.acquire, conn⟩,
        ⟨.query conn .countUsers, some count⟩,
        ⟨setOp totalUsersKey (Decimal.ofInt (rowToCount count).toInt) 30, s⟩,
        ⟨.release conn, ()⟩, ⟨getOp requestCountKey, rc⟩])
      (hx : x = .done (true, rowToCount count, ((RedisClient.stringReply rc).map strtoll).getD 0))

/-! ## The lists are complete -/

variable {json : JsonLibrary} {α : Type}

/-- The loop of `InvalidateListCache` is at one of its keys, or has deleted them all. -/
theorem after_del_each {keys : List Octets} {f : Unit → Prog α} {h : History} {q : Prog α}
    (hp : After (delEach keys >>= f) h q) :
    (∃ done k rest, keys = done ++ k :: rest ∧ Deleted done h ∧ q.head = .issue (delOp k)) ∨
      ∃ d h', h = d ++ h' ∧ Deleted keys d ∧ After (f ()) h' q := by
  induction keys generalizing h with
  | nil => exact .inr ⟨[], h, rfl, rfl, hp⟩
  | cons key keys ih =>
      have hloop : (delEach (key :: keys) >>= f) =
          .op (delOp key) fun _ => delEach keys >>= f := by
        simp only [delEach, RedisClient.del, RedisClient.command, Program.call_bind,
          Program.op_bind, Program.bind_assoc]
        rfl
      rw [hloop] at hp
      replace hp := after_op.mp hp
      rcases hp with ⟨rfl, rfl⟩ | ⟨r, h, rfl, hp⟩
      · exact .inl ⟨[], key, keys, rfl, rfl, rfl⟩
      · rcases ih hp with ⟨done, k, rest, hkeys, hdone, hq⟩ | ⟨d, h', rfl, hd, hq⟩
        · refine .inl ⟨key :: done, k, rest, by rw [hkeys]; rfl, ?_, hq⟩
          exact congrArg (delOp key :: ·) hdone
        · exact .inr ⟨⟨delOp key, r⟩ :: d, h', rfl, congrArg (delOp key :: ·) hd, hq⟩

/-- `CreateUser` is at one of its points. -/
theorem create_user_point {name email : Text} {out : User} {h : History}
    {q : Prog (Bool × User)} (hp : After (createUser json name email out) h q) :
    CreateUserPoint json name email out h q.head := by
  rw [create_user_eq] at hp
  replace hp := after_op.mp hp
  rcases hp with ⟨rfl, rfl⟩ | ⟨now, h, rfl, hp⟩
  · exact .clock rfl rfl
  replace hp := after_op.mp hp
  rcases hp with ⟨rfl, rfl⟩ | ⟨conn, h, rfl, hp⟩
  · exact .acquire now rfl rfl
  replace hp := after_op.mp hp
  rcases hp with ⟨rfl, rfl⟩ | ⟨inserted, h, rfl, hp⟩
  · exact .execute now conn rfl rfl
  -- a failed INSERT goes straight to the release
  cases inserted with
  | false =>
      replace hp := after_op.mp hp
      rcases hp with ⟨rfl, rfl⟩ | ⟨_, h, rfl, hp⟩
      · exact .releaseFailed now conn rfl rfl
      obtain ⟨rfl, rfl⟩ := after_pure.mp hp
      exact .failed now conn rfl rfl
  | true =>
      replace hp := after_op.mp hp
      rcases hp with ⟨rfl, rfl⟩ | ⟨id, h, rfl, hp⟩
      · exact .lastInsertId now conn rfl rfl
      replace hp := after_op.mp hp
      rcases hp with ⟨rfl, rfl⟩ | ⟨set, h, rfl, hp⟩
      · exact .set now conn id rfl rfl
      replace hp := after_op.mp hp
      rcases hp with ⟨rfl, rfl⟩ | ⟨keys, h, rfl, hp⟩
      · exact .smembers now conn id set rfl rfl
      -- the loop over the index: in the middle of it, or behind it
      replace hp := after_del_each hp
      rcases hp with ⟨done, k, rest, hkeys, hdone, hq⟩ | ⟨d, h, rfl, hd, hp⟩
      · exact .del now conn id set keys _ done k rest hkeys hdone rfl hq
      replace hp := after_op.mp hp
      rcases hp with ⟨rfl, rfl⟩ | ⟨r1, h, rfl, hp⟩
      · exact .delIndex now conn id set keys d hd (by simp) rfl
      replace hp := after_op.mp hp
      rcases hp with ⟨rfl, rfl⟩ | ⟨r2, h, rfl, hp⟩
      · exact .delTotal now conn id set keys d r1 hd (by simp) rfl
      replace hp := after_op.mp hp
      rcases hp with ⟨rfl, rfl⟩ | ⟨_, h, rfl, hp⟩
      · exact .release now conn id set keys d r1 r2 hd (by simp) rfl
      obtain ⟨rfl, rfl⟩ := after_pure.mp hp
      exact .created now conn id set keys d r1 r2 hd (by simp) rfl

/-- `GetUser` is at one of its points. -/
theorem get_user_point {id : Text} {h : History} {q : Prog (Option User)}
    (hp : After (getUser json id) h q) : GetUserPoint json id h q.head := by
  rw [get_user_eq] at hp
  replace hp := after_op.mp hp
  rcases hp with ⟨rfl, rfl⟩ | ⟨r, h, rfl, hp⟩
  · exact .get rfl rfl
  split at hp
  · rename_i u hhit
    obtain ⟨rfl, rfl⟩ := after_pure.mp hp
    exact .hit r u hhit rfl rfl
  rename_i hmiss
  replace hp := after_op.mp hp
  rcases hp with ⟨rfl, rfl⟩ | ⟨conn, h, rfl, hp⟩
  · exact .acquire r hmiss rfl rfl
  replace hp := after_op.mp hp
  rcases hp with ⟨rfl, rfl⟩ | ⟨res, h, rfl, hp⟩
  · exact .query r conn hmiss rfl rfl
  split at hp
  · rename_i row rest
    replace hp := after_op.mp hp
    rcases hp with ⟨rfl, rfl⟩ | ⟨s, h, rfl, hp⟩
    · exact .set r conn row rest hmiss rfl rfl
    replace hp := after_op.mp hp
    rcases hp with ⟨rfl, rfl⟩ | ⟨_, h, rfl, hp⟩
    · exact .release r conn row rest s hmiss rfl rfl
    obtain ⟨rfl, rfl⟩ := after_pure.mp hp
    exact .found r conn row rest s hmiss rfl rfl
  · rename_i hnone
    -- a failed query and an empty result take the same way
    have hres : res = none ∨ res = some [] := by
      rcases res with _ | _ | ⟨row, rest⟩
      · exact .inl rfl
      · exact .inr rfl
      · exact absurd rfl (hnone row rest)
    replace hp := after_op.mp hp
    rcases hp with ⟨rfl, rfl⟩ | ⟨_, h, rfl, hp⟩
    · exact .releaseMissing r conn res hmiss hres rfl rfl
    obtain ⟨rfl, rfl⟩ := after_pure.mp hp
    exact .missing r conn res hmiss hres rfl rfl

/-- `ListUsers` is at one of its points. -/
theorem list_users_point {limit offset : Int32} {out : List User} {total : Int64} {h : History}
    {q : Prog (Bool × List User × Int64)}
    (hp : After (listUsers json limit offset out total) h q) :
    ListUsersPoint json limit offset out total h q.head := by
  rw [list_users_eq] at hp
  replace hp := after_op.mp hp
  rcases hp with ⟨rfl, rfl⟩ | ⟨r, h, rfl, hp⟩
  · exact .get rfl rfl
  split at hp
  · rename_i cachedTotal hhit
    obtain ⟨rfl, rfl⟩ := after_pure.mp hp
    exact .hit r cachedTotal hhit rfl rfl
  -- no entry, or one that does not decode
  rename_i hmiss
  replace hp := after_op.mp hp
  rcases hp with ⟨rfl, rfl⟩ | ⟨conn, h, rfl, hp⟩
  · exact .acquire r hmiss rfl rfl
  replace hp := after_op.mp hp
  rcases hp with ⟨rfl, rfl⟩ | ⟨count, h, rfl, hp⟩
  · exact .count r conn hmiss rfl rfl
  cases count with
  | none =>
      replace hp := after_op.mp hp
      rcases hp with ⟨rfl, rfl⟩ | ⟨_, h, rfl, hp⟩
      · exact .releaseCount r conn hmiss rfl rfl
      obtain ⟨rfl, rfl⟩ := after_pure.mp hp
      exact .failedCount r conn hmiss rfl rfl
  | some count =>
      replace hp := after_op.mp hp
      rcases hp with ⟨rfl, rfl⟩ | ⟨rows, h, rfl, hp⟩
      · exact .page r conn count hmiss rfl rfl
      cases rows with
      | none =>
          replace hp := after_op.mp hp
          rcases hp with ⟨rfl, rfl⟩ | ⟨_, h, rfl, hp⟩
          · exact .releasePage r conn count hmiss rfl rfl
          obtain ⟨rfl, rfl⟩ := after_pure.mp hp
          exact .failedPage r conn count hmiss rfl rfl
      | some rows =>
          replace hp := after_op.mp hp
          rcases hp with ⟨rfl, rfl⟩ | ⟨s, h, rfl, hp⟩
          · exact .set r conn count rows hmiss rfl rfl
          replace hp := after_op.mp hp
          rcases hp with ⟨rfl, rfl⟩ | ⟨a, h, rfl, hp⟩
          · exact .sadd r conn count rows s hmiss rfl rfl
          replace hp := after_op.mp hp
          rcases hp with ⟨rfl, rfl⟩ | ⟨_, h, rfl, hp⟩
          · exact .release r conn count rows s a hmiss rfl rfl
          obtain ⟨rfl, rfl⟩ := after_pure.mp hp
          exact .found r conn count rows s a hmiss rfl rfl

/-- `GetStats` is at one of its points. -/
theorem get_stats_point {totalUsers requestCount : Int64} {h : History}
    {q : Prog (Bool × Int64 × Int64)} (hp : After (getStats totalUsers requestCount) h q) :
    GetStatsPoint totalUsers requestCount h q.head := by
  rw [get_stats_eq] at hp
  replace hp := after_op.mp hp
  rcases hp with ⟨rfl, rfl⟩ | ⟨r, h, rfl, hp⟩
  · exact .get rfl rfl
  split at hp
  · rename_i s hhit
    replace hp := after_op.mp hp
    rcases hp with ⟨rfl, rfl⟩ | ⟨rc, h, rfl, hp⟩
    · exact .hitCount r s hhit rfl rfl
    obtain ⟨rfl, rfl⟩ := after_pure.mp hp
    exact .hit r s rc hhit rfl rfl
  -- only without an entry; one that is no number counts as a hit
  rename_i hmiss
  replace hp := after_op.mp hp
  rcases hp with ⟨rfl, rfl⟩ | ⟨conn, h, rfl, hp⟩
  · exact .acquire r hmiss rfl rfl
  replace hp := after_op.mp hp
  rcases hp with ⟨rfl, rfl⟩ | ⟨count, h, rfl, hp⟩
  · exact .count r conn hmiss rfl rfl
  cases count with
  | none =>
      replace hp := after_op.mp hp
      rcases hp with ⟨rfl, rfl⟩ | ⟨_, h, rfl, hp⟩
      · exact .releaseFailed r conn hmiss rfl rfl
      obtain ⟨rfl, rfl⟩ := after_pure.mp hp
      exact .failed r conn hmiss rfl rfl
  | some count =>
      replace hp := after_op.mp hp
      rcases hp with ⟨rfl, rfl⟩ | ⟨s, h, rfl, hp⟩
      · exact .set r conn count hmiss rfl rfl
      replace hp := after_op.mp hp
      rcases hp with ⟨rfl, rfl⟩ | ⟨_, h, rfl, hp⟩
      · exact .release r conn count s hmiss rfl rfl
      replace hp := after_op.mp hp
      rcases hp with ⟨rfl, rfl⟩ | ⟨rc, h, rfl, hp⟩
      · exact .missCount r conn count s hmiss rfl rfl
      obtain ⟨rfl, rfl⟩ := after_pure.mp hp
      exact .counted r conn count s rc hmiss rfl rfl

end HttpServerDemo
