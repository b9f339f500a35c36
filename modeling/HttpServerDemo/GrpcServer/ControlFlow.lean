import HttpServerDemo.GrpcServer.UserService
import HttpServerDemo.Store.ControlFlow

/-!
# The program points of the server

A call is counted, is rejected or is at a point of its repository function, whose result the
handler turns into the response. `server_point` says that this list is complete; the rest of the
module reads off it where the commands of each kind are issued, and `Run.op_point` and
`Run.ret_point` say the same of the entries of a log.
-/

namespace HttpServerDemo

open Interleaving Keyspace

/-- The command of `CountRequest`. -/
abbrev incrOp : Op := .command (.incr (Octets.cStr requestCountKey))

/-- How `UserServiceImpl::CreateUser` answers. -/
def createReply : Bool × User → Response
  | (true, user) => .user user
  | (false, _) => .error .internal "create user failed"

/-- How `UserServiceImpl::GetUser` answers. -/
def getReply : Option User → Response
  | some user => .user user
  | none => .error .notFound "user not found"

/-- How `UserServiceImpl::ListUsers` answers. -/
def listReply : Bool × List User × Int64 → Response
  | (true, users, total) => .page users total
  | (false, _, _) => .error .internal "list users failed"

/-- How `UserServiceImpl::GetStats` answers. -/
def statsReply : Bool × Int64 × Int64 → Response
  | (true, totalUsers, requestCount) => .stats totalUsers requestCount
  | (false, _, _) => .error .internal "get stats failed"

/-- The points of a call to the server. -/
inductive ServerPoint (json : JsonLibrary) : Request → History → Head Op Response → Prop where
  | count {req} (hreq : req ≠ .getStats) : ServerPoint json req [] (.issue incrOp)
  | rejectedName {name email} (r : Option Reply) (hname : name.bytes = []) :
      ServerPoint json (.createUser name email) [⟨incrOp, r⟩]
        (.done (.error .invalidArgument "name is required"))
  | rejectedId {id} (r : Option Reply) (hid : id.bytes = []) :
      ServerPoint json (.getUser id) [⟨incrOp, r⟩]
        (.done (.error .invalidArgument "id is required"))
  | createUser {name email h x} (r : Option Reply) (hname : name.bytes ≠ [])
      (hpoint : CreateUserPoint json name email UserServiceImpl.emptyUser h x) :
      ServerPoint json (.createUser name email) (⟨incrOp, r⟩ :: h) (x.map createReply)
  | getUser {id h x} (r : Option Reply) (hid : id.bytes ≠ []) (hpoint : GetUserPoint json id h x) :
      ServerPoint json (.getUser id) (⟨incrOp, r⟩ :: h) (x.map getReply)
  | listUsers {limit offset h x} (r : Option Reply)
      (hpoint : ListUsersPoint json (UserServiceImpl.pageLimit limit)
        (UserServiceImpl.pageOffset offset) [] 0 h x) :
      ServerPoint json (.listUsers limit offset) (⟨incrOp, r⟩ :: h) (x.map listReply)
  | getStats {h x} (hpoint : GetStatsPoint 0 0 h x) :
      ServerPoint json .getStats h (x.map statsReply)

variable {json : JsonLibrary} {req : Request} {h : History}

/-! ## Handlers as trees -/

theorem count_request_eq {α : Type} (p : Prog α) :
    (countRequest >>= fun _ => p) = .op incrOp fun _ => p := by
  simp only [countRequest, RedisClient.incr, RedisClient.command, Program.call_bind,
    Program.op_bind]
  refine congrArg (Program.op incrOp) (funext fun r => ?_)
  split <;> rfl

theorem create_user_handler_eq (json : JsonLibrary) (name email : Text) :
    UserServiceImpl.createUser json name email =
      .op incrOp fun _ =>
        if name.bytes.isEmpty then .pure (.error .invalidArgument "name is required")
        else createUser json name email UserServiceImpl.emptyUser >>= fun x =>
          pure (createReply x) := by
  have hreply : (fun x : Bool × User => pure (createReply x)) =
      fun x : Bool × User => (if x.1 then pure (.user x.2)
        else pure (.error .internal "create user failed") : Prog Response) := by
    funext ⟨created, user⟩
    cases created <;> rfl
  rw [hreply]
  exact count_request_eq _

theorem get_user_handler_eq (json : JsonLibrary) (id : Text) :
    UserServiceImpl.getUser json id =
      .op incrOp fun _ =>
        if id.bytes.isEmpty then .pure (.error .invalidArgument "id is required")
        else getUser json id >>= fun x => pure (getReply x) := by
  have hreply : (fun x : Option User => pure (getReply x)) =
      fun x : Option User => (match x with
        | some user => pure (.user user)
        | none => pure (.error .notFound "user not found") : Prog Response) := by
    funext x
    cases x <;> rfl
  rw [hreply]
  exact count_request_eq _

theorem list_users_handler_eq (json : JsonLibrary) (limit offset : Int32) :
    UserServiceImpl.listUsers json limit offset =
      .op incrOp fun _ =>
        listUsers json (UserServiceImpl.pageLimit limit) (UserServiceImpl.pageOffset offset) [] 0
          >>= fun x => pure (listReply x) := by
  have hreply : (fun x : Bool × List User × Int64 => pure (listReply x)) =
      fun x : Bool × List User × Int64 => (if x.1 then pure (.page x.2.1 x.2.2)
        else pure (.error .internal "list users failed") : Prog Response) := by
    funext ⟨found, users, total⟩
    cases found <;> rfl
  rw [hreply]
  exact count_request_eq _

theorem get_stats_handler_eq :
    UserServiceImpl.getStats = getStats 0 0 >>= fun x => pure (statsReply x) := by
  have hreply : (fun x : Bool × Int64 × Int64 => pure (statsReply x)) =
      fun x : Bool × Int64 × Int64 => (if x.1 then pure (.stats x.2.1 x.2.2)
        else pure (.error .internal "get stats failed") : Prog Response) := by
    funext ⟨found, totalUsers, requestCount⟩
    cases found <;> rfl
  rw [hreply]
  rfl

/-- A call to the server is at one of its points. -/
theorem server_point {q : Prog Response} (hq : After (UserServiceImpl.handle json req) h q) :
    ServerPoint json req h q.head := by
  cases req with
  | createUser name email =>
      rw [UserServiceImpl.handle, create_user_handler_eq] at hq
      replace hq := after_op.mp hq
      rcases hq with ⟨rfl, rfl⟩ | ⟨r, h, rfl, hq⟩
      · exact .count (by simp)
      split at hq
      · rename_i hname
        obtain ⟨rfl, rfl⟩ := after_pure.mp hq
        exact .rejectedName r (List.isEmpty_iff.mp hname)
      · rename_i hname
        obtain ⟨q', hp, hhead⟩ := after_map hq
        exact hhead ▸ .createUser r (by simpa using hname) (create_user_point hp)
  | getUser id =>
      rw [UserServiceImpl.handle, get_user_handler_eq] at hq
      replace hq := after_op.mp hq
      rcases hq with ⟨rfl, rfl⟩ | ⟨r, h, rfl, hq⟩
      · exact .count (by simp)
      split at hq
      · rename_i hid
        obtain ⟨rfl, rfl⟩ := after_pure.mp hq
        exact .rejectedId r (List.isEmpty_iff.mp hid)
      · rename_i hid
        obtain ⟨q', hp, hhead⟩ := after_map hq
        exact hhead ▸ .getUser r (by simpa using hid) (get_user_point hp)
  | listUsers limit offset =>
      rw [UserServiceImpl.handle, list_users_handler_eq] at hq
      replace hq := after_op.mp hq
      rcases hq with ⟨rfl, rfl⟩ | ⟨r, h, rfl, hq⟩
      · exact .count (by simp)
      obtain ⟨q', hp, hhead⟩ := after_map hq
      exact hhead ▸ .listUsers r (list_users_point hp)
  | getStats =>
      rw [UserServiceImpl.handle, get_stats_handler_eq] at hq
      obtain ⟨q', hp, hhead⟩ := after_map hq
      exact hhead ▸ .getStats (get_stats_point hp)

/-! ## Connections held -/

/-- The connection a call holds after these answers, where it held `conn` before them. -/
def holding (conn : Option Nat) : History → Option Nat
  | [] => conn
  | ⟨.acquire, taken⟩ :: h => holding (some taken) h
  | ⟨.release _, _⟩ :: h => holding none h
  | _ :: h => holding conn h

theorem holding_append (conn : Option Nat) (h1 h2 : History) :
    holding conn (h1 ++ h2) = holding (holding conn h1) h2 := by
  fun_induction holding conn h1 with
  | case1 => rfl
  | case2 conn taken h ih => exact ih
  | case3 conn c r h ih => exact ih
  | case4 conn a h hacquire hrelease ih =>
      rw [List.cons_append, holding]
      · exact ih
      · exact hacquire
      · exact hrelease

/-- Deleting keys takes no connection and gives none back. -/
theorem holding_deleted {conn : Option Nat} {keys : List Octets} {d : History}
    (hd : Deleted keys d) : holding conn d = conn := by
  induction d generalizing keys with
  | nil => rfl
  | cons a d ih =>
      cases keys with
      | nil => cases hd
      | cons k keys =>
          obtain ⟨hop, hrest⟩ := List.cons.inj hd
          obtain ⟨o, r⟩ := a
          dsimp only at hop
          subst hop
          rw [holding]
          · exact ih hrest
          · simp
          · simp

/-- A call releases the connection that it holds. -/
theorem ServerPoint.release {conn : Nat}
    (hp : ServerPoint json req h (.issue (.release conn))) : holding none h = some conn := by
  generalize hx : (Head.issue (.release conn) : Head Op Response) = x at hp
  cases hp with
  | count | rejectedName | rejectedId => cases hx
  | createUser r _ hpoint =>
      rw [Head.map_eq_issue hx.symm] at hpoint
      cases hpoint
      case releaseFailed hh hx =>
        cases hx
        subst hh
        rfl
      case release now id set keys d r1 r2 hd hh hx =>
        cases hx
        subst hh
        simp only [inserted, enumerated, List.cons_append, List.nil_append, holding,
          holding_append, holding_deleted hd]
      all_goals rename_i hx; cases hx
  | getUser r _ hpoint | listUsers r hpoint | getStats hpoint =>
      rw [Head.map_eq_issue hx.symm] at hpoint
      cases hpoint
      all_goals
        rename_i hh hx
        cases hx
        try (subst hh; rfl)

/-- A call that asks for a connection holds none. -/
theorem ServerPoint.acquire (hp : ServerPoint json req h (.issue .acquire)) :
    holding none h = none := by
  generalize hx : (Head.issue .acquire : Head Op Response) = x at hp
  cases hp with
  | count | rejectedName | rejectedId => cases hx
  | createUser r _ hpoint | getUser r _ hpoint | listUsers r hpoint | getStats hpoint =>
      rw [Head.map_eq_issue hx.symm] at hpoint
      cases hpoint
      all_goals
        rename_i hh hx
        cases hx
        try (subst hh; rfl)

/-- A call that is done has given its connection back. -/
theorem ServerPoint.done {resp : Response} (hp : ServerPoint json req h (.done resp)) :
    holding none h = none := by
  generalize hx : (Head.done resp : Head Op Response) = x at hp
  cases hp with
  | count => cases hx
  | rejectedName | rejectedId => rfl
  | createUser r _ hpoint =>
      obtain ⟨reply, hdone, -⟩ := Head.map_eq_done hx.symm
      rw [hdone] at hpoint
      cases hpoint
      case created now conn id set keys d r1 r2 hd hh hx =>
        subst hh
        simp only [inserted, enumerated, List.cons_append, List.nil_append, holding,
          holding_append]
      all_goals
        rename_i hh hx
        cases hx
        try (subst hh; rfl)
  | getUser r _ hpoint | listUsers r hpoint | getStats hpoint =>
      obtain ⟨reply, hdone, -⟩ := Head.map_eq_done hx.symm
      rw [hdone] at hpoint
      cases hpoint
      all_goals
        rename_i hh hx
        cases hx
        try (subst hh; rfl)

/-! ## Where the commands are issued -/

/-- The places that issue `SET`. -/
inductive SetPoint (json : JsonLibrary) (key value : Octets) (ttl : Option Nat) :
    Request → History → Prop where
  | createUser {name email} (r : Option Reply) (now : Int64) (conn id : Nat)
      (hkey : key = Octets.cStr (userKey (Decimal.text id)))
      (hvalue : value = Octets.cStr (userToJsonString json (createdUser id name email now)))
      (httl : ttl = some 60) :
      SetPoint json key value ttl (.createUser name email)
        (⟨incrOp, r⟩ :: inserted now conn name email id)
  | getUser {id} (r g : Option Reply) (conn : Nat) (row : Cells) (rest : ResultSet)
      (hkey : key = Octets.cStr (userKey id))
      (hvalue : value = Octets.cStr (userToJsonString json (rowToUser row)))
      (httl : ttl = some 60) :
      SetPoint json key value ttl (.getUser id)
        [⟨incrOp, r⟩, ⟨getOp (userKey id), g⟩, ⟨.acquire, conn⟩,
          ⟨.query conn (.userById id), some (row :: rest)⟩]
  | listUsers {limit offset} (r g : Option Reply) (conn : Nat) (count rows : ResultSet)
      (hkey : key = Octets.cStr (listCacheKey (UserServiceImpl.pageLimit limit)
        (UserServiceImpl.pageOffset offset)))
      (hvalue : value = Octets.cStr (pageText json count rows)) (httl : ttl = some 10) :
      SetPoint json key value ttl (.listUsers limit offset)
        (⟨incrOp, r⟩ :: pageRead (UserServiceImpl.pageLimit limit)
          (UserServiceImpl.pageOffset offset) g conn count rows)
  | getStats (g : Option Reply) (conn : Nat) (count : ResultSet)
      (hkey : key = Octets.cStr totalUsersKey)
      (hvalue : value = Octets.cStr (Decimal.ofInt (rowToCount count).toInt))
      (httl : ttl = some 30) :
      SetPoint json key value ttl .getStats
        [⟨getOp totalUsersKey, g⟩, ⟨.acquire, conn⟩, ⟨.query conn .countUsers, some count⟩]

/-- `SET` is issued at one of these places. -/
theorem ServerPoint.set {key value : Octets} {ttl : Option Nat}
    (hp : ServerPoint json req h (.issue (.command (.set key value ttl)))) :
    SetPoint json key value ttl req h := by
  generalize hx : (Head.issue (.command (.set key value ttl)) : Head Op Response) = x at hp
  cases hp with
  | count | rejectedName | rejectedId => cases hx
  | createUser r _ hpoint =>
      rw [Head.map_eq_issue hx.symm] at hpoint
      cases hpoint
      case set now conn id hh hx =>
        cases hx
        subst hh
        exact .createUser r now conn id rfl rfl rfl
      all_goals rename_i hx; cases hx
  | getUser r _ hpoint =>
      rw [Head.map_eq_issue hx.symm] at hpoint
      cases hpoint
      case set g conn row rest hmiss hh hx =>
        cases hx
        subst hh
        exact .getUser r g conn row rest rfl rfl rfl
      all_goals rename_i hx; cases hx
  | listUsers r hpoint =>
      rw [Head.map_eq_issue hx.symm] at hpoint
      cases hpoint
      case set g conn count rows hmiss hh hx =>
        cases hx
        subst hh
        exact .listUsers r g conn count rows rfl rfl rfl
      all_goals rename_i hx; cases hx
  | getStats hpoint =>
      rw [Head.map_eq_issue hx.symm] at hpoint
      cases hpoint
      case set g conn count hmiss hh hx =>
        cases hx
        subst hh
        exact .getStats g conn count rfl rfl rfl
      all_goals rename_i hx; cases hx

/-- `SADD` is issued by `ListUsers`, after its `SET`, and adds its key to the index. -/
theorem ServerPoint.sadd {key member : Octets}
    (hp : ServerPoint json req h (.issue (.command (.sadd key member)))) :
    ∃ limit offset r g conn count rows s, req = .listUsers limit offset ∧
      key = Octets.cStr kListCacheIndex ∧
      member = Octets.cStr (listCacheKey (UserServiceImpl.pageLimit limit)
        (UserServiceImpl.pageOffset offset)) ∧
      h = ⟨incrOp, r⟩ :: pageRead (UserServiceImpl.pageLimit limit)
        (UserServiceImpl.pageOffset offset) g conn count rows ++
          [⟨setOp (listCacheKey (UserServiceImpl.pageLimit limit)
            (UserServiceImpl.pageOffset offset)) (pageText json count rows) 10, s⟩] := by
  generalize hx : (Head.issue (.command (.sadd key member)) : Head Op Response) = x at hp
  cases hp with
  | count | rejectedName | rejectedId => cases hx
  | createUser r _ hpoint | getUser r _ hpoint | getStats hpoint =>
      rw [Head.map_eq_issue hx.symm] at hpoint
      cases hpoint
      all_goals rename_i hx; cases hx
  | @listUsers limit offset _ _ r hpoint =>
      rw [Head.map_eq_issue hx.symm] at hpoint
      cases hpoint
      case sadd g conn count rows s hmiss hh hx =>
        cases hx
        subst hh
        exact ⟨limit, offset, r, g, conn, count, rows, s, rfl, rfl, rfl, rfl⟩
      all_goals rename_i hx; cases hx

/-- `SMEMBERS` is issued by `CreateUser`, after its `SET`, and reads the index. -/
theorem ServerPoint.smembers {key : Octets}
    (hp : ServerPoint json req h (.issue (.command (.smembers key)))) :
    ∃ name email r now conn id s, req = .createUser name email ∧
      key = Octets.cStr kListCacheIndex ∧
      h = ⟨incrOp, r⟩ :: inserted now conn name email id ++
        [⟨setOp (userKey (Decimal.text id))
          (userToJsonString json (createdUser id name email now)) 60, s⟩] := by
  generalize hx : (Head.issue (.command (.smembers key)) : Head Op Response) = x at hp
  cases hp with
  | count | rejectedName | rejectedId => cases hx
  | @createUser name email _ _ r _ hpoint =>
      rw [Head.map_eq_issue hx.symm] at hpoint
      cases hpoint
      case smembers now conn id s hh hx =>
        cases hx
        subst hh
        exact ⟨name, email, r, now, conn, id, s, rfl, rfl, rfl⟩
      all_goals rename_i hx; cases hx
  | getUser r _ hpoint | listUsers r hpoint | getStats hpoint =>
      rw [Head.map_eq_issue hx.symm] at hpoint
      cases hpoint
      all_goals rename_i hx; cases hx

/-- `INCR` is issued by `CountRequest`, at the beginning of every call but `GetStats`. -/
theorem ServerPoint.incr {key : Octets}
    (hp : ServerPoint json req h (.issue (.command (.incr key)))) :
    key = Octets.cStr requestCountKey ∧ req ≠ .getStats ∧ h = [] := by
  generalize hx : (Head.issue (.command (.incr key)) : Head Op Response) = x at hp
  cases hp with
  | count hreq =>
      cases hx
      exact ⟨rfl, hreq, rfl⟩
  | rejectedName | rejectedId => cases hx
  | createUser r _ hpoint | getUser r _ hpoint | listUsers r hpoint | getStats hpoint =>
      rw [Head.map_eq_issue hx.symm] at hpoint
      cases hpoint
      all_goals rename_i hx; cases hx

/-- The INSERT is issued by `CreateUser`, with the values of its request. -/
theorem ServerPoint.execute {conn : Nat} {name email : Text} {now : Int64}
    (hp : ServerPoint json req h (.issue (.execute conn name email now))) :
    req = .createUser name email ∧
      ∃ r, h = [⟨incrOp, r⟩, ⟨.nowUnixSeconds, now⟩, ⟨.acquire, conn⟩] := by
  generalize hx : (Head.issue (.execute conn name email now) : Head Op Response) = x at hp
  cases hp with
  | count | rejectedName | rejectedId => cases hx
  | createUser r _ hpoint =>
      rw [Head.map_eq_issue hx.symm] at hpoint
      cases hpoint
      case execute hh hx =>
        cases hx
        subst hh
        exact ⟨rfl, r, rfl⟩
      all_goals rename_i hx; cases hx
  | getUser r _ hpoint | listUsers r hpoint | getStats hpoint =>
      rw [Head.map_eq_issue hx.symm] at hpoint
      cases hpoint
      all_goals rename_i hx; cases hx

/-- `DEL` is issued by `CreateUser`, for a key it found in the index, for the index when all these
keys are deleted, and for the cached total. -/
theorem ServerPoint.del {key : Octets}
    (hp : ServerPoint json req h (.issue (.command (.del key)))) :
    ∃ name email r now conn id set keys d, req = .createUser name email ∧
      ((∃ k ∈ memberKeys keys, key = Octets.cStr k) ∧
          h = ⟨incrOp, r⟩ :: (enumerated json now conn name email id set keys ++ d) ∨
        (key = kListCacheIndex ∧ Deleted (memberKeys keys) d) ∧
          h = ⟨incrOp, r⟩ :: (enumerated json now conn name email id set keys ++ d) ∨
        key = totalUsersKey) := by
  generalize hx : (Head.issue (.command (.del key)) : Head Op Response) = x at hp
  cases hp with
  | count | rejectedName | rejectedId => cases hx
  | @createUser name email _ _ r _ hpoint =>
      rw [Head.map_eq_issue hx.symm] at hpoint
      cases hpoint
      case del now conn id set keys d done k rest hkeys hd hh hx =>
        cases hx
        subst hh
        exact ⟨name, email, r, now, conn, id, set, keys, d, rfl,
          .inl ⟨⟨k, by simp [hkeys], rfl⟩, rfl⟩⟩
      case delIndex now conn id set keys d hd hh hx =>
        injection hx with hx
        injection hx with hx
        injection hx with hx
        subst hh hx
        exact ⟨name, email, r, now, conn, id, set, keys, d, rfl, .inr (.inl ⟨⟨rfl, hd⟩, rfl⟩)⟩
      case delTotal now conn id set keys d r1 hd hh hx =>
        injection hx with hx
        injection hx with hx
        injection hx with hx
        subst hx
        exact ⟨name, email, r, now, conn, id, set, keys, d, rfl, .inr (.inr rfl)⟩
      all_goals rename_i hx; cases hx
  | getUser r _ hpoint | listUsers r hpoint | getStats hpoint =>
      rw [Head.map_eq_issue hx.symm] at hpoint
      cases hpoint
      all_goals rename_i hx; cases hx

/-- After its `SET` of the page, `ListUsers` issues the `SADD` of its key. -/
theorem ServerPoint.after_page {limit offset limit' offset' : Int32} {r0 g s : Option Reply}
    {conn : Nat} {count rows : ResultSet} {v : Octets} {x : Head Op Response}
    (hp : ServerPoint json (.listUsers limit offset)
      (⟨incrOp, r0⟩ :: pageRead limit' offset' g conn count rows ++
        [⟨setOp (listCacheKey limit' offset') v 10, s⟩]) x) :
    x = .issue (saddOp kListCacheIndex (listCacheKey (UserServiceImpl.pageLimit limit)
      (UserServiceImpl.pageOffset offset))) := by
  generalize hh : (⟨incrOp, r0⟩ :: pageRead limit' offset' g conn count rows ++
    [⟨setOp (listCacheKey limit' offset') v 10, s⟩] : History) = h at hp
  cases hp with
  | count => cases hh
  | listUsers r hpoint =>
      cases hpoint
      case sadd hx =>
        rw [hx]
        rfl
      all_goals
        rename_i hh' hx
        rw [hh'] at hh
        simp at hh

/-! ## How calls return -/

/-- The history of a `CreateUser` that has inserted the row with this id and gone through all its
steps. -/
def CreateDone (json : JsonLibrary) (name email : Text) (id : Nat) (now : Int64) (h : History) :
    Prop :=
  ∃ r conn set keys d r1 r2, Deleted (memberKeys keys) d ∧
    h = ⟨incrOp, r⟩ :: (enumerated json now conn name email id set keys ++ d ++
      [⟨delOp kListCacheIndex, r1⟩, ⟨delOp totalUsersKey, r2⟩, ⟨.release conn, ()⟩])

/-- The response is one that a call with this request can return. -/
def AnswerKind : Request → Response → Prop
  | .createUser _ _, .user _ => True
  | .getUser _, .user _ => True
  | .listUsers _ _, .page _ _ => True
  | .getStats, .stats _ _ => True
  | _, .error _ _ => True
  | _, _ => False

/-- A call returns a response of its kind or an error. -/
theorem ServerPoint.kind {resp : Response} (hp : ServerPoint json req h (.done resp)) :
    AnswerKind req resp := by
  generalize hx : (Head.done resp : Head Op Response) = x at hp
  cases hp with
  | count => cases hx
  | rejectedName | rejectedId =>
      cases hx
      trivial
  | createUser =>
      obtain ⟨⟨created, user⟩, -, hreply⟩ := Head.map_eq_done hx.symm
      subst hreply
      cases created <;> trivial
  | getUser =>
      obtain ⟨user, -, hreply⟩ := Head.map_eq_done hx.symm
      subst hreply
      cases user <;> trivial
  | listUsers =>
      obtain ⟨⟨found, users, total⟩, -, hreply⟩ := Head.map_eq_done hx.symm
      subst hreply
      cases found <;> trivial
  | getStats =>
      obtain ⟨⟨found, total, requests⟩, -, hreply⟩ := Head.map_eq_done hx.symm
      subst hreply
      cases found <;> trivial

/-- A call other than `GetStats` has been counted when it returns. -/
theorem ServerPoint.returned {resp : Response} (hreq : req ≠ .getStats)
    (hp : ServerPoint json req h (.done resp)) : ∃ r rest, h = ⟨incrOp, r⟩ :: rest := by
  generalize hx : (Head.done resp : Head Op Response) = x at hp
  cases hp with
  | count => cases hx
  | rejectedName r | rejectedId r | createUser r | getUser r | listUsers r => exact ⟨r, _, rfl⟩
  | getStats => exact absurd rfl hreq

/-- A `CreateUser` that succeeded has gone through all its steps. -/
theorem ServerPoint.created {name email : Text} {u : User}
    (hp : ServerPoint json (.createUser name email) h (.done (.user u))) :
    ∃ id now, u = createdUser id name email now ∧ CreateDone json name email id now h := by
  generalize hx : (Head.done (.user u) : Head Op Response) = x at hp
  cases hp with
  | count | rejectedName => cases hx
  | createUser r _ hpoint =>
      obtain ⟨reply, hdone, hreply⟩ := Head.map_eq_done hx.symm
      rw [hdone] at hpoint
      cases hpoint
      case failed hh hx =>
        cases hx
        cases hreply
      case created now conn id set keys d r1 r2 hd hh hx =>
        cases hx
        cases hreply
        subst hh
        exact ⟨id, now, rfl, r, conn, set, keys, d, r1, r2, hd, rfl⟩
      all_goals rename_i hx; cases hx

/-- A call that has inserted a row ends with all the steps of `CreateUser` done, and returns the
user. -/
theorem ServerPoint.executed {conn : Nat} {name email : Text} {now : Int64} {resp : Response}
    (hp : ServerPoint json req h (.done resp))
    (hmem : (⟨.execute conn name email now, true⟩ : Answer Op Op.Res) ∈ h) :
    ∃ name email id now, CreateDone json name email id now h ∧
      resp = .user (createdUser id name email now) := by
  generalize hx : (Head.done resp : Head Op Response) = x at hp
  cases hp with
  | count => cases hx
  | rejectedName | rejectedId => simp at hmem
  | @createUser name' email' _ _ r _ hpoint =>
      obtain ⟨reply, hdone, hreply⟩ := Head.map_eq_done hx.symm
      rw [hdone] at hpoint
      cases hpoint
      case failed hh hx =>
        rw [hh] at hmem
        simp at hmem
      case created now conn id set keys d r1 r2 hd hh hx =>
        cases hx
        subst hh
        exact ⟨name', email', id, now, ⟨r, conn, set, keys, d, r1, r2, hd, rfl⟩, hreply.symm⟩
      all_goals rename_i hx; cases hx
  | getUser r _ hpoint | listUsers r hpoint | getStats hpoint =>
      obtain ⟨reply, hdone, -⟩ := Head.map_eq_done hx.symm
      rw [hdone] at hpoint
      cases hpoint
      all_goals
        rename_i hh hx
        rw [hh] at hmem
        simp at hmem

/-- A `CreateUser` with a name fails only where its INSERT has failed, with INTERNAL. -/
theorem ServerPoint.refused {name email : Text} {code : StatusCode} {message : String}
    (hp : ServerPoint json (.createUser name email) h (.done (.error code message)))
    (hname : name.bytes ≠ []) :
    code = .internal ∧ ∃ conn now,
      (⟨.execute conn name email now, false⟩ : Answer Op Op.Res) ∈ h := by
  generalize hx : (Head.done (.error code message) : Head Op Response) = x at hp
  cases hp with
  | count => cases hx
  | rejectedName r hempty => exact absurd hempty hname
  | createUser r _ hpoint =>
      obtain ⟨reply, hdone, hreply⟩ := Head.map_eq_done hx.symm
      rw [hdone] at hpoint
      cases hpoint
      case failed now conn hh hx =>
        cases hx
        cases hreply
        subst hh
        exact ⟨rfl, conn, now, by simp⟩
      case created hh hx =>
        cases hx
        cases hreply
      all_goals rename_i hx; cases hx

/-- A `GetUser` returns from the cache, finds no row, or finds one. -/
theorem ServerPoint.got {id : Text} {resp : Response}
    (hp : ServerPoint json (.getUser id) h (.done resp)) :
    (∃ r, id.bytes = [] ∧ h = [⟨incrOp, r⟩] ∧
      resp = .error .invalidArgument "id is required") ∨
    (∃ r g u, (RedisClient.stringReply g).bind (decodeUser json) = some u ∧
      h = [⟨incrOp, r⟩, ⟨getOp (userKey id), g⟩] ∧ resp = .user u) ∨
    (∃ r g conn res, (res = none ∨ res = some []) ∧
      h = [⟨incrOp, r⟩, ⟨getOp (userKey id), g⟩, ⟨.acquire, conn⟩,
        ⟨.query conn (.userById id), res⟩, ⟨.release conn, ()⟩] ∧
      resp = .error .notFound "user not found") ∨
    ∃ r g conn row rest s,
      h = [⟨incrOp, r⟩, ⟨getOp (userKey id), g⟩, ⟨.acquire, conn⟩,
        ⟨.query conn (.userById id), some (row :: rest)⟩,
        ⟨setOp (userKey id) (userToJsonString json (rowToUser row)) 60, s⟩,
        ⟨.release conn, ()⟩] ∧ resp = .user (rowToUser row) := by
  generalize hx : (Head.done resp : Head Op Response) = x at hp
  cases hp with
  | count => cases hx
  | rejectedId r hid =>
      cases hx
      exact .inl ⟨r, hid, rfl, rfl⟩
  | getUser r _ hpoint =>
      obtain ⟨reply, hdone, hreply⟩ := Head.map_eq_done hx.symm
      rw [hdone] at hpoint
      cases hpoint
      case hit g u hhit hh hx =>
        cases hx
        subst hh hreply
        exact .inr (.inl ⟨r, g, u, hhit, rfl, rfl⟩)
      case missing g conn res hmiss hres hh hx =>
        cases hx
        subst hh hreply
        exact .inr (.inr (.inl ⟨r, g, conn, res, hres, rfl, rfl⟩))
      case found g conn row rest s hmiss hh hx =>
        cases hx
        subst hh hreply
        exact .inr (.inr (.inr ⟨r, g, conn, row, rest, s, rfl, rfl⟩))
      all_goals rename_i hx; cases hx

/-- A `ListUsers` that succeeded returns the cached page, or what it has read and cached. -/
theorem ServerPoint.listed {limit offset : Int32} {users : List User} {total : Int64}
    (hp : ServerPoint json (.listUsers limit offset) h (.done (.page users total))) :
    (∃ r g, triedPage json g [] = (users, some total) ∧
      h = [⟨incrOp, r⟩, ⟨getOp (listCacheKey (UserServiceImpl.pageLimit limit)
        (UserServiceImpl.pageOffset offset)), g⟩]) ∨
    ∃ r g conn count rows rest, users = rows.map rowToUser ∧ total = rowToCount count ∧
      h = ⟨incrOp, r⟩ :: pageRead (UserServiceImpl.pageLimit limit)
        (UserServiceImpl.pageOffset offset) g conn count rows ++ rest := by
  generalize hx : (Head.done (.page users total) : Head Op Response) = x at hp
  cases hp with
  | count => cases hx
  | listUsers r hpoint =>
      obtain ⟨reply, hdone, hreply⟩ := Head.map_eq_done hx.symm
      rw [hdone] at hpoint
      cases hpoint
      case hit g cachedTotal hhit hh hx =>
        cases hx
        cases hreply
        subst hh
        exact .inl ⟨r, g, Prod.ext rfl hhit, rfl⟩
      case failedCount hh hx | failedPage hh hx =>
        cases hx
        cases hreply
      case found g conn count rows s a hmiss hh hx =>
        cases hx
        cases hreply
        subst hh
        exact .inr ⟨r, g, conn, count, rows, _, rfl, rfl, rfl⟩
      all_goals rename_i hx; cases hx

/-- A `GetStats` that succeeded returns the cached total, or what it has counted and cached. -/
theorem ServerPoint.totalled {totalUsers requestCount : Int64}
    (hp : ServerPoint json .getStats h (.done (.stats totalUsers requestCount))) :
    (∃ s rc, totalUsers = strtoll s ∧
      h = [⟨getOp totalUsersKey, some (.string s)⟩, ⟨getOp requestCountKey, rc⟩]) ∨
    ∃ g conn count s rest, totalUsers = rowToCount count ∧
      h = [⟨getOp totalUsersKey, g⟩, ⟨.acquire, conn⟩, ⟨.query conn .countUsers, some count⟩,
        ⟨setOp totalUsersKey (Decimal.ofInt (rowToCount count).toInt) 30, s⟩] ++ rest := by
  generalize hx : (Head.done (.stats totalUsers requestCount) : Head Op Response) = x at hp
  cases hp with
  | count => cases hx
  | getStats hpoint =>
      obtain ⟨reply, hdone, hreply⟩ := Head.map_eq_done hx.symm
      rw [hdone] at hpoint
      cases hpoint
      case hit g s rc hhit hh hx =>
        cases hx
        cases hreply
        subst hh
        refine .inl ⟨s, rc, rfl, ?_⟩
        rw [RedisClient.stringReply_eq_some hhit]
      case failed hh hx =>
        cases hx
        cases hreply
      case counted g conn count s rc hmiss hh hx =>
        cases hx
        cases hreply
        subst hh
        exact .inr ⟨g, conn, count, s, _, rfl, rfl⟩
      all_goals rename_i hx; cases hx

/-- The number of requests that `GetStats` returns is what it has read last. -/
theorem ServerPoint.requests {totalUsers requestCount : Int64}
    (hp : ServerPoint json .getStats h (.done (.stats totalUsers requestCount))) :
    ∃ before rc, h = before ++ [⟨getOp requestCountKey, rc⟩] ∧
      requestCount = ((RedisClient.stringReply rc).map strtoll).getD 0 := by
  generalize hx : (Head.done (.stats totalUsers requestCount) : Head Op Response) = x at hp
  cases hp with
  | count => cases hx
  | getStats hpoint =>
      obtain ⟨reply, hdone, hreply⟩ := Head.map_eq_done hx.symm
      rw [hdone] at hpoint
      cases hpoint
      case hit g s rc hhit hh hx =>
        cases hx
        cases hreply
        subst hh
        exact ⟨[⟨getOp totalUsersKey, g⟩], rc, rfl, rfl⟩
      case failed hh hx =>
        cases hx
        cases hreply
      case counted g conn count s rc hmiss hh hx =>
        cases hx
        cases hreply
        subst hh
        exact ⟨[⟨getOp totalUsersKey, g⟩, ⟨.acquire, conn⟩, ⟨.query conn .countUsers, some count⟩,
          ⟨setOp totalUsersKey (Decimal.ofInt (rowToCount count).toInt) 30, s⟩,
          ⟨.release conn, ()⟩], rc, rfl, rfl⟩
      all_goals rename_i hx; cases hx

end HttpServerDemo
