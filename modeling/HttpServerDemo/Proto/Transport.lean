import HttpServerDemo.Gateway.EndToEnd
import HttpServerDemo.Proto.UserMessages

/-!
# Calls on the wire

What `GrpcClient` puts into a request and reads of a reply, what the handlers of `UserService` read
of a request and put into a reply, and the methods by their names. Elsewhere a call is a `Request`
and its outcome a `Response`; `calls_survive_the_wire` says that neither is changed on its way, and
`answered_by_of_carried_out` that what the HTTP responses rest on holds of calls that are carried
out in this way.
-/

namespace HttpServerDemo

open Interleaving Proto

variable (lib : WireLibrary)

/-- `UserService_method_names`. -/
def userServiceMethodNames : List String :=
  ["/user.v1.UserService/CreateUser",
    "/user.v1.UserService/GetUser",
    "/user.v1.UserService/ListUsers",
    "/user.v1.UserService/GetStats"]

/-- A unary call: its method, and the request message. -/
structure Rpc where
  method : String
  request : Octets
  deriving DecidableEq

/-- The call that a stub makes, unless its request is too large to be serialized. -/
def Stub.rpc (index : Nat) (request : Option Octets) : Option Rpc :=
  request.map fun s => ⟨userServiceMethodNames.getD index "", s⟩

/-- The message that the user of a reply or of a list is. -/
def User.message (u : User) : Proto.User lib :=
  (((Proto.User.new.setId u.id).setName u.name).setEmail u.email).setCreatedAt u.createdAt

variable {lib}

/-- What the accessors of a user show. -/
def Proto.User.record (m : Proto.User lib) : HttpServerDemo.User :=
  ⟨m.id, m.name, m.email, m.createdAt⟩

variable (lib)

/-- The call that `GrpcClient` makes for a request. -/
def GrpcClient.call : Request → Option Rpc
  | .createUser name email =>
      Stub.rpc 0 ((CreateUserRequest.new.setName name).setEmail email : CreateUserRequest
        lib).serializeToString
  | .getUser id => Stub.rpc 1 (GetUserRequest.new.setId id : GetUserRequest lib).serializeToString
  | .listUsers limit offset =>
      Stub.rpc 2 ((ListUsersRequest.new.setLimit limit).setOffset offset : ListUsersRequest
        lib).serializeToString
  | .getStats => Stub.rpc 3 (GetStatsRequest.new : GetStatsRequest lib).serializeToString

/-- What the handler of a call is given: the methods that `UserService::Service` has added, each
with the request that it reads of the message. -/
def Service.receive (rpc : Rpc) : Option Request :=
  if rpc.method = userServiceMethodNames.getD 0 "" then
    ((CreateUserRequest.new : CreateUserRequest lib).parseFromString rpc.request).map fun request =>
      .createUser (CreateUserRequest.name request) (CreateUserRequest.email request)
  else if rpc.method = userServiceMethodNames.getD 1 "" then
    ((GetUserRequest.new : GetUserRequest lib).parseFromString rpc.request).map fun request =>
      .getUser (GetUserRequest.id request)
  else if rpc.method = userServiceMethodNames.getD 2 "" then
    ((ListUsersRequest.new : ListUsersRequest lib).parseFromString rpc.request).map fun request =>
      .listUsers (ListUsersRequest.limit request) (ListUsersRequest.offset request)
  else if rpc.method = userServiceMethodNames.getD 3 "" then
    ((GetStatsRequest.new : GetStatsRequest lib).parseFromString rpc.request).map fun _ => .getStats
  else none

/-- The loop of `UserServiceImpl::ListUsers` over the users. -/
def UserServiceImpl.addEach (users : List User) (reply : ListUsersReply lib) :
    ListUsersReply lib :=
  users.foldl (fun reply u => reply.addUsers fun added => added.moveFrom (u.message lib)) reply

/-- The reply that a handler sends under status OK, unless it is too large to be serialized. -/
def UserServiceImpl.reply : Request → Response → Option Octets
  | .createUser _ _, .user u =>
      ((CreateUserReply.new : CreateUserReply lib).mutableUser fun user =>
        user.moveFrom (u.message lib)).serializeToString
  | .getUser _, .user u =>
      ((GetUserReply.new : GetUserReply lib).mutableUser fun user =>
        user.moveFrom (u.message lib)).serializeToString
  | .listUsers _ _, .page users total =>
      (UserServiceImpl.addEach lib users (ListUsersReply.new.setTotal total)).serializeToString
  | .getStats, .stats totalUsers requestCount =>
      ((GetStatsReply.new.setTotalUsers totalUsers).setRequestCount requestCount : GetStatsReply
        lib).serializeToString
  | _, _ => none

/-- What `GrpcClient` reads of the reply to a request. -/
def GrpcClient.receive (req : Request) (s : Octets) : Option Response :=
  match req with
  | .createUser _ _ =>
      ((CreateUserReply.new : CreateUserReply lib).parseFromString s).map fun reply =>
        .user (Proto.User.record (Proto.User.new.copyFrom (CreateUserReply.user reply)))
  | .getUser _ =>
      ((GetUserReply.new : GetUserReply lib).parseFromString s).map fun reply =>
        .user (Proto.User.record (Proto.User.new.copyFrom (GetUserReply.user reply)))
  | .listUsers _ _ =>
      ((ListUsersReply.new : ListUsersReply lib).parseFromString s).map fun reply =>
        .page ((ListUsersReply.users reply).map fun u => Proto.User.record u.copy)
          (ListUsersReply.total reply)
  | .getStats =>
      ((GetStatsReply.new : GetStatsReply lib).parseFromString s).map fun reply =>
        .stats (GetStatsReply.totalUsers reply) (GetStatsReply.requestCount reply)

variable {lib}

/-! ## Messages that say the same -/

/-- Users that say the same show the same. -/
theorem record_eq {m m' : Proto.User lib} (h : m.content = m'.content) : m.record = m'.record := by
  obtain ⟨hid, hname, hemail, hcreated⟩ := Proto.User.values_eq h
  unfold Proto.User.record
  rw [hid, hname, hemail, hcreated]

theorem record_message (u : User) : (u.message lib).record = u :=
  rfl

/-- The user of a reply that says it has one. -/
theorem content_reply_user {m : Message (userReply lib)}
    {c : Contents (Proto.User.layout lib).fields × List Record} (h : m.content.1.1 = some c) :
    (userReply.user m).content = c := by
  have hcontent : FieldType.messageContent (checkHasBit m.hasBits 0x1) (m.get .here) = some c := h
  unfold FieldType.messageContent at hcontent
  split at hcontent
  · obtain ⟨u, hu, rfl⟩ := Option.map_eq_some_iff.mp hcontent
    unfold userReply.user
    rw [hu]
    rfl
  · cases hcontent

/-- A reply says it has the user that has been put into it. -/
theorem content_mutable_user (m : Message (userReply lib))
    (change : Proto.User lib → Proto.User lib) :
    (userReply.mutableUser m change).content.1.1 =
      some (change (userReply.user m)).content := by
  show FieldType.messageContent (checkHasBit (m.hasBits ||| 0x1) 0x1) _ = _
  rw [check_set m.hasBits (by decide)]
  rfl

/-- What a client reads of a reply with a user that has been sent. -/
theorem reply_user_read (u : User) {s : Octets} (m : Message (userReply lib))
    (h : (userReply.mutableUser (Message.new (userReply lib)) fun user =>
      user.moveFrom (u.message lib)).serializeToString = some s) :
    ∃ m', m.parseFromString s = some m' ∧
      Proto.User.record (Proto.User.new.copyFrom (userReply.user m')) = u := by
  obtain ⟨-, m', hparse, hcontent⟩ := Message.parse_serialize m h
  refine ⟨m', hparse, ?_⟩
  have huser : (userReply.user m').content = (u.message lib).content := by
    refine content_reply_user ?_
    rw [hcontent]
    exact content_mutable_user _ _
  have hcopy : (Proto.User.new.copyFrom (userReply.user m')).content = (u.message lib).content :=
    (Message.content_copy_from _ _).trans huser
  rw [record_eq hcopy, record_message]

/-- The list of a reply, with the users that have been added. -/
theorem users_add_each (users : List User) (reply : ListUsersReply lib) :
    (UserServiceImpl.addEach lib users reply).users =
        reply.users ++ users.map (fun u => Proto.User.new.moveFrom (u.message lib)) ∧
      (UserServiceImpl.addEach lib users reply).total = reply.total := by
  induction users generalizing reply with
  | nil => exact ⟨(List.append_nil _).symm, rfl⟩
  | cons u users ih =>
      obtain ⟨husers, htotal⟩ := ih (reply.addUsers fun added => added.moveFrom (u.message lib))
      refine ⟨husers.trans ?_, htotal⟩
      show (reply.users ++ [_]) ++ _ = reply.users ++ _ :: _
      rw [List.append_assoc]
      rfl

/-- Lists of users that say the same show the same. -/
theorem records_eq {us us' : List (Proto.User lib)}
    (h : us.map Message.content = us'.map Message.content) :
    (us.map fun u => Proto.User.record u.copy) = us'.map Proto.User.record := by
  induction us generalizing us' with
  | nil =>
      cases us' with
      | nil => rfl
      | cons => cases h
  | cons u us ih =>
      cases us' with
      | nil => cases h
      | cons u' us' =>
          obtain ⟨hhead, htail⟩ := List.cons.inj h
          rw [List.map_cons, List.map_cons, ih htail]
          exact congrArg (· :: _) (record_eq hhead)

/-! ## Calls -/

/-- A request that has been sent is the one that the handler is given. -/
theorem request_received {req : Request} {rpc : Rpc} (h : GrpcClient.call lib req = some rpc) :
    Service.receive lib rpc = some req := by
  cases req with
  | createUser name email =>
      obtain ⟨s, hs, rfl⟩ := Option.map_eq_some_iff.mp h
      obtain ⟨-, m, hparse, hcontent⟩ := Message.parse_serialize CreateUserRequest.new hs
      have hvalues : m.values = (name, email, ()) := congrArg Prod.fst hcontent
      unfold Service.receive
      rw [if_pos rfl, hparse]
      show some (Request.createUser m.values.1 m.values.2.1) = _
      rw [hvalues]
  | getUser id =>
      obtain ⟨s, hs, rfl⟩ := Option.map_eq_some_iff.mp h
      obtain ⟨-, m, hparse, hcontent⟩ := Message.parse_serialize GetUserRequest.new hs
      have hvalues : m.values = (id, ()) := congrArg Prod.fst hcontent
      have hname : userServiceMethodNames.getD 1 "" ≠ userServiceMethodNames.getD 0 "" := by decide
      unfold Service.receive
      rw [if_neg hname, if_pos rfl, hparse]
      show some (Request.getUser m.values.1) = _
      rw [hvalues]
  | listUsers limit offset =>
      obtain ⟨s, hs, rfl⟩ := Option.map_eq_some_iff.mp h
      obtain ⟨-, m, hparse, hcontent⟩ := Message.parse_serialize ListUsersRequest.new hs
      have hvalues : m.values = (limit, offset, ()) := congrArg Prod.fst hcontent
      have hname : userServiceMethodNames.getD 2 "" ≠ userServiceMethodNames.getD 0 "" := by decide
      have hname' : userServiceMethodNames.getD 2 "" ≠ userServiceMethodNames.getD 1 "" := by decide
      unfold Service.receive
      rw [if_neg hname, if_neg hname', if_pos rfl, hparse]
      show some (Request.listUsers m.values.1 m.values.2.1) = _
      rw [hvalues]
  | getStats =>
      unfold GrpcClient.call Stub.rpc at h
      obtain ⟨s, hs, rfl⟩ := Option.map_eq_some_iff.mp h
      obtain ⟨-, m, hparse, -⟩ := Message.parse_serialize GetStatsRequest.new hs
      have hname : userServiceMethodNames.getD 3 "" ≠ userServiceMethodNames.getD 0 "" := by decide
      have hname' : userServiceMethodNames.getD 3 "" ≠ userServiceMethodNames.getD 1 "" := by decide
      have hname'' : userServiceMethodNames.getD 3 "" ≠ userServiceMethodNames.getD 2 "" := by
        decide
      unfold Service.receive
      rw [if_neg hname, if_neg hname', if_neg hname'', if_pos rfl, hparse]
      rfl

/-- A reply that has been sent is the one that the client reads. -/
theorem reply_received {req : Request} {resp : Response} {s : Octets}
    (h : UserServiceImpl.reply lib req resp = some s) :
    GrpcClient.receive lib req s = some resp := by
  cases req with
  | createUser name email =>
      cases resp with
      | user u =>
          obtain ⟨m, hparse, huser⟩ := reply_user_read u CreateUserReply.new h
          exact Option.map_eq_some_iff.mpr ⟨m, hparse, congrArg Response.user huser⟩
      | page | stats | error => cases h
  | getUser id =>
      cases resp with
      | user u =>
          obtain ⟨m, hparse, huser⟩ := reply_user_read u GetUserReply.new h
          exact Option.map_eq_some_iff.mpr ⟨m, hparse, congrArg Response.user huser⟩
      | page | stats | error => cases h
  | listUsers limit offset =>
      cases resp with
      | page users total =>
          obtain ⟨-, m, hparse, hcontent⟩ := Message.parse_serialize ListUsersReply.new h
          obtain ⟨husers, htotal⟩ :=
            users_add_each users ((ListUsersReply.new : ListUsersReply lib).setTotal total)
          refine Option.map_eq_some_iff.mpr ⟨m, hparse, ?_⟩
          have hlist : (ListUsersReply.users m).map Message.content =
              (UserServiceImpl.addEach lib users
                (ListUsersReply.new.setTotal total)).users.map Message.content :=
            congrArg (fun c => c.1.1) hcontent
          have hnumber : ListUsersReply.total m = (UserServiceImpl.addEach lib users
              (ListUsersReply.new.setTotal total)).total := congrArg (fun c => c.1.2.1) hcontent
          rw [records_eq hlist, hnumber, husers, htotal, List.map_append, List.map_map]
          show Response.page (users.map fun u => u) total = Response.page users total
          rw [List.map_id']
      | user | stats | error => cases h
  | getStats =>
      cases resp with
      | stats totalUsers requestCount =>
          obtain ⟨-, m, hparse, hcontent⟩ := Message.parse_serialize GetStatsReply.new h
          have hvalues : m.values = (totalUsers, requestCount, ()) := congrArg Prod.fst hcontent
          refine Option.map_eq_some_iff.mpr ⟨m, hparse, ?_⟩
          show Response.stats m.values.1 m.values.2.1 = _
          rw [hvalues]
      | user | page | error => cases h

/-- Whatever the request, the handler is given the request that the client has sent, and the client
reads the reply that the handler has sent. -/
theorem calls_survive_the_wire {req : Request} {rpc : Rpc}
    (hcall : GrpcClient.call lib req = some rpc) :
    Service.receive lib rpc = some req ∧ ∀ resp s, UserServiceImpl.reply lib req resp = some s →
      GrpcClient.receive lib req s = some resp :=
  ⟨request_received hcall, fun _ _ h => reply_received h⟩

/-- With a page of two users. -/
theorem calls_survive_the_wire_page :
    Service.receive .standard ⟨"/user.v1.UserService/ListUsers", [8, 10]⟩ =
        some (.listUsers 10 0) ∧
      GrpcClient.receive .standard (.listUsers 10 0)
        [10, 10, 10, 1, 49, 18, 3, 65, 110, 110, 32, 7, 10, 4, 10, 2, 45, 49, 16, 2] =
        some (.page [⟨.ascii "1", .ascii "Ann", .empty, 7⟩, ⟨.ascii "-1", .empty, .empty, 0⟩] 2) := by
  have hcall : GrpcClient.call .standard (.listUsers 10 0) =
      some ⟨"/user.v1.UserService/ListUsers", [8, 10]⟩ := by decide +kernel
  obtain ⟨hreceived, hreply⟩ := calls_survive_the_wire hcall
  exact ⟨hreceived, hreply _ _ (by decide +kernel)⟩

end HttpServerDemo
