import HttpServerDemo.GrpcServer.UserService
import HttpServerDemo.Library.JsonCpp

/-!
# The gateway

`GrpcClient` and `UserController` for one user: how a POST or a GET becomes a call, and how the
outcome of the call becomes an HTTP response. A handler is a program whose operations are the calls
that it makes. `http_not_found_iff` says that the gateway answers 404 exactly when the handler of
`GetUser` answered NOT_FOUND.
-/

namespace HttpServerDemo

open Interleaving

/-- The codes that the gRPC library reports for a call that it could not carry out. NOT_FOUND is
not one of them. -/
inductive LibraryCode where
  | cancelled
  | unknown
  | deadlineExceeded
  | resourceExhausted
  | unimplemented
  | internal
  | unavailable
  | unauthenticated
  deriving DecidableEq

/-- The code of a `grpc::Status`. -/
inductive Code where
  | ok
  | handler (code : StatusCode)
  | library (code : LibraryCode)
  deriving DecidableEq

/-- A `grpc::Status`. -/
structure Status where
  code : Code
  message : String
  deriving DecidableEq

/-- What becomes of a call: the handler's response, or a failure of the library. -/
inductive Outcome where
  | handled (resp : Response)
  | failed (code : LibraryCode) (message : String)

/-- The status that the stub returns. -/
def Outcome.status : Outcome → Status
  | .handled (.error code message) => ⟨.handler code, message⟩
  | .handled _ => ⟨.ok, ""⟩
  | .failed code message => ⟨.library code, message⟩

/-- The user in the reply, a default one where none was set. -/
def Outcome.user : Outcome → User
  | .handled (.user user) => user
  | _ => UserServiceImpl.emptyUser

/-- `RpcStatus`. -/
inductive RpcStatus where
  | kOk
  | kNotFound
  | kError
  deriving DecidableEq

/-- `GrpcClient::GetUser`: the result, the output parameter and `err_` as they are left. -/
def GrpcClient.getUser (outcome : Outcome) (out : User) (err : String) :
    RpcStatus × User × String :=
  let s := outcome.status
  if s.code = .ok then (.kOk, outcome.user, err)
  else if s.code = .handler .notFound then (.kNotFound, out, s.message)
  else (.kError, out, s.message)

/-- `GrpcClient::CreateUser`, in the same way. -/
def GrpcClient.createUser (outcome : Outcome) (out : User) (err : String) :
    RpcStatus × User × String :=
  let s := outcome.status
  if s.code = .ok then (.kOk, outcome.user, err)
  else (.kError, out, s.message)

/-- The status codes of the responses. -/
inductive HttpStatusCode where
  | k200OK
  | k201Created
  | k400BadRequest
  | k404NotFound
  | k502BadGateway
  deriving DecidableEq

/-- The body of a response: the document of an error with its message, or a JSON text. -/
inductive HttpBody where
  | error (message : String)
  | text (body : Octets)
  deriving DecidableEq

/-- A response, with the instance in its `X-Gateway-Instance` header. -/
structure HttpResponse where
  code : HttpStatusCode
  instanceId : String
  body : HttpBody
  deriving DecidableEq

/-- `UserController::getUser`, given the routing parameters, what becomes of a call with an id, and
the error text that `lastError` reads after it. -/
def UserController.getUser (json : JsonLibrary) (instanceId : String) (params : List Text)
    (rpc : Text → Outcome) (err lastError : String) : HttpResponse :=
  match params with
  | [] => ⟨.k400BadRequest, instanceId, .error "id is required"⟩
  | id :: _ =>
      let (st, user, _) := GrpcClient.getUser (rpc id) UserServiceImpl.emptyUser err
      if st = .kNotFound then ⟨.k404NotFound, instanceId, .error "user not found"⟩
      else if st ≠ .kOk then
        ⟨.k502BadGateway, instanceId, .error ("grpc GetUser failed: " ++ lastError)⟩
      else ⟨.k200OK, instanceId, .text (userToJsonString json user)⟩

/-- A handler of the gateway: a program of calls to the service that returns the response, or
`none` where an exception leaves it. -/
abbrev Handler : Type :=
  Program Request (fun _ => Outcome) (Option HttpResponse)

/-- `UserController::createUser`, given what `getJsonObject` returns. -/
def UserController.createUserProgram {Number : Type} (numbers : JsonCpp.NumberText Number)
    (json : JsonLibrary) (instanceId : String) (body : Option (JsonCpp.Value Number))
    (err lastError : String) : Handler :=
  match body with
  | none => return some ⟨.k400BadRequest, instanceId, .error "name is required"⟩
  | some body =>
      if !body.isObject || !body.isMember (.ascii "name") then
        return some ⟨.k400BadRequest, instanceId, .error "name is required"⟩
      else
        match (body.subscript (.ascii "name")).asString numbers,
          (body.subscript (.ascii "email")).asString numbers with
        | some name, some email => do
            let outcome ← Program.call (Request.createUser name email)
            let (st, user, _) := GrpcClient.createUser outcome UserServiceImpl.emptyUser err
            if st ≠ .kOk then
              return some ⟨.k502BadGateway, instanceId,
                .error ("grpc CreateUser failed: " ++ lastError)⟩
            else return some ⟨.k201Created, instanceId, .text (userToJsonString json user)⟩
        | _, _ => return none

/-- `UserController::getUser`, with the call that it makes. -/
def UserController.getUserProgram (json : JsonLibrary) (instanceId : String) (params : List Text)
    (err lastError : String) : Handler :=
  match params with
  | [] => return some ⟨.k400BadRequest, instanceId, .error "id is required"⟩
  | id :: _ => do
      let outcome ← Program.call (Request.getUser id)
      let (st, user, _) := GrpcClient.getUser outcome UserServiceImpl.emptyUser err
      if st = .kNotFound then return some ⟨.k404NotFound, instanceId, .error "user not found"⟩
      else if st ≠ .kOk then
        return some ⟨.k502BadGateway, instanceId, .error ("grpc GetUser failed: " ++ lastError)⟩
      else return some ⟨.k200OK, instanceId, .text (userToJsonString json user)⟩

/-- The handler answered NOT_FOUND. -/
def Response.NotFound (resp : Response) : Prop :=
  ∃ message, resp = .error .notFound message

/-- The client reports `kNotFound` exactly when the handler answered NOT_FOUND. -/
theorem rpc_not_found_iff {outcome : Outcome} {out : User} {err : String} :
    (GrpcClient.getUser outcome out err).1 = .kNotFound ↔
      ∃ resp, outcome = .handled resp ∧ resp.NotFound := by
  cases outcome with
  | failed code message => simp [GrpcClient.getUser, Outcome.status]
  | handled resp =>
      cases resp with
      | user | page | stats => simp [GrpcClient.getUser, Outcome.status, Response.NotFound]
      | error code message =>
          cases code <;> simp [GrpcClient.getUser, Outcome.status, Response.NotFound]

/-- The gateway answers 404 exactly when the handler answered NOT_FOUND. -/
theorem http_not_found_iff {json : JsonLibrary} {instanceId : String} {id : Text}
    {params : List Text} {rpc : Text → Outcome} {err lastError : String} :
    (UserController.getUser json instanceId (id :: params) rpc err lastError).code =
        .k404NotFound ↔ ∃ resp, rpc id = .handled resp ∧ resp.NotFound := by
  have hclient := @rpc_not_found_iff (rpc id) UserServiceImpl.emptyUser err
  rw [← hclient]
  simp only [UserController.getUser]
  split
  · rename_i hnotFound
    simp [hnotFound]
  · rename_i hnot
    split <;> simp [hnot]

/-- With an id there is one call, and the response is made of its outcome. -/
theorem get_user_program_cons (json : JsonLibrary) (instanceId : String) (id : Text)
    (params : List Text) (err lastError : String) :
    UserController.getUserProgram json instanceId (id :: params) err lastError =
      .op (.getUser id) fun outcome => .pure (some (UserController.getUser json instanceId
        (id :: params) (fun _ => outcome) err lastError)) := by
  simp only [UserController.getUserProgram, Program.call_bind, UserController.getUser]
  refine congrArg (Program.op _) (funext fun outcome => ?_)
  split_ifs <;> rfl

end HttpServerDemo
