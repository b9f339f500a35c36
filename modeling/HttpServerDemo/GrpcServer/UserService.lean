import HttpServerDemo.Library.JsonText
import HttpServerDemo.Store.UserRepository

/-!
# `UserServiceImpl`

The four handlers of `grpc_server/user_service.cpp`, and the server as a system of concurrent
calls over the stores. The libraries that are not part of the repository, nlohmann's JSON and
MySQL's conversion of quoted strings to numbers, are parameters.
-/

namespace HttpServerDemo

open Interleaving

/-- The requests of `UserService`. -/
inductive Request where
  | createUser (name email : Text)
  | getUser (id : Text)
  | listUsers (limit offset : Int32)
  | getStats
  deriving DecidableEq

/-- The error codes that the handlers answer with. -/
inductive StatusCode where
  | invalidArgument
  | notFound
  | internal
  deriving DecidableEq

/-- The outcome of a call: the reply under status OK, or an error status. -/
inductive Response where
  | user (u : User)
  | page (users : List User) (total : Int64)
  | stats (totalUsers requestCount : Int64)
  | error (code : StatusCode) (message : String)
  deriving DecidableEq

/-- The parts of the server that are not in the repository. -/
structure Libraries where
  json : JsonLibrary
  mysql : NumericPrefix

/-- Libraries that behave as documented: JSON after RFC 8259, numbers as the longest numeric
prefix of the string. -/
def Libraries.standard : Libraries :=
  ⟨JsonText.rfc8259, NumericPrefix.standard⟩

namespace UserServiceImpl

/-- A message that no field has been set in. -/
def emptyUser : User :=
  ⟨.empty, .empty, .empty, 0⟩

/-- `UserServiceImpl::CreateUser`. -/
def createUser (json : JsonLibrary) (name email : Text) : Prog Response := do
  countRequest
  if name.bytes.isEmpty then return .error .invalidArgument "name is required"
  else do
    let (created, user) ← HttpServerDemo.createUser json name email emptyUser
    if created then return .user user
    else return .error .internal "create user failed"

/-- `UserServiceImpl::GetUser`. -/
def getUser (json : JsonLibrary) (id : Text) : Prog Response := do
  countRequest
  if id.bytes.isEmpty then return .error .invalidArgument "id is required"
  else do
    let user ← HttpServerDemo.getUser json id
    match user with
    | some user => return .user user
    | none => return .error .notFound "user not found"

/-- The limit that `UserServiceImpl::ListUsers` passes on. -/
def pageLimit (limit : Int32) : Int32 :=
  if 0 < limit then limit else 10

/-- The offset that `UserServiceImpl::ListUsers` passes on. -/
def pageOffset (offset : Int32) : Int32 :=
  if 0 < offset then offset else 0

/-- `UserServiceImpl::ListUsers`. -/
def listUsers (json : JsonLibrary) (limit offset : Int32) : Prog Response := do
  countRequest
  let (found, users, total) ←
    HttpServerDemo.listUsers json (pageLimit limit) (pageOffset offset) [] 0
  if found then return .page users total
  else return .error .internal "list users failed"

/-- `UserServiceImpl::GetStats`. -/
def getStats : Prog Response := do
  let (found, totalUsers, requestCount) ← HttpServerDemo.getStats 0 0
  if found then return .stats totalUsers requestCount
  else return .error .internal "get stats failed"

/-- The handler of a request. -/
def handle (json : JsonLibrary) : Request → Prog Response
  | .createUser name email => createUser json name email
  | .getUser id => getUser json id
  | .listUsers limit offset => listUsers json limit offset
  | .getStats => getStats

end UserServiceImpl

/-- The server: handlers that run concurrently over the shared stores. -/
def grpcServer (lib : Libraries) : System Op Op.Res World Choice Drift Request Response where
  exec := exec lib.mysql
  drift := drift
  code := UserServiceImpl.handle lib.json

/-- An event of the server. -/
abbrev ServerEvent : Type :=
  Event Op Op.Res Choice Drift Request Response

/-- A configuration of the server. -/
abbrev Server : Type :=
  Config Op Op.Res World Choice Drift Request Response

end HttpServerDemo
