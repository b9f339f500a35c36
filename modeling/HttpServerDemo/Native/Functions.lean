import HttpServerDemo.Native.Rules
import HttpServerDemo.Native.UserRepository

/-!
# The functions over the client libraries

Every function over the client libraries does what the function of the same name does in the model
of the repository. `implements_with_reply`, `refines_with_guard` and `refines_with_result` are the
specifications of the three classes that free in their destructors; what is left for a function is
what it does in between.
-/

namespace HttpServerDemo.Native

open Interleaving Sql

variable {client : MysqlClient} {mysql : NumericPrefix} {json : JsonLibrary} {α β : Type}
  {owned : Owned} {conn : Nat}

/-! ## Redis -/

namespace UserServiceImpl

end UserServiceImpl

end HttpServerDemo.Native
