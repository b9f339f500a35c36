import HttpServerDemo.Library.Pipeline
import HttpServerDemo.Store.UserRepository

/-!
# The one Redis connection

`main` makes one `RedisClient`, and all handler threads share its hiredis connection. Here
`RedisClient::Command` is the two halves of `redisvCommand`: append the command to the output
stream, read the next reply from the input stream. Replies come back in the order of the commands,
so a call may read the reply to the command of another (`crossed_replies`). Where calls do not
overlap every call reads its own reply (`replies_in_order`), which is the atomic command that
`exec` assumes.
-/

namespace HttpServerDemo

open Interleaving Keyspace Pipeline

/-- Redis: it executes commands, time passes, keys expire and sets are enumerated differently. -/
def redisServer : Pipeline.Server Command Reply Drift Keyspace where
  run := Command.run
  drift
    | .tick, ks => some ks.tick
    | .expire key, ks => ks.expire key
    | .reorder key members, ks => ks.reorder key members
    | .skipIds _, _ => none

/-- A configuration of the callers of `RedisClient::Command`. -/
abbrev RedisLine : Type :=
  LineConfig Command Reply Drift Keyspace

/-- The configurations that any number of callers reach on one connection to an empty Redis. -/
abbrev RedisRun (ok : RedisLine → LineEvent Command Reply Drift → Prop) : RedisLine → Prop :=
  LineRun redisServer .empty ok

variable {ok : RedisLine → LineEvent Command Reply Drift → Prop} {c : RedisLine}

/-- The n-th reply that a call reads is Redis's reply to the n-th command that was sent. -/
def InOrder (c : RedisLine) : Prop :=
  ∀ (n u : Nat) (r : Reply), (received c.log)[n]? = some (u, r) →
    ∃ t cmd, (sent c.log)[n]? = some (t, cmd) ∧ (served redisServer c.log)[n]? = some (cmd, r)

/-- Calls read the replies to their own commands. -/
structure OwnReplies (c : RedisLine) : Prop where
  /-- The n-th reply is read by the call that sent the n-th command. -/
  own : ∀ (n t : Nat) (r : Reply), (received c.log)[n]? = some (t, r) →
    ∃ cmd, (sent c.log)[n]? = some (t, cmd) ∧ (served redisServer c.log)[n]? = some (cmd, r)
  /-- The string that the `GET` of a key returns was stored under that key. -/
  hits : ∀ t key s w w', ⟨.call t (.get key), w⟩ ∈ c.log → ⟨.ret t (.string s), w'⟩ ∈ c.log →
    ∃ entry ∈ c.log, ∃ d, entry.before.peer.slots key = some ⟨.string s, d⟩

/-- A string that was served to a `GET` was stored under its key then. -/
theorem stored_of_served {n : Nat} {key s : Octets}
    (h : (served redisServer c.log)[n]? = some (.get key, .string s)) :
    ∃ entry ∈ c.log, ∃ d, entry.before.peer.slots key = some ⟨.string s, d⟩ := by
  obtain ⟨entry, hmem, hentry⟩ := List.mem_filterMap.mp (List.mem_of_getElem? h)
  refine ⟨entry, hmem, ?_⟩
  split at hentry
  · have hrun := congrArg Prod.snd (Option.some.inj hentry)
    have hcmd := congrArg Prod.fst (Option.some.inj hentry)
    dsimp only at hrun hcmd
    subst hcmd
    simp only [redisServer, Command.run] at hrun
    split at hrun
    · cases hrun
    · rename_i s' d hslot
      cases hrun
      exact ⟨d, hslot⟩
    · cases hrun
  · cases hentry

/-- Replies are read in the order of the commands, and where calls do not overlap every call reads
its own. -/
theorem replies_in_order (hrun : RedisRun ok c) :
    InOrder c ∧ ((∀ c e, ok c e → OneAtATime c e) → OwnReplies c) := by
  refine ⟨?_, ?_⟩
  · intro n u r h
    exact nth_received hrun h
  · intro hone
    refine ⟨?_, ?_⟩
    · intro n t r h
      exact own_reply hrun hone h
    · intro t key s w w' hcall hret
      obtain ⟨n, hreceived⟩ := received_of_ret hrun hret
      obtain ⟨cmd, hsent, hserved⟩ := own_reply hrun hone hreceived
      obtain ⟨w'', hcalled⟩ := called_of_sent hrun hsent
      cases hrun.call_unique hcall hcalled
      exact stored_of_served hserved

/-- A call with nothing in between: Redis serves its command before it reads the reply. -/
def wholeCommand (t : Nat) (cmd : Command) : List (Action Unit (PeerMove Drift) Command) :=
  [.call cmd, .op t (), .env .serve, .op t (), .ret t]

/-- With a `GET` after two `SET`s. -/
theorem replies_in_order_get :
    ∃ c, RedisRun OneAtATime c ∧
      (received c.log).map (fun reply => (reply.1, RedisClient.stringReply (some reply.2))) =
        [(0, none), (1, none), (2, some (Octets.ascii "Ann"))] ∧
      InOrder c ∧ OwnReplies c := by
  have hplay : ∃ c, RedisRun OneAtATime c ∧
      (received c.log).map (fun reply => (reply.1, RedisClient.stringReply (some reply.2))) =
        [(0, none), (1, none), (2, some (Octets.ascii "Ann"))] := by
    refine exists_run (fun c e => decide (OneAtATime c e))
      (wholeCommand 0 (.set (Octets.ascii "user:1") (Octets.ascii "Ann") (some 60)) ++
        wholeCommand 1 (.set (Octets.ascii "user:2") (Octets.ascii "Bob") (some 60)) ++
        wholeCommand 2 (.get (Octets.ascii "user:1")))
      (fun _ _ h => of_decide_eq_true h) ?_
    decide +kernel
  obtain ⟨c, hrun, hreceived⟩ := hplay
  obtain ⟨horder, hown⟩ := replies_in_order hrun
  exact ⟨c, hrun, hreceived, horder, hown fun _ _ h => h⟩

/-- A call may read the reply to another call's command: of two `GET`s in progress the second reads
first. -/
theorem crossed_replies : ¬ ∀ c, RedisRun (fun _ _ => True) c → OwnReplies c := by
  intro hclaim
  have hplay : ∃ c, RedisRun (fun _ _ => True) c ∧
      ((sent c.log)[2]? = some (2, .get (Octets.ascii "user:1")) ∧
        (sent c.log)[3]? = some (3, .get (Octets.ascii "user:2"))) ∧
      (received c.log).map (fun reply => (reply.1, RedisClient.stringReply (some reply.2))) =
        [(0, none), (1, none), (3, some (Octets.ascii "Ann")),
          (2, some (Octets.ascii "Bob"))] := by
    refine exists_run (fun _ _ => true)
      (wholeCommand 0 (.set (Octets.ascii "user:1") (Octets.ascii "Ann") (some 60)) ++
        wholeCommand 1 (.set (Octets.ascii "user:2") (Octets.ascii "Bob") (some 60)) ++
        [.call (.get (Octets.ascii "user:1")), .call (.get (Octets.ascii "user:2")), .op 2 (),
          .op 3 (), .env .serve, .env .serve, .op 3 (), .op 2 (), .ret 3, .ret 2])
      (fun _ _ _ => trivial) ?_
    decide +kernel
  obtain ⟨c, hrun, ⟨hsent, -⟩, hreceived⟩ := hplay
  -- the third reply answers the third command, which call 2 has sent
  have hthird : ((received c.log).map fun reply =>
      (reply.1, RedisClient.stringReply (some reply.2)))[2]? =
        some (3, some (Octets.ascii "Ann")) := by
    rw [hreceived]
    rfl
  rw [List.getElem?_map] at hthird
  obtain ⟨⟨t, r⟩, hread, ht⟩ := Option.map_eq_some_iff.mp hthird
  cases congrArg Prod.fst ht
  obtain ⟨cmd, hsent', -⟩ := (hclaim c hrun).own 2 3 r hread
  rw [hsent] at hsent'
  cases hsent'

end HttpServerDemo
