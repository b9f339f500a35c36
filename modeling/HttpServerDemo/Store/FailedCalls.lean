import HttpServerDemo.Library.JsonText
import HttpServerDemo.Library.Sequential
import HttpServerDemo.Store.ControlFlow

/-!
# What a failed call leaves behind

`CreateUser`, `ListUsers` and `GetStats` return false when a statement fails. By then they have
read from Redis at most and have given their connection back. `ListUsers` alone has a way to touch
an output parameter before it fails: it decodes a cached page straight into the caller's vector, and
what it has decoded of a damaged entry stays there. `failed_call_unchanged_iff` says for which
entries this does not show.
-/

namespace HttpServerDemo

open Interleaving Keyspace

variable {json : JsonLibrary} {mysql : NumericPrefix} {w w' : World} {chs : List Choice}

/-- The stores and the pool are as before; the connection to Redis may have broken. -/
def Untouched (w w' : World) : Prop :=
  w'.table = w.table ∧ w'.insertIds = w.insertIds ∧ w'.idle = w.idle ∧ w'.keyspace = w.keyspace

/-- A `GET` touches nothing. -/
theorem untouched_of_get {key : Octets} {ch : Choice} {r : Option Reply}
    (h : exec mysql (getOp key) ch w = some (r, w')) : Untouched w w' := by
  rcases exec_command h with ⟨-, -, -, rfl⟩ | ⟨-, -, ⟨error, rfl⟩ | ⟨error, rfl⟩⟩
  · exact ⟨rfl, rfl, rfl, run_get _ _⟩
  · exact ⟨rfl, rfl, rfl, rfl⟩
  · exact ⟨rfl, rfl, rfl, run_get _ _⟩

/-- A connection that is borrowed and given back is where it was. -/
theorem release_of_acquire {conn : Nat} {ch ch' : Choice} {r : Unit} {w1 w2 : World}
    (hacquire : exec mysql .acquire ch w = some (conn, w1))
    (hrelease : exec mysql (.release conn) ch' w1 = some (r, w2)) : w2 = w := by
  obtain ⟨hidle, hw1⟩ := exec_acquire hacquire
  rw [exec_release hrelease, ← hidle, hw1]

/-- A program that can only succeed has not failed. -/
theorem not_failed {α : Type} {p : Prog (Bool × α)} {a : α}
    (h : p.alone (exec mysql) chs w = some ((false, a), w'))
    (hp : p.Returns fun r => r.1 = true) : False :=
  Bool.false_ne_true (hp.alone h)

/-! ## `CreateUser` and `GetStats` -/

/-- A `CreateUser` that fails changes nothing at all. -/
theorem create_user_failed {name email : Text} {out out' : User}
    (h : (createUser json name email out).alone (exec mysql) chs w = some ((false, out'), w')) :
    out' = out ∧ w' = w := by
  rw [create_user_eq] at h
  obtain ⟨_, _, now, w1, rfl, hclock, h⟩ := alone_op.mp h
  obtain ⟨_, _, conn, w2, rfl, hacquire, h⟩ := alone_op.mp h
  obtain ⟨_, _, inserted, w3, rfl, hinsert, h⟩ := alone_op.mp h
  cases exec_now hclock
  cases inserted with
  | true =>
      -- after the INSERT there is no way to fail
      simp only [if_true] at h
      refine (not_failed h fun _ _ _ => Program.Returns.bind (fun _ => ?_) _).elim
      exact fun _ _ _ => rfl
  | false =>
      simp only [Bool.false_eq_true, if_false] at h
      obtain ⟨_, _, _, w4, rfl, hrelease, h⟩ := alone_op.mp h
      obtain ⟨-, hresult, rfl⟩ := alone_pure.mp h
      cases hresult
      rcases exec_execute hinsert with ⟨-, rfl⟩ | ⟨hr, -⟩
      · exact ⟨rfl, release_of_acquire hacquire hrelease⟩
      · cases hr

/-- A `GetStats` that fails leaves its output parameters, the stores and the pool as they were. -/
theorem get_stats_failed {totalUsers requestCount totalUsers' requestCount' : Int64}
    (h : (getStats totalUsers requestCount).alone (exec mysql) chs w =
      some ((false, totalUsers', requestCount'), w')) :
    totalUsers' = totalUsers ∧ requestCount' = requestCount ∧ Untouched w w' := by
  rw [get_stats_eq] at h
  obtain ⟨_, _, reply, w1, rfl, hget, h⟩ := alone_op.mp h
  split at h
  · exact (not_failed h fun _ => rfl).elim
  · obtain ⟨_, _, conn, w2, rfl, hacquire, h⟩ := alone_op.mp h
    obtain ⟨_, _, res, w3, rfl, hquery, h⟩ := alone_op.mp h
    obtain ⟨rfl, -⟩ := exec_query hquery
    cases res with
    | none =>
        obtain ⟨_, _, _, w4, rfl, hrelease, h⟩ := alone_op.mp h
        obtain ⟨-, hresult, rfl⟩ := alone_pure.mp h
        cases hresult
        rw [release_of_acquire hacquire hrelease]
        exact ⟨rfl, rfl, untouched_of_get hget⟩
    | some res =>
        exact (not_failed h fun _ _ _ => rfl).elim

/-! ## `ListUsers` -/

/-- A `ListUsers` that fails has the vector as its `try` block has left it, and everything else as
it was. -/
theorem list_users_failed {limit offset : Int32} {out out' : List User} {total total' : Int64}
    (h : (listUsers json limit offset out total).alone (exec mysql) chs w =
      some ((false, out', total'), w')) :
    total' = total ∧ Untouched w w' ∧ ∃ ch rest reply w1, chs = ch :: rest ∧
      exec mysql (getOp (listCacheKey limit offset)) ch w = some (reply, w1) ∧
      out' = (triedPage json reply out).1 := by
  rw [list_users_eq] at h
  obtain ⟨ch, rest, reply, w1, rfl, hget, h⟩ := alone_op.mp h
  split at h
  · exact (not_failed h rfl).elim
  · obtain ⟨_, _, conn, w2, rfl, hacquire, h⟩ := alone_op.mp h
    obtain ⟨_, _, count, w3, rfl, hcount, h⟩ := alone_op.mp h
    obtain ⟨rfl, -⟩ := exec_query hcount
    -- either query may fail, and then the connection is given back
    have hfailed : ∀ {chs w'}, (Program.op (Op.release conn) fun _ =>
          (.pure (false, (triedPage json reply out).1, total) : Prog _)).alone (exec mysql) chs
            w3 = some ((false, out', total'), w') →
        total' = total ∧ Untouched w w' ∧ out' = (triedPage json reply out).1 := by
      intro chs w' h
      obtain ⟨_, _, _, w4, rfl, hrelease, h⟩ := alone_op.mp h
      obtain ⟨-, hresult, rfl⟩ := alone_pure.mp h
      cases hresult
      rw [release_of_acquire hacquire hrelease]
      exact ⟨rfl, untouched_of_get hget, rfl⟩
    cases count with
    | none =>
        obtain ⟨htotal, huntouched, hout⟩ := hfailed h
        exact ⟨htotal, huntouched, ch, _, reply, w1, rfl, hget, hout⟩
    | some count =>
        obtain ⟨_, _, rows, w4, rfl, hpage, h⟩ := alone_op.mp h
        obtain ⟨rfl, -⟩ := exec_query hpage
        cases rows with
        | none =>
            obtain ⟨htotal, huntouched, hout⟩ := hfailed h
            exact ⟨htotal, huntouched, ch, _, reply, w1, rfl, hget, hout⟩
        | some rows =>
            exact (not_failed h fun _ _ _ => rfl).elim

/-- The elements that the loop of the hit path goes through; none where the lookup of `users`
throws. -/
def pageElements (j : Json) : List Json :=
  match j.index (.ascii "users") with
  | some (users, _) => users.items
  | none => []

/-- The users of the elements in front of the first one that is refused. -/
def leadingUsers (items : List Json) : List User :=
  (items.takeWhile fun j => (jsonToUser j).isSome).filterMap jsonToUser

/-- The loop of the hit path appends the users in front of the first element that is refused. -/
theorem pushUsers_fst (out : List User) (items : List Json) :
    (pushUsers out items).1 = out ++ leadingUsers items := by
  induction items generalizing out with
  | nil => simp [pushUsers, leadingUsers]
  | cons j items ih =>
      cases hj : jsonToUser j with
      | none => simp [pushUsers, leadingUsers, hj]
      | some u =>
          have hcons : leadingUsers (j :: items) = u :: leadingUsers items := by
            simp [leadingUsers, hj]
          simp only [pushUsers, hj, ih, hcons, List.append_assoc, List.singleton_append]

/-- The text is no JSON, or the vector holds exactly the users that decoding the text leaves in
it. -/
def Harmless (json : JsonLibrary) (s : Octets) (out : List User) : Prop :=
  ∀ j, json.parse s = some j → leadingUsers (pageElements j) = out

/-- The `try` block of `ListUsers` leaves the vector as it was exactly for a harmless text. -/
theorem decodePage_fst_iff {s : Octets} {out : List User} :
    (decodePage json s out).1 = out ↔ Harmless json s out := by
  rw [decodePage, Harmless]
  cases hparse : json.parse s with
  | none => simp
  | some j =>
      simp only [Option.some.injEq, forall_eq']
      rw [pageElements]
      cases hindex : j.index (.ascii "users") with
      | none => simp [leadingUsers]
      | some element =>
          have hpush := pushUsers_fst [] element.1.items
          rw [List.nil_append] at hpush
          simp only [← hpush]
          split <;> rfl

/-- The `GET` of this key, executed with this choice, finds this string. -/
def Finds (key s : Octets) (ch : Option Choice) (w : World) : Prop :=
  ch = some .ok ∧ w.contextError = false ∧
    ∃ deadline, w.keyspace.slots (Octets.cStr key) = some ⟨.string s, deadline⟩

/-- What a `GET` is answered with. -/
theorem finds_iff {key s : Octets} {ch : Choice} {reply : Option Reply}
    (h : exec mysql (getOp key) ch w = some (reply, w')) :
    Finds key s (some ch) w ↔ RedisClient.stringReply reply = some s := by
  constructor
  · rintro ⟨hch, hlive, deadline, hslot⟩
    cases hch
    rcases exec_command h with ⟨-, -, rfl, -⟩ | ⟨-, herror | hch, -⟩
    · simp [Command.run, hslot, RedisClient.stringReply]
    · rw [hlive] at herror
      cases herror
    · exact absurd rfl hch
  · intro hreply
    cases RedisClient.stringReply_eq_some hreply
    rcases exec_command h with ⟨hlive, rfl, hr, -⟩ | ⟨hr | hr, -⟩
    · refine ⟨rfl, hlive, ?_⟩
      simp only [Command.run] at hr
      split at hr
      · cases hr
      · rename_i deadline hslot
        cases hr
        exact ⟨deadline, hslot⟩
      · cases hr
    · cases hr
    · cases hr

/-- The `try` block leaves the vector as it was exactly when every text it is given is harmless. -/
theorem triedPage_fst_iff {reply : Option Reply} {out : List User} :
    (triedPage json reply out).1 = out ↔
      ∀ s, RedisClient.stringReply reply = some s → Harmless json s out := by
  rw [triedPage]
  cases RedisClient.stringReply reply with
  | none => simp
  | some s => simp [decodePage_fst_iff]

/-- A call that fails leaves its output parameters, the stores and the pool as they were: always a
`CreateUser` and a `GetStats`, and a `ListUsers` exactly when the entry that it finds, if any, is
harmless. -/
theorem failed_call_unchanged_iff (json : JsonLibrary) (mysql : NumericPrefix) (w w' : World)
    (chs : List Choice) :
    (∀ name email out out', (createUser json name email out).alone (exec mysql) chs w =
        some ((false, out'), w') → out' = out ∧ Untouched w w') ∧
    (∀ totalUsers requestCount totalUsers' requestCount',
      (getStats totalUsers requestCount).alone (exec mysql) chs w =
        some ((false, totalUsers', requestCount'), w') →
      totalUsers' = totalUsers ∧ requestCount' = requestCount ∧ Untouched w w') ∧
    ∀ limit offset out out' total total',
      (listUsers json limit offset out total).alone (exec mysql) chs w =
        some ((false, out', total'), w') →
      ((out' = out ∧ total' = total ∧ Untouched w w') ↔
        ∀ s, Finds (listCacheKey limit offset) s chs.head? w → Harmless json s out) := by
  refine ⟨fun name email out out' h => ?_, fun _ _ _ _ h => get_stats_failed h, ?_⟩
  · obtain ⟨hout, rfl⟩ := create_user_failed h
    exact ⟨hout, rfl, rfl, rfl, rfl⟩
  · intro limit offset out out' total total' h
    obtain ⟨htotal, huntouched, ch, rest, reply, w1, rfl, hget, rfl⟩ := list_users_failed h
    simp only [htotal, huntouched, and_true, List.head?_cons]
    rw [triedPage_fst_iff]
    exact forall_congr' fun s => imp_congr_left (finds_iff hget).symm

/-- A server with one connection and this text as the first page of ten users. -/
def withPage (s : Octets) : World :=
  { World.initial 1 with
    keyspace := Keyspace.empty.put (listCacheKey 10 0) ⟨.string s, some 10⟩ }

/-- An entry that is not JSON, and a failing query. -/
theorem failed_call_unchanged_iff_no_json :
    ∃ out' total' w', (listUsers JsonText.rfc8259 10 0 [] 5).alone (exec NumericPrefix.standard)
        [.ok, .ok, .fail, .ok] (withPage (Octets.ascii "users")) =
          some ((false, out', total'), w') ∧
      out' = [] ∧ total' = 5 ∧ Untouched (withPage (Octets.ascii "users")) w' := by
  have h := (failed_call_unchanged_iff JsonText.rfc8259 NumericPrefix.standard
    (withPage (Octets.ascii "users")) _ [.ok, .ok, .fail, .ok]).2.2 10 0 [] _ 5 _ rfl
  refine ⟨_, _, _, rfl, h.mpr ?_⟩
  rintro s ⟨-, -, deadline, hslot⟩ j hj
  have hs : s = Octets.ascii "users" := by
    have hstored : (withPage (Octets.ascii "users")).keyspace.slots
        (Octets.cStr (listCacheKey 10 0)) = some ⟨.string (Octets.ascii "users"), some 10⟩ := rfl
    cases hstored.symm.trans hslot
    rfl
  subst hs
  cases hj

/-- A page whose second element is damaged, and a failing query: the vector was empty before and
holds the first element afterwards. -/
theorem decoded_part_left_behind :
    ((listUsers JsonText.rfc8259 10 0 [] 0).alone (exec NumericPrefix.standard)
        [.ok, .ok, .fail, .ok]
        (withPage (Octets.ascii "\x7b\"users\":[\x7b\x7d,5]\x7d"))).map Prod.fst =
      some (false, [⟨.empty, .empty, .empty, 0⟩], 0) := by
  decide +kernel

end HttpServerDemo
