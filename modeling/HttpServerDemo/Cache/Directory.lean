import HttpServerDemo.Cache.AskedId
import HttpServerDemo.Library.Linearize

/-!
# The directory that single-user calls see

To its clients the server is a directory of users: `CreateUser` adds a row with a new greatest id,
and `GetUser` looks one up. `CreateUser` takes effect with its INSERT; `GetUser` with the `GET` that
finds the user in Redis, and otherwise with its SELECT. Rows are never changed, so what the cache
still holds is never out of date, and in every run whose SELECTs are answered the two calls are
linearizable, whatever happens to Redis (`single_user_calls_linearizable`).
-/

namespace HttpServerDemo

open Interleaving Keyspace

variable {lib : Libraries} {poolSize : Nat} {ok : Server → ServerEvent → Prop} {c c' : Server}
  {i t : Nat} {id : Text}

/-! ## The abstract directory -/

/-- The user is the row, verbatim or read back through C strings. -/
def Presents (row : Row) (u : User) : Prop :=
  u = createdUser row.id row.name row.email row.createdAt ∨ u = readBack row

/-- What a directory of users may answer. -/
inductive Directory (mysql : NumericPrefix) : Spec (List Row) Request Response where
  | nameless {rows name email} (hname : name.bytes = []) :
      Directory mysql rows (.createUser name email)
        (.error .invalidArgument "name is required") rows
  | refused {rows name email} (hname : name.bytes ≠ []) :
      Directory mysql rows (.createUser name email) (.error .internal "create user failed") rows
  | created {rows row} (hname : row.name.bytes ≠ []) (hfresh : ∀ r ∈ rows, r.id < row.id) :
      Directory mysql rows (.createUser row.name row.email)
        (.user (createdUser row.id row.name row.email row.createdAt)) (rows ++ [row])
  | idless {rows id} (hid : id.bytes = []) :
      Directory mysql rows (.getUser id) (.error .invalidArgument "id is required") rows
  | absent {rows id} (hid : id.bytes ≠ []) (hnone : ∀ row ∈ rows, ¬ row.Matches mysql id) :
      Directory mysql rows (.getUser id) (.error .notFound "user not found") rows
  | found {rows id row u} (hid : id.bytes ≠ []) (hrow : row ∈ rows)
      (hmatches : row.Matches mysql id) (hu : Presents row u) :
      Directory mysql rows (.getUser id) (.user u) rows

/-- The calls that the directory answers. -/
def SingleUser : Request → Prop
  | .createUser _ _ | .getUser _ => True
  | .listUsers _ _ | .getStats => False

/-- The operation with which a call takes effect, and what the call then returns. -/
def takesEffect (json : JsonLibrary) (req : Request) (o : Op) (r : o.Res) (w : World) :
    Option Response :=
  match req, o, r with
  | .createUser name _, .command (.incr _), _ =>
      if name.bytes = [] then some (.error .invalidArgument "name is required") else none
  | .createUser name email, .execute _ _ _ now, inserted =>
      if inserted then some (.user (createdUser w.table.autoIncrement name email now))
      else some (.error .internal "create user failed")
  | .getUser id, .command (.incr _), _ =>
      if id.bytes = [] then some (.error .invalidArgument "id is required") else none
  | .getUser _, .command (.get _), reply =>
      ((RedisClient.stringReply reply).bind (decodeUser json)).map Response.user
  | .getUser _, .query _ _, some (row :: _) => some (.user (rowToUser row))
  | .getUser _, .query _ _, _ => some (.error .notFound "user not found")
  | _, _, _ => none

/-! ## Where the effects are -/

variable {json : JsonLibrary} {req : Request} {h : History}

/-- A `CreateUser` that goes on after it was counted has a name. -/
theorem ServerPoint.named {name email : Text} {a : Answer Op Op.Res} {o : Op}
    (hp : ServerPoint json (.createUser name email) (a :: h) (.issue o)) : name.bytes ≠ [] := by
  generalize hx : (Head.issue o : Head Op Response) = x at hp
  cases hp with
  | rejectedName => cases hx
  | createUser r hname => exact hname

/-- A `GetUser` that goes on after it was counted has an id. -/
theorem ServerPoint.asked {a : Answer Op Op.Res} {o : Op}
    (hp : ServerPoint json (.getUser id) (a :: h) (.issue o)) : id.bytes ≠ [] := by
  generalize hx : (Head.issue o : Head Op Response) = x at hp
  cases hp with
  | rejectedId => cases hx
  | getUser r hid => exact hid

/-- The `GET` of `GetUser` is about its id. -/
theorem ServerPoint.get_user {key : Octets}
    (hp : ServerPoint json (.getUser id) h (.issue (.command (.get key)))) :
    key = Octets.cStr (userKey id) ∧ ∃ r, h = [⟨incrOp, r⟩] := by
  generalize hx : (Head.issue (.command (.get key)) : Head Op Response) = x at hp
  cases hp with
  | count | rejectedId => cases hx
  | getUser r _ hpoint =>
      rw [Head.map_eq_issue hx.symm] at hpoint
      cases hpoint
      case get hh hx =>
        cases hx
        subst hh
        exact ⟨rfl, r, rfl⟩
      all_goals rename_i hx; cases hx

/-- The SELECT of `GetUser` is about its id, and comes after a `GET` that found no user. -/
theorem ServerPoint.query_user {conn : Nat} {q : Query}
    (hp : ServerPoint json (.getUser id) h (.issue (.query conn q))) :
    q = .userById id ∧ ∃ r g, (RedisClient.stringReply g).bind (decodeUser json) = none ∧
      h = [⟨incrOp, r⟩, ⟨getOp (userKey id), g⟩, ⟨.acquire, conn⟩] := by
  generalize hx : (Head.issue (.query conn q) : Head Op Response) = x at hp
  cases hp with
  | count | rejectedId => cases hx
  | getUser r _ hpoint =>
      rw [Head.map_eq_issue hx.symm] at hpoint
      cases hpoint
      case query g conn' hmiss hh hx =>
        cases hx
        subst hh
        exact ⟨rfl, r, g, hmiss, rfl⟩
      all_goals rename_i hx; cases hx

/-! ## What a user is read from -/

/-- A user that is decoded from what is stored under the key of an id presents a row that matches
the id. -/
theorem presents_of_entry (hrun : ServerRun lib poolSize ok c) {s : Octets} {d : Option Nat}
    {u : User} (hslot : c.world.keyspace.slots (Octets.cStr (userKey id)) = some ⟨.string s, d⟩)
    (hdecode : decodeUser lib.json s = some u) :
    ∃ row ∈ c.world.table.rows, row.Matches lib.mysql id ∧ Presents row u := by
  obtain ⟨v, hv, row, hrow, hsource⟩ := user_entry hrun hslot (isUserKey_user_key id)
  cases hv
  refine ⟨row, hrow, ?_⟩
  rcases hsource with ⟨hkey, rfl⟩ | ⟨id', hkey, hmatches, rfl⟩
  · rw [decode_user_text] at hdecode
    rw [← cStr_user_key_text] at hkey
    exact ⟨matches_of_key hkey (matches_text _ row), .inl (Option.some.inj hdecode).symm⟩
  · rw [decode_user_text] at hdecode
    exact ⟨matches_of_key hkey hmatches, .inr (Option.some.inj hdecode).symm⟩

/-- A user that is made of the first row of a SELECT by id presents a row that matches the id. -/
theorem presents_of_select {mysql : NumericPrefix} {rows : List Row} {cells : Cells}
    {rest : ResultSet} (hselect : cells :: rest = (Query.userById id).select mysql rows) :
    ∃ row ∈ rows, row.Matches mysql id ∧ Presents row (rowToUser cells) := by
  obtain ⟨row, hrow, hmatches, rfl⟩ := row_of_select hselect
  exact ⟨row, hrow, hmatches, .inr rfl⟩

/-- A SELECT by id that finds nothing says that no row matches. -/
theorem absent_of_select {mysql : NumericPrefix} {rows : List Row}
    (hselect : [] = (Query.userById id).select mysql rows) :
    ∀ row ∈ rows, ¬ row.Matches mysql id := by
  intro row hrow hmatches
  have hmem := mem_select_of_matches hrow hmatches
  rw [← hselect] at hmem
  cases hmem

/-! ## Linearizability -/

theorem made_iff_called {c : Server} {req : Request} : Made c t req ↔ Called c t req := by
  constructor
  · rintro ⟨w, hw⟩
    obtain ⟨j, hj⟩ := List.mem_iff_getElem?.mp hw
    exact ⟨j, callAt_eq_some.mpr ⟨w, hj⟩⟩
  · rintro ⟨j, hj⟩
    obtain ⟨w, hj⟩ := callAt_eq_some.mp hj
    exact ⟨w, List.mem_of_getElem? hj⟩

/-- An operation other than an INSERT leaves the rows as they are. -/
theorem rows_of_exec {mysql : NumericPrefix} {o : Op} {ch : Choice} {r : o.Res} {w w' : World}
    (h : exec mysql o ch w = some (r, w'))
    (ho : ∀ conn name email now, o ≠ .execute conn name email now) :
    w'.table.rows = w.table.rows := by
  rcases exec_rows h with hrows | ⟨conn, name, email, now, hinsert, -⟩
  · exact hrows
  · exact absurd hinsert (ho conn name email now)

/-- What `CreateUser` takes effect with. -/
theorem create_user_takes (hrun : ServerRun lib poolSize ok c) {name email : Text} {o : Op}
    {ch : Choice} {r : o.Res} {resp : Response}
    (hstep : Step (grpcServer lib) c (.op t o ch r) c')
    (hcalled : Called c t (.createUser name email))
    (heffect : takesEffect lib.json (.createUser name email) o r c.world = some resp) :
    Directory lib.mysql c.world.table.rows (.createUser name email) resp c'.world.table.rows ∧
      ∀ a ∈ own t c.log, ∀ w, takesEffect lib.json (.createUser name email) a.1 a.2 w = none := by
  obtain ⟨req, hcalled', hpoint, hexec⟩ := op_point hrun hstep
  obtain rfl := called_unique hrun hcalled' hcalled
  cases o with
  | command cmd =>
      have hrows := rows_of_exec hexec (by simp)
      cases cmd with
      | incr key =>
          obtain ⟨-, -, hown⟩ := hpoint.incr
          simp only [takesEffect] at heffect
          split at heffect
          · rename_i hname
            cases heffect
            rw [hrows, hown]
            exact ⟨.nameless hname, fun a ha => (List.not_mem_nil ha).elim⟩
          · cases heffect
      | set | get | del | sadd | smembers => cases heffect
  | execute conn name' email' now =>
      obtain ⟨hreq, r0, hown⟩ := hpoint.execute
      cases hreq
      have hname : name.bytes ≠ [] := (hown ▸ hpoint).named
      refine ⟨?_, ?_⟩
      · rcases exec_execute hexec with ⟨rfl, hw⟩ | ⟨rfl, -, hrows, -⟩
        · cases heffect
          rw [hw]
          exact .refused hname
        · cases heffect
          rw [hrows]
          exact @Directory.created _ _ (c.world.table.nextRow name email now) hname
            c.world.table.below
      · -- nothing before the INSERT is the effect of a call with a name
        intro a ha w
        rw [hown] at ha
        simp only [List.mem_cons, List.not_mem_nil, or_false] at ha
        rcases ha with rfl | rfl | rfl
        · exact if_neg hname
        · rfl
        · rfl
  | nowUnixSeconds | acquire | release | lastInsertId | query => cases heffect

/-- What `GetUser` takes effect with. -/
theorem get_user_takes (hrun : ServerRun lib poolSize ok c) {o : Op} {ch : Choice} {r : o.Res}
    {resp : Response} (hstep : Step (grpcServer lib) c (.op t o ch r) c')
    (hcalled : Called c t (.getUser id)) (hanswered : answered (.op t o ch r) = true)
    (heffect : takesEffect lib.json (.getUser id) o r c.world = some resp) :
    Directory lib.mysql c.world.table.rows (.getUser id) resp c'.world.table.rows ∧
      ∀ a ∈ own t c.log, ∀ w, takesEffect lib.json (.getUser id) a.1 a.2 w = none := by
  obtain ⟨req, hcalled', hpoint, hexec⟩ := op_point hrun hstep
  obtain rfl := called_unique hrun hcalled' hcalled
  cases o with
  | command cmd =>
      have hrows := rows_of_exec hexec (by simp)
      rw [hrows]
      cases cmd with
      | incr key =>
          obtain ⟨-, -, hown⟩ := hpoint.incr
          simp only [takesEffect] at heffect
          split at heffect
          · rename_i hid
            cases heffect
            rw [hown]
            exact ⟨.idless hid, fun a ha => (List.not_mem_nil ha).elim⟩
          · cases heffect
      | get key =>
          obtain ⟨rfl, r0, hown⟩ := hpoint.get_user
          have hid : id.bytes ≠ [] := (hown ▸ hpoint).asked
          obtain ⟨u, hu, rfl⟩ := Option.map_eq_some_iff.mp heffect
          obtain ⟨s, hs, hdecode⟩ := Option.bind_eq_some_iff.mp hu
          cases RedisClient.stringReply_eq_some hs
          obtain ⟨d, hslot⟩ := slot_of_get hexec
          obtain ⟨row, hrow, hmatches, hu⟩ := presents_of_entry hrun hslot hdecode
          refine ⟨.found hid hrow hmatches hu, fun a ha w => ?_⟩
          rw [hown, List.mem_singleton] at ha
          rw [ha]
          exact if_neg hid
      | set | del | sadd | smembers => cases heffect
  | query conn q =>
      obtain ⟨rfl, r0, g, hmiss, hown⟩ := hpoint.query_user
      have hid : id.bytes ≠ [] := (hown ▸ hpoint).asked
      rw [rows_of_exec hexec (by simp)]
      refine ⟨?_, ?_⟩
      · obtain ⟨-, hnone | ⟨hselect, -⟩⟩ := exec_query hexec
        · subst hnone
          cases hanswered
        · subst hselect
          generalize hrows : (Query.userById id).select lib.mysql c.world.table.rows = res
            at heffect
          cases res with
          | nil =>
              cases heffect
              exact .absent hid (absent_of_select hrows.symm)
          | cons cells rest =>
              cases heffect
              obtain ⟨row, hrow, hmatches, hu⟩ := presents_of_select hrows.symm
              exact .found hid hrow hmatches hu
      · -- nothing before the SELECT is the effect of a call that was not answered from Redis
        intro a ha w
        rw [hown] at ha
        simp only [List.mem_cons, List.not_mem_nil, or_false] at ha
        rcases ha with rfl | rfl | rfl
        · exact if_neg hid
        · show ((RedisClient.stringReply g).bind (decodeUser lib.json)).map Response.user = none
          rw [hmiss]
          rfl
        · rfl
  | nowUnixSeconds | acquire | execute | release | lastInsertId => cases heffect

/-- Call `t` took effect, and this is what it returns. -/
def TookEffect (json : JsonLibrary) (c : Server) (t : Nat) (req : Request) (resp : Response) :
    Prop :=
  ∃ (i : Nat) (o : Op) (ch : Choice) (r : o.Res) (w : World),
    c.log[i]? = some ⟨.op t o ch r, w⟩ ∧ takesEffect json req o r w = some resp

/-- An answer in the history of a call that is its effect in every state. -/
theorem took_effect (h1 : History) (o : Op) (r : o.Res) (h2 : History) {resp : Response}
    (hown : own t c.log = h1 ++ ⟨o, r⟩ :: h2)
    (heffect : ∀ w, takesEffect json req o r w = some resp) : TookEffect json c t req resp := by
  rw [← List.take_length (l := c.log)] at hown
  obtain ⟨i, ch, w, -, hi, -⟩ := own_at hown
  exact ⟨i, o, ch, r, w, hi, heffect w⟩

/-- A `CreateUser` that returns took effect. -/
theorem create_user_returns (hrun : ServerRun lib poolSize ok c) {name email : Text}
    {resp : Response}
    (hp : ServerPoint lib.json (.createUser name email) (own t c.log) (.done resp)) :
    TookEffect lib.json c t (.createUser name email) resp := by
  generalize hown : own t c.log = h at hp
  generalize hx : (Head.done resp : Head Op Response) = x at hp
  cases hp with
  | count => cases hx
  | rejectedName r hname =>
      cases hx
      exact took_effect [] incrOp r [] hown fun _ => if_pos hname
  | createUser r _ hpoint =>
      obtain ⟨reply, hdone, hreply⟩ := Head.map_eq_done hx.symm
      rw [hdone] at hpoint
      cases hpoint
      case failed now conn hh hx =>
        cases hx
        subst hh hreply
        exact took_effect [⟨incrOp, r⟩, ⟨.nowUnixSeconds, now⟩, ⟨.acquire, conn⟩]
          (.execute conn name email now) false [⟨.release conn, ()⟩] hown fun _ => rfl
      case created now conn id set keys d r1 r2 hd hh hx =>
        cases hx
        subst hh hreply
        have hinserted : ⟨incrOp, r⟩ :: inserted now conn name email id <+: own t c.log := by
          rw [hown]
          exact ⟨_, rfl⟩
        -- the id that is returned is the one of the inserted row
        obtain ⟨i, ch, w, hi, hrow, -⟩ := created_row hrun hinserted
        have hid : w.table.autoIncrement = id := congrArg Row.id hrow
        refine ⟨i, .execute conn name email now, ch, true, w, hi, ?_⟩
        rw [← hid]
        rfl
      all_goals rename_i hx; cases hx

/-- A `GetUser` that returns took effect. -/
theorem get_user_returns {resp : Response}
    (hp : ServerPoint json (.getUser id) (own t c.log) (.done resp)) :
    TookEffect json c t (.getUser id) resp := by
  generalize hown : own t c.log = h at hp
  rcases hp.got with ⟨r, hid, rfl, rfl⟩ | ⟨r, g, u, hhit, rfl, rfl⟩ |
    ⟨r, g, conn, res, hres, rfl, rfl⟩ | ⟨r, g, conn, row, rest, s, rfl, rfl⟩
  · exact took_effect [] incrOp r [] hown fun _ => if_pos hid
  · refine took_effect [⟨incrOp, r⟩] (getOp (userKey id)) g [] hown fun _ => ?_
    show ((RedisClient.stringReply g).bind (decodeUser json)).map Response.user = _
    rw [hhit]
    rfl
  · refine took_effect [⟨incrOp, r⟩, ⟨getOp (userKey id), g⟩, ⟨.acquire, conn⟩]
      (.query conn (.userById id)) res [⟨.release conn, ()⟩] hown fun _ => ?_
    rcases hres with rfl | rfl <;> rfl
  · exact took_effect [⟨incrOp, r⟩, ⟨getOp (userKey id), g⟩, ⟨.acquire, conn⟩]
      (.query conn (.userById id)) (some (row :: rest)) _ hown fun _ => rfl

/-- The effects of the single-user calls, where SELECTs are answered. -/
theorem effect_points (hok : ∀ c e, ok c e → answered e = true) :
    EffectPoints (grpcServer lib) (.initial poolSize) ok (fun w => w.table.rows)
      (Directory lib.mysql) SingleUser (takesEffect lib.json) := by
  refine ⟨?_, ?_, ?_⟩
  · intro c c' t o ch r req resp hrun hstep hstepOk hmade hsingle heffect
    have hcalled := made_iff_called.mp hmade
    cases req with
    | createUser name email =>
        obtain ⟨hspec, hnone⟩ := create_user_takes hrun hstep hcalled heffect
        exact ⟨hspec, fun i o' ch' r' w hi => hnone ⟨o', r'⟩ (mem_own hi) w⟩
    | getUser id =>
        obtain ⟨hspec, hnone⟩ := get_user_takes hrun hstep hcalled (hok _ _ hstepOk) heffect
        exact ⟨hspec, fun i o' ch' r' w hi => hnone ⟨o', r'⟩ (mem_own hi) w⟩
    | listUsers | getStats => exact hsingle.elim
  · intro c c' e hrun hstep hstepOk hnone
    cases e with
    | call | ret =>
        cases hstep
        rfl
    | env =>
        cases hstep with
        | env hdrift => exact (drift_frame hdrift).1
    | op t o ch r =>
        obtain ⟨req, hcalled, hpoint, hexec⟩ := op_point hrun hstep
        rcases exec_rows hexec with hrows | ⟨conn, name, email, now, rfl, -⟩
        · exact hrows
        · -- an INSERT is the effect of its call
          obtain ⟨rfl, -⟩ := hpoint.execute
          have heffect := hnone t _ ch r _ rfl (made_iff_called.mpr hcalled) trivial
          cases r <;> cases heffect
  · intro c c' t resp req hrun hstep hmade hsingle
    have hpoint : ServerPoint lib.json req (own t c.log) (.done resp) := by
      cases hstep with
      | @ret _ th _ hthread hprog hlive =>
          obtain ⟨hcalled, hpoint⟩ := thread_point hrun hthread
          rw [hprog] at hpoint
          rw [called_unique hrun (made_iff_called.mp hmade) hcalled]
          exact hpoint
    cases req with
    | createUser name email => exact create_user_returns hrun hpoint
    | getUser id => exact get_user_returns hpoint
    | listUsers | getStats => exact hsingle.elim

/-- The effects of the single-user calls of a run, in an order that real time does not contradict. -/
structure SingleUserLinearizable (mysql : NumericPrefix) (c : Server)
    (order : List (Effect Request Response)) : Prop where
  linearizes : Linearizes (Directory mysql) [] c.world.table.rows SingleUser c order
  /-- A call that returns before another one starts takes effect before it. -/
  realTime : ∀ d ∈ order, ∀ d' ∈ order, ∀ i j resp, replyAt c i = some (d.call, resp) →
    callAt c j = some (d'.call, d'.req) → i < j → d.instant < d'.instant

/-- In every run whose SELECTs are answered, `CreateUser` and `GetUser` are linearizable. -/
theorem single_user_calls_linearizable (hrun : ServerRun lib poolSize ok c)
    (hok : ∀ c e, ok c e → answered e = true) :
    ∃ order, SingleUserLinearizable lib.mysql c order := by
  obtain ⟨order, horder⟩ := hrun.linearizes (effect_points hok)
  refine ⟨order, horder, ?_⟩
  intro d hd d' hd' i j resp hret hcall hij
  obtain ⟨w, hret⟩ := replyAt_eq_some.mp hret
  obtain ⟨w', hcall⟩ := callAt_eq_some.mp hcall
  exact horder.real_time hrun hd hd' hret hcall hij

/-- With a `GetUser` that overlaps the `CreateUser` of its user, and one that is served from Redis
after a reply was lost. -/
theorem single_user_calls_linearizable_overlapping :
    ∃ c, ServerRun .standard 2 (fun _ e => answered e = true) c ∧
      (replyAt c 15 = some (1, .error .notFound "user not found") ∧
        replyAt c 18 =
          some (0, .user ⟨.ascii "1", .ascii "Ann", .ascii "ann@example.com", 7⟩) ∧
        replyAt c 22 =
          some (2, .user ⟨.ascii "1", .ascii "Ann", .ascii "ann@example.com", 7⟩)) ∧
      ∃ order, SingleUserLinearizable NumericPrefix.standard c order := by
  refine exists_run_with (fun _ e => answered e)
    (List.flatten
      [[.call (.createUser (.ascii "Ann") (.ascii "ann@example.com")), .call (.getUser (.ascii "1"))],
      List.replicate 4 (.op 1 .ok), [.op 0 .ok, .op 0 (.clock 7), .op 0 .ok, .op 0 .ok, .op 0 .ok,
        .op 0 (.lost true), .op 1 .ok, .op 0 .ok, .op 0 .ok, .ret 1, .op 0 .ok, .op 0 .ok, .ret 0],
      whole 2 (.getUser (.ascii "1")) (List.replicate 2 .ok)])
    (fun _ _ h => h) ?_ ?_
  · decide +kernel
  intro c hrun _
  exact single_user_calls_linearizable hrun fun _ _ h => h

end HttpServerDemo
