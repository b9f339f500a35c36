import HttpServerDemo.Cache.Transparency

/-!
# Without Redis

A connection to Redis that is in error stays in error, and every command on it returns NULL. No
call fails for that: a call that begins after the connection broke reads the table itself, at
instants of its own, and answers what the cache-less reference answers there, or reports a
statement that has failed (`calls_without_redis`). Only the number of requests is lost: `GetStats`
reports 0.
-/

namespace HttpServerDemo

open Interleaving Keyspace

variable {lib : Libraries} {poolSize : Nat} {ok : Server → ServerEvent → Prop} {c c' : Server}
  {e : ServerEvent} {w : World} {i j t q m n : Nat} {json : JsonLibrary} {h : History}

/-- At instant `q` the connection to Redis is in error. -/
def BrokenAt (c : Server) (q : Nat) : Prop :=
  ∃ e w, c.log[q]? = some ⟨e, w⟩ ∧ w.contextError = true

/-- The connection stays in error. -/
theorem BrokenAt.later (h : BrokenAt c q) (hrun : ServerRun lib poolSize ok c) (hqj : q ≤ j)
    (hj : c.log[j]? = some ⟨e, w⟩) : w.contextError = true := by
  obtain ⟨e0, w0, hq, herror⟩ := h
  obtain ⟨c1, c2, hrun1, hlog, rfl, -⟩ := hrun.at hj
  by_contra hne
  have hlive : Connected c1 := Bool.eq_false_iff.mpr hne
  rcases Nat.eq_or_lt_of_le hqj with rfl | hlt
  · rw [hq] at hj
    cases hj
    exact absurd (hlive.symm.trans herror) (by simp)
  · rw [← List.getElem?_take_of_lt hlt, ← hlog] at hq
    obtain ⟨d1, d2, -, -, rfl, hstep, -, hlater⟩ := hrun1.at hq
    have hback : Connected c1 → Connected d2 :=
      hlater.rel (R := fun a b => Connected b → Connected a) (fun _ h => h)
        (fun hab hbd h => hab (hbd h)) connected_of_step
    exact absurd ((connected_of_step hstep (hback hlive)).symm.trans herror) (by simp)

/-- A command on a connection in error returns NULL. -/
theorem exec_command_error {mysql : NumericPrefix} {cmd : Command} {ch : Choice}
    {r : Option Reply} {w' : World} (h : exec mysql (.command cmd) ch w = some (r, w'))
    (herror : w.contextError = true) : r = none := by
  simp only [exec, execCommand, herror, if_true] at h
  cases h
  rfl

/-- A call that begins after the connection broke gets no reply from Redis. -/
theorem BrokenAt.unanswered (h : BrokenAt c q) (hrun : ServerRun lib poolSize ok c)
    {req : Request} (hcall : callAt c m = some (t, req)) (hqm : q ≤ m) {cmd : Command}
    {r : Option Reply} (hmem : (⟨.command cmd, r⟩ : Answer Op Op.Res) ∈ own t (c.log.take i)) :
    r = none := by
  obtain ⟨h1, h2, hown⟩ := List.append_of_mem hmem
  obtain ⟨n, ch, w, -, hn, -⟩ := own_at hown
  obtain ⟨wm, hm⟩ := callAt_eq_some.mp hcall
  have hmn := hrun.call_lt_op hm hn
  obtain ⟨req', w', -, -, hexec⟩ := op_point_at hrun hn
  exact exec_command_error hexec (h.later hrun (by omega) hn)

/-! ## Calls that find nothing in Redis -/

/-- A `ListUsers` that fails has made a query that failed. -/
theorem ServerPoint.list_failed {limit offset : Int32} {code : StatusCode} {message : String}
    (hp : ServerPoint json (.listUsers limit offset) h (.done (.error code message))) :
    code = .internal ∧ message = "list users failed" ∧ ∃ conn query,
      (⟨.query conn query, none⟩ : Answer Op Op.Res) ∈ h := by
  generalize hx : (Head.done (.error code message) : Head Op Response) = x at hp
  cases hp with
  | count => cases hx
  | listUsers r hpoint =>
      obtain ⟨reply, hdone, hreply⟩ := Head.map_eq_done hx.symm
      rw [hdone] at hpoint
      cases hpoint
      case failedCount g conn hmiss hh hx =>
        cases hx
        cases hreply
        subst hh
        exact ⟨rfl, rfl, conn, .countUsers, by simp⟩
      case failedPage g conn count hmiss hh hx =>
        cases hx
        cases hreply
        subst hh
        exact ⟨rfl, rfl, conn, .usersPage (UserServiceImpl.pageLimit limit)
          (UserServiceImpl.pageOffset offset), by simp⟩
      case hit hh hx | found hh hx =>
        cases hx
        cases hreply
      all_goals rename_i hx; cases hx

/-- A `GetStats` that fails has made a query that failed. -/
theorem ServerPoint.stats_failed {code : StatusCode} {message : String}
    (hp : ServerPoint json .getStats h (.done (.error code message))) :
    code = .internal ∧ message = "get stats failed" ∧ ∃ conn query,
      (⟨.query conn query, none⟩ : Answer Op Op.Res) ∈ h := by
  generalize hx : (Head.done (.error code message) : Head Op Response) = x at hp
  cases hp with
  | count => cases hx
  | getStats hpoint =>
      obtain ⟨reply, hdone, hreply⟩ := Head.map_eq_done hx.symm
      rw [hdone] at hpoint
      cases hpoint
      case failed g conn hmiss hh hx =>
        cases hx
        cases hreply
        subst hh
        exact ⟨rfl, rfl, conn, .countUsers, by simp⟩
      case hit hh hx | counted hh hx =>
        cases hx
        cases hreply
      all_goals rename_i hx; cases hx

/-- `GetUser` without a cache: the first row that `SELECT ... WHERE id=` finds. -/
def referenceUser (mysql : NumericPrefix) (id : Text) (rows : List Row) : Response :=
  match (Query.userById id).select mysql rows with
  | row :: _ => .user (rowToUser row)
  | [] => .error .notFound "user not found"

/-- A query of call `t` fails between the instants `m` and `i`. -/
def StatementFails (c : Server) (t m i : Nat) : Prop :=
  ∃ (n conn : Nat) (query : Query) (ch : Choice) (w : World), m < n ∧ n < i ∧
    c.log[n]? = some ⟨.op t (.query conn query) ch none, w⟩

/-- A query that is answered with nothing fails between the start of its call and its return. -/
theorem statement_fails (hrun : ServerRun lib poolSize ok c) {req : Request}
    (hcall : callAt c m = some (t, req)) {conn : Nat} {query : Query}
    (hmem : (⟨.query conn query, none⟩ : Answer Op Op.Res) ∈ own t (c.log.take i)) :
    StatementFails c t m i := by
  obtain ⟨h1, h2, hown⟩ := List.append_of_mem hmem
  obtain ⟨n, ch, w, hni, hn, -⟩ := own_at hown
  obtain ⟨wm, hm⟩ := callAt_eq_some.mp hcall
  exact ⟨n, conn, query, ch, w, hrun.call_lt_op hm hn, hni, hn⟩

/-- What calls that begin after instant `q` answer: what the reference answers at instants between
their start and their return, or the error of a statement that failed there. -/
structure ReadsTable (lib : Libraries) (c : Server) (q : Nat) : Prop where
  users : ∀ t m i id resp, callAt c m = some (t, .getUser id) → q ≤ m → id.bytes ≠ [] →
    replyAt c i = some (t, resp) →
    (∃ n, m < n ∧ n < i ∧ resp = referenceUser lib.mysql id (rowsAt c n)) ∨
      StatementFails c t m i ∧ resp = .error .notFound "user not found"
  lists : ∀ t m i limit offset resp, callAt c m = some (t, .listUsers limit offset) → q ≤ m →
    replyAt c i = some (t, resp) →
    (∃ n s, m < n ∧ n < s ∧ s < i ∧ resp = .page
      (referenceUsers lib.mysql (UserServiceImpl.pageLimit limit)
        (UserServiceImpl.pageOffset offset) (rowsAt c s))
      (referenceTotal lib.mysql (rowsAt c n))) ∨
      StatementFails c t m i ∧ resp = .error .internal "list users failed"
  stats : ∀ t m i resp, callAt c m = some (t, .getStats) → q ≤ m → replyAt c i = some (t, resp) →
    (∃ n, m < n ∧ n < i ∧ resp = .stats (referenceTotal lib.mysql (rowsAt c n)) 0) ∨
      StatementFails c t m i ∧ resp = .error .internal "get stats failed"

/-- A `GetUser` without Redis. -/
theorem BrokenAt.users (hbroken : BrokenAt c q) (hrun : ServerRun lib poolSize ok c) {id : Text}
    {resp : Response} (hcall : callAt c m = some (t, .getUser id)) (hqm : q ≤ m)
    (hid : id.bytes ≠ []) (hret : replyAt c i = some (t, resp)) :
    (∃ n, m < n ∧ n < i ∧ resp = referenceUser lib.mysql id (rowsAt c n)) ∨
      StatementFails c t m i ∧ resp = .error .notFound "user not found" := by
  obtain ⟨wm, hm⟩ := callAt_eq_some.mp hcall
  have hpoint := ret_point_at hrun hret ⟨m, hcall⟩
  generalize hown : own t (c.log.take i) = hist at hpoint
  rcases hpoint.got with ⟨r0, hempty, -⟩ | ⟨r0, g, u, hhit, rfl, -⟩ |
    ⟨r0, g, conn, res, hres, rfl, rfl⟩ | ⟨r0, g, conn, row, rest, s, rfl, rfl⟩
  · exact absurd hempty hid
  · -- a hit would be a reply from Redis
    have hget : (⟨getOp (userKey id), g⟩ : Answer Op Op.Res) ∈ own t (c.log.take i) := by
      simp [hown]
    rw [hbroken.unanswered hrun hcall hqm hget] at hhit
    cases hhit
  · have hquery : own t (c.log.take i) =
        [⟨incrOp, r0⟩, ⟨getOp (userKey id), g⟩, ⟨.acquire, conn⟩] ++
          ⟨.query conn (.userById id), res⟩ :: [⟨.release conn, ()⟩] := hown
    rcases hres with rfl | rfl
    · have hfailed : (⟨.query conn (.userById id), none⟩ : Answer Op Op.Res) ∈
          own t (c.log.take i) := by simp [hown]
      exact .inr ⟨statement_fails hrun hcall hfailed, rfl⟩
    · obtain ⟨n, ch, w, hni, hn, -⟩ := own_at hquery
      refine .inl ⟨n, hrun.call_lt_op hm hn, hni, ?_⟩
      rw [referenceUser, rowsAt_eq hn, ← query_at hrun hn]
  · have hquery : own t (c.log.take i) =
        [⟨incrOp, r0⟩, ⟨getOp (userKey id), g⟩, ⟨.acquire, conn⟩] ++
          ⟨.query conn (.userById id), some (row :: rest)⟩ :: _ := hown
    obtain ⟨n, ch, w, hni, hn, -⟩ := own_at hquery
    refine .inl ⟨n, hrun.call_lt_op hm hn, hni, ?_⟩
    rw [referenceUser, rowsAt_eq hn, ← query_at hrun hn]

/-- A `ListUsers` without Redis. -/
theorem BrokenAt.lists (hbroken : BrokenAt c q) (hrun : ServerRun lib poolSize ok c)
    {limit offset : Int32} {resp : Response}
    (hcall : callAt c m = some (t, .listUsers limit offset)) (hqm : q ≤ m)
    (hret : replyAt c i = some (t, resp)) :
    (∃ n s, m < n ∧ n < s ∧ s < i ∧ resp = .page
      (referenceUsers lib.mysql (UserServiceImpl.pageLimit limit)
        (UserServiceImpl.pageOffset offset) (rowsAt c s))
      (referenceTotal lib.mysql (rowsAt c n))) ∨
      StatementFails c t m i ∧ resp = .error .internal "list users failed" := by
  obtain ⟨wm, hm⟩ := callAt_eq_some.mp hcall
  have hpoint := ret_point_at hrun hret ⟨m, hcall⟩
  generalize hown : own t (c.log.take i) = hist at hpoint
  cases resp with
  | page users total =>
      left
      rcases hpoint.listed with ⟨r0, g, hhit, rfl⟩ | ⟨r0, g, conn, count, rows, rest, rfl, rfl, rfl⟩
      · -- a hit would be a reply from Redis
        have hget : (⟨getOp (listCacheKey (UserServiceImpl.pageLimit limit)
            (UserServiceImpl.pageOffset offset)), g⟩ : Answer Op Op.Res) ∈
              own t (c.log.take i) := by simp [hown]
        rw [hbroken.unanswered hrun hcall hqm hget] at hhit
        cases hhit
      · obtain ⟨n, s, hread, hsi⟩ := page_read_of_history hrun hown
        obtain ⟨conn', chn, rn, wn, hn⟩ := hread.counts
        refine ⟨n, s, hrun.call_lt_op hm hn, hread.order, hsi, ?_⟩
        rw [eq_reference_total lib.mysql hread.total_eq, referenceUsers, rows_to_users_select,
          hread.users_eq]
  | error code message =>
      obtain ⟨rfl, rfl, conn, query, hmem⟩ := hpoint.list_failed
      exact .inr ⟨statement_fails hrun hcall (hown ▸ hmem), rfl⟩
  | user u => exact hpoint.kind.elim
  | stats total requests => exact hpoint.kind.elim

/-- A `GetStats` without Redis. -/
theorem BrokenAt.stats (hbroken : BrokenAt c q) (hrun : ServerRun lib poolSize ok c)
    {resp : Response} (hcall : callAt c m = some (t, .getStats)) (hqm : q ≤ m)
    (hret : replyAt c i = some (t, resp)) :
    (∃ n, m < n ∧ n < i ∧ resp = .stats (referenceTotal lib.mysql (rowsAt c n)) 0) ∨
      StatementFails c t m i ∧ resp = .error .internal "get stats failed" := by
  obtain ⟨wm, hm⟩ := callAt_eq_some.mp hcall
  have hpoint := ret_point_at hrun hret ⟨m, hcall⟩
  generalize hown : own t (c.log.take i) = hist at hpoint
  cases resp with
  | stats total requests =>
      left
      obtain ⟨before, rc, hlast, rfl⟩ := hpoint.requests
      have hcount : (⟨getOp requestCountKey, rc⟩ : Answer Op Op.Res) ∈ own t (c.log.take i) := by
        simp [hown, hlast]
      rw [hbroken.unanswered hrun hcall hqm hcount]
      rcases hpoint.totalled with ⟨s, rc', rfl, rfl⟩ | ⟨g, conn, count, s, rest, rfl, rfl⟩
      · have hget : (⟨getOp totalUsersKey, some (.string s)⟩ : Answer Op Op.Res) ∈
            own t (c.log.take i) := by simp [hown]
        cases hbroken.unanswered hrun hcall hqm hget
      · obtain ⟨n, hn, hni, htotal⟩ := count_read_of_history hrun hown
        obtain ⟨ch, r, w, hn⟩ := hn
        refine ⟨n, hrun.call_lt_op hm hn, hni, ?_⟩
        rw [eq_reference_total lib.mysql htotal]
        rfl
  | error code message =>
      obtain ⟨rfl, rfl, conn, query, hmem⟩ := hpoint.stats_failed
      exact .inr ⟨statement_fails hrun hcall (hown ▸ hmem), rfl⟩
  | user u => exact hpoint.kind.elim
  | page users total => exact hpoint.kind.elim

/-- In every run, whatever fails, the calls that begin after the connection to Redis broke read the
table and lose nothing but the number of requests. -/
theorem calls_without_redis (hrun : ServerRun lib poolSize ok c) (hbroken : BrokenAt c q) :
    ReadsTable lib c q := by
  refine ⟨?_, ?_, ?_⟩
  · intro t m i id resp hcall hqm hid hret
    exact hbroken.users hrun hcall hqm hid hret
  · intro t m i limit offset resp hcall hqm hret
    exact hbroken.lists hrun hcall hqm hret
  · intro t m i resp hcall hqm hret
    exact hbroken.stats hrun hcall hqm hret

/-- With a connection that breaks while a user is being created. -/
theorem calls_without_redis_created :
    ∃ c, ServerRun .standard 1 (fun _ _ => True) c ∧
      ((c.log[7]?.any fun entry => entry.before.contextError) ∧
        replyAt c 19 =
          some (1, .user ⟨.ascii "1", .ascii "Ann", .ascii "ann@example.com", 7⟩) ∧
        replyAt c 29 =
          some (2, .page [⟨.ascii "1", .ascii "Ann", .ascii "ann@example.com", 7⟩] 1) ∧
        replyAt c 37 = some (3, .stats 1 0)) ∧
      ReadsTable .standard c 7 := by
  refine exists_run_with (fun _ _ => true)
    (List.flatten
      [whole 0 (.createUser (.ascii "Ann") (.ascii "ann@example.com"))
        ([.ok, .clock 7] ++ List.replicate 3 .ok ++ [.broken false] ++ List.replicate 4 .ok),
      whole 1 (.getUser (.ascii "1")) (List.replicate 6 .ok),
      whole 2 (.listUsers 10 0) (List.replicate 8 .ok),
      whole 3 .getStats (List.replicate 6 .ok)])
    (fun _ _ _ => trivial) ?_ ?_
  · decide +kernel
  rintro c hrun ⟨hbroken, -⟩
  obtain ⟨⟨e, w⟩, hq, herror⟩ := (Option.any_eq_true _ _).mp hbroken
  exact calls_without_redis hrun ⟨e, w, hq, herror⟩

end HttpServerDemo
