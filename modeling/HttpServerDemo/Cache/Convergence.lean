import HttpServerDemo.Cache.AskedId

/-!
# Convergence after the last creation

Suppose that at some instant no call is in progress and that no row is inserted after it. What was
in Redis then is gone after its time to live, whatever the invalidation left behind, and what is
stored later was read later (`current_of_stored`). So ten seconds later lists, thirty seconds later
totals and sixty seconds later single users are what the table holds, whatever fails meanwhile
(`replies_converge`).
-/

namespace HttpServerDemo

open Interleaving Keyspace

variable {lib : Libraries} {poolSize : Nat} {ok : Server → ServerEvent → Prop} {c : Server}
  {i j t u q m n p g : Nat}

/-- The clock at an instant; from the end of the log on, the clock now. -/
def clockAt (c : Server) (i : Nat) : Nat :=
  match c.log[i]? with
  | some entry => entry.before.keyspace.clock
  | none => c.world.keyspace.clock

theorem clockAt_eq {e : ServerEvent} {w : World} (hi : c.log[i]? = some ⟨e, w⟩) :
    clockAt c i = w.keyspace.clock := by
  unfold clockAt
  rw [hi]

theorem clockAt_mono (hrun : ServerRun lib poolSize ok c) (hij : i ≤ j) :
    clockAt c i ≤ clockAt c j := by
  cases hj : c.log[j]? with
  | none =>
      have hnow : clockAt c j = c.world.keyspace.clock := by
        unfold clockAt
        rw [hj]
      cases hi : c.log[i]? with
      | none =>
          unfold clockAt
          rw [hi, hj]
      | some entry =>
          rw [hnow, clockAt_eq hi]
          exact clock_now hrun hi
  | some entry =>
      have hlt : i < c.log.length :=
        Nat.lt_of_le_of_lt hij (List.getElem?_eq_some_iff.mp hj).1
      rw [clockAt_eq hj, clockAt_eq (List.getElem?_eq_getElem hlt)]
      exact clock_mono hrun hij (List.getElem?_eq_getElem hlt) hj

/-- At instant `q` no call is in progress, and no row is inserted from then on. -/
structure Settled (c : Server) (q : Nat) : Prop where
  quiescent : ∀ m t req, m < q → callAt c m = some (t, req) →
    ∃ i < q, ∃ resp, replyAt c i = some (t, resp)
  rows : rowsAt c q = c.world.table.rows

/-- From instant `q` on the rows are those of now. -/
theorem Settled.rows_after (h : Settled c q) (hrun : ServerRun lib poolSize ok c) (hqn : q ≤ n) :
    rowsAt c n = c.world.table.rows := by
  have hle : (rowsAt c q).length ≤ (rowsAt c n).length := (rowsAt_mono hrun hqn).length_le
  rw [h.rows] at hle
  exact (rowsAt_now hrun n).eq_of_length_le hle

/-- A call that is in progress after instant `q` began after it, and so did its operations. -/
theorem Settled.begun_after (h : Settled c q) (hrun : ServerRun lib poolSize ok c) {o o' : Op}
    (hp : Executes c p u o) (hqp : q ≤ p) (hn : Executes c n u o') : q ≤ n := by
  obtain ⟨ch, r, w, hp⟩ := hp
  obtain ⟨ch', r', w', hn⟩ := hn
  obtain ⟨req, -, ⟨m, hm⟩, -, -⟩ := op_point_at hrun hp
  obtain ⟨wm, hcall⟩ := callAt_eq_some.mp hm
  have hmn := hrun.call_lt_op hcall hn
  by_contra hnq
  obtain ⟨i, hiq, resp, hret⟩ := h.quiescent m u req (by omega) hm
  obtain ⟨wi, hret⟩ := replyAt_eq_some.mp hret
  have hpi := hrun.op_lt_ret hp hret
  omega

/-- After its time to live, an entry that was there at instant `q` is not served any more. -/
theorem stored_after (hrun : ServerRun lib poolSize ok c) {key value : Octets} {ttl : Nat}
    (hserves : Serves c key value ttl p u g t) (hclock : clockAt c q + ttl ≤ clockAt c m)
    (hmg : m ≤ g) : q ≤ p := by
  obtain ⟨chp, chg, r, wp, wg, hp, hg, -, hlive⟩ := hserves
  by_contra hpq
  have hbefore : clockAt c p ≤ clockAt c q := clockAt_mono hrun (by omega)
  have hafter : clockAt c m ≤ clockAt c g := clockAt_mono hrun hmg
  rw [clockAt_eq hp] at hbefore
  rw [clockAt_eq hg] at hafter
  omega

/-- What a call reads from Redis, the time to live after instant `q`, was read from the rows of
now. -/
theorem Settled.current_of_stored (h : Settled c q) (hrun : ServerRun lib poolSize ok c)
    {key value : Octets} {ttl : Nat} (hserves : Serves c key value ttl p u g t)
    (hclock : clockAt c q + ttl ≤ clockAt c m) (hmg : m ≤ g) {o : Op} (hn : Executes c n u o) :
    rowsAt c n = c.world.table.rows := by
  have hqp := stored_after hrun hserves hclock hmg
  obtain ⟨chp, chg, r, wp, wg, hp, -⟩ := hserves
  have hset : Executes c p u (.command (.set key value (some ttl))) := ⟨chp, r, wp, hp⟩
  exact h.rows_after hrun (h.begun_after hrun hset hqp hn)

/-- A user entry lives for sixty seconds. -/
theorem SetPoint.ttl_of_user {json : JsonLibrary} {k v : Octets} {ttl : Option Nat} {req : Request}
    {h : History} (hset : SetPoint json k v ttl req h) (hk : IsUserKey k) : ttl = some 60 := by
  cases hset with
  | createUser r now conn id hkey hvalue httl => exact httl
  | getUser r g conn row rest hkey hvalue httl => exact httl
  | listUsers r g conn count rows hkey =>
      rw [cStr_list_cache_key] at hkey
      exact absurd (hkey ▸ isListKey_list_cache_key _ _) hk.not_isListKey
  | getStats g conn count hkey => exact absurd hkey hk.ne.1

/-- A user entry that is stored after instant `q` was read back from the table. -/
theorem Settled.read_back_of_set (h : Settled c q) (hrun : ServerRun lib poolSize ok c)
    {key value : Octets} {ttl : Option Nat} {ch : Choice} {r : Option Reply} {w : World}
    (hp : c.log[p]? = some ⟨.op u (.command (.set key value ttl)) ch r, w⟩)
    (hkey : IsUserKey key) (hqp : q ≤ p) :
    ∃ id, key = Octets.cStr (userKey id) ∧ ∃ row ∈ c.world.table.rows, row.Matches lib.mysql id ∧
      value = userToJsonString lib.json (readBack row) := by
  obtain ⟨req, -, hset⟩ := set_point_at hrun hp
  generalize hown : own u (c.log.take p) = hist at hset
  cases hset with
  | @createUser name email r0 now conn id =>
      -- its INSERT would have added a row after instant `q`
      have hprefix : ⟨incrOp, r0⟩ :: inserted now conn name email id <+: own u c.log := by
        rw [← hown]
        exact own_mono u (List.take_prefix p c.log)
      obtain ⟨n, chn, wn, hn, -, hrow⟩ := created_row hrun hprefix
      have hset : Executes c p u (.command (.set key value ttl)) := ⟨ch, r, w, hp⟩
      have hinsert : Executes c n u (.execute conn name email now) := ⟨chn, true, wn, hn⟩
      have hqn := h.begun_after hrun hset hqp hinsert
      have hrows := h.rows_after hrun hqn
      have hlength := hrow.length_le
      rw [rowsAt_eq hn] at hrows
      rw [hrows, List.length_append, List.length_singleton] at hlength
      omega
  | @getUser id r0 g0 conn cells rest hk hvalue =>
      have hquery : own u (c.log.take p) =
          [⟨incrOp, r0⟩, ⟨getOp (userKey id), g0⟩, ⟨.acquire, conn⟩] ++
            ⟨.query conn (.userById id), some (cells :: rest)⟩ :: [] := hown
      obtain ⟨n, chn, wn, hnp, hn, -⟩ := own_at hquery
      obtain ⟨row, hmem, hmatches, rfl⟩ := row_of_select (query_at hrun hn)
      rw [← rowsAt_eq hn] at hmem
      refine ⟨id, hk, row, (rowsAt_now hrun n).subset hmem, hmatches, ?_⟩
      rw [hvalue, cStr_user_to_json_string]
      rfl
  | listUsers r0 g0 conn count rows hk =>
      rw [cStr_list_cache_key] at hk
      exact absurd (hk ▸ isListKey_list_cache_key _ _) hkey.not_isListKey
  | getStats g0 conn count hk => exact absurd hk hkey.ne.1

/-- Replies to calls that begin the time to live after instant `q` are what the table holds. -/
structure Converged (lib : Libraries) (c : Server) (q : Nat) : Prop where
  lists : ∀ t m i limit offset users total, callAt c m = some (t, .listUsers limit offset) →
    clockAt c q + 10 ≤ clockAt c m → q ≤ m → replyAt c i = some (t, .page users total) →
    users = pageUsers (UserServiceImpl.pageLimit limit) (UserServiceImpl.pageOffset offset)
      c.world.table.rows ∧ total.toInt = c.world.table.rows.length
  stats : ∀ t m i total requests, callAt c m = some (t, .getStats) →
    clockAt c q + 30 ≤ clockAt c m → q ≤ m → replyAt c i = some (t, .stats total requests) →
    total.toInt = c.world.table.rows.length
  users : ∀ t m i id user, callAt c m = some (t, .getUser id) →
    clockAt c q + 60 ≤ clockAt c m → q ≤ m → replyAt c i = some (t, .user user) →
    ∃ row ∈ c.world.table.rows, row.Matches lib.mysql id ∧ user = readBack row

/-- A list that is read the time to live later. -/
theorem Settled.lists (h : Settled c q) (hrun : ServerRun lib poolSize ok c)
    {limit offset : Int32} {users : List User} {total : Int64}
    (hcall : callAt c m = some (t, .listUsers limit offset))
    (hclock : clockAt c q + 10 ≤ clockAt c m) (hqm : q ≤ m)
    (hret : replyAt c i = some (t, .page users total)) :
    users = pageUsers (UserServiceImpl.pageLimit limit) (UserServiceImpl.pageOffset offset)
      c.world.table.rows ∧ total.toInt = c.world.table.rows.length := by
  obtain ⟨u, n, s, hread, -, -, hsource⟩ := list_reply_source hrun ⟨m, hcall⟩ hret
  obtain ⟨conn, hcount⟩ := hread.counts
  obtain ⟨conn', hselect⟩ := hread.selects
  obtain ⟨wm, hm⟩ := callAt_eq_some.mp hcall
  have hrows : rowsAt c n = c.world.table.rows ∧ rowsAt c s = c.world.table.rows := by
    rcases hsource with rfl | ⟨p, g, -, -, hserves⟩
    · obtain ⟨ch, r, w, hn⟩ := hcount
      have hmn := hrun.call_lt_op hm hn
      have hns := hread.order
      exact ⟨h.rows_after hrun (by omega), h.rows_after hrun (by omega)⟩
    · obtain ⟨chp, chg, r, wp, wg, -, hg, -⟩ := id hserves
      have hmg := hrun.call_lt_op hm hg
      exact ⟨h.current_of_stored hrun hserves hclock (by omega) hcount,
        h.current_of_stored hrun hserves hclock (by omega) hselect⟩
  refine ⟨?_, ?_⟩
  · rw [hread.users_eq, hrows.2]
  · rw [hread.total_eq, hrows.1]

/-- A total that is read the time to live later. -/
theorem Settled.stats (h : Settled c q) (hrun : ServerRun lib poolSize ok c)
    {total requests : Int64} (hcall : callAt c m = some (t, .getStats))
    (hclock : clockAt c q + 30 ≤ clockAt c m) (hqm : q ≤ m)
    (hret : replyAt c i = some (t, .stats total requests)) :
    total.toInt = c.world.table.rows.length := by
  obtain ⟨u, n, conn, hcount, -, htotal, hsource⟩ := stats_reply_source hrun ⟨m, hcall⟩ hret
  obtain ⟨wm, hm⟩ := callAt_eq_some.mp hcall
  rcases hsource with rfl | ⟨p, g, -, -, hserves⟩
  · obtain ⟨ch, r, w, hn⟩ := hcount
    have hmn := hrun.call_lt_op hm hn
    rw [htotal, h.rows_after hrun (by omega)]
  · obtain ⟨chp, chg, r, wp, wg, -, hg, -⟩ := id hserves
    have hmg := hrun.call_lt_op hm hg
    rw [htotal, h.current_of_stored hrun hserves hclock (by omega) hcount]

/-- A user that is read the time to live later. -/
theorem Settled.users (h : Settled c q) (hrun : ServerRun lib poolSize ok c) {id : Text}
    {user : User} (hcall : callAt c m = some (t, .getUser id))
    (hclock : clockAt c q + 60 ≤ clockAt c m)
    (hret : replyAt c i = some (t, .user user)) :
    ∃ row ∈ c.world.table.rows, row.Matches lib.mysql id ∧ user = readBack row := by
  obtain ⟨wm, hm⟩ := callAt_eq_some.mp hcall
  have hpoint := ret_point_at hrun hret ⟨m, hcall⟩
  generalize hown : own t (c.log.take i) = hist at hpoint
  rcases hpoint.got with ⟨r0, -, -, hresp⟩ | ⟨r0, g0, user', hhit, rfl, hresp⟩ |
    ⟨r0, g0, conn, res, -, -, hresp⟩ | ⟨r0, g0, conn, cells, rest, s, rfl, hresp⟩
  · cases hresp
  · -- served from Redis, so stored after instant `q`
    cases hresp
    obtain ⟨s, hs, hdecode⟩ := Option.bind_eq_some_iff.mp hhit
    cases RedisClient.stringReply_eq_some hs
    obtain ⟨g, ch, wg, -, hg, -⟩ := own_at (hown : _ = [⟨incrOp, r0⟩] ++ _ :: [])
    have hmg := hrun.call_lt_op hm hg
    have hkey := isUserKey_user_key id
    obtain ⟨ttl, p, u, hserves, -⟩ := hit_source hrun hg hkey.ne.2.1
    have hstored := hserves
    obtain ⟨chp, chg, r, wp, wg', hp, -⟩ := hstored
    obtain ⟨req, -, hset⟩ := set_point_at hrun hp
    cases hset.ttl_of_user hkey
    have hqp := stored_after hrun hserves hclock (by omega)
    obtain ⟨id', hid, row, hrow, hmatches, rfl⟩ := h.read_back_of_set hrun hp hkey hqp
    rw [decode_user_text] at hdecode
    exact ⟨row, hrow, matches_of_key hid hmatches, (Option.some.inj hdecode).symm⟩
  · cases hresp
  · -- rebuilt from the row
    cases hresp
    obtain ⟨n, ch, wn, -, hn, -⟩ := own_at
      (hown : _ = [⟨incrOp, r0⟩, ⟨getOp _, g0⟩, ⟨.acquire, conn⟩] ++ _ :: _)
    obtain ⟨row, hmem, hmatches, rfl⟩ := row_of_select (query_at hrun hn)
    rw [← rowsAt_eq hn] at hmem
    exact ⟨row, (rowsAt_now hrun n).subset hmem, hmatches, rfl⟩

/-- Once nothing is created any more, every kind of reply becomes what the table holds, at the
latest after its time to live, whatever failed before and fails meanwhile. -/
theorem replies_converge (hrun : ServerRun lib poolSize ok c) (hsettled : Settled c q) :
    Converged lib c q := by
  refine ⟨?_, ?_, ?_⟩
  · intro t m i limit offset users total hcall hclock hqm hret
    exact hsettled.lists hrun hcall hclock hqm hret
  · intro t m i total requests hcall hclock hqm hret
    exact hsettled.stats hrun hcall hclock hqm hret
  · intro t m i id user hcall hclock _ hret
    exact hsettled.users hrun hcall hclock hret

/-- With a page that the invalidation of a creation left behind. -/
theorem replies_converge_page_left :
    ∃ c, ServerRun .standard 1 (fun _ _ => True) c ∧
      (replyAt c 25 = some (2, .page [] 0) ∧
        callAt c 36 = some (3, .listUsers 10 0) ∧
        replyAt c 45 =
          some (3, .page [⟨.ascii "1", .ascii "Ann", .ascii "ann@example.com", 7⟩] 1) ∧
        rowsAt c 26 = c.world.table.rows ∧
        ∀ m < 26, (callAt c m).all fun call =>
          (List.range 26).any fun i => (replyAt c i).any fun reply => reply.1 = call.1) ∧
      Converged .standard c 26 := by
  refine exists_run_with (fun _ _ => true)
    (List.flatten
      [whole 0 (.listUsers 10 0) (List.replicate 8 .ok),
      whole 1 (.createUser (.ascii "Ann") (.ascii "ann@example.com"))
        ([.ok, .clock 7] ++ List.replicate 4 .ok ++ [.fail] ++ List.replicate 3 .ok),
      whole 2 (.listUsers 10 0) (List.replicate 2 .ok), List.replicate 10 (.env .tick),
      whole 3 (.listUsers 10 0) (List.replicate 8 .ok)])
    (fun _ _ _ => trivial) ?_ ?_
  · decide +kernel
  rintro c hrun ⟨-, -, -, hrows, hreturned⟩
  refine replies_converge hrun ⟨?_, hrows⟩
  intro m t req hm hcall
  have hany := hreturned m hm
  rw [hcall] at hany
  obtain ⟨i, hi, hreply⟩ := List.any_eq_true.mp hany
  obtain ⟨⟨t', resp⟩, hret, hsame⟩ := (Option.any_eq_true _ _).mp hreply
  have hcall : t' = t := of_decide_eq_true hsame
  exact ⟨i, List.mem_range.mp hi, resp, hcall ▸ hret⟩

end HttpServerDemo
