import HttpServerDemo.Cache.Entries

/-!
# What a reply shows

A `ListUsers` reply shows a count and a slice of the table that some call has read, the count
first; a `GetStats` reply shows a count. Where the reply was served from Redis, the `SET` that
stored it came after those instants and less than the time to live before the `GET`
(`staleness_bounded`). Count and slice belong to one snapshot when no row was inserted between
them (`list_reply_two_instants`); in general they do not (`list_reply_no_snapshot`).
-/

namespace HttpServerDemo

open Interleaving Keyspace

variable {lib : Libraries} {poolSize : Nat} {ok : Server → ServerEvent → Prop} {c c' : Server}
  {w : World} {i g t : Nat}

/-- A page that decodes was read from a string. -/
theorem tried_page_hit {json : JsonLibrary} {r : Option Reply} {users : List User} {total : Int64}
    (h : triedPage json r [] = (users, some total)) :
    ∃ s, r = some (.string s) ∧ decodePage json s [] = (users, some total) := by
  unfold triedPage at h
  cases hr : RedisClient.stringReply r with
  | none =>
      rw [hr] at h
      cases h
  | some s =>
      rw [hr] at h
      exact ⟨s, RedisClient.stringReply_eq_some hr, h⟩

/-- What a `ListUsers` reply shows was read by the call itself, or by a call with the same limit
and offset that stored it less than ten seconds before the `GET`. -/
theorem list_reply_source (hrun : ServerRun lib poolSize ok c) {limit offset : Int32}
    {users : List User} {total : Int64} (hcall : Called c t (.listUsers limit offset))
    (hret : replyAt c i = some (t, .page users total)) :
    ∃ u n s,
      PageRead c u (UserServiceImpl.pageLimit limit) (UserServiceImpl.pageOffset offset) n s
        total users ∧ s < i ∧ Lists c u (UserServiceImpl.pageLimit limit)
        (UserServiceImpl.pageOffset offset) ∧
      (u = t ∨ ∃ p g, s < p ∧ g < i ∧
        Serves c (listCacheKey (UserServiceImpl.pageLimit limit)
          (UserServiceImpl.pageOffset offset))
          (lib.json.dump (pageToJson total users)) 10 p u g t) := by
  have hpoint := ret_point_at hrun hret hcall
  generalize hown : own t (c.log.take i) = h at hpoint
  rcases hpoint.listed with ⟨r0, g, hhit, rfl⟩ | ⟨r0, g, conn, count, rows, rest, rfl, rfl, rfl⟩
  · obtain ⟨s, rfl, hdecode⟩ := tried_page_hit hhit
    rw [get_answer (cStr_list_cache_key _ _)] at hown
    obtain ⟨g, ch, wg, hgi, hg, -⟩ := own_at (hown : _ = [⟨incrOp, r0⟩] ++ _ :: [])
    have hkey := isListKey_list_cache_key (UserServiceImpl.pageLimit limit)
      (UserServiceImpl.pageOffset offset)
    obtain ⟨ttl, p, u, hserves, -⟩ := hit_source hrun hg hkey.ne.2.1
    obtain ⟨chp, chg, r, wp, wg', hp, hg', hpg, hclock⟩ := id hserves
    -- the key tells limit and offset, so the call that stored the page has listed the same page
    obtain ⟨limit', offset', n, s', total', users', hcalled', hkey', hread, hsp, rfl, httl⟩ :=
      page_source hrun hp hkey
    obtain ⟨hlimit, hoffset⟩ := list_cache_key_inj hkey'
    rw [decode_page_text] at hdecode
    cases hdecode
    cases httl
    rw [← hlimit, ← hoffset] at hread
    exact ⟨u, n, s', hread, by omega, ⟨limit', offset', hcalled', hlimit.symm, hoffset.symm⟩,
      .inr ⟨p, g, hsp, hgi, hserves⟩⟩
  · obtain ⟨n, s, hread, hsi⟩ := page_read_of_history hrun hown
    exact ⟨t, n, s, hread, hsi, ⟨limit, offset, hcall, rfl, rfl⟩, .inl rfl⟩

/-- What a `GetStats` reply shows was counted by the call itself, or by a call that stored it less
than thirty seconds before the `GET`. -/
theorem stats_reply_source (hrun : ServerRun lib poolSize ok c) {total requests : Int64}
    (hcall : Called c t .getStats)
    (hret : replyAt c i = some (t, .stats total requests)) :
    ∃ (u n conn : Nat), Executes c n u (.query conn .countUsers) ∧ n < i ∧
      total.toInt = (rowsAt c n).length ∧
      (u = t ∨ ∃ p g, n < p ∧ g < i ∧
        Serves c totalUsersKey (Decimal.ofInt total.toInt) 30 p u g t) := by
  have hpoint := ret_point_at hrun hret hcall
  generalize hown : own t (c.log.take i) = h at hpoint
  rcases hpoint.totalled with ⟨s, rc, rfl, rfl⟩ | ⟨g, conn, count, s, rest, rfl, rfl⟩
  · obtain ⟨g, ch, wg, hgi, hg⟩ := total_get_of_history hown
    obtain ⟨ttl, p, u, hserves, -⟩ := hit_source hrun hg total_users_key_ne.1
    obtain ⟨chp, chg, r, wp, wg', hp, hg', hpg, hclock⟩ := id hserves
    obtain ⟨n, conn, total, -, hcount, hnp, htotal, rfl, httl⟩ := total_source hrun hp
    cases httl
    rw [strtoll_count_text]
    exact ⟨u, n, conn, hcount, by omega, htotal, .inr ⟨p, g, hnp, hgi, hserves⟩⟩
  · obtain ⟨n, hcount, hni, htotal⟩ := count_read_of_history hrun hown
    exact ⟨t, n, conn, hcount, hni, htotal, .inl rfl⟩

/-! ## Staleness -/

/-- Replies are stale for no longer than the time to live of what they were served from. -/
structure StalenessBounded (lib : Libraries) (c : Server) : Prop where
  /-- The users of a list are the slice at an earlier SELECT of a call with the same limit and
  offset, stored after it and less than ten seconds before the `GET` when served from Redis. -/
  lists : ∀ t i limit offset users total, Called c t (.listUsers limit offset) →
    replyAt c i = some (t, .page users total) →
    ∃ u s conn,
      Lists c u (UserServiceImpl.pageLimit limit) (UserServiceImpl.pageOffset offset) ∧
      Executes c s u (.query conn (.usersPage (UserServiceImpl.pageLimit limit)
        (UserServiceImpl.pageOffset offset))) ∧ s < i ∧
      users = pageUsers (UserServiceImpl.pageLimit limit) (UserServiceImpl.pageOffset offset)
        (rowsAt c s) ∧
      (u = t ∨ ∃ p g, s < p ∧ g < i ∧
        Serves c (listCacheKey (UserServiceImpl.pageLimit limit)
          (UserServiceImpl.pageOffset offset))
          (lib.json.dump (pageToJson total users)) 10 p u g t)
  /-- A total is the count at an earlier instant, stored after it and less than thirty seconds
  before the `GET` when served from Redis. -/
  stats : ∀ t i total requests, Called c t .getStats →
    replyAt c i = some (t, .stats total requests) →
    ∃ (u n conn : Nat), Executes c n u (.query conn .countUsers) ∧ n < i ∧
      total.toInt = (rowsAt c n).length ∧
      (u = t ∨ ∃ p g, n < p ∧ g < i ∧
        Serves c totalUsersKey (Decimal.ofInt total.toInt) 30 p u g t)
  /-- A `GET` leaves every entry and its deadline as they are. -/
  reads : ∀ t key ch r c', Step (grpcServer lib) c (.op t (.command (.get key)) ch r) c' →
    c'.world.keyspace = c.world.keyspace

/-- In every run, whatever Redis commands fail, staleness is bounded. -/
theorem staleness_bounded (hrun : ServerRun lib poolSize ok c) : StalenessBounded lib c := by
  refine ⟨?_, ?_, ?_⟩
  · intro t i limit offset users total hcall hret
    obtain ⟨u, n, s, hread, hsi, hlists, hsource⟩ := list_reply_source hrun hcall hret
    obtain ⟨conn, hselect⟩ := hread.selects
    exact ⟨u, s, conn, hlists, hselect, hsi, hread.users_eq, hsource⟩
  · intro t i total requests hcall hret
    exact stats_reply_source hrun hcall hret
  · intro t key ch r c' hstep
    obtain ⟨th, -, -, hexec⟩ := op_point hrun hstep
    rcases exec_keyspace hexec with hks | ⟨cmd, hcmd, hks⟩
    · exact hks
    · cases hcmd
      rw [hks, run_get]

/-- With a page and a total that are served from Redis nine seconds after they were stored. -/
theorem staleness_bounded_hits :
    ∃ c, ServerRun .standard 1 (fun _ _ => True) c ∧
      (replyAt c 30 = some (2, .page [] 0) ∧ replyAt c 34 = some (3, .stats 0 2)) ∧
      StalenessBounded .standard c := by
  refine exists_run_with (fun _ _ => true)
    (whole 0 (.listUsers 10 0) (List.replicate 8 .ok) ++
      whole 1 .getStats (List.replicate 6 .ok) ++
      List.replicate 9 (.env .tick) ++
      whole 2 (.listUsers 10 0) (List.replicate 2 .ok) ++
      whole 3 .getStats (List.replicate 2 .ok))
    (fun _ _ _ => trivial) (by decide +kernel) ?_
  intro c hrun _
  exact staleness_bounded hrun

/-! ## Snapshots -/

/-- A `ListUsers` reply need not be a snapshot: the count is read before a concurrent INSERT and
the page after it. -/
theorem list_reply_no_snapshot :
    ¬ ∀ c, ServerRun .standard 2 (fun _ e => redisOk e = true) c →
      ∀ t i limit offset users total, Called c t (.listUsers limit offset) →
        replyAt c i = some (t, .page users total) →
        ∃ j, total.toInt = (rowsAt c j).length ∧
          users = pageUsers (UserServiceImpl.pageLimit limit) (UserServiceImpl.pageOffset offset)
            (rowsAt c j) := by
  intro hsnapshot
  have hplay : ∃ c, ServerRun .standard 2 (fun _ e => redisOk e = true) c ∧
      callAt c 0 = some (0, .listUsers 10 0) ∧
      replyAt c 21 =
        some (0, .page [⟨.ascii "1", .ascii "Ann", .ascii "ann@example.com", 7⟩] 0) :=
    exists_run (fun _ e => redisOk e)
      ([.call (.listUsers 10 0)] ++ List.replicate 4 (.op 0 .ok) ++
        whole 1 (.createUser (.ascii "Ann") (.ascii "ann@example.com")) (creates 7 0) ++
        List.replicate 4 (.op 0 .ok) ++ [.ret 0])
      (fun _ _ h => h) (by decide +kernel)
  obtain ⟨c, hrun, hcall, hret⟩ := hplay
  obtain ⟨j, htotal, husers⟩ := hsnapshot c hrun 0 21 10 0 _ _ ⟨0, hcall⟩ hret
  -- a table without rows has an empty page
  have hempty : rowsAt c j = [] := List.eq_nil_of_length_eq_zero (Int.ofNat.inj htotal.symm)
  rw [hempty] at husers
  cases husers

/-- The users of a page lie below the number of rows it was read from. -/
theorem length_pageUsers_le {limit offset : Int32} {rows : List Row}
    (hne : pageUsers limit offset rows ≠ []) :
    offset.toInt.toNat + (pageUsers limit offset rows).length ≤ rows.length := by
  have hlength : (pageUsers limit offset rows).length =
      min limit.toInt.toNat (rows.length - offset.toInt.toNat) := by
    simp [pageUsers, slice]
  have hpos := List.length_pos_of_ne_nil hne
  omega

/-- The page was read at two instants before `i`, the count `n` and the slice `s`, by one call
with this limit and offset. Without an INSERT between them it is a snapshot, and its users lie
below its total. -/
def ShowsTwoInstants (c : Server) (limit offset : Int32) (users : List User) (total : Int64)
    (i : Nat) : Prop :=
  ∃ u n s, Lists c u limit offset ∧ PageRead c u limit offset n s total users ∧ s < i ∧
    rowsAt c n <+: rowsAt c s ∧
    (users ≠ [] → offset.toInt.toNat + users.length ≤ (rowsAt c s).length) ∧
    (rowsAt c n = rowsAt c s →
      users = pageUsers limit offset (rowsAt c n) ∧
        (users ≠ [] → offset.toInt.toNat + users.length ≤ total.toInt))

/-- What a `ListUsers` reply shows belongs to two instants of one call with the same limit and
offset, the count first. -/
theorem list_reply_two_instants (hrun : ServerRun lib poolSize ok c) {limit offset : Int32}
    {users : List User} {total : Int64} (hcall : Called c t (.listUsers limit offset))
    (hret : replyAt c i = some (t, .page users total)) :
    ShowsTwoInstants c (UserServiceImpl.pageLimit limit) (UserServiceImpl.pageOffset offset) users
      total i := by
  obtain ⟨u, n, s, hread, hsi, hlists, -⟩ := list_reply_source hrun hcall hret
  have hbound : users ≠ [] → (UserServiceImpl.pageOffset offset).toInt.toNat + users.length ≤
      (rowsAt c s).length := by
    intro hne
    rw [hread.users_eq] at hne ⊢
    exact length_pageUsers_le hne
  refine ⟨u, n, s, hlists, hread, hsi, rowsAt_mono hrun (Nat.le_of_lt hread.order), hbound, ?_⟩
  intro hsame
  refine ⟨hsame ▸ hread.users_eq, ?_⟩
  intro hne
  rw [hread.total_eq, hsame]
  exact Int.ofNat_le.mpr (hbound hne)

/-- With an INSERT between the count and the slice. -/
theorem list_reply_two_instants_insert :
    ∃ c, ServerRun .standard 2 (fun _ _ => True) c ∧
      (callAt c 0 = some (0, .listUsers 10 0) ∧
        replyAt c 21 =
          some (0, .page [⟨.ascii "1", .ascii "Ann", .ascii "ann@example.com", 7⟩] 0)) ∧
      ShowsTwoInstants c 10 0 [⟨.ascii "1", .ascii "Ann", .ascii "ann@example.com", 7⟩] 0 21 := by
  refine exists_run_with (fun _ _ => true)
    ([.call (.listUsers 10 0)] ++ List.replicate 4 (.op 0 .ok) ++
      whole 1 (.createUser (.ascii "Ann") (.ascii "ann@example.com")) (creates 7 0) ++
      List.replicate 4 (.op 0 .ok) ++ [.ret 0])
    (fun _ _ _ => trivial) (by decide +kernel) ?_
  intro c hrun hplay
  exact list_reply_two_instants hrun ⟨0, hplay.1⟩ hplay.2

end HttpServerDemo
