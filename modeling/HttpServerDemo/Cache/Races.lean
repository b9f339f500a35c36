import HttpServerDemo.Cache.OneAtATime
import HttpServerDemo.Cache.ReadYourWrites

/-!
# Races against invalidation

Three guarantees that invalidation is meant to give do not hold of every interleaving, even where
no command fails, and hold where the race that breaks each of them does not happen. A page may
escape the index for good (`quiescent_index_covers`), a list may miss a user who was created
before it was asked for (`list_reply_is_fresh`), and a total may go back
(`total_users_monotone`). Each theorem is followed by a run that satisfies its condition and by
one that loses the guarantee.
-/

namespace HttpServerDemo

open Interleaving Keyspace

variable {lib : Libraries} {poolSize : Nat} {ok : Server → ServerEvent → Prop} {c : Server}
  {i j m n p t u : Nat} {k : Octets}

/-- One call at a time, without failures, no race happens. -/
theorem orderly_of_redisOk
    (hrun : ServerRun lib poolSize (fun c e => redisOk e = true ∧ OneAtATime c e) c) :
    ServerRun lib poolSize (fun c e => redisOk e = true ∧ Orderly lib.json c e) c := by
  have hok : ∀ (c : Server) e, redisOk e = true ∧ OneAtATime c e →
      failStop e = true ∧ OneAtATime c e := fun _ _ h => ⟨failStop_of_redisOk h.1, h.2⟩
  refine (orderly_of_one_at_a_time hrun hok).mono ?_
  intro c e c' hrun hstep h
  exact ⟨h.1.1, h.2 (connected_of_redisOk hrun fun _ _ h => h.1.1)⟩

/-! ## The index -/

/-- Where the index is dropped only while every live page is about to be added to it, every live
page is in the index whenever no call is in progress. -/
theorem quiescent_index_covers
    (hrun : ServerRun lib poolSize (fun c e => redisOk e = true ∧ DropsCovered c e) c)
    (hquiescent : c.Quiescent) (hlive : LivePage c k) : k ∈ indexed c := by
  have hconn := connected_of_redisOk hrun fun _ _ h => h.1
  have hcovered := covered hrun (fun c e h => ⟨failStop_of_redisOk h.1, fun _ => h.2⟩) hconn
  rcases hcovered k hlive with hin | ⟨t, hawaits⟩
  · exact hin
  · exact absurd hawaits (hrun.not_awaits hquiescent t _)

/-- With a page that was stored after the index had been dropped. -/
theorem quiescent_index_covers_page :
    ∃ c, ServerRun .standard 1 (fun c e => redisOk e = true ∧ OneAtATime c e) c ∧
      (c.Quiescent ∧ (c.world.keyspace.slots (listCacheKey 10 0)).isSome) ∧
      listCacheKey 10 0 ∈ indexed c := by
  refine exists_run_with (fun c e => redisOk e && decide (OneAtATime c e))
    (whole 0 (.createUser (.ascii "Ann") (.ascii "ann@example.com")) (creates 7 0) ++
      whole 1 (.listUsers 10 0) (List.replicate 8 .ok))
    (fun _ _ h => by simpa using h) (by decide +kernel) ?_
  rintro c hrun ⟨hquiescent, hsome⟩
  exact quiescent_index_covers ((orderly_of_redisOk hrun).mono fun _ _ _ _ _ h => ⟨h.1, h.2.drops⟩)
    hquiescent ⟨isListKey_list_cache_key 10 0, hsome⟩

/-- A page may be live and not in the index while no call is in progress: the index is enumerated
before the page is added and dropped after. -/
theorem quiescent_index_misses_page :
    ¬ ∀ c, ServerRun .standard 2 (fun _ e => redisOk e = true) c → c.Quiescent →
      ∀ k, LivePage c k → k ∈ indexed c := by
  intro hclaim
  have hplay : ∃ c, ServerRun .standard 2 (fun _ e => redisOk e = true) c ∧ c.Quiescent ∧
      (c.world.keyspace.slots (listCacheKey 10 0)).isSome ∧ listCacheKey 10 0 ∉ indexed c := by
    refine exists_run (fun _ e => redisOk e)
      (List.flatten [[.call (.listUsers 10 0)], List.replicate 6 (.op 0 .ok),
        [.call (.createUser (.ascii "Ann") (.ascii "ann@example.com"))],
        [.op 1 .ok, .op 1 (.clock 7)], List.replicate 5 (.op 1 .ok),
        List.replicate 2 (.op 0 .ok), [.ret 0], List.replicate 3 (.op 1 .ok), [.ret 1]])
      (fun _ _ h => h) ?_
    decide +kernel
  obtain ⟨c, hrun, hquiescent, hsome, hmiss⟩ := hplay
  exact hmiss (hclaim c hrun hquiescent _ ⟨isListKey_list_cache_key 10 0, hsome⟩)

/-! ## Lists -/

/-- A reply shows a user: it counts the user's row, which has its place in id order, and lists the
row as it is read back if the page covers the place. That is the user itself unless a text has a
U+0000. -/
def ListShows (c : Server) (m : Nat) (limit offset : Int32) (users : List User) (total : Int64)
    (user : User) : Prop :=
  ∃ (rank : Nat) (row : Row), (rowsAt c m)[rank]? = some row ∧ Decimal.text row.id = user.id ∧
    (user.name.NulFree → user.email.NulFree → readBack row = user) ∧
    rank < total.toInt ∧
    (offset.toInt ≤ rank → rank < offset.toInt + limit.toInt → readBack row ∈ users)

/-- A page has the rows at the places that it covers. -/
theorem mem_pageUsers {limit offset : Int32} {rows : List Row} {rank : Nat} {row : Row}
    (hrow : rows[rank]? = some row) (hoffset : offset.toInt ≤ rank)
    (hlimit : rank < offset.toInt + limit.toInt) :
    readBack row ∈ pageUsers limit offset rows := by
  refine List.mem_map_of_mem (List.mem_of_getElem? (i := rank - offset.toInt.toNat) ?_)
  rw [slice, List.getElem?_take_of_lt (by omega), List.getElem?_drop, ← hrow]
  congr 1
  omega

/-- A row keeps its place among the rows at every instant that has so many. -/
theorem row_at_rank (hrun : ServerRun lib poolSize ok c) {conn : Nat} {row : Row} {ch : Choice}
    {w : World}
    (hn : c.log[n]? = some ⟨.op t (.execute conn row.name row.email row.createdAt) ch true, w⟩)
    (hnext : w.table.nextRow row.name row.email row.createdAt = row)
    (hlt : w.table.rows.length < (rowsAt c i).length) :
    (rowsAt c i)[w.table.rows.length]? = some row := by
  have hinserted := inserted_row_now hrun hn
  rw [hnext] at hinserted
  have hplace := List.prefix_iff_getElem?.mp hinserted w.table.rows.length (by simp)
  rw [List.getElem_append_right (Nat.le_refl _)] at hplace
  have hsame := List.prefix_iff_getElem?.mp (rowsAt_now hrun i) w.table.rows.length hlt
  rw [List.getElem?_eq_getElem hlt, ← hsame, hplace]
  simp

/-- Where no page that misses a row escapes the enumeration of the index, and none is stored after
its key has been passed over, a list shows every user whose creation had returned before the list
was asked for. -/
theorem list_reply_is_fresh
    (hrun : ServerRun lib poolSize (fun c e => redisOk e = true ∧
      EnumeratesMissing lib.json c e ∧ StoresDeletable c e) c)
    {name email : Text} {user : User} {limit offset : Int32} {users : List User} {total : Int64}
    (hcreate : Called c t (.createUser name email)) (hcreated : replyAt c i = some (t, .user user))
    (hlist : callAt c j = some (u, .listUsers limit offset)) (hij : i < j)
    (hret : replyAt c m = some (u, .page users total)) :
    ListShows c m (UserServiceImpl.pageLimit limit) (UserServiceImpl.pageOffset offset) users total
      user := by
  obtain ⟨n0, conn, row, ch, w, hn0, hni, hnext, rfl, rfl, rfl, hdone⟩ :=
    created_user hrun hcreate hcreated
  obtain ⟨v, n, s, hread, hsm, -, hsource⟩ := list_reply_source hrun ⟨j, hlist⟩ hret
  obtain ⟨wj, hj⟩ := callAt_eq_some.mp hlist
  have hrank : w.table.rows.length < (rowsAt c n).length := by
    rcases hsource with rfl | ⟨p, g, hsp, hgm, chp, chg, r, wp, wg, -, hg, -, -⟩
    · -- the call counted the rows itself, after it had started
      obtain ⟨conn', chn, rn, wn, hn⟩ := hread.counts
      have hjn := hrun.call_lt_op hj hn
      have := (inserted_row hrun (by omega : n0 < n) hn0).length_le
      rw [List.length_append, List.length_singleton] at this
      omega
    · -- a page that misses the row would have been deleted before the call started
      have hjg := hrun.call_lt_op hj hg
      obtain ⟨c1, d, hrun1, hlog, -, hconn, -, -, hslot⟩ := hit_at hrun hg ⟨j, hlist⟩
      by_contra hlt
      have hfresh := fresh hrun1 (fun c e h => ⟨failStop_of_redisOk h.1, fun _ => h.2⟩) hconn
      have hdue := hfresh t w.table.rows.length _
        ⟨n0, conn, row.name, row.email, row.createdAt, ch, w, ?_, rfl⟩
        ⟨isListKey_list_cache_key _ _, total, users, d, hslot, ?_⟩
      · refine hdone.not_willDelete ?_ (cStr_list_cache_key _ _) hdue
        rw [hlog]
        exact own_mono t (List.take_prefix_take_left (by omega))
      · rw [hlog, List.getElem?_take_of_lt (by omega), hn0]
      · rw [hread.total_eq]
        omega
  have hmono := (rowsAt_mono hrun (Nat.le_of_lt hread.order)).length_le
  have hrow := row_at_rank hrun hn0 hnext (i := s) (by omega)
  have hrowm := row_at_rank hrun hn0 hnext (i := m)
    (by have := (rowsAt_mono hrun (Nat.le_of_lt hsm)).length_le; omega)
  refine ⟨w.table.rows.length, row, hrowm, rfl, readBack_of_nulFree, ?_, ?_⟩
  · rw [hread.total_eq]
    omega
  · intro hoffset hlimit
    rw [hread.users_eq]
    exact mem_pageUsers hrow hoffset hlimit

/-- With a page that was stored before the INSERT, deleted, stored again and served from Redis. -/
theorem list_reply_is_fresh_hit :
    ∃ c, ServerRun .standard 1 (fun c e => redisOk e = true ∧ OneAtATime c e) c ∧
      (Called c 1 (.createUser (.ascii "Ann") (.ascii "ann@example.com")) ∧
        replyAt c 22 = some (1, .user ⟨.ascii "1", .ascii "Ann", .ascii "ann@example.com", 7⟩) ∧
        callAt c 33 = some (3, .listUsers 10 0) ∧
        replyAt c 36 =
          some (3, .page [⟨.ascii "1", .ascii "Ann", .ascii "ann@example.com", 7⟩] 1)) ∧
      ListShows c 36 (UserServiceImpl.pageLimit 10) (UserServiceImpl.pageOffset 0)
        [⟨.ascii "1", .ascii "Ann", .ascii "ann@example.com", 7⟩] 1
        ⟨.ascii "1", .ascii "Ann", .ascii "ann@example.com", 7⟩ := by
  have hplay : ∃ c, ServerRun .standard 1 (fun c e => redisOk e = true ∧ OneAtATime c e) c ∧
      callAt c 10 = some (1, .createUser (.ascii "Ann") (.ascii "ann@example.com")) ∧
      replyAt c 22 = some (1, .user ⟨.ascii "1", .ascii "Ann", .ascii "ann@example.com", 7⟩) ∧
      callAt c 33 = some (3, .listUsers 10 0) ∧
      replyAt c 36 =
        some (3, .page [⟨.ascii "1", .ascii "Ann", .ascii "ann@example.com", 7⟩] 1) := by
    refine exists_run (fun c e => redisOk e && decide (OneAtATime c e))
      (whole 0 (.listUsers 10 0) (List.replicate 8 .ok) ++
        whole 1 (.createUser (.ascii "Ann") (.ascii "ann@example.com")) (creates 7 1) ++
        whole 2 (.listUsers 10 0) (List.replicate 8 .ok) ++
        whole 3 (.listUsers 10 0) (List.replicate 2 .ok))
      (fun _ _ h => by simpa using h) ?_
    decide +kernel
  obtain ⟨c, hrun, hcreate, hcreated, hlist, hret⟩ := hplay
  refine ⟨c, hrun, ⟨⟨10, hcreate⟩, hcreated, hlist, hret⟩, ?_⟩
  exact list_reply_is_fresh
    ((orderly_of_redisOk hrun).mono fun _ _ _ _ _ h =>
      ⟨h.1, h.2.enumerates, h.2.stores⟩)
    ⟨10, hcreate⟩ hcreated hlist (by decide) hret

/-- A list may miss a user whose creation had returned before it was asked for: another list has
read the table before the INSERT and stores its page after the invalidation. -/
theorem list_reply_is_stale :
    ¬ ∀ c, ServerRun .standard 2 (fun _ e => redisOk e = true) c →
      ∀ name email user limit offset users total t i j u m,
        Called c t (.createUser name email) → replyAt c i = some (t, .user user) →
        callAt c j = some (u, .listUsers limit offset) → i < j →
        replyAt c m = some (u, .page users total) →
        ListShows c m (UserServiceImpl.pageLimit limit) (UserServiceImpl.pageOffset offset) users
          total user := by
  intro hclaim
  have hplay : ∃ c, ServerRun .standard 2 (fun _ e => redisOk e = true) c ∧
      callAt c 6 = some (1, .createUser (.ascii "Ann") (.ascii "ann@example.com")) ∧
      replyAt c 17 = some (1, .user ⟨.ascii "1", .ascii "Ann", .ascii "ann@example.com", 7⟩) ∧
      callAt c 22 = some (2, .listUsers 10 0) ∧ replyAt c 25 = some (2, .page [] 0) := by
    -- call 0 stops between its reads and its `SET` while call 1 inserts and invalidates
    refine exists_run (fun _ e => redisOk e)
      ([.call (.listUsers 10 0)] ++ List.replicate 5 (.op 0 .ok) ++
        whole 1 (.createUser (.ascii "Ann") (.ascii "ann@example.com")) (creates 7 0) ++
        List.replicate 3 (.op 0 .ok) ++ [.ret 0] ++
        whole 2 (.listUsers 10 0) (List.replicate 2 .ok))
      (fun _ _ h => h) ?_
    decide +kernel
  obtain ⟨c, hrun, hcreate, hcreated, hlist, hret⟩ := hplay
  obtain ⟨rank, row, -, -, -, hcounted, -⟩ :=
    hclaim c hrun _ _ _ 10 0 [] 0 1 17 22 2 25 ⟨6, hcreate⟩ hcreated hlist (by decide) hret
  exact absurd hcounted (Int.not_lt.mpr (Int.natCast_nonneg rank))

/-! ## Totals -/

/-- Whoever stores the total has counted no fewer rows than those who stored it before. -/
def CountsInOrder (c : Server) (e : ServerEvent) : Prop :=
  ∀ u v ttl ch r, e = .op u (.command (.set totalUsersKey v ttl)) ch r →
    ∀ n conn, Executes c n u (.query conn .countUsers) →
      ∀ p u' v' ttl', Executes c p u' (.command (.set totalUsersKey v' ttl')) →
        ∀ n' conn', n' < p → Executes c n' u' (.query conn' .countUsers) →
          (rowsAt c n').length ≤ (rowsAt c n).length

/-- Totals that are stored one after the other do not decrease. -/
theorem stored_in_order (hrun : ServerRun lib poolSize ok c)
    (hok : ∀ c e, ok c e → CountsInOrder c e) {v v' : Octets} {ttl ttl' : Option Nat}
    (hmn : m < n) (hm : Executes c m t (.command (.set totalUsersKey v ttl)))
    (hn : Executes c n u (.command (.set totalUsersKey v' ttl'))) :
    (strtoll v).toInt ≤ (strtoll v').toInt := by
  obtain ⟨chm, rm, wm, hm⟩ := hm
  obtain ⟨chn, rn, wn, hn⟩ := hn
  obtain ⟨i, conn, total, -, hi, him, htotal, rfl, -⟩ := total_source hrun hm
  obtain ⟨j, conn', total', -, hj, hjn, htotal', rfl, -⟩ := total_source hrun hn
  obtain ⟨c1, c2, -, hlog, -, -, hc1, -⟩ := hrun.at hn
  -- both counts and the first `SET` had happened when the second was issued
  obtain ⟨hm1, -⟩ := Executes.take ⟨chm, rm, wm, hm⟩ hlog hmn
  obtain ⟨hi1, hrows⟩ := hi.take hlog (Nat.lt_trans him hmn)
  obtain ⟨hj1, hrows'⟩ := hj.take hlog hjn
  have hle := hok c1 _ hc1 u _ ttl' chn rn rfl j conn' hj1 m t _ ttl hm1 i conn him hi1
  rw [hrows, hrows'] at hle
  rw [strtoll_count_text, strtoll_count_text, htotal, htotal']
  exact Int.ofNat_le.mpr hle

/-- Without failures a `SET` with a time to live is answered with a status. -/
theorem status_of_redisOk (hrun : ServerRun lib poolSize ok c)
    (hok : ∀ c e, ok c e → redisOk e = true) {key v : Octets} {ttl : Option Nat} {ch : Choice}
    {r : Option Reply} {w : World} (httl : ttl ≠ some 0)
    (hp : c.log[p]? = some ⟨.op t (.command (.set key v ttl)) ch r, w⟩) : r = some .status := by
  obtain ⟨c1, c2, hrun1, -, rfl, hstep, hc1, -⟩ := hrun.at hp
  obtain ⟨req, -, -, hexec⟩ := op_point hrun1 hstep
  have hchoice : ch = .ok := of_decide_eq_true (hok _ _ hc1)
  rcases exec_command hexec with ⟨-, -, rfl, -⟩ | ⟨-, herror | hnot, -⟩
  · rw [run_set _ _ httl]
  · rw [connected_of_redisOk hrun1 hok] at herror
    cases herror
  · exact absurd hchoice hnot

/-- Without failures every total that `GetStats` returns has been stored before. -/
theorem total_stored (hrun : ServerRun lib poolSize ok c)
    (hok : ∀ c e, ok c e → redisOk e = true) {total requests : Int64}
    (hcall : Called c t .getStats) (hret : replyAt c i = some (t, .stats total requests)) :
    ∃ (p u : Nat) (v : Octets) (ttl : Option Nat) (ch : Choice) (w : World), p < i ∧
      c.log[p]? = some ⟨.op u (.command (.set totalUsersKey v ttl)) ch (some .status), w⟩ ∧
      total = strtoll v := by
  have hpoint := ret_point_at hrun hret hcall
  generalize hown : own t (c.log.take i) = h at hpoint
  rcases hpoint.totalled with ⟨s, rc, rfl, rfl⟩ | ⟨g, conn, count, s, rest, rfl, rfl⟩
  -- a hit: the string under the key was put there by a `SET`
  · obtain ⟨g, ch, wg, hgi, hg⟩ := total_get_of_history hown
    obtain ⟨ttl, p, u, ⟨chp, chg, r, wp, wg', hp, -, hpg, -⟩, -⟩ :=
      hit_source hrun hg total_users_key_ne.1
    obtain ⟨-, -, -, -, -, -, -, -, httl⟩ := total_source hrun hp
    have hstatus := status_of_redisOk hrun hok (by simp [httl]) hp
    subst hstatus
    exact ⟨p, u, s, _, chp, wp, Nat.lt_trans hpg hgi, hp, rfl⟩
  -- a miss: the call stores its count before it returns
  · have hset : own t (c.log.take i) = [⟨getOp totalUsersKey, g⟩, ⟨.acquire, conn⟩,
        ⟨.query conn .countUsers, some count⟩] ++
          ⟨setOp totalUsersKey (Decimal.ofInt (rowToCount count).toInt) 30, s⟩ :: rest := hown
    obtain ⟨p, ch, wp, hpi, hp, -⟩ := own_at hset
    have hstatus := status_of_redisOk hrun hok (by decide) hp
    subst hstatus
    refine ⟨p, t, _, _, ch, wp, hpi, hp, ?_⟩
    rw [Octets.cStr_eq_self (Decimal.nul_not_mem_ofInt _), strtoll_count_text]

/-- Where totals are stored in the order of their counts, no total that is returned is smaller than
one that had been returned before the call started. -/
theorem total_users_monotone
    (hrun : ServerRun lib poolSize (fun c e => redisOk e = true ∧ CountsInOrder c e) c)
    {total requests total' requests' : Int64} (hcall : Called c t .getStats)
    (hret : replyAt c i = some (t, .stats total requests))
    (hcall' : callAt c j = some (u, .getStats)) (hij : i < j)
    (hret' : replyAt c m = some (u, .stats total' requests')) : total ≤ total' := by
  rw [Int64.le_iff_toInt_le]
  obtain ⟨p, t', v, ttl, ch, w, hpi, hp, rfl⟩ := total_stored hrun (fun _ _ h => h.1) hcall hret
  obtain ⟨wj, hj⟩ := callAt_eq_some.mp hcall'
  have hpoint := ret_point_at hrun hret' ⟨j, hcall'⟩
  generalize hown : own u (c.log.take m) = h at hpoint
  rcases hpoint.totalled with ⟨s, rc, rfl, rfl⟩ | ⟨g, conn, count, s, rest, rfl, rfl⟩
  · -- served from Redis: the last `SET` before the `GET` is that one or a later one
    obtain ⟨g, chg, wg, -, hg⟩ := total_get_of_history hown
    have hjg := hrun.call_lt_op hj hg
    obtain ⟨ttl', q, u', ⟨chq, chg', r, wq, wg', hq, -⟩, hlast⟩ :=
      hit_source hrun hg total_users_key_ne.1
    rcases Nat.eq_or_lt_of_le (hlast p t' v ttl ch w (by omega) hp) with rfl | hpq
    · rw [hp] at hq
      cases hq
      exact Int.le_refl _
    · exact stored_in_order hrun (fun _ _ h => h.2) hpq ⟨ch, _, w, hp⟩ ⟨chq, r, wq, hq⟩
  · -- counted by the call itself
    obtain ⟨n, ⟨chn, rn, wn, hn⟩, -, htotal'⟩ := count_read_of_history hrun hown
    have hjn := hrun.call_lt_op hj hn
    obtain ⟨n', conn', total, -, -, hn'p, htotal, rfl, -⟩ := total_source hrun hp
    rw [strtoll_count_text, htotal, htotal']
    exact Int.ofNat_le.mpr (rowsAt_mono hrun (by omega : n' ≤ n)).length_le

/-- One call at a time: totals are stored in the order of their counts. -/
theorem counts_in_order_of_one_at_a_time (hrun : ServerRun lib poolSize ok c)
    (hone : ∀ c e, ok c e → OneAtATime c e) {e : ServerEvent} {c' : Server}
    (hstep : Step (grpcServer lib) c e c') : CountsInOrder c e := by
  rintro u v ttl ch r rfl n conn ⟨chn, rn, wn, hn⟩ p u' v' ttl' - n' conn' - -
  obtain ⟨req, ⟨i, hi⟩, hpoint, -⟩ := op_point hrun hstep
  obtain ⟨wi, hi'⟩ := callAt_eq_some.mp hi
  have hreq : ∀ name email, req ≠ .createUser name email := by
    rintro name email rfl
    exact hpoint.set.isUserKey.ne.1 rfl
  rw [rows_constant hrun hone (hrun.live_of_op hstep) hi hreq (hrun.call_lt_op hi' hn)]
  exact (rowsAt_now hrun n').length_le

/-- With totals that were counted before and after an INSERT. -/
theorem total_users_monotone_insert :
    ∃ c, ServerRun .standard 1 (fun c e => redisOk e = true ∧ OneAtATime c e) c ∧
      (callAt c 0 = some (0, .getStats) ∧ replyAt c 7 = some (0, .stats 0 0) ∧
        callAt c 28 = some (3, .getStats) ∧ replyAt c 31 = some (3, .stats 1 1)) ∧
      (0 : Int64) ≤ 1 := by
  refine exists_run_with (fun c e => redisOk e && decide (OneAtATime c e))
    (whole 0 .getStats (List.replicate 6 .ok) ++
      whole 1 (.createUser (.ascii "Ann") (.ascii "ann@example.com")) (creates 7 0) ++
      whole 2 .getStats (List.replicate 6 .ok) ++
      whole 3 .getStats (List.replicate 2 .ok))
    (fun _ _ h => by simpa using h) (by decide +kernel) ?_
  rintro c hrun ⟨hcall, hret, hcall', hret'⟩
  refine total_users_monotone (hrun.mono fun c e c' hrun hstep h => ⟨h.1, ?_⟩) ⟨0, hcall⟩ hret
    hcall' (by decide) hret'
  exact counts_in_order_of_one_at_a_time hrun (fun _ _ h => h.2) hstep

/-- A total may go back: a `GetStats` that has counted before an INSERT stores its count after
another has counted, stored and returned. -/
theorem total_users_goes_back :
    ¬ ∀ c, ServerRun .standard 2 (fun _ e => redisOk e = true) c →
      ∀ t i total requests u j m total' requests', Called c t .getStats →
        replyAt c i = some (t, .stats total requests) →
        callAt c j = some (u, .getStats) → i < j →
        replyAt c m = some (u, .stats total' requests') → total ≤ total' := by
  intro hclaim
  have hplay : ∃ c, ServerRun .standard 2 (fun _ e => redisOk e = true) c ∧
      callAt c 16 = some (2, .getStats) ∧ replyAt c 23 = some (2, .stats 1 1) ∧
      callAt c 28 = some (3, .getStats) ∧ replyAt c 31 = some (3, .stats 0 1) := by
    refine exists_run (fun _ e => redisOk e)
      ([.call .getStats] ++ List.replicate 3 (.op 0 .ok) ++
        whole 1 (.createUser (.ascii "Ann") (.ascii "ann@example.com")) (creates 7 0) ++
        whole 2 .getStats (List.replicate 6 .ok) ++
        List.replicate 3 (.op 0 .ok) ++ [.ret 0] ++
        whole 3 .getStats (List.replicate 2 .ok))
      (fun _ _ h => h) ?_
    decide +kernel
  obtain ⟨c, hrun, hcall, hret, hcall', hret'⟩ := hplay
  exact absurd (hclaim c hrun 2 23 1 1 3 28 31 0 1 ⟨16, hcall⟩ hret hcall' (by decide) hret')
    (by decide)

end HttpServerDemo
