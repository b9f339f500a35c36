import HttpServerDemo.Cache.OneAtATime

/-!
# The cache is transparent to calls one after another

Every list and every total that is returned is what the two statements return on the current table
(`one_at_a_time_transparent`). A call that reads the table itself does so while the table cannot
change; a call that is served from Redis finds nothing there that misses a row.
-/

namespace HttpServerDemo

open Interleaving Keyspace

variable {lib : Libraries} {poolSize : Nat} {ok : Server → ServerEvent → Prop} {c : Server}
  {i g n s t : Nat}

/-! ## Without a cache -/

/-- `SELECT COUNT(*)`, converted as in `ListUsers` and `GetStats`. -/
def referenceTotal (mysql : NumericPrefix) (rows : List Row) : Int64 :=
  rowToCount (Query.countUsers.select mysql rows)

/-- `SELECT ... ORDER BY id LIMIT ... OFFSET ...`, converted as in `ListUsers`. -/
def referenceUsers (mysql : NumericPrefix) (limit offset : Int32) (rows : List Row) : List User :=
  ((Query.usersPage limit offset).select mysql rows).map rowToUser

/-- A number of rows that was read is what the reference reads. -/
theorem eq_reference_total {total : Int64} (mysql : NumericPrefix)
    (h : total.toInt = (rowsAt c i).length) : total = referenceTotal mysql (rowsAt c i) := by
  have htable : ∃ table : UsersTable, rowsAt c i = table.rows := by
    unfold rowsAt
    split
    · exact ⟨_, rfl⟩
    · exact ⟨_, rfl⟩
  obtain ⟨table, htable⟩ := htable
  refine Int64.toInt_inj.mp ?_
  rw [referenceTotal, htable, row_to_count_select, h, htable]

/-- Replies are what the cache-less reference returns on the current table. -/
structure Transparent (lib : Libraries) (c : Server) : Prop where
  /-- Users and total of every list. -/
  lists : ∀ t i limit offset users total, Called c t (.listUsers limit offset) →
    replyAt c i = some (t, .page users total) →
    users = referenceUsers lib.mysql (UserServiceImpl.pageLimit limit)
      (UserServiceImpl.pageOffset offset) (rowsAt c i) ∧
    total = referenceTotal lib.mysql (rowsAt c i)
  /-- The total of the statistics. -/
  stats : ∀ t i total requests, Called c t .getStats →
    replyAt c i = some (t, .stats total requests) →
    total = referenceTotal lib.mysql (rowsAt c i)

/-! ## With the cache -/

/-- One call at a time: the rows that a reading call meets are still there when it returns. -/
theorem rows_until_reply (hrun : ServerRun lib poolSize ok c)
    (hone : ∀ c e, ok c e → OneAtATime c e) {req : Request} (hcall : Called c t req)
    (hreq : ∀ name email, req ≠ .createUser name email) {resp : Response}
    (hret : replyAt c i = some (t, resp)) {o : Op} (hop : Executes c n t o) (hni : n < i) :
    rowsAt c n = rowsAt c i := by
  obtain ⟨m, hm⟩ := hcall
  obtain ⟨wm, hm'⟩ := callAt_eq_some.mp hm
  obtain ⟨ch, r, wn, hn⟩ := hop
  have hmn := hrun.call_lt_op hm' hn
  obtain ⟨wi, hi⟩ := replyAt_eq_some.mp hret
  obtain ⟨c1, c2, hrun1, hlog, rfl, hstep, -⟩ := hrun.at hi
  have hlive : Live c1 t := by
    cases hstep with
    | ret hthread hprog hlive => exact ⟨_, hthread, hlive⟩
  have hcall1 : callAt c1 m = some (t, req) := by
    refine callAt_eq_some.mpr ⟨wm, ?_⟩
    rw [hlog, List.getElem?_take_of_lt (Nat.lt_trans hmn hni), hm']
  have hn1 : c1.log[n]? = some ⟨.op t o ch r, wn⟩ := by
    rw [hlog, List.getElem?_take_of_lt hni, hn]
  rw [rowsAt_eq hi, ← rows_constant hrun1 hone hlive hcall1 hreq hmn, rowsAt_eq hn, rowsAt_eq hn1]

/-- Between two instants with the same rows the rows stay the same. -/
theorem rowsAt_between (hrun : ServerRun lib poolSize ok c) (hns : n ≤ s) (hsg : s ≤ g)
    (h : rowsAt c n = rowsAt c g) : rowsAt c s = rowsAt c g := by
  refine (rowsAt_mono hrun hsg).eq_of_length_le ?_
  rw [← h]
  exact (rowsAt_mono hrun hns).length_le

/-- One call at a time: a list that was served from Redis counts the current rows. -/
theorem hit_page_rows (hrun : ServerRun lib poolSize ok c)
    (hok : ∀ c e, ok c e → failStop e = true ∧ OneAtATime c e) {limit offset : Int32}
    (hcall : Called c t (.listUsers limit offset)) {k : Octets} {total : Int64}
    {users : List User} {ch : Choice} {w : World} (hk : IsListKey k) (hkey : Octets.cStr k = k)
    (hg : c.log[g]? = some ⟨.op t (.command (.get k)) ch
      (some (.string (lib.json.dump (pageToJson total users)))), w⟩)
    (hng : n < g) (htotal : total.toInt = (rowsAt c n).length) : rowsAt c n = rowsAt c g := by
  obtain ⟨c1, d, hrun1, -, hrows, hconn, hlive, hcall1, hslot⟩ := hit_at hrun hg hcall
  refine (rowsAt_mono hrun (Nat.le_of_lt hng)).eq_of_length_le ?_
  by_contra hlt
  rw [hrows] at hlt
  have := page_is_current hrun1 hok hconn hlive hcall1 (by simp) hslot hk hkey
    (Nat.lt_of_not_le hlt)
  omega

/-- Calls follow one another, and a Redis command succeeds or breaks the connection for good. -/
def OneByOne (c : Server) (e : ServerEvent) : Prop :=
  failStop e = true ∧ OneAtATime c e

instance (c : Server) (e : ServerEvent) : Decidable (OneByOne c e) :=
  inferInstanceAs (Decidable (_ ∧ _))

/-- One call at a time: every list and every total is what the cache-less reference returns on the
current table. -/
theorem one_at_a_time_transparent (hrun : ServerRun lib poolSize OneByOne c) :
    Transparent lib c := by
  have hok : ∀ c e, OneByOne c e → failStop e = true ∧ OneAtATime c e := fun _ _ h => h
  have hone : ∀ c e, OneByOne c e → OneAtATime c e := fun _ _ h => h.2
  refine ⟨?_, ?_⟩
  · intro t i limit offset users total hcall hret
    obtain ⟨u, n, s, hread, hsi, -, hsource⟩ := list_reply_source hrun hcall hret
    have hrows : rowsAt c n = rowsAt c i ∧ rowsAt c s = rowsAt c i := by
      -- a page read by the call itself, or one that an earlier call stored
      rcases hsource with rfl | ⟨p, g, hsp, hgi, chp, chg, r, wp, wg, -, hg, hpg, -⟩
      · obtain ⟨conn, hcount⟩ := hread.counts
        obtain ⟨conn', hselect⟩ := hread.selects
        exact ⟨rows_until_reply hrun hone hcall (by simp) hret hcount
            (Nat.lt_trans hread.order hsi),
          rows_until_reply hrun hone hcall (by simp) hret hselect hsi⟩
      · have hng := hread.order
        have hsame := hit_page_rows hrun hok hcall (isListKey_list_cache_key _ _)
          (cStr_list_cache_key _ _) hg (by omega) hread.total_eq
        have hlast := rows_until_reply hrun hone hcall (by simp) hret ⟨chg, _, wg, hg⟩ hgi
        exact ⟨hsame.trans hlast,
          (rowsAt_between hrun (by omega) (by omega) hsame).trans hlast⟩
    refine ⟨?_, eq_reference_total _ (hrows.1 ▸ hread.total_eq)⟩
    rw [referenceUsers, rows_to_users_select, hread.users_eq, hrows.2]
  · intro t i total requests hcall hret
    obtain ⟨u, n, conn, hcount, hni, htotal, hsource⟩ := stats_reply_source hrun hcall hret
    have hrows : rowsAt c n = rowsAt c i := by
      rcases hsource with rfl | ⟨p, g, hnp, hgi, chp, chg, r, wp, wg, -, hg, hpg, -⟩
      · exact rows_until_reply hrun hone hcall (by simp) hret hcount hni
      · rw [← rows_until_reply hrun hone hcall (by simp) hret ⟨chg, _, wg, hg⟩ hgi]
        obtain ⟨c1, d, hrun1, -, hrows, hconn, hlive, hcall1, hslot⟩ := hit_at hrun hg hcall
        refine (rowsAt_mono hrun (by omega : n ≤ g)).eq_of_length_le ?_
        -- a row behind the cached count would make the entry out of date at the `GET`
        by_contra hlt
        rw [hrows] at hlt
        have := total_is_current hrun1 hok hconn hlive hcall1 (by simp) hslot
          (Nat.lt_of_not_le hlt)
        rw [strtoll_count_text] at this
        omega
    exact eq_reference_total _ (hrows ▸ htotal)

/-- With a page that is served from Redis, and a connection that breaks while the page is being
deleted. -/
theorem one_at_a_time_transparent_broken :
    ∃ c, ServerRun .standard 1 OneByOne c ∧
      (replyAt c 25 =
          some (2, .page [⟨.ascii "1", .ascii "Ann", .ascii "ann@example.com", 7⟩] 1) ∧
        c.world.contextError = true ∧ (c.world.keyspace.slots (listCacheKey 10 0)).isSome ∧
        replyAt c 48 = some (4, .page [⟨.ascii "1", .ascii "Ann", .ascii "ann@example.com", 7⟩,
          ⟨.ascii "2", .ascii "Bob", .ascii "bob@example.com", 8⟩] 2) ∧
        replyAt c 56 = some (5, .stats 2 0)) ∧
      Transparent .standard c := by
  refine exists_run_with (fun c e => decide (OneByOne c e))
    (whole 0 (.createUser (.ascii "Ann") (.ascii "ann@example.com")) (creates 7 0) ++
      whole 1 (.listUsers 10 0) (List.replicate 8 .ok) ++
      whole 2 (.listUsers 10 0) (List.replicate 2 .ok) ++
      whole 3 (.createUser (.ascii "Bob") (.ascii "bob@example.com"))
        ([.ok, .clock 8] ++ List.replicate 5 .ok ++ [.broken false] ++ List.replicate 3 .ok) ++
      whole 4 (.listUsers 10 0) (List.replicate 8 .ok) ++
      whole 5 .getStats (List.replicate 6 .ok))
    (fun _ _ h => of_decide_eq_true h) (by decide +kernel) ?_
  intro c hrun _
  exact one_at_a_time_transparent hrun

end HttpServerDemo
