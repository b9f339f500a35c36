import HttpServerDemo.Cache.Replies

/-!
# Reading a created user back

Once `CreateUser` has returned a user, `GetUser` returns exactly that user when name and email
contain no U+0000 (`created_user_is_read_back`). The cached entry holds the strings verbatim, but a
row is read through C strings, so after the entry has expired a name with a U+0000 comes back cut
(`created_user_is_cut`).
-/

namespace HttpServerDemo

open Interleaving Keyspace

variable {lib : Libraries} {poolSize : Nat} {ok : Server → ServerEvent → Prop} {c : Server}
  {i j k t u : Nat}

/-- A user that `CreateUser` has returned is a row of the table at that instant. -/
theorem created_user_row (hrun : ServerRun lib poolSize ok c) {name email : Text} {user : User}
    (hcall : Called c t (.createUser name email)) (hret : replyAt c i = some (t, .user user)) :
    ∃ row ∈ rowsAt c i, user = createdUser row.id row.name row.email row.createdAt ∧
      row.name = name ∧ row.email = email := by
  obtain ⟨n, conn, row, ch, w, hn, hni, hnext, rfl, rfl, rfl, -⟩ := created_user hrun hcall hret
  refine ⟨row, ?_, rfl, rfl, rfl⟩
  exact (inserted_row hrun hni hn).subset (by simp [hnext])

/-- A row whose texts have no U+0000 is read back as the user that was created with it. -/
theorem readBack_of_nulFree {row : Row} (hname : row.name.NulFree) (hemail : row.email.NulFree) :
    readBack row = createdUser row.id row.name row.email row.createdAt := by
  rw [readBack_eq, hname.cStr_eq, hemail.cStr_eq]

/-- The numeral of an id matches the row with that id only. -/
theorem Row.Matches.id_eq {mysql : NumericPrefix} {id : Text} {n : Nat} {row : Row}
    (h : row.Matches mysql id) (hid : Octets.cStr id.bytes = Decimal.ofNat n) : row.id = n := by
  have hnumber : mysql.toNumber id.bytes = n := by
    rw [← mysql.toNumber_cStr, hid, mysql.toNumber_ofNat]
  exact (Nat.cast_injective (hnumber.symm.trans h)).symm

/-- What is served from the cache under the id of a row is the user of that row. -/
theorem hit_user (hrun : ServerRun lib poolSize ok c) {row : Row} (hrow : row ∈ c.world.table.rows)
    (hname : row.name.NulFree) (hemail : row.email.NulFree) {s : Octets} {ttl p v g : Nat}
    (hserves : Serves c (userKey (Decimal.text row.id)) s ttl p v g t) :
    decodeUser lib.json s = some (createdUser row.id row.name row.email row.createdAt) := by
  obtain ⟨chp, chg, r, wp, wg, hp, -⟩ := hserves
  have hkey : IsUserKey (userKey (Decimal.text row.id)) := List.prefix_append _ _
  obtain ⟨row', hmem, hsource⟩ := user_source hrun hp hkey
  have hsame : row'.id = row.id → row' = row :=
    c.world.table.eq_of_id_eq ((rowsAt_now hrun p).subset hmem) hrow
  rcases hsource with ⟨hid, rfl⟩ | ⟨id, hid, hmatches, rfl⟩
  · have hrows := hsame (Decimal.ofNat_injective (List.append_cancel_left hid).symm)
    rw [hrows, decode_user_text]
  · rw [cStr_user_key] at hid
    have hrows := hsame (hmatches.id_eq (List.append_cancel_left hid).symm)
    rw [hrows, decode_user_text, readBack_of_nulFree hname hemail]

/-- Read your writes: once `CreateUser` has returned a user whose name and email contain no U+0000,
every later `GetUser` of its id whose query, if it makes one, does not fail returns that user. -/
theorem created_user_is_read_back (hrun : ServerRun lib poolSize ok c) {name email : Text}
    {user : User} {resp : Response} (hname : name.NulFree) (hemail : email.NulFree)
    (hcreate : Called c t (.createUser name email)) (hcreated : replyAt c i = some (t, .user user))
    (hget : callAt c j = some (u, .getUser user.id)) (hij : i < j)
    (hret : replyAt c k = some (u, resp))
    (hquery : ∀ (n conn : Nat) (q : Query) (ch : Choice) (w : World),
      c.log[n]? ≠ some ⟨.op u (.query conn q) ch none, w⟩) :
    resp = .user user := by
  obtain ⟨row, hmem, rfl, rfl, rfl⟩ := created_user_row hrun hcreate hcreated
  have hrow : row ∈ c.world.table.rows := (rowsAt_now hrun i).subset hmem
  have hpoint := ret_point_at hrun hret ⟨j, hget⟩
  generalize hown : own u (c.log.take k) = h at hpoint
  rcases hpoint.got with ⟨r0, hempty, -⟩ | ⟨r0, g, v, hhit, rfl, rfl⟩ |
    ⟨r0, g, conn, res, hres, rfl, rfl⟩ | ⟨r0, g, conn, cells, rest, s, rfl, rfl⟩
  · exact absurd hempty (Decimal.ofNat_ne_nil row.id)
  · -- served from Redis
    obtain ⟨s, hs, hdecode⟩ := Option.bind_eq_some_iff.mp hhit
    cases RedisClient.stringReply_eq_some hs
    rw [get_answer (cStr_user_key_text _)] at hown
    obtain ⟨g, ch, wg, -, hg, -⟩ := own_at (hown : _ = [⟨incrOp, r0⟩] ++ _ :: [])
    have hkey : IsUserKey (userKey (Decimal.text row.id)) := List.prefix_append _ _
    obtain ⟨ttl, p, v', hserves, -⟩ := hit_source hrun hg hkey.ne.2.1
    rw [hit_user hrun hrow hname hemail hserves] at hdecode
    rw [Option.some.inj hdecode]
  · -- the query did not fail, and the row was there
    obtain ⟨n, ch, wn, -, hn, -⟩ := own_at
      (hown : _ = [⟨incrOp, r0⟩, ⟨getOp _, g⟩, ⟨.acquire, conn⟩] ++ _ :: _)
    rcases hres with rfl | rfl
    · exact absurd hn (hquery n conn _ ch wn)
    · exfalso
      have hfound := query_at hrun hn
      rw [← rowsAt_eq hn] at hfound
      have hin : row ∈ rowsAt c n := by
        obtain ⟨wj, hj⟩ := callAt_eq_some.mp hget
        have hjn := hrun.call_lt_op hj hn
        exact (rowsAt_mono hrun (by omega : i ≤ n)).subset hmem
      have hmatches : row.Matches lib.mysql (Decimal.text row.id) :=
        lib.mysql.toNumber_ofNat row.id
      have hcells := mem_select_of_matches hin hmatches
      rw [← hfound] at hcells
      cases hcells
  · -- rebuilt from the row
    obtain ⟨n, ch, wn, -, hn, -⟩ := own_at
      (hown : _ = [⟨incrOp, r0⟩, ⟨getOp _, g⟩, ⟨.acquire, conn⟩] ++ _ :: _)
    obtain ⟨row', hmem', hmatches, rfl⟩ := row_of_select (query_at hrun hn)
    rw [← rowsAt_eq hn] at hmem'
    have hid : row'.id = row.id :=
      hmatches.id_eq (Octets.cStr_eq_self (Decimal.nulFree_text row.id))
    have hsame : row' = row :=
      c.world.table.eq_of_id_eq ((rowsAt_now hrun n).subset hmem') hrow hid
    rw [hsame, ← readBack_of_nulFree hname hemail]
    rfl

/-- With a `GetUser` that finds the entry expired. -/
theorem created_user_is_read_back_expired :
    ∃ c, ServerRun .standard 1 (fun _ _ => True) c ∧
      (callAt c 0 = some (0, .createUser (.ascii "Ann") (.ascii "ann@example.com")) ∧
        replyAt c 11 = some (0, .user ⟨.ascii "1", .ascii "Ann", .ascii "ann@example.com", 7⟩) ∧
        callAt c 13 = some (1, .getUser (.ascii "1")) ∧ (replyAt c 20).map Prod.fst = some 1 ∧
        ∀ entry ∈ c.log, answered entry.event = true) ∧
      replyAt c 20 =
        some (1, .user ⟨.ascii "1", .ascii "Ann", .ascii "ann@example.com", 7⟩) := by
  refine exists_run_with (fun _ _ => true)
    (whole 0 (.createUser (.ascii "Ann") (.ascii "ann@example.com")) (creates 7 0) ++
      [.env (.expire (Octets.ascii "user:1"))] ++
      whole 1 (.getUser (.ascii "1")) (List.replicate 6 .ok))
    (fun _ _ _ => trivial) (by decide +kernel) ?_
  rintro c hrun ⟨hcall, hcreated, hget, hreturned, hanswered⟩
  obtain ⟨⟨u, resp⟩, hret, rfl⟩ := Option.map_eq_some_iff.mp hreturned
  rw [hret, created_user_is_read_back hrun (by decide) (by decide) ⟨0, hcall⟩ hcreated hget
    (by decide) hret ?_]
  intro n conn q ch w hn
  cases hanswered _ (List.mem_of_getElem? hn)

/-- A name with a U+0000 is returned in full by `CreateUser` and cut by a `GetUser` that finds the
entry expired. -/
theorem created_user_is_cut :
    ¬ ∀ c, ServerRun .standard 1 (fun _ e => redisOk e = true) c →
      ∀ name email user resp t u i j k, Called c t (.createUser name email) →
        replyAt c i = some (t, .user user) → callAt c j = some (u, .getUser user.id) → i < j →
        replyAt c k = some (u, resp) →
        (∀ entry ∈ c.log, answered entry.event = true) → resp = .user user := by
  intro hclaim
  have hplay : ∃ c, ServerRun .standard 1 (fun _ e => redisOk e = true) c ∧
      callAt c 0 = some (0, .createUser ⟨[97, 0, 98], by decide⟩ (.ascii "ann@example.com")) ∧
      replyAt c 11 =
        some (0, .user ⟨.ascii "1", ⟨[97, 0, 98], by decide⟩, .ascii "ann@example.com", 7⟩) ∧
      callAt c 13 = some (1, .getUser (.ascii "1")) ∧
      replyAt c 20 =
        some (1, .user ⟨.ascii "1", .ascii "a", .ascii "ann@example.com", 7⟩) ∧
      ∀ entry ∈ c.log, answered entry.event = true :=
    -- `GetUser` reads the name from the row, up to the U+0000
    exists_run (fun _ e => redisOk e)
      (whole 0 (.createUser ⟨[97, 0, 98], by decide⟩ (.ascii "ann@example.com")) (creates 7 0) ++
        [.env (.expire (Octets.ascii "user:1"))] ++
        whole 1 (.getUser (.ascii "1")) (List.replicate 6 .ok))
      (fun _ _ h => h) (by decide +kernel)
  obtain ⟨c, hrun, hcall, hcreated, hget, hret, hanswered⟩ := hplay
  have hsame := hclaim c hrun _ _ _ _ 0 1 11 13 20 ⟨0, hcall⟩ hcreated hget (by decide) hret
    hanswered
  cases hsame

end HttpServerDemo
