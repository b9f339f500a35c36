import HttpServerDemo.Cache.Directory

/-!
# Replies about one user agree

A user can be shown by `CreateUser`, by `GetUser` and as part of a list, from the table or from one
of two kinds of cache entry. Every user that is shown is a row of the table, with name and email in
full or cut at their first U+0000 (`shown_source`), and rows are never changed. So any two replies
that show users with one id agree (`shown_users_agree`).
-/

namespace HttpServerDemo

open Interleaving Keyspace

variable {lib : Libraries} {poolSize : Nat} {ok : Server → ServerEvent → Prop} {c : Server}
  {i j t : Nat} {resp : Response} {u v : User}

/-- The response shows the user. -/
def Shows : Response → User → Prop
  | .user v, u => u = v
  | .page users _, u => u ∈ users
  | .stats _ _, _ => False
  | .error _ _, _ => False

instance (resp : Response) (u : User) : Decidable (Shows resp u) :=
  match resp with
  | .user v => inferInstanceAs (Decidable (u = v))
  | .page users _ => inferInstanceAs (Decidable (u ∈ users))
  | .stats _ _ | .error _ _ => inferInstanceAs (Decidable False)

/-- What is shown with the first of the two users is shown with the second, up to the first
U+0000. -/
structure SameRecord (u v : User) : Prop where
  id : u.id = v.id
  name : u.name.cStr = v.name.cStr
  email : u.email.cStr = v.email.cStr
  createdAt : u.createdAt = v.createdAt

/-- A reply in the log answers a call. -/
theorem called_of_reply (hrun : ServerRun lib poolSize ok c)
    (hret : replyAt c i = some (t, resp)) : ∃ req, Called c t req := by
  obtain ⟨w, hi⟩ := replyAt_eq_some.mp hret
  obtain ⟨c1, c2, hrun1, hlog, rfl, hstep, -⟩ := hrun.at hi
  cases hstep with
  | @ret _ th _ hthread hprog hlive =>
      obtain ⟨hcalled, -⟩ := thread_point hrun1 hthread
      exact ⟨th.req, hcalled.of_take hlog⟩

/-- A user that `GetUser` returns presents a row of that instant that matches the id asked for. -/
theorem got_user_source (hrun : ServerRun lib poolSize ok c) {id : Text}
    (hcall : Called c t (.getUser id)) (hret : replyAt c i = some (t, .user u)) :
    ∃ row ∈ rowsAt c i, row.Matches lib.mysql id ∧ Presents row u := by
  have hpoint := ret_point_at hrun hret hcall
  generalize hown : own t (c.log.take i) = h at hpoint
  rcases hpoint.got with ⟨r0, -, -, hresp⟩ | ⟨r0, g, u', hhit, rfl, hresp⟩ |
    ⟨r0, g, conn, res, -, -, hresp⟩ | ⟨r0, g, conn, cells, rest, s, rfl, hresp⟩
  · cases hresp
  · -- served from Redis
    cases hresp
    obtain ⟨s, hs, hdecode⟩ := Option.bind_eq_some_iff.mp hhit
    cases RedisClient.stringReply_eq_some hs
    obtain ⟨g, ch, wg, hgi, hg, -⟩ := own_at (hown : _ = [⟨incrOp, r0⟩] ++ _ :: [])
    obtain ⟨c1, d, hrun1, -, hrows, -, -, -, hslot⟩ := hit_at hrun hg hcall
    obtain ⟨row, hmem, hpresents⟩ := presents_of_entry hrun1 hslot hdecode
    rw [← hrows] at hmem
    exact ⟨row, (rowsAt_mono hrun (Nat.le_of_lt hgi)).subset hmem, hpresents⟩
  · cases hresp
  · -- rebuilt from the row
    cases hresp
    obtain ⟨n, ch, wn, hni, hn, -⟩ := own_at
      (hown : _ = [⟨incrOp, r0⟩, ⟨getOp _, g⟩, ⟨.acquire, conn⟩] ++ _ :: _)
    obtain ⟨row, hmem, hpresents⟩ := presents_of_select (query_at hrun hn)
    rw [← rowsAt_eq hn] at hmem
    exact ⟨row, (rowsAt_mono hrun (Nat.le_of_lt hni)).subset hmem, hpresents⟩

/-- Every user that is shown presents a row of the table at that instant. -/
theorem shown_source (hrun : ServerRun lib poolSize ok c) (hret : replyAt c i = some (t, resp))
    (hu : Shows resp u) : ∃ row ∈ rowsAt c i, Presents row u := by
  obtain ⟨req, hcall⟩ := called_of_reply hrun hret
  have hkind := (ret_point_at hrun hret hcall).kind
  cases resp with
  | stats | error => exact hu.elim
  | user v =>
      cases (hu : u = v)
      cases req with
      | listUsers | getStats => exact hkind.elim
      | createUser name email =>
          obtain ⟨row, hrow, hu, -⟩ := created_user_row hrun hcall hret
          exact ⟨row, hrow, .inl hu⟩
      | getUser id =>
          obtain ⟨row, hrow, -, hpresents⟩ := got_user_source hrun hcall hret
          exact ⟨row, hrow, hpresents⟩
  | page users total =>
      cases req with
      | createUser | getUser | getStats => exact hkind.elim
      | listUsers limit offset =>
          obtain ⟨w, n, s, hread, hsi, -⟩ := list_reply_source hrun hcall hret
          have hmem : u ∈ users := hu
          rw [hread.users_eq] at hmem
          obtain ⟨row, hrow, rfl⟩ := List.mem_map.mp hmem
          have hrow : row ∈ rowsAt c s := List.mem_of_mem_drop (List.mem_of_mem_take hrow)
          exact ⟨row, (rowsAt_mono hrun (Nat.le_of_lt hsi)).subset hrow, .inr rfl⟩

/-- What presents a row has its id and its texts up to their first U+0000. -/
theorem Presents.same_record {row : Row} (h : Presents row u) : SameRecord u (readBack row) := by
  rcases h with rfl | rfl
  · rw [readBack_eq]
    exact ⟨rfl, (Text.nulFree_cStr _).cStr_eq.symm, (Text.nulFree_cStr _).cStr_eq.symm, rfl⟩
  · exact ⟨rfl, rfl, rfl, rfl⟩

/-- Two users that present one row are equal if neither or both hold a U+0000. -/
theorem Presents.eq_of_cut_iff {row : Row} (hu : Presents row u) (hv : Presents row v)
    (hcut : u.name.NulFree ∧ u.email.NulFree ↔ v.name.NulFree ∧ v.email.NulFree) : u = v := by
  have hread : (readBack row).name.NulFree ∧ (readBack row).email.NulFree := by
    rw [readBack_eq]
    exact ⟨Text.nulFree_cStr _, Text.nulFree_cStr _⟩
  rcases hu with rfl | rfl <;> rcases hv with rfl | rfl
  · rfl
  · obtain ⟨hname, hemail⟩ := hcut.mpr hread
    exact (readBack_of_nulFree hname hemail).symm
  · obtain ⟨hname, hemail⟩ := hcut.mp hread
    exact readBack_of_nulFree hname hemail
  · rfl

/-- Replies about one user agree, and with the table. -/
structure ShownUsersAgree (c : Server) : Prop where
  /-- A user that is shown is a row of the table at that instant. -/
  rows : ∀ i t resp u, replyAt c i = some (t, resp) → Shows resp u →
    ∃ row ∈ rowsAt c i, SameRecord u (readBack row)
  /-- Two users with one id are the same record, whichever calls show them and however far apart. -/
  agree : ∀ i t resp u j t' resp' v, replyAt c i = some (t, resp) → Shows resp u →
    replyAt c j = some (t', resp') → Shows resp' v → u.id = v.id → SameRecord u v
  /-- They are equal unless one of them, and not the other, holds a U+0000. -/
  equal : ∀ i t resp u j t' resp' v, replyAt c i = some (t, resp) → Shows resp u →
    replyAt c j = some (t', resp') → Shows resp' v → u.id = v.id →
    (u.name.NulFree ∧ u.email.NulFree ↔ v.name.NulFree ∧ v.email.NulFree) → u = v

/-- Users with one id that are shown in a run present one row. -/
theorem shown_row (hrun : ServerRun lib poolSize ok c) {t' : Nat} {resp' : Response}
    (hret : replyAt c i = some (t, resp)) (hu : Shows resp u)
    (hret' : replyAt c j = some (t', resp')) (hv : Shows resp' v) (hid : u.id = v.id) :
    ∃ row, Presents row u ∧ Presents row v := by
  obtain ⟨row, hrow, hpresents⟩ := shown_source hrun hret hu
  obtain ⟨row', hrow', hpresents'⟩ := shown_source hrun hret' hv
  have hsame : row = row' := by
    refine c.world.table.eq_of_id_eq ((rowsAt_now hrun i).subset hrow)
      ((rowsAt_now hrun j).subset hrow') (Int.ofNat.inj (Decimal.text_injective ?_))
    show Decimal.text (row.id : Int) = Decimal.text (row'.id : Int)
    rw [← id_readBack row, ← id_readBack row', ← hpresents.same_record.id, hid,
      hpresents'.same_record.id]
  exact ⟨row, hpresents, hsame ▸ hpresents'⟩

/-- In every run, whatever fails, replies about one user agree. -/
theorem shown_users_agree (hrun : ServerRun lib poolSize ok c) : ShownUsersAgree c := by
  refine ⟨?_, ?_, ?_⟩
  · intro i t resp u hret hu
    obtain ⟨row, hrow, hpresents⟩ := shown_source hrun hret hu
    exact ⟨row, hrow, hpresents.same_record⟩
  · intro i t resp u j t' resp' v hret hu hret' hv hid
    obtain ⟨row, hpresents, hpresents'⟩ := shown_row hrun hret hu hret' hv hid
    have hfirst := hpresents.same_record
    have hsecond := hpresents'.same_record
    exact ⟨hid, hfirst.name.trans hsecond.name.symm, hfirst.email.trans hsecond.email.symm,
      hfirst.createdAt.trans hsecond.createdAt.symm⟩
  · intro i t resp u j t' resp' v hret hu hret' hv hid hcut
    obtain ⟨row, hpresents, hpresents'⟩ := shown_row hrun hret hu hret' hv hid
    exact hpresents.eq_of_cut_iff hpresents' hcut

/-- With a user whose name holds a U+0000, shown in full and cut. -/
theorem shown_users_agree_cut :
    ∃ c, ServerRun .standard 1 (fun _ _ => True) c ∧
      (replyAt c 11 =
          some (0, .user ⟨.ascii "1", ⟨[97, 0, 98], by decide⟩, .ascii "ann@example.com", 7⟩) ∧
        replyAt c 21 =
          some (1, .page [⟨.ascii "1", .ascii "a", .ascii "ann@example.com", 7⟩] 1)) ∧
      ShownUsersAgree c := by
  refine exists_run_with (fun _ _ => true)
    (whole 0 (.createUser ⟨[97, 0, 98], by decide⟩ (.ascii "ann@example.com")) (creates 7 0) ++
      whole 1 (.listUsers 10 0) (List.replicate 8 .ok))
    (fun _ _ _ => trivial) (by decide +kernel) ?_
  intro c hrun _
  exact shown_users_agree hrun

end HttpServerDemo
