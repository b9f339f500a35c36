import HttpServerDemo.Cache.Freshness
import HttpServerDemo.Cache.Replies

/-!
# One call at a time

Where calls follow one another, the table does not change while a call that only reads is in
progress (`rows_constant`), so none of the races against invalidation can happen
(`orderly_of_one_at_a_time`). Every list and total that is served from Redis is then what the
statements would return on the current table (`one_at_a_time_transparent`), also after the
connection to Redis has broken in the middle of an invalidation.
-/

namespace HttpServerDemo

open Interleaving Keyspace

variable {lib : Libraries} {poolSize : Nat} {ok : Server → ServerEvent → Prop} {c c' : Server}
  {e : ServerEvent} {i j n t u : Nat} {k : Octets}

/-- Every row was inserted by a call. -/
theorem exists_inserted (hrun : ServerRun lib poolSize ok c) (hj : j < c.world.table.rows.length) :
    ∃ t, Inserted c t j := by
  induction hrun with
  | start => cases hj
  | @step c e c' hrun hstep hok ih =>
      by_cases hold : j < c.world.table.rows.length
      · obtain ⟨t, ht⟩ := ih hold
        exact ⟨t, ht.step hstep⟩
      · cases e with
        | call | ret =>
            cases hstep
            exact absurd hj hold
        | env e =>
            cases hstep with
            | env hdrift =>
                dsimp only at hj
                rw [(drift_frame hdrift).1] at hj
                exact absurd hj hold
        | op t o ch r =>
            obtain ⟨th, -, -, hexec⟩ := op_point hrun hstep
            -- only a successful insert adds a row, and it is the last one
            rcases exec_rows hexec with hrows | ⟨conn, name, email, now, rfl, rfl, hrows⟩
            · rw [hrows] at hj
              exact absurd hj hold
            · rcases exec_execute hexec with ⟨-, hw⟩ | ⟨rfl, -⟩
              · rw [hw] at hj
                exact absurd hj hold
              · refine ⟨t, c.log.length, conn, name, email, now, .ok, c.world,
                  hstep.getElem?_log.mpr (.inr ⟨rfl, rfl⟩), ?_⟩
                rw [hrows, List.length_append, List.length_singleton] at hj
                omega

/-- An inserted row is in the table. -/
theorem Inserted.lt (hrun : ServerRun lib poolSize ok c) (h : Inserted c t j) :
    j < c.world.table.rows.length := by
  obtain ⟨i, conn, name, email, now, ch, w, hi, rfl⟩ := h
  have := (inserted_row_now hrun hi).length_le
  rw [List.length_append, List.length_singleton] at this
  omega

/-- A row was inserted by a `CreateUser`. -/
theorem Inserted.called (hrun : ServerRun lib poolSize ok c) (h : Inserted c t j) :
    ∃ name email, Called c t (.createUser name email) := by
  obtain ⟨i, conn, name, email, now, ch, w, hi, -⟩ := h
  obtain ⟨req, w', hcalled, hpoint, -⟩ := op_point_at hrun hi
  obtain ⟨rfl, -⟩ := hpoint.execute
  exact ⟨name, email, hcalled⟩

/-- One call at a time: while a call other than `CreateUser` is in progress, the table does not
change. -/
theorem rows_constant (hrun : ServerRun lib poolSize ok c)
    (hone : ∀ c e, ok c e → OneAtATime c e) (hlive : Live c t) {req : Request}
    (hcall : callAt c i = some (t, req)) (hreq : ∀ name email, req ≠ .createUser name email)
    (hin : i < n) : rowsAt c n = c.world.table.rows := by
  have hprefix := rowsAt_now hrun n
  refine hprefix.eq_of_length_le ?_
  by_contra hlt
  obtain ⟨u, m, conn, name, email, now, ch, w, hm, hw⟩ :=
    exists_inserted hrun (Nat.lt_of_not_le hlt)
  -- the missing row was inserted after instant `n`, so by this call
  have hnm : n ≤ m := by
    by_contra hmn
    have := (inserted_row hrun (Nat.lt_of_not_le hmn) hm).length_le
    rw [List.length_append, List.length_singleton] at this
    omega
  obtain ⟨w', hi⟩ := callAt_eq_some.mp hcall
  have hsame := hrun.alone hone hlive hi hm (by omega)
  subst hsame
  obtain ⟨req', w'', hcalled, hpoint, -⟩ := op_point_at hrun hm
  obtain ⟨rfl, -⟩ := hpoint.execute
  exact hreq name email (called_unique hrun ⟨i, hcall⟩ hcalled)

/-! ## No races -/

/-- None of the races against invalidation happens in this step. -/
structure Orderly (json : JsonLibrary) (c : Server) (e : ServerEvent) : Prop where
  drops : DropsCovered c e
  enumerates : EnumeratesMissing json c e
  stores : StoresDeletable c e

/-- One call at a time: no page is about to be indexed while the index is enumerated. -/
theorem enumerates_of_one_at_a_time (hrun : ServerRun lib poolSize ok c)
    (hone : ∀ c e, ok c e → OneAtATime c e) (hstep : Step (grpcServer lib) c e c')
    (hcovered : Covered c) : EnumeratesMissing lib.json c e := by
  rintro t ch r rfl j k hinserted ⟨hk, total, users, d, hslot, -⟩
  rcases hcovered k ⟨hk, by rw [hslot]; rfl⟩ with hin | ⟨u, hawaits⟩
  · exact hin
  · have hsame := hrun.live_unique hone (hrun.live_of_awaits hawaits) (hrun.live_of_op hstep)
    subst hsame
    obtain ⟨th, p, hth, hprog, -⟩ := hrun.op_after hstep
    obtain ⟨th', hth', hhead⟩ := hawaits
    cases hth.symm.trans hth'
    rw [hprog] at hhead
    cases hhead

/-- One call at a time: what the call in progress has counted is current. -/
theorem count_is_current (hrun : ServerRun lib poolSize ok c)
    (hone : ∀ c e, ok c e → OneAtATime c e) (hlive : Live c u) {req : Request}
    (hcalled : Called c u req) (hreq : ∀ name email, req ≠ .createUser name email) {q : Query}
    {conn : Nat} (hquery : Executes c n u (.query conn q)) (hinserted : Inserted c t j) :
    j < (rowsAt c n).length := by
  obtain ⟨i, hi⟩ := hcalled
  obtain ⟨w, hi'⟩ := callAt_eq_some.mp hi
  obtain ⟨ch', r', w', hn⟩ := hquery
  rw [rows_constant hrun hone hlive hi hreq (hrun.call_lt_op hi' hn)]
  exact hinserted.lt hrun

/-- One call at a time: no page is stored that misses a row. -/
theorem stores_of_one_at_a_time (hrun : ServerRun lib poolSize ok c)
    (hone : ∀ c e, ok c e → OneAtATime c e) (hstep : Step (grpcServer lib) c e c') :
    StoresDeletable c e := by
  rintro u k v ttl ch r rfl hk n conn t j hcount hinserted hle
  obtain ⟨req, hcalled, hpoint, -⟩ := op_point hrun hstep
  have hreq : ∀ name email, req ≠ .createUser name email := by
    rintro name email rfl
    exact hpoint.set.isUserKey.not_isListKey hk
  have := count_is_current hrun hone (hrun.live_of_op hstep) hcalled hreq hcount hinserted
  omega

/-- One call at a time: when the index is dropped, no page is live. -/
theorem drops_of_one_at_a_time (hrun : ServerRun lib poolSize ok c)
    (hone : ∀ c e, ok c e → OneAtATime c e) (hstep : Step (grpcServer lib) c e c')
    (hfresh : Fresh lib.json c) : DropsCovered c e := by
  rintro t ch r rfl k ⟨hk, hlive⟩
  exfalso
  obtain ⟨req, hcalled, hpoint, -⟩ := op_point hrun hstep
  obtain ⟨name, email, r0, now, conn, id, set, keys, d, rfl,
    ⟨⟨k', hk', hkey⟩, hown⟩ | ⟨⟨-, hdeleted⟩, hown⟩ | hkey⟩ := hpoint.del
  · -- no key of a page is the key of the index
    have hmem : (⟨smembersOp kListCacheIndex, keys⟩ : Answer Op Op.Res) ∈ own t c.log := by
      rw [hown]
      simp
    exact (isListKey_of_enumerated hrun hmem hk').cStr.ne.2.2 hkey.symm
  · obtain ⟨slot, hslot⟩ := Option.isSome_iff_exists.mp hlive
    obtain ⟨u, limit, offset, n, s, total, users, hlists, hread, rfl, hvalue⟩ :=
      page_entry hrun hslot hk
    have hprefix : ⟨incrOp, r0⟩ :: inserted now conn name email id <+: own t c.log := by
      rw [hown]
      exact ⟨_, rfl⟩
    obtain ⟨i, chi, w, hi, -, -⟩ := created_row hrun hprefix
    obtain ⟨limit', offset', hlisted, -⟩ := hlists
    by_cases htotal : total.toInt ≤ w.table.rows.length
    · -- the page misses the row, so the call has not deleted it
      have hdue := hfresh t w.table.rows.length _ ⟨i, conn, name, email, now, chi, w, hi, rfl⟩
        ⟨hk, total, users, slot.deadline, by rw [hslot, ← hvalue], htotal⟩
      have hall : ⟨incrOp, r0⟩ :: (enumerated lib.json now conn name email id set keys ++ d) <+:
          own t c.log := by rw [hown]
      exact not_willDelete hall hdeleted (cStr_list_cache_key _ _) hdue
    · -- the page was counted after the INSERT, while this call was in progress
      have hin : i < n := by
        by_contra hni
        have hmono := (rowsAt_mono hrun (Nat.le_of_not_lt hni)).length_le
        rw [rowsAt_eq hi] at hmono
        rw [hread.total_eq] at htotal
        omega
      obtain ⟨j, hj⟩ := hcalled
      obtain ⟨wj, hj'⟩ := callAt_eq_some.mp hj
      obtain ⟨conn', chn, rn, wn, hn⟩ := hread.counts
      have hsame := hrun.alone hone (hrun.live_of_op hstep) hj' hn
        (Nat.lt_trans (hrun.call_lt_op hj' hi) hin)
      subst hsame
      cases called_unique hrun hlisted ⟨j, hj⟩
  · exact absurd hkey.symm total_users_key_ne.2

/-- One call at a time: as long as the connection is not in error, none of the races happens. -/
theorem orderly_of_one_at_a_time (hrun : ServerRun lib poolSize ok c)
    (hok : ∀ c e, ok c e → failStop e = true ∧ OneAtATime c e) :
    ServerRun lib poolSize (fun c e => ok c e ∧ (Connected c → Orderly lib.json c e)) c := by
  have hone := fun c e h => (hok c e h).2
  induction hrun with
  | start => exact .start
  | @step c e c' hrun hstep hstepOk ih =>
      refine .step ih hstep ⟨hstepOk, ?_⟩
      intro hconn
      have hcovered : Covered c :=
        covered ih (fun c e h => ⟨(hok c e h.1).1, fun hc => (h.2 hc).drops⟩) hconn
      have hfresh : Fresh lib.json c :=
        fresh ih (fun c e h => ⟨(hok c e h.1).1,
          fun hc => ⟨(h.2 hc).enumerates, (h.2 hc).stores⟩⟩) hconn
      exact ⟨drops_of_one_at_a_time hrun hone hstep hfresh,
        enumerates_of_one_at_a_time hrun hone hstep hcovered,
        stores_of_one_at_a_time hrun hone hstep⟩

/-- One call at a time: live pages that miss a row will be deleted. -/
theorem fresh_of_one_at_a_time (hrun : ServerRun lib poolSize ok c)
    (hok : ∀ c e, ok c e → failStop e = true ∧ OneAtATime c e) (hconn : Connected c) :
    Fresh lib.json c :=
  fresh (orderly_of_one_at_a_time hrun hok)
    (fun c e h => ⟨(hok c e h.1).1, fun hc => ⟨(h.2 hc).enumerates, (h.2 hc).stores⟩⟩) hconn

/-- One call at a time: while a call that only reads is in progress, the calls that have inserted
rows are done with all their steps. -/
theorem inserter_done (hrun : ServerRun lib poolSize ok c)
    (hone : ∀ c e, ok c e → OneAtATime c e) (hlive : Live c t) {req : Request}
    (hcalled : Called c t req) (hreq : ∀ name email, req ≠ .createUser name email)
    (h : Inserted c u j) :
    ∃ name email id now, CreateDone lib.json name email id now (own u c.log) := by
  obtain ⟨name, email, hcreate⟩ := h.called hrun
  obtain ⟨m, hm⟩ := id hcreate
  obtain ⟨w, hm⟩ := callAt_eq_some.mp hm
  obtain ⟨th, hth, -⟩ := hrun.called_thread (List.mem_of_getElem? hm)
  -- the call has returned, for the only live call is another one
  have hret : th.returned = true := by
    by_contra hnot
    have hsame := hrun.live_unique hone ⟨th, hth, by simpa using hnot⟩ hlive
    subst hsame
    exact hreq name email (called_unique hrun hcalled hcreate)
  obtain ⟨resp, hprog⟩ := hrun.prog_of_returned hth hret
  obtain ⟨-, hpoint⟩ := thread_point hrun hth
  rw [hprog] at hpoint
  obtain ⟨i, conn, name', email', now, ch, w', hi, -⟩ := h
  obtain ⟨name, email, id, now, hdone, -⟩ := hpoint.executed (mem_own hi)
  exact ⟨name, email, id, now, hdone⟩

/-- One call at a time: what is live while a call that only reads is in progress counts every
row. -/
theorem page_is_current (hrun : ServerRun lib poolSize ok c)
    (hok : ∀ c e, ok c e → failStop e = true ∧ OneAtATime c e) (hconn : Connected c)
    (hlive : Live c t) {req : Request} (hcalled : Called c t req)
    (hreq : ∀ name email, req ≠ .createUser name email) {total : Int64} {users : List User}
    {d : Option Nat}
    (hslot : c.world.keyspace.slots k =
      some ⟨.string (lib.json.dump (pageToJson total users)), d⟩)
    (hk : IsListKey k) (hkey : Octets.cStr k = k) (hj : j < c.world.table.rows.length) :
    (j : Int) < total.toInt := by
  by_contra htotal
  obtain ⟨u, hinserted⟩ := exists_inserted hrun hj
  have hdue := fresh_of_one_at_a_time hrun hok hconn u j k hinserted
    ⟨hk, total, users, d, hslot, Int.not_lt.mp htotal⟩
  obtain ⟨name, email, id, now, hdone⟩ :=
    inserter_done hrun (fun c e h => (hok c e h).2) hlive hcalled hreq hinserted
  exact hdone.not_willDelete List.prefix_rfl hkey hdue

/-! ## The cached total -/

/-- The cached total counts every row, but for those whose calls have not deleted it yet. -/
def TotalFresh (c : Server) : Prop :=
  ∀ t j v d, Inserted c t j → c.world.keyspace.slots totalUsersKey = some ⟨.string v, d⟩ →
    (strtoll v).toInt ≤ j →
      ∀ r, (⟨delOp totalUsersKey, r⟩ : Answer Op Op.Res) ∉ own t c.log

/-- One call at a time: one step keeps the cached total fresh. -/
theorem total_fresh_step (hrun : ServerRun lib poolSize ok c)
    (hrun' : ServerRun lib poolSize ok c') (hone : ∀ c e, ok c e → OneAtATime c e)
    (hstep : Step (grpcServer lib) c e c') (hfail : failStop e = true) (hconn : Connected c')
    (h : TotalFresh c) : TotalFresh c' := by
  intro t j v d hinserted hslot htotal r hdel
  rcases inserted_step hstep hinserted with hold | ⟨conn, name, email, now, ch, rfl⟩
  swap
  · -- the call has just inserted the row
    obtain ⟨req, -, hpoint, -⟩ := op_point hrun hstep
    obtain ⟨-, r0, hown⟩ := hpoint.execute
    rcases hstep.mem_own.mp hdel with hdel | ⟨ch', he⟩
    · rw [hown] at hdel
      simp at hdel
    · cases he
  rcases string_slot_step hrun hstep hslot total_users_key_ne.1 with
    ⟨hbefore, -⟩ | ⟨u, ttl, ch, r', rfl, -⟩
  · rcases hstep.mem_own.mp hdel with hdel | ⟨ch, rfl⟩
    · exact h t j v d hold hbefore htotal r hdel
    · -- the total is deleted
      obtain ⟨req, -, -, hexec⟩ := op_point hrun hstep
      obtain ⟨-, -, hw⟩ := exec_command_live hexec (choice_of_failStop hfail) hconn
      rw [hw] at hslot
      dsimp only at hslot
      rw [cStr_total_users_key, slots_del_self] at hslot
      cases hslot
  · -- the total is stored, and is current
    have hset : c'.log[c.log.length]? =
        some ⟨.op u (.command (.set totalUsersKey v ttl)) ch r', c.world⟩ :=
      hstep.getElem?_log.mpr (.inr ⟨rfl, rfl⟩)
    obtain ⟨n, conn, total, hcalled, hcount, hlt, htotalEq, rfl, -⟩ := total_source hrun' hset
    have := count_is_current hrun' hone (hrun.live_after_op hstep) hcalled (by simp) hcount
      hinserted
    rw [strtoll_count_text, htotalEq] at htotal
    omega

/-- One call at a time: the cached total is fresh as long as the connection is not in error. -/
theorem total_fresh (hrun : ServerRun lib poolSize ok c)
    (hok : ∀ c e, ok c e → failStop e = true ∧ OneAtATime c e) (hconn : Connected c) :
    TotalFresh c := by
  induction hrun with
  | start =>
      rintro t j v d ⟨i, conn, name, email, now, ch, w, hi, -⟩
      simp [Config.initial] at hi
  | step hrun hstep hstepOk ih =>
      have hconn' := connected_of_step hstep hconn
      exact total_fresh_step hrun (.step hrun hstep hstepOk) (fun c e h => (hok c e h).2) hstep
        (hok _ _ hstepOk).1 hconn (ih hconn')

/-- One call at a time: the cached total counts every row while a call that only reads is in
progress. -/
theorem total_is_current (hrun : ServerRun lib poolSize ok c)
    (hok : ∀ c e, ok c e → failStop e = true ∧ OneAtATime c e) (hconn : Connected c)
    (hlive : Live c t) {req : Request} (hcalled : Called c t req)
    (hreq : ∀ name email, req ≠ .createUser name email) {v : Octets} {d : Option Nat}
    (hslot : c.world.keyspace.slots totalUsersKey = some ⟨.string v, d⟩)
    (hj : j < c.world.table.rows.length) : (j : Int) < (strtoll v).toInt := by
  by_contra htotal
  obtain ⟨u, hinserted⟩ := exists_inserted hrun hj
  have hnot := total_fresh hrun hok hconn u j v d hinserted hslot (Int.not_lt.mp htotal)
  obtain ⟨name, email, id, now, r, conn, set, keys, d', r1, r2, -, hown⟩ :=
    inserter_done hrun (fun c e h => (hok c e h).2) hlive hcalled hreq hinserted
  exact hnot r2 (by rw [hown]; simp)

end HttpServerDemo
