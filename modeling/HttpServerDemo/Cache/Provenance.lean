import HttpServerDemo.GrpcServer.Connections
import HttpServerDemo.Store.Codec

/-!
# Where cache entries come from

Every string in Redis, the request counter apart, was put there by the last `SET` of its key
(`stored_by_set`). A user entry encodes a row of the table, verbatim or read back (`user_source`);
a list page holds the count and the slice of two earlier instants of one `ListUsers` call
(`page_source`); the cached total is the count of an earlier instant (`total_source`). The index
is the only set and has no deadline (`index_slot`).
-/

namespace HttpServerDemo

open Interleaving Keyspace

variable {lib : Libraries} {poolSize : Nat} {ok : Server → ServerEvent → Prop} {c c' : Server}
  {e : ServerEvent} {w : World} {i t : Nat}

/-! ## The last SET -/

/-- A step that leaves a string under a key left it alone, and was no successful `SET` of that
key, or it was a `SET` that put it there. -/
theorem string_slot_step (hrun : ServerRun lib poolSize ok c)
    (hstep : Step (grpcServer lib) c e c') {k v : Octets} {d : Option Nat}
    (hslot : c'.world.keyspace.slots k = some ⟨.string v, d⟩) (hk : k ≠ requestCountKey) :
    (c.world.keyspace.slots k = some ⟨.string v, d⟩ ∧
        ∀ t v' ttl ch, e ≠ .op t (.command (.set k v' ttl)) ch (some .status)) ∨
      ∃ t ttl ch r, e = .op t (.command (.set k v ttl)) ch r ∧ ttl ≠ some 0 ∧
        d = ttl.map (c.world.keyspace.clock + ·) := by
  cases e with
  | call t req | ret t resp =>
      cases hstep
      exact .inl ⟨hslot, by simp⟩
  | env e =>
      -- time and expiry only take keys away; a set may come back in another order, but no string
      refine .inl ⟨?_, by simp⟩
      cases hstep with
      | env hdrift =>
          rcases drift_keyspace hdrift with hks | hks | ⟨key, hks, -⟩ |
            ⟨key, old, ms, d', -, -, hks⟩ <;> dsimp only at hslot <;> rw [hks] at hslot
          · exact hslot
          · exact (slots_tick hslot).1
          · by_cases hkey : k = key
            · rw [hkey, slots_drop_self] at hslot
              cases hslot
            · rwa [slots_drop_ne _ hkey] at hslot
          · by_cases hkey : k = key
            · rw [hkey, slots_put_self] at hslot
              cases hslot
            · rwa [slots_put_ne _ hkey] at hslot
  | op t o ch r =>
      obtain ⟨th, -, hpoint, hexec⟩ := op_point hrun hstep
      -- a successful `SET` is told apart first: only of it may the value be new
      by_cases hset : ∃ v' ttl, (⟨o, r⟩ : Answer Op Op.Res) =
          ⟨.command (.set k v' ttl), some .status⟩
      · obtain ⟨v', ttl, heq⟩ := hset
        cases heq
        rcases exec_command hexec with ⟨-, -, hr, hw⟩ | ⟨hr | hr, -⟩
        · have httl := ne_zero_of_run_set (Option.some.inj hr).symm
          rw [hw] at hslot
          dsimp only at hslot
          rw [run_set _ _ httl, slots_put_self] at hslot
          cases hslot
          exact .inr ⟨t, ttl, ch, _, rfl, httl, rfl⟩
        · cases hr
        · cases hr
      · have hne : ∀ u v' ttl ch', (.op t o ch r : ServerEvent) ≠
            .op u (.command (.set k v' ttl)) ch' (some .status) := by
          intro u v' ttl ch' heq
          cases heq
          exact hset ⟨v', ttl, rfl⟩
        rcases exec_keyspace hexec with hks | ⟨cmd, rfl, hks⟩ <;> rw [hks] at hslot
        · exact .inl ⟨hslot, hne⟩
        rcases slots_run hslot with hsame | ⟨v', ttl, rfl, httl, hslot'⟩ |
          ⟨n, d', rfl, -⟩ | ⟨m, d', -, hset', -⟩
        · exact .inl ⟨hsame, hne⟩
        · cases hslot'
          exact .inr ⟨t, ttl, ch, r, rfl, httl, rfl⟩
        · exact absurd hpoint.incr.1 hk
        · cases hset'

/-- The string under a key was put there by a `SET`, and no later `SET` of the key succeeded. -/
theorem stored_by_set (hrun : ServerRun lib poolSize ok c) {k v : Octets} {d : Option Nat}
    (hslot : c.world.keyspace.slots k = some ⟨.string v, d⟩) (hk : k ≠ requestCountKey) :
    ∃ (i t : Nat) (ttl : Option Nat) (ch : Choice) (r : Option Reply) (w : World),
      c.log[i]? = some ⟨.op t (.command (.set k v ttl)) ch r, w⟩ ∧
      ttl ≠ some 0 ∧ d = ttl.map (w.keyspace.clock + ·) ∧
      ∀ (j u : Nat) (v' : Octets) (ttl' : Option Nat) (ch' : Choice) (w' : World),
        c.log[j]? = some ⟨.op u (.command (.set k v' ttl')) ch' (some .status), w'⟩ → j ≤ i := by
  induction hrun with
  | start => cases hslot
  | @step c e c' hrun hstep hok ih =>
      have hlog := hstep.log_eq
      -- a step that is no successful `SET` keeps the one found so far the last
      rcases string_slot_step hrun hstep hslot hk with ⟨hold, hne⟩ | ⟨t, ttl, ch, r, rfl, httl, hd⟩
      · obtain ⟨i, t, ttl, ch, r, w, hi, httl, hd, hlast⟩ := ih hold
        have hlt := (List.getElem?_eq_some_iff.mp hi).1
        refine ⟨i, t, ttl, ch, r, w, ?_, httl, hd, ?_⟩
        · rw [hlog, List.getElem?_append_left hlt, hi]
        · intro j u v' ttl' ch' w' hj
          rw [hlog] at hj
          rcases Nat.lt_or_ge j c.log.length with hjlt | hjge
          · rw [List.getElem?_append_left hjlt] at hj
            exact hlast j u v' ttl' ch' w' hj
          · rw [List.getElem?_append_right hjge] at hj
            obtain ⟨-, he, -⟩ : j - c.log.length = 0 ∧ e = _ ∧ c.world = w' := by
              simpa [List.getElem?_singleton] using hj
            exact absurd he (hne u v' ttl' ch')
      · refine ⟨c.log.length, t, ttl, ch, r, c.world, by simp [hlog], httl, hd, ?_⟩
        intro j u v' ttl' ch' w' hj
        have := (List.getElem?_eq_some_iff.mp hj).1
        rw [hlog, List.length_append, List.length_singleton] at this
        omega

/-! ## The index -/

/-- The index of the list pages is the only set; it never expires and has only keys of pages. -/
theorem set_slot (hrun : ServerRun lib poolSize ok c) {k : Octets} {ms : List Octets}
    {d : Option Nat} (hslot : c.world.keyspace.slots k = some ⟨.set ms, d⟩) :
    k = kListCacheIndex ∧ d = none ∧ ∀ m ∈ ms, IsListKey m := by
  induction hrun generalizing ms d with
  | start => cases hslot
  | @step c e c' hrun hstep hok ih =>
      cases e with
      | call t req | ret t resp =>
          cases hstep
          exact ih hslot
      | env e =>
          cases hstep with
          | env hdrift =>
              rcases drift_keyspace hdrift with hks | hks | ⟨key, hks, -⟩ |
                ⟨key, old, ms', d', hold, hperm, hks⟩ <;> dsimp only at hslot <;>
                rw [hks] at hslot
              · exact ih hslot
              · exact ih (slots_tick hslot).1
              · by_cases hkey : k = key
                · rw [hkey, slots_drop_self] at hslot
                  cases hslot
                · rw [slots_drop_ne _ hkey] at hslot
                  exact ih hslot
              · by_cases hkey : k = key
                · subst hkey
                  rw [slots_put_self] at hslot
                  cases hslot
                  -- the store may reorder the members of a set, no more
                  obtain ⟨hk, hd, hms⟩ := ih hold
                  exact ⟨hk, hd, fun m hm => hms m (hperm.mem_iff.mp hm)⟩
                · rw [slots_put_ne _ hkey] at hslot
                  exact ih hslot
      | op t o ch r =>
          obtain ⟨th, -, hpoint, hexec⟩ := op_point hrun hstep
          rcases exec_keyspace hexec with hks | ⟨cmd, rfl, hks⟩ <;> rw [hks] at hslot
          · exact ih hslot
          rcases slots_run hslot with hsame | ⟨v, ttl, -, -, hslot⟩ | ⟨n, d', -, hslot, -⟩ |
            ⟨m, d', rfl, hslot, hd⟩
          · exact ih hsame
          · cases hslot
          · cases hslot
          · cases hslot
            obtain ⟨limit, offset, r0, g, conn, count, rows, s, -, hkey, rfl, -⟩ := hpoint.sadd
            -- the members so far are keys of pages, also where the key was absent
            have hmembers : ∀ x ∈ c.world.keyspace.members k, IsListKey x := by
              cases hold : c.world.keyspace.slots k with
              | none => simp [members, hold]
              | some slot =>
                  obtain ⟨value, d⟩ := slot
                  cases value with
                  | string s => simp [members, hold]
                  | set old => simpa [members, hold] using (ih hold).2.2
            refine ⟨hkey, ?_, ?_⟩
            · rcases hd with hd | ⟨old, hold⟩
              · exact hd
              · exact (ih hold).2.1
            · intro x hx
              rcases List.mem_append.mp hx with hx | hx
              · exact hmembers x hx
              · rw [List.mem_singleton.mp hx, cStr_list_cache_key]
                exact isListKey_list_cache_key _ _

/-- A `SET` in the log is at one of its places. -/
theorem set_point_at (hrun : ServerRun lib poolSize ok c) {k v : Octets} {ttl : Option Nat}
    {ch : Choice} {r : Option Reply}
    (hi : c.log[i]? = some ⟨.op t (.command (.set k v ttl)) ch r, w⟩) :
    ∃ req, Called c t req ∧ SetPoint lib.json k v ttl req (own t (c.log.take i)) := by
  obtain ⟨req, w', hcalled, hpoint, -⟩ := op_point_at hrun hi
  exact ⟨req, hcalled, hpoint.set⟩

/-- No `SET` is about the index. -/
theorem SetPoint.ne_index {json : JsonLibrary} {k v : Octets} {ttl : Option Nat} {req : Request}
    {h : History} (hset : SetPoint json k v ttl req h) : k ≠ kListCacheIndex := by
  cases hset with
  | createUser r now conn id hkey => exact hkey ▸ (isUserKey_user_key _).ne.2.2
  | getUser r g conn row rest hkey => exact hkey ▸ (isUserKey_user_key _).ne.2.2
  | listUsers r g conn count rows hkey =>
      rw [hkey, cStr_list_cache_key]
      exact (isListKey_list_cache_key _ _).ne.2.2
  | getStats g conn count hkey => exact hkey ▸ total_users_key_ne.2

/-- What `CreateUser` sets is a user entry. -/
theorem SetPoint.isUserKey {json : JsonLibrary} {k v : Octets} {ttl : Option Nat}
    {name email : Text} {h : History} (hset : SetPoint json k v ttl (.createUser name email) h) :
    IsUserKey k := by
  cases hset with
  | createUser r now conn id hkey => exact hkey ▸ isUserKey_user_key _

/-- Nothing but the index is stored under its key. -/
theorem index_slot (hrun : ServerRun lib poolSize ok c) {slot : Slot}
    (hslot : c.world.keyspace.slots kListCacheIndex = some slot) :
    ∃ ms, slot = ⟨.set ms, none⟩ := by
  obtain ⟨value, d⟩ := slot
  cases value with
  | set ms =>
      obtain ⟨-, rfl, -⟩ := set_slot hrun hslot
      exact ⟨ms, rfl⟩
  | string v =>
      obtain ⟨i, t, ttl, ch, r, w, hi, -⟩ := stored_by_set hrun hslot list_cache_index_ne
      obtain ⟨req, -, hset⟩ := set_point_at hrun hi
      exact absurd rfl hset.ne_index

/-! ## List pages -/

/-- Call `t` counted the rows at instant `n` and read the page at instant `s`. -/
structure PageRead (c : Server) (t : Nat) (limit offset : Int32) (n s : Nat) (total : Int64)
    (users : List User) : Prop where
  counts : ∃ conn, Executes c n t (.query conn .countUsers)
  selects : ∃ conn, Executes c s t (.query conn (.usersPage limit offset))
  order : n < s
  total_eq : total.toInt = (rowsAt c n).length
  users_eq : users = pageUsers limit offset (rowsAt c s)

/-- A history with the two queries of `ListUsers` tells the instants it read at. -/
theorem page_read_of_history (hrun : ServerRun lib poolSize ok c) {r0 g : Option Reply}
    {limit offset : Int32} {conn : Nat} {count rows : ResultSet} {h : History}
    (hown : own t (c.log.take i) = ⟨incrOp, r0⟩ :: pageRead limit offset g conn count rows ++ h) :
    ∃ n s, PageRead c t limit offset n s (rowToCount count) (rows.map rowToUser) ∧ s < i := by
  have hselect : own t (c.log.take i) =
      ([⟨incrOp, r0⟩, ⟨getOp (listCacheKey limit offset), g⟩, ⟨.acquire, conn⟩] ++
        [⟨.query conn .countUsers, some count⟩]) ++
          ⟨.query conn (.usersPage limit offset), some rows⟩ :: h := hown
  obtain ⟨s, chs, ws, hsi, hs, hbefore⟩ := own_at hselect
  obtain ⟨n, chn, wn, hns, hn, -⟩ := own_at hbefore
  refine ⟨n, s, ⟨⟨conn, chn, _, wn, hn⟩, ⟨conn, chs, _, ws, hs⟩, hns, ?_, ?_⟩, hsi⟩
  · rw [rowsAt_eq hn, query_at hrun hn]
    exact row_to_count_select _ _
  · rw [rowsAt_eq hs, query_at hrun hs]
    exact rows_to_users_select _ _ _ _

/-- What a `SET` of a list page stores: the page that the same call has read before. -/
theorem page_source (hrun : ServerRun lib poolSize ok c) {k v : Octets} {ttl : Option Nat}
    {ch : Choice} {r : Option Reply}
    (hi : c.log[i]? = some ⟨.op t (.command (.set k v ttl)) ch r, w⟩)
    (hk : IsListKey k) :
    ∃ limit offset n s total users,
      Called c t (.listUsers limit offset) ∧
      k = listCacheKey (UserServiceImpl.pageLimit limit) (UserServiceImpl.pageOffset offset) ∧
      PageRead c t (UserServiceImpl.pageLimit limit) (UserServiceImpl.pageOffset offset) n s
        total users ∧ s < i ∧
      v = lib.json.dump (pageToJson total users) ∧ ttl = some 10 := by
  obtain ⟨req, hcalled, hset⟩ := set_point_at hrun hi
  generalize hown : own t (c.log.take i) = h at hset
  cases hset with
  | createUser r0 now conn id hkey =>
      exact absurd hk (hkey ▸ (isUserKey_user_key _).not_isListKey)
  | getUser r0 g conn row rest hkey =>
      exact absurd hk (hkey ▸ (isUserKey_user_key _).not_isListKey)
  | @listUsers limit offset r0 g conn count rows hkey hvalue httl =>
      have hread : own t (c.log.take i) = ⟨incrOp, r0⟩ :: pageRead
          (UserServiceImpl.pageLimit limit) (UserServiceImpl.pageOffset offset) g conn count rows ++
            [] := by
        rw [hown, List.append_nil]
      -- the history of the call at its `SET` is the whole page read
      obtain ⟨n, s, hread, hsi⟩ := page_read_of_history hrun hread
      refine ⟨limit, offset, n, s, _, _, hcalled, ?_, hread, hsi, ?_, httl⟩
      · rw [hkey, cStr_list_cache_key]
      · rw [hvalue, cStr_page_text]
  | getStats g conn count hkey => exact absurd hkey hk.ne.1

/-! ## The cached total -/

/-- A history with the query of `GetStats` tells the instant it counted at. -/
theorem count_read_of_history (hrun : ServerRun lib poolSize ok c) {g : Option Reply} {conn : Nat}
    {count : ResultSet} {h : History}
    (hown : own t (c.log.take i) = [⟨getOp totalUsersKey, g⟩, ⟨.acquire, conn⟩,
      ⟨.query conn .countUsers, some count⟩] ++ h) :
    ∃ n, Executes c n t (.query conn .countUsers) ∧ n < i ∧
      (rowToCount count).toInt = (rowsAt c n).length := by
  have hcount : own t (c.log.take i) = [⟨getOp totalUsersKey, g⟩, ⟨.acquire, conn⟩] ++
      ⟨.query conn .countUsers, some count⟩ :: h := hown
  obtain ⟨n, ch, w, hni, hn, -⟩ := own_at hcount
  refine ⟨n, ⟨ch, _, w, hn⟩, hni, ?_⟩
  rw [rowsAt_eq hn, query_at hrun hn]
  exact row_to_count_select _ _

/-- What a `SET` of the cached total stores: a count that the same call has read before. -/
theorem total_source (hrun : ServerRun lib poolSize ok c) {v : Octets} {ttl : Option Nat}
    {ch : Choice} {r : Option Reply}
    (hi : c.log[i]? = some ⟨.op t (.command (.set totalUsersKey v ttl)) ch r, w⟩) :
    ∃ (n conn : Nat) (total : Int64), Called c t .getStats ∧
      Executes c n t (.query conn .countUsers) ∧ n < i ∧
      total.toInt = (rowsAt c n).length ∧ v = Decimal.ofInt total.toInt ∧ ttl = some 30 := by
  obtain ⟨req, hcalled, hset⟩ := set_point_at hrun hi
  generalize hown : own t (c.log.take i) = h at hset
  generalize hkey : totalUsersKey = k at hset
  cases hset with
  | createUser r0 now conn id hk =>
      exact absurd (hk.symm.trans hkey.symm) (isUserKey_user_key _).ne.1
  | getUser r0 g conn row rest hk =>
      exact absurd (hk.symm.trans hkey.symm) (isUserKey_user_key _).ne.1
  | listUsers r0 g conn count rows hk =>
      rw [cStr_list_cache_key] at hk
      exact absurd (hk.symm.trans hkey.symm) (isListKey_list_cache_key _ _).ne.1
  | getStats g conn count hk hvalue httl =>
      obtain ⟨n, hcount, hni, htotal⟩ := count_read_of_history hrun hown
      refine ⟨n, conn, rowToCount count, hcalled, hcount, hni, htotal, ?_, httl⟩
      rw [hvalue]
      exact Octets.cStr_eq_self (Decimal.nul_not_mem_ofInt _)

/-! ## User entries -/

/-- A row that a query by id has found. -/
theorem row_of_select {mysql : NumericPrefix} {rows : List Row} {id : Text} {row : Cells}
    {rest : ResultSet} (h : row :: rest = (Query.userById id).select mysql rows) :
    ∃ r ∈ rows, r.Matches mysql id ∧ row = r.cells := by
  have hmem : row ∈ (Query.userById id).select mysql rows := h ▸ List.mem_cons_self
  obtain ⟨r, hr, rfl⟩ := List.mem_map.mp hmem
  obtain ⟨hr, hmatches⟩ := List.mem_filter.mp hr
  exact ⟨r, hr, of_decide_eq_true hmatches, rfl⟩

/-- What a `SET` of a user entry stores: the row that the same call has inserted, verbatim, or a
row that matches the id it was asked for, read back. -/
theorem user_source (hrun : ServerRun lib poolSize ok c) {k v : Octets} {ttl : Option Nat}
    {ch : Choice} {r : Option Reply}
    (hi : c.log[i]? = some ⟨.op t (.command (.set k v ttl)) ch r, w⟩)
    (hk : IsUserKey k) :
    ∃ row ∈ rowsAt c i,
      (k = userKey (Decimal.text row.id) ∧
        v = userToJsonString lib.json (createdUser row.id row.name row.email row.createdAt)) ∨
      ∃ id, k = Octets.cStr (userKey id) ∧ row.Matches lib.mysql id ∧
        v = userToJsonString lib.json (readBack row) := by
  obtain ⟨req, -, hset⟩ := set_point_at hrun hi
  generalize hown : own t (c.log.take i) = h at hset
  cases hset with
  | @createUser name email r0 now conn id hkey hvalue =>
      -- `CreateUser` stores what it wrote to the table, not what it read back
      obtain ⟨c1, c2, hrun1, hlog, hw, -⟩ := hrun.at hi
      have hown1 : ⟨incrOp, r0⟩ :: inserted now conn name email id <+: own t c1.log := by
        rw [hlog, hown]
      obtain ⟨_, _, _, _, _, hrow⟩ := created_row hrun1 hown1
      refine ⟨⟨id, name, email, now⟩, ?_, .inl ⟨?_, ?_⟩⟩
      · rw [rowsAt_eq hi, ← hw]
        exact hrow.subset (by simp)
      · rw [hkey, cStr_user_key_text]
      · rw [hvalue, cStr_user_to_json_string]
  | @getUser id r0 g conn row rest hkey hvalue =>
      have hquery : own t (c.log.take i) =
          [⟨incrOp, r0⟩, ⟨getOp (userKey id), g⟩, ⟨.acquire, conn⟩] ++
            ⟨.query conn (.userById id), some (row :: rest)⟩ :: [] := hown
      -- rows are never deleted, so the row found by the query is still there at the `SET`
      obtain ⟨s, ch', w', hsi, hs, -⟩ := own_at hquery
      obtain ⟨row', hmem, hmatches, rfl⟩ := row_of_select (query_at hrun hs)
      refine ⟨row', ?_, .inr ⟨id, hkey, hmatches, ?_⟩⟩
      · rw [← rowsAt_eq hs] at hmem
        exact (rowsAt_mono hrun (Nat.le_of_lt hsi)).subset hmem
      · rw [hvalue, cStr_user_to_json_string]
        rfl
  | listUsers r0 g conn count rows hkey =>
      rw [cStr_list_cache_key] at hkey
      exact absurd (hkey ▸ isListKey_list_cache_key _ _) hk.not_isListKey
  | getStats g conn count hkey => exact absurd hkey hk.ne.1

end HttpServerDemo
