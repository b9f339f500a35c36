import HttpServerDemo.Cache.Provenance

/-!
# What the cache holds, and what is read from it

The provenance of a `SET` carries over to the entry it leaves and to the reply that a later `GET`
receives. `no_phantom_users` says that nothing in the cache is ahead of the table; `hit_source`
and `list_reply_source` say where and when a reply from the cache was stored.
-/

namespace HttpServerDemo

open Interleaving Keyspace

variable {lib : Libraries} {poolSize : Nat} {ok : Server → ServerEvent → Prop} {c c' : Server}
  {w : World} {i g t : Nat}

/-! ## Entries -/

/-- A live user entry encodes a row of the table, verbatim or read back. -/
theorem user_entry (hrun : ServerRun lib poolSize ok c) {k : Octets} {slot : Slot}
    (hslot : c.world.keyspace.slots k = some slot) (hk : IsUserKey k) :
    ∃ v, slot.value = .string v ∧ ∃ row ∈ c.world.table.rows,
      (k = userKey (Decimal.text row.id) ∧
        v = userToJsonString lib.json (createdUser row.id row.name row.email row.createdAt)) ∨
      ∃ id, k = Octets.cStr (userKey id) ∧ row.Matches lib.mysql id ∧
        v = userToJsonString lib.json (readBack row) := by
  obtain ⟨value, d⟩ := slot
  cases value with
  | set ms => exact absurd (set_slot hrun hslot).1 hk.ne.2.2
  | string v =>
      obtain ⟨i, t, ttl, ch, r, w, hi, -⟩ := stored_by_set hrun hslot hk.ne.2.1
      obtain ⟨row, hmem, hrow⟩ := user_source hrun hi hk
      exact ⟨v, rfl, row, (rowsAt_now hrun i).subset hmem, hrow⟩

/-- Call `u` lists with the limit and offset that `ListUsers` passes on. -/
def Lists (c : Server) (u : Nat) (limit offset : Int32) : Prop :=
  ∃ limit' offset', Called c u (.listUsers limit' offset') ∧
    UserServiceImpl.pageLimit limit' = limit ∧ UserServiceImpl.pageOffset offset' = offset

/-- A live list page holds a count and a slice that one `ListUsers` call has read. -/
theorem page_entry (hrun : ServerRun lib poolSize ok c) {k : Octets} {slot : Slot}
    (hslot : c.world.keyspace.slots k = some slot) (hk : IsListKey k) :
    ∃ t limit offset n s total users, Lists c t limit offset ∧
      PageRead c t limit offset n s total users ∧ k = listCacheKey limit offset ∧
      slot.value = .string (lib.json.dump (pageToJson total users)) := by
  obtain ⟨value, d⟩ := slot
  cases value with
  | set ms => exact absurd (set_slot hrun hslot).1 hk.ne.2.2
  | string v =>
      obtain ⟨i, t, ttl, ch, r, w, hi, -⟩ := stored_by_set hrun hslot hk.ne.2.1
      obtain ⟨limit, offset, n, s, total, users, hcalled, hkey, hread, -, rfl, -⟩ :=
        page_source hrun hi hk
      exact ⟨t, _, _, n, s, total, users, ⟨limit, offset, hcalled, rfl, rfl⟩, hread, hkey, rfl⟩

/-- Every user of a page that was read is a row read back. -/
theorem PageRead.mem_users (hrun : ServerRun lib poolSize ok c) {limit offset : Int32} {n s : Nat}
    {total : Int64} {users : List User} (hread : PageRead c t limit offset n s total users)
    {u : User} (hu : u ∈ users) : ∃ row ∈ c.world.table.rows, u = readBack row := by
  rw [hread.users_eq] at hu
  obtain ⟨row, hrow, rfl⟩ := List.mem_map.mp hu
  have hmem : row ∈ rowsAt c s := List.mem_of_mem_drop (List.mem_of_mem_take hrow)
  exact ⟨row, (rowsAt_now hrun s).subset hmem, rfl⟩

/-- Nothing in the cache is ahead of the table. -/
structure NoPhantomUsers (json : JsonLibrary) (c : Server) : Prop where
  /-- Every user entry holds a user with the id of a row. -/
  users : ∀ k slot, IsUserKey k → c.world.keyspace.slots k = some slot →
    ∃ v u, slot.value = .string v ∧ decodeUser json v = some u ∧
      ∃ row ∈ c.world.table.rows, u.id = Decimal.text row.id
  /-- Every list page holds such users only, and a total that does not exceed the row count. -/
  pages : ∀ k slot, IsListKey k → c.world.keyspace.slots k = some slot →
    ∃ v users total, slot.value = .string v ∧
      (∀ out, decodePage json v out = (users, some total)) ∧
      (∀ u ∈ users, ∃ row ∈ c.world.table.rows, u.id = Decimal.text row.id) ∧
      total.toInt ≤ c.world.table.rows.length

/-- In every reachable state nothing in the cache is ahead of the table. -/
theorem no_phantom_users (hrun : ServerRun lib poolSize ok c) : NoPhantomUsers lib.json c := by
  refine ⟨?_, ?_⟩
  · intro k slot hk hslot
    obtain ⟨v, hv, row, hrow, ⟨-, rfl⟩ | ⟨id, -, -, rfl⟩⟩ := user_entry hrun hslot hk
    · exact ⟨_, _, hv, decode_user_text _ _, row, hrow, rfl⟩
    · exact ⟨_, _, hv, decode_user_text _ _, row, hrow, id_readBack row⟩
  · intro k slot hk hslot
    obtain ⟨t, limit, offset, n, s, total, users, -, hread, -, hv⟩ := page_entry hrun hslot hk
    refine ⟨_, users, total, hv, decode_page_text _ _ _, ?_, ?_⟩
    · intro u hu
      obtain ⟨row, hrow, rfl⟩ := hread.mem_users hrun hu
      exact ⟨row, hrow, id_readBack row⟩
    · rw [hread.total_eq]
      exact Int.ofNat_le.mpr (rowsAt_now hrun n).length_le

/-- With a created user and a cached page. -/
theorem no_phantom_users_after_list :
    ∃ c, ServerRun .standard 1 (fun _ _ => True) c ∧
      ((c.world.keyspace.slots (userKey (Decimal.text 1))).isSome ∧
        (c.world.keyspace.slots (listCacheKey 10 0)).isSome) ∧
      NoPhantomUsers JsonText.rfc8259 c := by
  refine exists_run_with (fun _ _ => true)
    (whole 0 (.createUser (.ascii "Ann") (.ascii "ann@example.com")) (creates 7 0) ++
      whole 1 (.listUsers 10 0) (List.replicate 8 .ok))
    (fun _ _ _ => trivial) (by decide +kernel) ?_
  intro c hrun _
  exact no_phantom_users hrun

/-! ## Hits -/

/-- A string that a `GET` receives is in the keyspace. -/
theorem slot_of_get {mysql : NumericPrefix} {k s : Octets} {ch : Choice} {w' : World}
    (h : exec mysql (.command (.get k)) ch w = some (some (.string s), w')) :
    ∃ d, w.keyspace.slots k = some ⟨.string s, d⟩ := by
  rcases exec_command h with ⟨-, -, hr, -⟩ | ⟨hr | hr, -⟩
  · simp only [Command.run] at hr
    split at hr
    · cases hr
    · rename_i s' d hslot
      cases hr
      exact ⟨d, hslot⟩
    · cases hr
  · cases hr
  · cases hr

/-- A string that a `GET` received was in the keyspace at that instant. -/
theorem get_reply (hrun : ServerRun lib poolSize ok c) {k s : Octets} {ch : Choice}
    (hg : c.log[g]? = some ⟨.op t (.command (.get k)) ch (some (.string s)), w⟩) :
    ∃ d, w.keyspace.slots k = some ⟨.string s, d⟩ := by
  obtain ⟨req, w', -, -, hexec⟩ := op_point_at hrun hg
  exact slot_of_get hexec

/-- A history with a cached total tells the instant it was read at. -/
theorem total_get_of_history {s : Octets} {rc : Option Reply}
    (hown : own t (c.log.take i) = [⟨getOp totalUsersKey, some (.string s)⟩,
      ⟨getOp requestCountKey, rc⟩]) :
    ∃ (g : Nat) (ch : Choice) (w : World), g < i ∧
      c.log[g]? = some ⟨.op t (.command (.get totalUsersKey)) ch (some (.string s)), w⟩ := by
  rw [get_answer cStr_total_users_key] at hown
  have hget : own t (c.log.take i) = [] ++ ⟨.command (.get totalUsersKey), some (.string s)⟩ ::
      [⟨getOp requestCountKey, rc⟩] := hown
  obtain ⟨g, ch, w, hgi, hg, -⟩ := own_at hget
  exact ⟨g, ch, w, hgi, hg⟩

/-- The state in which a `GET` receives a string: the string is there, the connection is not in
error and the call is in progress. -/
theorem hit_at (hrun : ServerRun lib poolSize ok c) {k s : Octets} {ch : Choice} {req : Request}
    (hg : c.log[g]? = some ⟨.op t (.command (.get k)) ch (some (.string s)), w⟩)
    (hcall : Called c t req) :
    ∃ c1 d, ServerRun lib poolSize ok c1 ∧ c1.log = c.log.take g ∧
      rowsAt c g = c1.world.table.rows ∧ Connected c1 ∧ Live c1 t ∧ Called c1 t req ∧
      c1.world.keyspace.slots k = some ⟨.string s, d⟩ := by
  obtain ⟨d, hslot⟩ := get_reply hrun hg
  obtain ⟨c1, c2, hrun1, hlog, rfl, hstep, -⟩ := hrun.at hg
  obtain ⟨req', hcall1, -, hexec⟩ := op_point hrun1 hstep
  cases called_unique hrun hcall (hcall1.of_take hlog)
  refine ⟨c1, d, hrun1, hlog, rowsAt_eq hg, ?_, hrun1.live_of_op hstep, hcall1, hslot⟩
  rcases exec_command hexec with ⟨hlive, -⟩ | ⟨hr | hr, -⟩
  · exact hlive
  · cases hr
  · cases hr

/-- What call `u` stored under a key at instant `p` is what call `t` read there at instant `g`, less
than `ttl` seconds later. -/
def Serves (c : Server) (key value : Octets) (ttl p u g t : Nat) : Prop :=
  ∃ (chp chg : Choice) (r : Option Reply) (wp wg : World),
    c.log[p]? = some ⟨.op u (.command (.set key value (some ttl))) chp r, wp⟩ ∧
    c.log[g]? = some ⟨.op t (.command (.get key)) chg (some (.string value)), wg⟩ ∧
    p < g ∧ wg.keyspace.clock < wp.keyspace.clock + ttl

/-- Every `SET` gives its key a time to live. -/
theorem SetPoint.ttl {json : JsonLibrary} {k v : Octets} {ttl : Option Nat} {req : Request}
    {h : History} (hset : SetPoint json k v ttl req h) : ∃ n, ttl = some n := by
  cases hset
  all_goals
    rename_i httl
    exact ⟨_, httl⟩

/-- A hit was stored by the last `SET` of its key, within its time to live. -/
theorem hit_source (hrun : ServerRun lib poolSize ok c) {k s : Octets} {ch : Choice}
    (hg : c.log[g]? = some ⟨.op t (.command (.get k)) ch (some (.string s)), w⟩)
    (hk : k ≠ requestCountKey) :
    ∃ ttl p u, Serves c k s ttl p u g t ∧
      ∀ (j u' : Nat) (v' : Octets) (ttl' : Option Nat) (ch' : Choice) (w' : World), j < g →
        c.log[j]? = some ⟨.op u' (.command (.set k v' ttl')) ch' (some .status), w'⟩ → j ≤ p := by
  obtain ⟨d, hslot⟩ := get_reply hrun hg
  obtain ⟨c1, c2, hrun1, hlog, rfl, -⟩ := hrun.at hg
  obtain ⟨p, u, ttl, chp, r, wp, hp, -, rfl, hlast⟩ := stored_by_set hrun1 hslot hk
  have hpg : p < g := by
    have := (List.getElem?_eq_some_iff.mp hp).1
    rw [hlog, List.length_take] at this
    omega
  rw [hlog, List.getElem?_take_of_lt hpg] at hp
  obtain ⟨req, -, hset⟩ := set_point_at hrun hp
  obtain ⟨n, rfl⟩ := hset.ttl
  have hclock := timely_keyspace hrun1 k _ _ hslot rfl
  refine ⟨n, p, u, ⟨chp, ch, r, wp, c1.world, hp, hg, hpg, hclock⟩, ?_⟩
  intro j u' v' ttl' ch' w' hj hjlog
  refine hlast j u' v' ttl' ch' w' ?_
  rw [hlog, List.getElem?_take_of_lt hj, hjlog]

end HttpServerDemo
