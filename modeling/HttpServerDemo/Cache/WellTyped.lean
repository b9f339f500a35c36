import HttpServerDemo.Cache.RequestCount

/-!
# What Redis holds at any time

All keys are written by the server, so every live key holds what the functions of the repository
read under keys of its kind, with no more than its time to live ahead. Every command therefore
finds a value of a type that it works on, and every string that a `GET` receives is one that the
caller can decode: the branches that ignore a damaged entry are never taken
(`cache_well_typed`). Only the counter and the index outlive the longest time to live.
-/

namespace HttpServerDemo

open Interleaving Keyspace

variable {lib : Libraries} {poolSize : Nat} {ok : Server → ServerEvent → Prop} {c c' : Server}
  {e : ServerEvent} {w : World} {i t : Nat} {k : Octets}

/-! ## The counter -/

/-- A counter at its greatest value is not counted up. -/
theorem slots_incr_max {ks : Keyspace} {n : Nat} (h : ks.slots k = counterSlot n)
    (hn : n + 1 = 2 ^ 63) : ((Command.incr k).run ks).2 = ks := by
  have hslot : ks.slots k = some ⟨.string (Decimal.ofInt n), none⟩ := by
    rw [h, counterSlot, if_neg (by omega)]
  have htoInt : (Int64.ofInt n).toInt = n := Int64.toInt_ofInt_of_le (by omega) (by omega)
  have hinteger : integer? (Decimal.ofInt n) = some (Int64.ofInt n) := by
    rw [integer?, Decimal.strtoll_ofInt (by omega) (by omega)]
    exact if_pos (by rw [htoInt])
  have hmax : Int64.ofInt n = Int64.maxValue := by
    refine Int64.toInt_inj.mp ?_
    rw [htoInt, Int64.toInt_maxValue]
    omega
  simp only [Command.run, hslot, hinteger, hmax, if_true]

/-- Whatever fails, the number stored is at most the number of calls counted. -/
theorem counter_le (hrun : ServerRun lib poolSize ok c) :
    ∃ n ≤ (counted c).card, n < 2 ^ 63 ∧
      c.world.keyspace.slots requestCountKey = counterSlot n := by
  induction hrun with
  | start => exact ⟨0, Nat.zero_le _, by omega, rfl⟩
  | @step c e c' hrun hstep hstepOk ih =>
      obtain ⟨n, hn, hmax, hslot⟩ := ih
      have hrun' := Run.step hrun hstep hstepOk
      by_cases hincr : ∃ t ch r, e = .op t incrOp ch r
      · obtain ⟨t, ch, r, rfl⟩ := hincr
        rw [counted_incr hrun hrun' hstep]
        obtain ⟨req, -, -, hexec⟩ := op_point hrun hstep
        rcases exec_keyspace hexec with hks | ⟨cmd, hcmd, hks⟩
        · exact ⟨n, by omega, hmax, hks ▸ hslot⟩
        · cases hcmd
          rw [hks]
          rcases Nat.lt_or_ge (n + 1) (2 ^ 63) with hlt | hge
          · exact ⟨n + 1, by omega, hlt, slots_incr hslot hlt⟩
          · refine ⟨n, by omega, hmax, ?_⟩
            rw [cStr_request_count_key, slots_incr_max hslot (by omega), hslot]
      · have hne : ∀ t ch r, e ≠ .op t incrOp ch r := fun t ch r he => hincr ⟨t, ch, r, he⟩
        rw [counted_other hrun hrun' hstep hne]
        refine ⟨n, hn, hmax, ?_⟩
        cases e with
        | call | ret =>
            cases hstep
            exact hslot
        | env d =>
            cases hstep with
            | env hdrift => exact counter_drift hdrift hslot
        | op t o ch r =>
            obtain ⟨req, -, -, hexec⟩ := op_point hrun hstep
            rcases exec_keyspace hexec with hks | ⟨cmd, rfl, hks⟩
            · rw [hks, hslot]
            · rw [hks, counter_key_untouched hrun hstep ?_, hslot]
              intro hcmd
              cases hcmd
              exact hne t ch r rfl

/-! ## Entries -/

/-- What is stored under a key of each kind, and how long it can still live. -/
inductive Stored (json : JsonLibrary) (c : Server) (k : Octets) : Slot → Prop where
  | user {v u d} (hkey : IsUserKey k) (hread : decodeUser json v = some u)
      (hleft : d ≤ c.world.keyspace.clock + 60) : Stored json c k ⟨.string v, some d⟩
  | page {limit offset v users total d} (hkey : k = listCacheKey limit offset)
      (hread : ∀ out, decodePage json v out = (users, some total))
      (hleft : d ≤ c.world.keyspace.clock + 10) : Stored json c k ⟨.string v, some d⟩
  | total {n d} (hkey : k = totalUsersKey) (hcount : n ≤ c.world.table.rows.length)
      (hleft : d ≤ c.world.keyspace.clock + 30) :
      Stored json c k ⟨.string (Decimal.ofNat n), some d⟩
  | counter {n} (hkey : k = requestCountKey) (hpos : 0 < n) (hcount : n ≤ (counted c).card)
      (hmax : n < 2 ^ 63) : Stored json c k ⟨.string (Decimal.ofNat n), none⟩
  | index {members} (hkey : k = kListCacheIndex) (hpages : ∀ m ∈ members, IsListKey m) :
      Stored json c k ⟨.set members, none⟩

/-- Every live key is stored as keys of its kind are. -/
theorem stored (hrun : ServerRun lib poolSize ok c) {slot : Slot}
    (hslot : c.world.keyspace.slots k = some slot) : Stored lib.json c k slot := by
  obtain ⟨value, d⟩ := slot
  cases value with
  | set members =>
      obtain ⟨rfl, rfl, hpages⟩ := set_slot hrun hslot
      exact .index rfl hpages
  | string v =>
      by_cases hk : k = requestCountKey
      · subst hk
        obtain ⟨n, hn, hmax, hcounter⟩ := counter_le hrun
        rw [hcounter, counterSlot] at hslot
        split at hslot
        · cases hslot
        · cases hslot
          exact .counter rfl (by omega) hn hmax
      obtain ⟨i, t, ttl, ch, r, w, hi, -, rfl, -⟩ := stored_by_set hrun hslot hk
      have hclock := clock_now hrun hi
      obtain ⟨req, -, hset⟩ := set_point_at hrun hi
      generalize own t (c.log.take i) = h at hset
      cases hset with
      | createUser r0 now conn id hkey hvalue httl =>
          subst hvalue httl
          rw [cStr_user_to_json_string]
          exact .user (hkey ▸ isUserKey_user_key _) (decode_user_text _ _)
            (Nat.add_le_add_right hclock _)
      | getUser r0 g conn row rest hkey hvalue httl =>
          subst hvalue httl
          rw [cStr_user_to_json_string]
          exact .user (hkey ▸ isUserKey_user_key _) (decode_user_text _ _)
            (Nat.add_le_add_right hclock _)
      | listUsers r0 g conn count rows hkey hvalue httl =>
          subst hvalue httl
          rw [cStr_page_text]
          rw [cStr_list_cache_key] at hkey
          exact .page hkey (decode_page_text _ _ _) (Nat.add_le_add_right hclock _)
      | getStats g conn count hkey hvalue httl =>
          subst hkey httl
          -- the number was counted before, and rows are never deleted
          obtain ⟨n, conn', total, -, -, -, hcount, hv, -⟩ := total_source hrun hi
          have hle := (rowsAt_now hrun n).length_le
          rw [hcount] at hv
          subst hv
          exact .total rfl hle (Nat.add_le_add_right hclock _)

/-- A `GET` is about a key of one of these kinds. -/
theorem ServerPoint.get {json : JsonLibrary} {req : Request} {h : History} {key : Octets}
    (hp : ServerPoint json req h (.issue (.command (.get key)))) :
    IsUserKey key ∨ (∃ limit offset, key = listCacheKey limit offset) ∨ key = totalUsersKey ∨
      key = requestCountKey := by
  generalize hx : (Head.issue (.command (.get key)) : Head Op Response) = x at hp
  cases hp with
  | count | rejectedName | rejectedId => cases hx
  | createUser r _ hpoint =>
      rw [Head.map_eq_issue hx.symm] at hpoint
      cases hpoint
      all_goals rename_i hx; cases hx
  | getUser r _ hpoint =>
      rw [Head.map_eq_issue hx.symm] at hpoint
      cases hpoint
      case get hh hx =>
        cases hx
        exact .inl (isUserKey_user_key _)
      all_goals rename_i hx; cases hx
  | listUsers r hpoint =>
      rw [Head.map_eq_issue hx.symm] at hpoint
      cases hpoint
      case get hh hx =>
        injection hx with hx
        injection hx with hx
        injection hx with hx
        rw [cStr_list_cache_key] at hx
        exact .inr (.inl ⟨_, _, hx⟩)
      all_goals rename_i hx; cases hx
  | getStats hpoint =>
      rw [Head.map_eq_issue hx.symm] at hpoint
      cases hpoint
      case get hh hx =>
        injection hx with hx
        injection hx with hx
        injection hx with hx
        exact .inr (.inr (.inl hx))
      case hitCount hx | missCount hx =>
        cases hx
        exact .inr (.inr (.inr rfl))
      all_goals rename_i hx; cases hx

/-! ## Commands -/

/-- A stored counter can be counted up, as long as fewer than `2 ^ 63 - 1` calls were counted. -/
theorem suits_incr {n : Nat} (hn : n < 2 ^ 63 - 1) (key : Octets) :
    (Command.incr key).Suits (.string (Decimal.ofNat n)) := by
  have htoInt : (Int64.ofInt n).toInt = n := Int64.toInt_ofInt_of_le (by omega) (by omega)
  refine ⟨Int64.ofInt n, ?_, ?_⟩
  · show integer? (Decimal.ofInt n) = _
    rw [integer?, Decimal.strtoll_ofInt (by omega) (by omega)]
    exact if_pos (by rw [htoInt])
  · intro hmax
    have := congrArg Int64.toInt hmax
    rw [htoInt, Int64.toInt_maxValue] at this
    omega

/-- Every command finds a value that it works on. -/
theorem suits_of_point (hrun : ServerRun lib poolSize ok c) {req : Request} {cmd : Command}
    (hpoint : ServerPoint lib.json req (own t c.log) (.issue (.command cmd))) {slot : Slot}
    (hslot : c.world.keyspace.slots cmd.key = some slot)
    (hcount : (counted c).card < 2 ^ 63 - 1) : cmd.Suits slot.value := by
  have hstored := stored hrun hslot
  cases cmd with
  | set | del => trivial
  | get key =>
      have hkey : key ≠ kListCacheIndex := by
        rcases hpoint.get with hk | ⟨limit, offset, rfl⟩ | rfl | rfl
        · exact hk.ne.2.2
        · exact (isListKey_list_cache_key limit offset).ne.2.2
        · exact total_users_key_ne.2
        · exact list_cache_index_ne.symm
      cases hstored with
      | user | page | total | counter => trivial
      | index hindex => exact absurd hindex hkey
  | incr key =>
      obtain ⟨rfl, -⟩ := hpoint.incr
      cases hstored with
      | user hkey => exact absurd rfl hkey.ne.2.1
      | page hkey => exact absurd hkey.symm (isListKey_list_cache_key _ _).ne.2.1
      | total hkey => exact absurd hkey.symm total_users_key_ne.1
      | counter hkey hpos hn => exact suits_incr (by omega) _
      | index hkey => exact absurd hkey.symm list_cache_index_ne
  | sadd key member =>
      obtain ⟨_, _, _, _, _, _, _, _, -, rfl, -⟩ := hpoint.sadd
      obtain ⟨ms, rfl⟩ := index_slot hrun hslot
      trivial
  | smembers key =>
      obtain ⟨_, _, _, _, _, _, _, -, rfl, -⟩ := hpoint.smembers
      obtain ⟨ms, rfl⟩ := index_slot hrun hslot
      trivial

/-- The caller of a `GET` of this key can decode the string. -/
structure Readable (json : JsonLibrary) (k s : Octets) : Prop where
  user : IsUserKey k → ∃ u, decodeUser json s = some u
  page : IsListKey k → ∃ users total, ∀ out, decodePage json s out = (users, some total)
  count : k = totalUsersKey ∨ k = requestCountKey → ∃ n < 2 ^ 63, s = Decimal.ofNat n

/-- What is stored can be decoded. -/
theorem Stored.readable {s : Octets} {d : Option Nat} (h : Stored lib.json c k ⟨.string s, d⟩) :
    Readable lib.json k s := by
  cases h with
  | @user v u d hkey hread =>
      refine ⟨fun _ => ⟨u, hread⟩, fun hk => absurd hk hkey.not_isListKey, ?_⟩
      rintro (rfl | rfl)
      · exact absurd rfl hkey.ne.1
      · exact absurd rfl hkey.ne.2.1
  | @page limit offset v users total d hkey hread =>
      subst hkey
      have hk := isListKey_list_cache_key limit offset
      refine ⟨fun huser => absurd hk huser.not_isListKey, fun _ => ⟨users, total, hread⟩, ?_⟩
      rintro (heq | heq)
      · exact absurd heq hk.ne.1
      · exact absurd heq hk.ne.2.1
  | @total n d hkey hcount =>
      subst hkey
      refine ⟨fun hk => absurd rfl hk.ne.1, fun hk => absurd rfl hk.ne.1, fun _ => ⟨n, ?_, rfl⟩⟩
      exact Nat.lt_of_le_of_lt hcount c.world.table.length_lt
  | @counter n hkey hpos hcount hmax =>
      subst hkey
      exact ⟨fun hk => absurd rfl hk.ne.2.1, fun hk => absurd rfl hk.ne.2.1,
        fun _ => ⟨n, hmax, rfl⟩⟩

/-- The number of calls counted only grows. -/
theorem card_counted_take (hrun : ServerRun lib poolSize ok c) {c1 : Server}
    (hrun1 : ServerRun lib poolSize ok c1) (hlog : c1.log = c.log.take i) :
    (counted c1).card ≤ (counted c).card := by
  refine Finset.card_le_card fun u hu => ?_
  rw [mem_counted hrun1] at hu
  rw [mem_counted hrun]
  obtain ⟨r, hr⟩ := hu
  rw [hlog] at hr
  exact ⟨r, (own_mono u (List.take_prefix i c.log)).subset hr⟩

/-- No `SET` gives its key no time to live. -/
theorem SetPoint.ttl_ne {json : JsonLibrary} {v : Octets} {req : Request} {h : History} :
    ¬ SetPoint json k v (some 0) req h := by
  intro hset
  cases hset
  all_goals
    rename_i httl
    cases httl

/-- What holds of Redis in every reachable state. -/
structure CacheWellTyped (json : JsonLibrary) (c : Server) : Prop where
  /-- Every live key holds what its readers expect, with no more than its time to live ahead. -/
  stored : ∀ k slot, c.world.keyspace.slots k = some slot → Stored json c k slot
  /-- A command that is applied and answered is not answered with an error. -/
  answered : ∀ (i t : Nat) (cmd : Command) (r : Reply) (w : World),
    c.log[i]? = some ⟨.op t (.command cmd) .ok (some r), w⟩ →
    (counted c).card < 2 ^ 63 - 1 → cmd.Answered r
  /-- Every string that a `GET` has received can be decoded. -/
  readable : ∀ (i t : Nat) (k s : Octets) (ch : Choice) (w : World),
    c.log[i]? = some ⟨.op t (.command (.get k)) ch (some (.string s)), w⟩ → Readable json k s
  /-- When nothing is stored for a minute, only the counter and the index are left. -/
  fades : ∀ k slot, (tick^[60] c.world.keyspace).slots k = some slot →
    k = requestCountKey ∨ k = kListCacheIndex

/-- In every reachable state, whatever has failed, Redis is well typed. -/
theorem cache_well_typed (hrun : ServerRun lib poolSize ok c) : CacheWellTyped lib.json c := by
  refine ⟨fun k slot => stored hrun, ?_, ?_, ?_⟩
  · intro i t cmd r w hi hcount
    obtain ⟨c1, c2, hrun1, hlog, rfl, hstep, -⟩ := hrun.at hi
    obtain ⟨req, -, hpoint, hexec⟩ := op_point hrun1 hstep
    have hcount1 := card_counted_take hrun hrun1 hlog
    rw [exec_command_replied hexec]
    refine run_answered ?_ fun slot hslot => suits_of_point hrun1 hpoint hslot (by omega)
    rintro key value rfl
    exact hpoint.set.ttl_ne
  · intro i t k s ch w hi
    obtain ⟨d, hslot⟩ := get_reply hrun hi
    obtain ⟨c1, c2, hrun1, -, rfl, -⟩ := hrun.at hi
    exact (HttpServerDemo.stored hrun1 hslot).readable
  · intro k slot hslot
    obtain ⟨hold, hdeadline⟩ := slots_ticks (timely_keyspace hrun) hslot
    cases HttpServerDemo.stored hrun hold with
    | user _ _ hleft | page _ _ hleft | total _ _ hleft =>
        have := hdeadline _ rfl
        omega
    | counter hkey => exact .inl hkey
    | index hkey => exact .inr hkey

/-- With all five kinds of keys, after failures. -/
theorem cache_well_typed_all :
    ∃ c, ServerRun .standard 1 (fun _ _ => True) c ∧
      ((c.world.keyspace.slots (userKey (Decimal.text 1))).isSome ∧
        (c.world.keyspace.slots (listCacheKey 10 0)).isSome ∧
        (c.world.keyspace.slots totalUsersKey).isSome ∧
        (c.world.keyspace.slots requestCountKey).isSome ∧
        (c.world.keyspace.slots kListCacheIndex).isSome) ∧
      CacheWellTyped JsonText.rfc8259 c := by
  refine exists_run_with (fun _ _ => true)
    (List.flatten
      [whole 0 (.createUser (.ascii "Ann") (.ascii "ann@example.com"))
        [.lost true, .clock 7, .ok, .ok, .ok, .ok, .fail, .ok, .ok, .ok],
      whole 1 (.listUsers 10 0) (List.replicate 8 .ok), whole 2 .getStats (List.replicate 6 .ok)])
    (fun _ _ _ => trivial) ?_ ?_
  · decide +kernel
  intro c hrun _
  exact cache_well_typed hrun

end HttpServerDemo
