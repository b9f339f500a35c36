import HttpServerDemo.Cache.Freshness
import Mathlib.Data.Finset.Card

/-!
# The request counter

`stats:request_count` is written by `INCR` alone. User entries, pages and the cached total are
stored under other keys, the index lists keys of pages only, and the counter has no time to live.
So the number stored is the number of calls that have executed `CountRequest`, and what `GetStats`
reports lies between the calls completed before it started and the calls begun before it returned
(`request_count_exact`).
-/

namespace HttpServerDemo

open Interleaving Keyspace

variable {lib : Libraries} {poolSize : Nat} {ok : Server → ServerEvent → Prop} {c c' : Server}
  {e : ServerEvent} {i j t : Nat}

/-- The calls that have executed `CountRequest` before an instant. -/
def countedBefore (c : Server) (i : Nat) : Finset Nat :=
  (Finset.range c.threads.length).filter fun t => incrOp ∈ (own t (c.log.take i)).map Sigma.fst

/-- The calls that have executed `CountRequest`. -/
def counted (c : Server) : Finset Nat :=
  countedBefore c c.log.length

/-- The calls other than `GetStats` that have begun before an instant. -/
def begunBefore (c : Server) (i : Nat) : Finset Nat :=
  (Finset.range c.threads.length).filter fun t =>
    ∃ j < i, (callAt c j).any (fun call => decide (call.1 = t ∧ call.2 ≠ .getStats)) = true

/-- The calls other than `GetStats` that have returned before an instant. -/
def completedBefore (c : Server) (i : Nat) : Finset Nat :=
  (begunBefore c i).filter fun t =>
    ∃ j < i, (replyAt c j).any (fun reply => decide (reply.1 = t)) = true

/-- A call in the log has a thread. -/
theorem lt_of_called (hrun : ServerRun lib poolSize ok c) {req : Request} (h : Called c t req) :
    t < c.threads.length := by
  obtain ⟨j, hj⟩ := h
  obtain ⟨w, hj⟩ := callAt_eq_some.mp hj
  obtain ⟨th, hth, -⟩ := hrun.called_thread (List.mem_of_getElem? hj)
  exact (List.getElem?_eq_some_iff.mp hth).1

theorem mem_begunBefore (hrun : ServerRun lib poolSize ok c) :
    t ∈ begunBefore c i ↔ ∃ j < i, ∃ req, callAt c j = some (t, req) ∧ req ≠ .getStats := by
  simp only [begunBefore, Finset.mem_filter, Finset.mem_range, Option.any_eq_true,
    decide_eq_true_eq]
  constructor
  · rintro ⟨-, j, hji, ⟨u, req⟩, hj, rfl, hreq⟩
    exact ⟨j, hji, req, hj, hreq⟩
  · rintro ⟨j, hji, req, hj, hreq⟩
    exact ⟨lt_of_called hrun ⟨j, hj⟩, j, hji, (t, req), hj, rfl, hreq⟩

theorem mem_completedBefore :
    t ∈ completedBefore c i ↔
      t ∈ begunBefore c i ∧ ∃ j < i, ∃ resp, replyAt c j = some (t, resp) := by
  simp only [completedBefore, Finset.mem_filter, Option.any_eq_true, decide_eq_true_eq]
  refine and_congr_right fun _ => ?_
  constructor
  · rintro ⟨j, hji, ⟨u, resp⟩, hj, rfl⟩
    exact ⟨j, hji, resp, hj⟩
  · rintro ⟨j, hji, resp, hj⟩
    exact ⟨j, hji, (t, resp), hj, rfl⟩

/-- A call has been counted when its history has the `INCR`. -/
theorem mem_countedBefore (hrun : ServerRun lib poolSize ok c) :
    t ∈ countedBefore c i ↔ ∃ r, (⟨incrOp, r⟩ : Answer Op Op.Res) ∈ own t (c.log.take i) := by
  simp only [countedBefore, Finset.mem_filter, Finset.mem_range]
  constructor
  · rintro ⟨-, hmem⟩
    obtain ⟨⟨o, r⟩, hmem, ho⟩ := List.mem_map.mp hmem
    dsimp only at ho
    subst ho
    exact ⟨r, hmem⟩
  · rintro ⟨r, hmem⟩
    refine ⟨?_, List.mem_map_of_mem hmem⟩
    by_contra hge
    have hnil := hrun.own_eq_nil (Nat.le_of_not_lt hge)
    have := (own_mono t (List.take_prefix i c.log)).subset hmem
    rw [hnil] at this
    cases this

theorem mem_counted (hrun : ServerRun lib poolSize ok c) :
    t ∈ counted c ↔ ∃ r, (⟨incrOp, r⟩ : Answer Op Op.Res) ∈ own t c.log := by
  rw [counted, mem_countedBefore hrun, List.take_length]

/-- A step that executes `INCR` counts its call, which had not been counted. -/
theorem counted_incr (hrun : ServerRun lib poolSize ok c) (hrun' : ServerRun lib poolSize ok c')
    {ch : Choice} {r : Option Reply} (hstep : Step (grpcServer lib) c (.op t incrOp ch r) c') :
    (counted c').card = (counted c).card + 1 := by
  obtain ⟨req, -, hpoint, -⟩ := op_point hrun hstep
  have hfresh : t ∉ counted c := by
    rw [mem_counted hrun, hpoint.incr.2.2]
    rintro ⟨r, hr⟩
    cases hr
  have hinsert : counted c' = insert t (counted c) := by
    ext u
    rw [Finset.mem_insert, mem_counted hrun, mem_counted hrun']
    simp only [hstep.mem_own]
    constructor
    · rintro ⟨r', hold | ⟨ch', he⟩⟩
      · exact .inr ⟨r', hold⟩
      · cases he
        exact .inl rfl
    · rintro (rfl | ⟨r', hold⟩)
      · exact ⟨r, .inr ⟨ch, rfl⟩⟩
      · exact ⟨r', .inl hold⟩
  rw [hinsert, Finset.card_insert_of_notMem hfresh]

/-- Every other step counts no call. -/
theorem counted_other (hrun : ServerRun lib poolSize ok c) (hrun' : ServerRun lib poolSize ok c')
    (hstep : Step (grpcServer lib) c e c') (hne : ∀ t ch r, e ≠ .op t incrOp ch r) :
    counted c' = counted c := by
  ext u
  rw [mem_counted hrun, mem_counted hrun']
  simp only [hstep.mem_own]
  constructor
  · rintro ⟨r, hold | ⟨ch, he⟩⟩
    · exact ⟨r, hold⟩
    · exact absurd he (hne u ch r)
  · rintro ⟨r, hold⟩
    exact ⟨r, .inl hold⟩

/-- What is stored under the key of a counter after `n` increments. -/
def counterSlot (n : Nat) : Option Slot :=
  if n = 0 then none else some ⟨.string (Decimal.ofInt n), none⟩

/-- `INCR` counts on. -/
theorem slots_incr {ks : Keyspace} {k : Octets} {n : Nat} (h : ks.slots k = counterSlot n)
    (hn : n + 1 < 2 ^ 63) : ((Command.incr k).run ks).2.slots k = counterSlot (n + 1) := by
  rw [counterSlot, if_neg (Nat.succ_ne_zero n)]
  rcases Nat.eq_zero_or_pos n with rfl | hpos
  · have hnone : ks.slots k = none := h
    simp only [Command.run, hnone, slots_put_self]
    rfl
  · have hslot : ks.slots k = some ⟨.string (Decimal.ofInt n), none⟩ := by
      rw [h, counterSlot, if_neg (Nat.ne_of_gt hpos)]
    have htoInt : (Int64.ofInt n).toInt = n := Int64.toInt_ofInt_of_le (by omega) (by omega)
    have hinteger : integer? (Decimal.ofInt n) = some (Int64.ofInt n) := by
      rw [integer?, Decimal.strtoll_ofInt (by omega) (by omega)]
      exact if_pos (by rw [htoInt])
    have hmax : Int64.ofInt n ≠ Int64.maxValue := by
      intro heq
      have := congrArg Int64.toInt heq
      rw [htoInt, Int64.toInt_maxValue] at this
      omega
    have hnext : (Int64.ofInt n + 1).toInt = (n + 1 : Nat) := by
      show (Int64.ofInt n + Int64.ofInt 1).toInt = _
      rw [← Int64.ofInt_add]
      exact Int64.toInt_ofInt_of_le (by omega) (by omega)
    simp only [Command.run, hslot, hinteger, hmax, if_false, slots_put_self, hnext]

/-- Redis never drops or rewrites the slot of a counter by itself. -/
theorem counter_drift {w w' : World} {d : Drift} (h : drift d w = some w') {k : Octets} {n : Nat}
    (hslot : w.keyspace.slots k = counterSlot n) : w'.keyspace.slots k = counterSlot n := by
  have hcounter : ∀ slot, counterSlot n = some slot → slot = ⟨.string (Decimal.ofInt n), none⟩ := by
    intro slot hn
    unfold counterSlot at hn
    split at hn
    · cases hn
    · exact (Option.some.inj hn).symm
  -- a key with a deadline or a set is another key
  have hother : ∀ {key slot}, w.keyspace.slots key = some slot →
      slot ≠ ⟨.string (Decimal.ofInt n), none⟩ → k ≠ key := by
    rintro key slot hold hne rfl
    exact hne (hcounter slot (hslot ▸ hold))
  rcases drift_keyspace h with hks | hks | ⟨key, hks, v, d, hold⟩ | ⟨key, old, ms, d, hold, -, hks⟩
  · rw [hks, hslot]
  · rw [hks, ← hslot]
    cases hold : w.keyspace.slots k with
    | none => simp [tick, hold]
    | some slot =>
        obtain rfl := hcounter slot (hslot ▸ hold)
        exact slots_tick_persistent hold
  · rw [hks, slots_drop_ne _ (hother hold (by simp)), hslot]
  · rw [hks, slots_put_ne _ (hother hold (by simp)), hslot]

/-- A command of the server other than `INCR` writes or deletes other keys only. -/
theorem counter_key_untouched (hrun : ServerRun lib poolSize ok c) {cmd : Command} {ch : Choice}
    {r : Option Reply} (hstep : Step (grpcServer lib) c (.op t (.command cmd) ch r) c')
    (hne : Op.command cmd ≠ incrOp) (ks : Keyspace) :
    (cmd.run ks).2.slots requestCountKey = ks.slots requestCountKey := by
  obtain ⟨req, -, hpoint, -⟩ := op_point hrun hstep
  cases cmd with
  | get key => rw [run_get]
  | smembers key => rw [run_smembers]
  | incr key =>
      obtain ⟨rfl, -⟩ := hpoint.incr
      exact absurd rfl hne
  | set key v ttl =>
      refine slots_run_ne (Ne.symm ?_) ks
      show key ≠ requestCountKey
      have hset := hpoint.set
      generalize own t c.log = h at hset
      cases hset with
      | createUser r now conn id hkey | getUser r g conn row rest hkey =>
          exact hkey ▸ (isUserKey_user_key _).ne.2.1
      | listUsers r g conn count rows hkey =>
          rw [hkey, cStr_list_cache_key]
          exact (isListKey_list_cache_key _ _).ne.2.1
      | getStats g conn count hkey => exact hkey ▸ total_users_key_ne.1
  | sadd key m =>
      obtain ⟨_, _, _, _, _, _, _, _, -, rfl, -⟩ := hpoint.sadd
      exact slots_run_ne list_cache_index_ne.symm ks
  | del key =>
      refine slots_run_ne (Ne.symm ?_) ks
      show key ≠ requestCountKey
      obtain ⟨name, email, r, now, conn, id, set, keys, d, -, hdel⟩ := hpoint.del
      rcases hdel with ⟨⟨k, hk, rfl⟩, hown⟩ | ⟨⟨rfl, -⟩, -⟩ | rfl
      · -- the index lists keys of pages only
        have hkeys : (⟨smembersOp kListCacheIndex, keys⟩ : Answer Op Op.Res) ∈ own t c.log := by
          rw [hown]
          simp
        exact (isListKey_of_enumerated hrun hkeys hk).cStr.ne.2.1
      · exact list_cache_index_ne
      · exact total_users_key_ne.1

/-- Without failures the number stored is the number of calls counted. -/
theorem stored_count (hrun : ServerRun lib poolSize ok c)
    (hok : ∀ c e, ok c e → redisOk e = true) (hbound : (counted c).card < 2 ^ 63) :
    c.world.keyspace.slots requestCountKey = counterSlot (counted c).card := by
  induction hrun with
  | start => rfl
  | @step c e c' hrun hstep hstepOk ih =>
      have hrun' := Run.step hrun hstep hstepOk
      by_cases hincr : ∃ t ch r, e = .op t incrOp ch r
      · obtain ⟨t, ch, r, rfl⟩ := hincr
        rw [counted_incr hrun hrun' hstep] at hbound ⊢
        have hslot := ih (by omega)
        obtain ⟨req, -, -, hexec⟩ := op_point hrun hstep
        cases of_decide_eq_true (hok _ _ hstepOk)
        have hconn := connected_of_redisOk hrun' hok
        obtain ⟨-, -, hw⟩ := exec_command_live hexec (.inl rfl) hconn
        rw [hw]
        exact slots_incr hslot hbound
      · have hne : ∀ t ch r, e ≠ .op t incrOp ch r := fun t ch r he => hincr ⟨t, ch, r, he⟩
        rw [counted_other hrun hrun' hstep hne] at hbound ⊢
        have hslot := ih hbound
        cases e with
        | call | ret =>
            cases hstep
            exact hslot
        | env d =>
            cases hstep with
            | env hdrift => exact counter_drift hdrift hslot
        | op t o ch r =>
            obtain ⟨req, -, -, hexec⟩ := op_point hrun hstep
            rcases exec_keyspace hexec with hks | ⟨cmd, rfl, hks⟩
            · rw [hks, hslot]
            · rw [hks, counter_key_untouched hrun hstep ?_, hslot]
              intro hcmd
              cases hcmd
              exact hne t ch r rfl

/-- A call that has returned has been counted. -/
theorem completed_subset (hrun : ServerRun lib poolSize ok c) (hij : i ≤ j) :
    completedBefore c i ⊆ countedBefore c j := by
  intro t ht
  obtain ⟨hbegun, k, hki, resp, hret⟩ := mem_completedBefore.mp ht
  obtain ⟨m, -, req, hcall, hreq⟩ := (mem_begunBefore hrun).mp hbegun
  obtain ⟨r, rest, hown⟩ := (ret_point_at hrun hret ⟨m, hcall⟩).returned hreq
  refine (mem_countedBefore hrun).mpr ⟨r, ?_⟩
  have hprefix : c.log.take k <+: c.log.take j := List.take_prefix_take_left (by omega)
  refine (own_mono t hprefix).subset ?_
  rw [hown]
  simp

/-- A call that has been counted has begun. -/
theorem counted_subset (hrun : ServerRun lib poolSize ok c) (hij : i ≤ j) :
    countedBefore c i ⊆ begunBefore c j := by
  intro t ht
  obtain ⟨r, hmem⟩ := (mem_countedBefore hrun).mp ht
  obtain ⟨h1, h2, hown⟩ := List.append_of_mem hmem
  obtain ⟨n, ch, w, hni, hn, -⟩ := own_at hown
  obtain ⟨req, -, ⟨m, hcall⟩, hpoint, -⟩ := op_point_at hrun hn
  obtain ⟨w', hm⟩ := callAt_eq_some.mp hcall
  have hmn := hrun.call_lt_op hm hn
  exact (mem_begunBefore hrun).mpr ⟨m, by omega, req, hcall, hpoint.incr.2.1⟩

/-- Calls stay counted. -/
theorem countedBefore_mono (hrun : ServerRun lib poolSize ok c) (hij : i ≤ j) :
    countedBefore c i ⊆ countedBefore c j := by
  intro t ht
  obtain ⟨r, hmem⟩ := (mem_countedBefore hrun).mp ht
  have hprefix : c.log.take i <+: c.log.take j := List.take_prefix_take_left hij
  exact (mem_countedBefore hrun).mpr ⟨r, (own_mono t hprefix).subset hmem⟩

/-- The calls counted at an instant are the calls counted in the state at that instant. -/
theorem counted_take (hrun : ServerRun lib poolSize ok c) {c1 : Server}
    (hrun1 : ServerRun lib poolSize ok c1) (hlog : c1.log = c.log.take i) :
    counted c1 = countedBefore c i := by
  ext t
  rw [mem_counted hrun1, mem_countedBefore hrun, hlog]

/-- Reading the counter gives the number that it has counted up to. -/
theorem read_counter {ks : Keyspace} {k : Octets} {n : Nat} (h : ks.slots k = counterSlot n)
    (hn : n < 2 ^ 63) :
    (((RedisClient.stringReply (some ((Command.get k).run ks).1)).map strtoll).getD 0).toInt =
      n := by
  unfold counterSlot at h
  split at h
  · rename_i hzero
    subst hzero
    simp only [Command.run, h]
    rfl
  · have htoInt : (Int64.ofInt n).toInt = n := Int64.toInt_ofInt_of_le (by omega) (by omega)
    simp only [Command.run, h, RedisClient.stringReply, Option.map_some, Option.getD_some, strtoll,
      Octets.cStr_eq_self (Decimal.nul_not_mem_ofInt _)]
    rw [Decimal.strtoll_ofInt (by omega) (by omega), htoInt]

/-- The request counter counts requests. -/
structure RequestCountExact (c : Server) : Prop where
  /-- The number stored is the number of calls that have executed `CountRequest`; there is none
  before the first. -/
  stored : c.world.keyspace.slots requestCountKey = counterSlot (counted c).card
  /-- What `GetStats` reports lies between the calls completed before it started and the calls begun
  before it returned. -/
  reported : ∀ t m i total requests, callAt c m = some (t, .getStats) →
    replyAt c i = some (t, .stats total requests) →
    (completedBefore c m).card ≤ requests.toInt ∧ requests.toInt ≤ (begunBefore c i).card

/-- Without failures of Redis commands the request counter is exact. -/
theorem request_count_exact
    (hrun : ServerRun lib poolSize (fun _ e => redisOk e = true) c)
    (hbound : (counted c).card < 2 ^ 63) : RequestCountExact c := by
  have hok : ∀ (c : Server) (e : ServerEvent), redisOk e = true → redisOk e = true :=
    fun _ _ h => h
  refine ⟨stored_count hrun hok hbound, ?_⟩
  intro t m i total requests hcall hret
  obtain ⟨before, rc, hown, hrequests⟩ := (ret_point_at hrun hret ⟨m, hcall⟩).requests
  rw [get_answer cStr_request_count_key] at hown
  obtain ⟨g, ch, w, hgi, hg, -⟩ := own_at (hown : _ = before ++ _ :: [])
  obtain ⟨wm, hm⟩ := callAt_eq_some.mp hcall
  have hmg := hrun.call_lt_op hm hg
  obtain ⟨c1, c2, hrun1, hlog, -, hstep, hgOk, -⟩ := hrun.at hg
  have hcount : counted c1 = countedBefore c g := counted_take hrun hrun1 hlog
  have hlower := Finset.card_le_card (completed_subset hrun (Nat.le_of_lt hmg))
  have hupper := Finset.card_le_card (counted_subset hrun (Nat.le_of_lt hgi))
  have hsmall : (counted c1).card < 2 ^ 63 := by
    have hlength : g ≤ c.log.length := Nat.le_of_lt (List.getElem?_eq_some_iff.mp hg).1
    rw [hcount]
    exact Nat.lt_of_le_of_lt (Finset.card_le_card (countedBefore_mono hrun hlength)) hbound
  obtain ⟨req, -, -, hexec⟩ := op_point hrun1 hstep
  cases of_decide_eq_true hgOk
  have hconn := connected_of_redisOk (Run.step hrun1 hstep hgOk) hok
  obtain ⟨-, rfl, -⟩ := exec_command_live hexec (.inl rfl) hconn
  have hread := read_counter (stored_count hrun1 hok hsmall) hsmall
  rw [hrequests, hread, hcount]
  omega

/-- With a rejected request, a `ListUsers` in progress, and an invalidated page. -/
theorem request_count_exact_three :
    ∃ c, ServerRun .standard 2 (fun _ e => redisOk e = true) c ∧
      ((counted c).card = 3 ∧ callAt c 24 = some (3, .getStats) ∧
        replyAt c 31 = some (3, .stats 1 3)) ∧
      RequestCountExact c := by
  refine exists_run_with (fun _ e => redisOk e)
    ([.call (.listUsers 10 0)] ++ List.replicate 7 (.op 0 .ok) ++
      whole 1 (.createUser .empty .empty) [.ok] ++
      whole 2 (.createUser (.ascii "Ann") (.ascii "ann@example.com")) (creates 7 1) ++
      whole 3 .getStats (List.replicate 6 .ok))
    (fun _ _ h => h) ?_ ?_
  · decide +kernel
  · rintro c hrun ⟨hcount, -⟩
    exact request_count_exact hrun (by rw [hcount]; decide)

end HttpServerDemo
