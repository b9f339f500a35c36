import HttpServerDemo.GrpcServer.UserService
import HttpServerDemo.Library.Sequential
import HttpServerDemo.Store.ControlFlow
import HttpServerDemo.Store.Keys

/-!
# What a failed invalidation leaves behind

`InvalidateListCache` goes on whatever its commands are answered, and drops the index at the end.
A page whose `DEL` fails, or that `SMEMBERS` did not enumerate, keeps its value and its deadline;
once the index is gone no later invalidation finds the page, and only its time to live removes it.
`invalidation_leaves` says exactly which pages survive and which of them are still indexed.
-/

namespace HttpServerDemo

open Interleaving Keyspace

variable {mysql : NumericPrefix} {w : World}

/-- A command succeeds, or is answered with an error and has no effect. -/
def outcome (succeeds : Bool) : Choice :=
  if succeeds then .ok else .fail

/-- The keys that `InvalidateListCache` sends a `DEL` for, in order. Without an answer to
`SMEMBERS` this is the index alone. -/
def deletedKeys (enumerated : Bool) (ks : Keyspace) : List Octets :=
  (if enumerated then ks.members kListCacheIndex else []).map Octets.cStr ++ [kListCacheIndex]

/-- Every list page that is live is a member of the index. -/
def PagesIndexed (ks : Keyspace) : Prop :=
  ∀ limit offset, ks.slots (listCacheKey limit offset) ≠ none →
    listCacheKey limit offset ∈ ks.members kListCacheIndex

/-- What a command does with such an outcome. -/
theorem exec_outcome (hlive : w.contextError = false) (cmd : Command) (succeeds : Bool) :
    exec mysql (.command cmd) (outcome succeeds) w =
      some (some (if succeeds then (cmd.run w.keyspace).1 else .error),
        { w with keyspace := if succeeds then (cmd.run w.keyspace).2 else w.keyspace }) := by
  obtain ⟨table, insertIds, idle, ks, error⟩ := w
  dsimp only at hlive
  subst hlive
  cases succeeds <;> rfl

/-- A `DEL` that succeeds removes its key, and one that fails nothing. -/
theorem del_alone (mysql : NumericPrefix) (hlive : w.contextError = false) (key : Octets)
    (succeeds : Bool) :
    ∃ r ks', (RedisClient.del key).alone (exec mysql) [outcome succeeds] w =
        some (r, { w with keyspace := ks' }) ∧
      ∀ k, ks'.slots k =
        if k = Octets.cStr key ∧ succeeds = true then none else w.keyspace.slots k := by
  refine ⟨_, _, alone_map.mpr ⟨_, alone_call.mpr ⟨_, rfl, exec_outcome hlive _ _⟩, rfl⟩, ?_⟩
  intro k
  cases succeeds with
  | true =>
      by_cases hk : k = Octets.cStr key
      · rw [if_pos rfl, if_pos ⟨hk, rfl⟩, hk, slots_del_self]
      · rw [if_pos rfl, if_neg fun h => hk h.1]
        exact slots_run_ne hk _
  | false => simp

/-- The loop of `InvalidateListCache` removes the keys whose `DEL` succeeds. -/
theorem del_each_alone (mysql : NumericPrefix) (hlive : w.contextError = false)
    (keys : List Octets) (deletes : List Bool) (hlength : deletes.length = keys.length) :
    ∃ ks', (delEach keys).alone (exec mysql) (deletes.map outcome) w =
        some ((), { w with keyspace := ks' }) ∧
      ∀ k, ks'.slots k =
        if (k, true) ∈ (keys.map Octets.cStr).zip deletes then none else w.keyspace.slots k := by
  induction keys generalizing deletes w with
  | nil =>
      obtain rfl := List.length_eq_zero_iff.mp hlength
      exact ⟨w.keyspace, rfl, fun k => by simp⟩
  | cons key keys ih =>
      obtain ⟨succeeds, deletes, rfl⟩ := List.exists_cons_of_length_eq_add_one hlength
      obtain ⟨r, ks1, hdel, hslots1⟩ := del_alone mysql hlive key succeeds
      obtain ⟨ks2, hrest, hslots2⟩ := ih (w := { w with keyspace := ks1 }) hlive deletes
        (by simpa using hlength)
      refine ⟨ks2, alone_bind.mpr ⟨_, _, r, _, rfl, hdel, hrest⟩, fun k => ?_⟩
      rw [hslots2, hslots1]
      simp only [List.map_cons, List.zip_cons_cons, List.mem_cons, Prod.mk.injEq,
        eq_comm (a := true)]
      split_ifs <;> tauto

/-- `InvalidateListCache` as the loop over its `DEL`s, the one of the index last. -/
theorem invalidate_list_cache_eq :
    invalidateListCache =
      .op (smembersOp kListCacheIndex) fun keys =>
        delEach (memberKeys keys ++ [kListCacheIndex]) := by
  have happend : ∀ keys : List Octets, delEach (keys ++ [kListCacheIndex]) =
      delEach keys >>= fun _ => RedisClient.del kListCacheIndex >>= fun _ => pure () := by
    intro keys
    induction keys with
    | nil => rfl
    | cons key keys ih =>
        rw [List.cons_append, delEach, ih, delEach, Program.bind_assoc]
  simp only [happend]
  rfl

/-- The reply to `SMEMBERS` of the index. -/
def indexReply (enumerated : Bool) (ks : Keyspace) : Option Reply :=
  some (if enumerated then ((Command.smembers kListCacheIndex).run ks).1 else .error)

/-- The keys that the loop goes through. -/
theorem cStr_member_keys (enumerated : Bool) (ks : Keyspace) :
    (memberKeys (indexReply enumerated ks) ++ [kListCacheIndex]).map Octets.cStr =
      deletedKeys enumerated ks := by
  rw [indexReply]
  cases enumerated with
  | true =>
      simp only [if_true, deletedKeys, List.map_append, List.map_singleton, cStr_list_cache_index,
        Command.run, members]
      split <;> simp_all [memberKeys, RedisClient.arrayReply, List.filterMap_map]
  | false => rfl

/-- `InvalidateListCache` removes the keys whose `DEL` succeeds, and nothing else. -/
theorem invalidate_alone (mysql : NumericPrefix) (hlive : w.contextError = false)
    (enumerated : Bool) (deletes : List Bool)
    (hlength : deletes.length = (deletedKeys enumerated w.keyspace).length) :
    ∃ ks', invalidateListCache.alone (exec mysql) (outcome enumerated :: deletes.map outcome) w =
        some ((), { w with keyspace := ks' }) ∧
      ∀ k, ks'.slots k =
        if (k, true) ∈ (deletedKeys enumerated w.keyspace).zip deletes then none
        else w.keyspace.slots k := by
  have hkeys := cStr_member_keys enumerated w.keyspace
  obtain ⟨ks', hrun, hslots⟩ := del_each_alone mysql hlive
    (memberKeys (indexReply enumerated w.keyspace) ++ [kListCacheIndex]) deletes
    (by rw [hlength, ← hkeys, List.length_map])
  rw [hkeys] at hslots
  refine ⟨ks', ?_, hslots⟩
  rw [invalidate_list_cache_eq]
  refine alone_op.mpr ⟨_, _, _, w, rfl, ?_, hrun⟩
  rw [exec_outcome hlive, run_smembers, ite_self]
  rfl

/-- A call of the server that stands at `InvalidateListCache` can run through it in this way, with
no other call in between. -/
theorem invalidation_in_run {lib : Libraries} {ok : Server → ServerEvent → Prop} {c : Server}
    {t : Nat} {th : Thread Op Op.Res Request Response} {f : Unit → Prog Response}
    (hok : ∀ c o ch r, ok c (.op t o ch r)) (hthread : c.threads[t]? = some th)
    (hprog : th.prog = invalidateListCache >>= f) (hlive : c.world.contextError = false)
    (enumerated : Bool) (deletes : List Bool)
    (hlength : deletes.length = (deletedKeys enumerated c.world.keyspace).length) :
    ∃ c', Later (grpcServer lib) ok c c' ∧ c'.threads[t]? = some { th with prog := f () } ∧
      ∀ k, c'.world.keyspace.slots k =
        if (k, true) ∈ (deletedKeys enumerated c.world.keyspace).zip deletes then none
        else c.world.keyspace.slots k := by
  obtain ⟨ks', hrun, hslots⟩ := invalidate_alone lib.mysql hlive enumerated deletes
    hlength
  obtain ⟨c', hlater, hworld, hthread'⟩ := Later.alone (S := grpcServer lib) hrun hok hthread hprog
  exact ⟨c', hlater, hthread', fun k => by rw [hworld, hslots]⟩

/-- A page in the index is sent a `DEL` when the index is enumerated. -/
theorem page_mem_deletedKeys {ks : Keyspace} {limit offset : Int32}
    (h : listCacheKey limit offset ∈ ks.members kListCacheIndex) :
    listCacheKey limit offset ∈ deletedKeys true ks :=
  List.mem_append_left _ (List.mem_map.mpr ⟨_, h, cStr_list_cache_key limit offset⟩)

/-- Every element of a list meets one of the other list of the same length. -/
theorem exists_mem_zip {keys : List Octets} {deletes : List Bool}
    (hlength : deletes.length = keys.length) {k : Octets} (hk : k ∈ keys) :
    ∃ b, (k, b) ∈ keys.zip deletes := by
  obtain ⟨i, hi, rfl⟩ := List.mem_iff_getElem.mp hk
  have hlt : i < (keys.zip deletes).length := by
    simp only [List.length_zip, hlength, Nat.min_self, hi]
  have hget := List.getElem_mem hlt
  rw [List.getElem_zip] at hget
  exact ⟨_, hget⟩

/-- Whichever commands of `InvalidateListCache` fail, a page that is still live has the value and
the deadline it had, no `DEL` of it succeeded, and when the index was enumerated one was sent and
failed; the page is still in the index exactly when no `DEL` of the index succeeded. -/
theorem invalidation_leaves (mysql : NumericPrefix) (w : World) (hlive : w.contextError = false)
    (hindexed : PagesIndexed w.keyspace) (enumerated : Bool) (deletes : List Bool)
    (hlength : deletes.length = (deletedKeys enumerated w.keyspace).length) :
    ∃ w', invalidateListCache.alone (exec mysql) (outcome enumerated :: deletes.map outcome) w =
        some ((), w') ∧
      ∀ limit offset slot, w'.keyspace.slots (listCacheKey limit offset) = some slot →
        w.keyspace.slots (listCacheKey limit offset) = some slot ∧
        (listCacheKey limit offset, true) ∉ (deletedKeys enumerated w.keyspace).zip deletes ∧
        (enumerated = true →
          (listCacheKey limit offset, false) ∈ (deletedKeys enumerated w.keyspace).zip deletes) ∧
        (listCacheKey limit offset ∈ w'.keyspace.members kListCacheIndex ↔
          (kListCacheIndex, true) ∉ (deletedKeys enumerated w.keyspace).zip deletes) := by
  obtain ⟨ks', hrun, hslots⟩ := invalidate_alone mysql hlive enumerated deletes hlength
  refine ⟨_, hrun, fun limit offset slot hslot => ?_⟩
  rw [hslots] at hslot
  split at hslot
  · cases hslot
  rename_i hkept
  have hmember := hindexed limit offset (by rw [hslot]; simp)
  refine ⟨hslot, hkept, fun henumerated => ?_, ?_⟩
  · subst henumerated
    obtain ⟨b, hb⟩ := exists_mem_zip hlength (page_mem_deletedKeys hmember)
    cases b with
    | true => exact absurd hb hkept
    | false => exact hb
  · by_cases hindex : (kListCacheIndex, true) ∈ (deletedKeys enumerated w.keyspace).zip deletes
    · have hmembers : ks'.members kListCacheIndex = [] := by
        simp only [members, hslots, if_pos hindex]
      simp [hmembers, hindex]
    · have hmembers : ks'.members kListCacheIndex = w.keyspace.members kListCacheIndex := by
        simp only [members, hslots, if_neg hindex]
      simp [hmembers, hindex, hmember]

/-- A keyspace with one cached page, and the page in the index. -/
def onePage : Keyspace where
  clock := 0
  slots k :=
    if k = listCacheKey 10 0 then some ⟨.string (Octets.ascii "page"), some 10⟩
    else if k = kListCacheIndex then some ⟨.set [listCacheKey 10 0], none⟩
    else none

/-- The one page is indexed. -/
theorem pagesIndexed_onePage : PagesIndexed onePage := by
  intro limit offset hslot
  have hne : listCacheKey limit offset ≠ kListCacheIndex :=
    (isListKey_list_cache_key limit offset).ne.2.2
  by_cases hpage : listCacheKey limit offset = listCacheKey 10 0
  · rw [hpage]
    decide
  · simp [onePage, hpage, hne] at hslot

/-- The `DEL` of the one page fails and that of the index succeeds. -/
theorem invalidation_leaves_page :
    ∃ w', invalidateListCache.alone (exec NumericPrefix.standard) [.ok, .fail, .ok]
        { World.initial 1 with keyspace := onePage } = some ((), w') ∧
      w'.keyspace.slots (listCacheKey 10 0) = onePage.slots (listCacheKey 10 0) ∧
      listCacheKey 10 0 ∉ w'.keyspace.members kListCacheIndex := by
  obtain ⟨w', hrun, hpages⟩ := invalidation_leaves NumericPrefix.standard
    { World.initial 1 with keyspace := onePage } rfl pagesIndexed_onePage true [false, true]
    (by decide)
  have hrun' := hrun
  cases hrun'
  exact ⟨_, hrun, rfl, fun hmem => absurd ((hpages 10 0 _ rfl).2.2.2.mp hmem) (by decide)⟩

/-- After a failed `DEL` of a page and a successful one of the index, the page is live and no longer
indexed. -/
theorem page_left_unindexed :
    PagesIndexed onePage ∧
    ∃ w', invalidateListCache.alone (exec NumericPrefix.standard) [.ok, .fail, .ok]
        { World.initial 1 with keyspace := onePage } = some ((), w') ∧
      w'.keyspace.slots (listCacheKey 10 0) ≠ none ∧
      listCacheKey 10 0 ∉ w'.keyspace.members kListCacheIndex :=
  ⟨pagesIndexed_onePage, _, rfl, by decide, by decide⟩

end HttpServerDemo
