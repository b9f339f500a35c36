import HttpServerDemo.Cache.Coverage

/-!
# Invalidation after an INSERT

A live page misses a row that its total does not count. `Fresh` says that the call that inserted
the row will still delete such a page: it has not enumerated the index yet, or it found the page
there and has not come to its key. Two races break this: a page that is not in the index when
the index is enumerated, and a page stored with an old count after its key has been passed over.
`fresh` is the invariant of the runs without them.
-/

namespace HttpServerDemo

open Interleaving Keyspace

variable {lib : Libraries} {poolSize : Nat} {ok : Server → ServerEvent → Prop} {c c' : Server}
  {e : ServerEvent} {t j : Nat} {k : Octets}

/-- Call `t` inserted the row at place `j` of the table. -/
def Inserted (c : Server) (t j : Nat) : Prop :=
  ∃ (i conn : Nat) (name email : Text) (now : Int64) (ch : Choice) (w : World),
    c.log[i]? = some ⟨.op t (.execute conn name email now) ch true, w⟩ ∧ w.table.rows.length = j

/-- The page under the key is live, and its total does not count the row at place `j`. -/
def Misses (json : JsonLibrary) (c : Server) (k : Octets) (j : Nat) : Prop :=
  IsListKey k ∧ ∃ total users d,
    c.world.keyspace.slots k = some ⟨.string (json.dump (pageToJson total users)), d⟩ ∧
      total.toInt ≤ j

/-- Call `t` has not enumerated the index, or it found the key there and has not deleted it. -/
def WillDelete (c : Server) (t : Nat) (k : Octets) : Prop :=
  ∀ keys, (⟨smembersOp kListCacheIndex, keys⟩ : Answer Op Op.Res) ∈ own t c.log →
    k ∈ memberKeys keys ∧ ∀ r, (⟨.command (.del k), r⟩ : Answer Op Op.Res) ∉ own t c.log

/-- Every live page that misses a row will be deleted by the call that inserted the row. -/
def Fresh (json : JsonLibrary) (c : Server) : Prop :=
  ∀ t j k, Inserted c t j → Misses json c k j → WillDelete c t k

/-- When a call that has inserted a row enumerates the index, every live page that misses the row
is in it. -/
def EnumeratesMissing (json : JsonLibrary) (c : Server) (e : ServerEvent) : Prop :=
  ∀ t ch r, e = .op t (.command (.smembers kListCacheIndex)) ch r →
    ∀ j k, Inserted c t j → Misses json c k j → k ∈ indexed c

/-- When a call stores a page, every call whose INSERT came after its `COUNT(*)` will still delete
the key. -/
def StoresDeletable (c : Server) (e : ServerEvent) : Prop :=
  ∀ u k v ttl ch r, e = .op u (.command (.set k v ttl)) ch r → IsListKey k →
    ∀ n conn t j, Executes c n u (.query conn .countUsers) → Inserted c t j →
      (rowsAt c n).length ≤ j → WillDelete c t k

/-- A row was inserted before a step or by it. -/
theorem inserted_step (hstep : Step (grpcServer lib) c e c') (h : Inserted c' t j) :
    Inserted c t j ∨
      ∃ conn name email now ch, e = .op t (.execute conn name email now) ch true := by
  obtain ⟨i, conn, name, email, now, ch, w, hi, hj⟩ := h
  rcases hstep.getElem?_log.mp hi with hi | ⟨-, heq⟩
  · exact .inl ⟨i, conn, name, email, now, ch, w, hi, hj⟩
  · cases heq
    exact .inr ⟨conn, name, email, now, ch, rfl⟩

/-- An inserted row stays inserted. -/
theorem Inserted.step (hstep : Step (grpcServer lib) c e c') (h : Inserted c t j) :
    Inserted c' t j := by
  obtain ⟨i, conn, name, email, now, ch, w, hi, hj⟩ := h
  exact ⟨i, conn, name, email, now, ch, w, hstep.getElem?_log.mpr (.inl hi), hj⟩

/-- The rows at an instant that has passed stay as they are. -/
theorem rowsAt_step (hstep : Step (grpcServer lib) c e c') {i : Nat} (hi : i < c.log.length) :
    rowsAt c' i = rowsAt c i := by
  have hentry := List.getElem?_eq_getElem hi
  rw [rowsAt_eq hentry, rowsAt_eq (hstep.getElem?_log.mpr (.inl hentry))]

/-- A call that stores a page has counted the rows before, and its total is that count. -/
theorem counted_of_set (hrun' : ServerRun lib poolSize ok c') {total : Int64} {users : List User}
    {ttl : Option Nat} {ch : Choice} {r : Option Reply} {u : Nat}
    (hstep : Step (grpcServer lib) c
      (.op u (.command (.set k (lib.json.dump (pageToJson total users)) ttl)) ch r) c')
    (hk : IsListKey k) :
    ∃ n conn, Executes c n u (.query conn .countUsers) ∧ total.toInt = (rowsAt c n).length := by
  have hset : c'.log[c.log.length]? = some ⟨.op u (.command (.set k
      (lib.json.dump (pageToJson total users)) ttl)) ch r, c.world⟩ :=
    hstep.getElem?_log.mpr (.inr ⟨rfl, rfl⟩)
  obtain ⟨limit, offset, n, s, total', users', -, -, hread, hs, hvalue, -⟩ :=
    page_source hrun' hset hk
  obtain ⟨rfl, rfl⟩ := page_text_inj lib.json hvalue
  obtain ⟨conn, chn, rn, wn, hn⟩ := hread.counts
  have hlt : n < c.log.length := Nat.lt_trans hread.order hs
  refine ⟨n, conn, ⟨chn, rn, wn, ?_⟩, ?_⟩
  · rcases hstep.getElem?_log.mp hn with hn | ⟨rfl, -⟩
    · exact hn
    · exact absurd hlt (Nat.lt_irrefl _)
  · rw [hread.total_eq, rowsAt_step hstep hlt]

/-- A page that misses a row after a step did so before, or the step stored it. -/
theorem misses_step (hrun : ServerRun lib poolSize ok c) (hstep : Step (grpcServer lib) c e c')
    (h : Misses lib.json c' k j) :
    Misses lib.json c k j ∨ ∃ u total users ttl ch r,
      e = .op u (.command (.set k (lib.json.dump (pageToJson total users)) ttl)) ch r ∧
        total.toInt ≤ j := by
  obtain ⟨hk, total, users, d, hslot, htotal⟩ := h
  rcases string_slot_step hrun hstep hslot hk.ne.2.1 with ⟨hold, -⟩ | ⟨u, ttl, ch, r, he, -⟩
  · exact .inl ⟨hk, total, users, d, hold, htotal⟩
  · exact .inr ⟨u, total, users, ttl, ch, r, he, htotal⟩

/-- The reply to `SMEMBERS` lists the index. -/
theorem memberKeys_smembers (ks : Keyspace) (key : Octets)
    (h : ∀ slot, ks.slots key = some slot → ∃ ms, slot.value = .set ms) :
    memberKeys (some ((Command.smembers key).run ks).1) = ks.members key := by
  cases hs : ks.slots key with
  | none => simp [Command.run, members, memberKeys, RedisClient.arrayReply, hs]
  | some slot =>
      obtain ⟨ms, hms⟩ := h slot hs
      obtain ⟨value, d⟩ := slot
      dsimp only at hms
      subst hms
      simp [Command.run, members, memberKeys, RedisClient.arrayReply, hs]

/-- The keys that a call has found in the index are keys of pages. -/
theorem isListKey_of_enumerated (hrun : ServerRun lib poolSize ok c) {keys : Option Reply}
    (hkeys : (⟨smembersOp kListCacheIndex, keys⟩ : Answer Op Op.Res) ∈ own t c.log)
    (hk : k ∈ memberKeys keys) : IsListKey k := by
  obtain ⟨h1, h2, hown⟩ := List.append_of_mem hkeys
  rw [← List.take_length (l := c.log)] at hown
  obtain ⟨i, ch, w, -, hi, -⟩ := own_at hown
  obtain ⟨c1, c2, hrun1, -, rfl, hstep, -⟩ := hrun.at hi
  obtain ⟨req, -, -, hexec⟩ := op_point hrun1 hstep
  rcases exec_command hexec with ⟨-, -, rfl, -⟩ | ⟨rfl | rfl, -⟩
  · rw [memberKeys_smembers] at hk
    · exact isListKey_of_indexed hrun1 hk
    · intro slot hslot
      obtain ⟨ms, rfl⟩ := index_slot hrun1 hslot
      exact ⟨ms, rfl⟩
  · cases hk
  · cases hk

/-- A call that has deleted every key it found will delete none. -/
theorem not_willDelete {json : JsonLibrary} {r0 : Option Reply} {now : Int64} {conn id : Nat}
    {name email : Text} {set keys : Option Reply} {d : History}
    (hown : ⟨incrOp, r0⟩ :: (enumerated json now conn name email id set keys ++ d) <+:
      own t c.log)
    (hd : Deleted (memberKeys keys) d) (hk : Octets.cStr k = k) : ¬ WillDelete c t k := by
  intro hwill
  obtain ⟨hin, hnot⟩ := hwill keys (hown.subset (by simp))
  obtain ⟨r, hr⟩ := hd.exists_mem hin
  rw [del_answer hk] at hr
  exact hnot r (hown.subset (by simp [hr]))

/-- A `CreateUser` that is done has nothing left to delete. -/
theorem CreateDone.not_willDelete {json : JsonLibrary} {name email : Text} {id : Nat}
    {now : Int64} {h : History} (hdone : CreateDone json name email id now h)
    (hown : h <+: own t c.log) (hk : Octets.cStr k = k) : ¬ WillDelete c t k := by
  obtain ⟨r, conn, set, keys, d, r1, r2, hdeleted, rfl⟩ := hdone
  have hall : ⟨incrOp, r⟩ :: (enumerated json now conn name email id set keys ++ d) <+:
      own t c.log := by
    refine List.IsPrefix.trans ?_ hown
    exact ⟨_, rfl⟩
  exact HttpServerDemo.not_willDelete hall hdeleted hk

/-- A call that has just inserted its row has not enumerated the index. -/
theorem willDelete_of_execute (hrun : ServerRun lib poolSize ok c) {conn : Nat}
    {name email : Text} {now : Int64} {ch : Choice} {r : Bool}
    (hstep : Step (grpcServer lib) c (.op t (.execute conn name email now) ch r) c') :
    WillDelete c' t k := by
  obtain ⟨th, -, hpoint, -⟩ := op_point hrun hstep
  obtain ⟨-, r0, hown⟩ := hpoint.execute
  intro keys hkeys
  rcases hstep.mem_own.mp hkeys with hold | ⟨ch', heq⟩
  · rw [hown] at hold
    simp at hold
  · cases heq

/-- A call that enumerates the index while a page is in it will delete the page. -/
theorem willDelete_of_smembers (hrun : ServerRun lib poolSize ok c) {ch : Choice}
    {r : Option Reply}
    (hstep : Step (grpcServer lib) c (.op t (.command (.smembers kListCacheIndex)) ch r) c')
    (hfail : failStop (.op t (.command (.smembers kListCacheIndex)) ch r) = true)
    (hconn : Connected c') (hk : k ∈ indexed c) : WillDelete c' t k := by
  obtain ⟨th, -, hpoint, hexec⟩ := op_point hrun hstep
  obtain ⟨name, email, r0, now, conn, id, s, -, -, hown⟩ := hpoint.smembers
  -- the connection works, so the reply lists the index in full
  obtain ⟨-, rfl, -⟩ := exec_command_live hexec (choice_of_failStop hfail) hconn
  intro keys hkeys
  rcases hstep.mem_own.mp hkeys with hold | ⟨ch', heq⟩
  · rw [hown] at hold
    simp at hold
  · cases heq
    refine ⟨?_, ?_⟩
    · rw [memberKeys_smembers]
      · exact hk
      · intro slot hslot
        obtain ⟨ms, rfl⟩ := index_slot hrun hslot
        exact ⟨ms, rfl⟩
    · intro r hdel
      rcases hstep.mem_own.mp hdel with hold | ⟨ch', heq⟩
      · rw [hown] at hold
        simp at hold
      · cases heq

/-- One step keeps every page that misses a row due for deletion. -/
theorem fresh_step (hrun : ServerRun lib poolSize ok c) (hrun' : ServerRun lib poolSize ok c')
    (hstep : Step (grpcServer lib) c e c') (hfail : failStop e = true) (hconn : Connected c')
    (henum : EnumeratesMissing lib.json c e) (hstore : StoresDeletable c e)
    (h : Fresh lib.json c) : Fresh lib.json c' := by
  intro t j k hinserted hmisses
  rcases inserted_step hstep hinserted with hold | ⟨conn, name, email, now, ch, rfl⟩
  swap
  · exact willDelete_of_execute hrun hstep
  -- the row was there before
  by_cases hsmembers : ∃ ch r, e = .op t (.command (.smembers kListCacheIndex)) ch r
  · obtain ⟨ch, r, rfl⟩ := hsmembers
    rcases misses_step hrun hstep hmisses with hbefore | ⟨u, total, users, ttl, ch', r', he, -⟩
    · exact willDelete_of_smembers hrun hstep hfail hconn
        (henum t ch r rfl j k hold hbefore)
    · cases he
  have hbefore : WillDelete c t k := by
    rcases misses_step hrun hstep hmisses with hbefore | ⟨u, total, users, ttl, ch, r, he, htotal⟩
    · exact h t j k hold hbefore
    · subst he
      obtain ⟨n, conn, hcount, heq⟩ := counted_of_set hrun' hstep hmisses.1
      rw [heq] at htotal
      exact hstore u k _ ttl ch r rfl hmisses.1 n conn t j hcount hold (Int.ofNat_le.mp htotal)
  intro keys hkeys
  rcases hstep.mem_own.mp hkeys with hkeys | ⟨ch, he⟩
  · obtain ⟨hin, hdel⟩ := hbefore keys hkeys
    refine ⟨hin, ?_⟩
    intro r hr
    rcases hstep.mem_own.mp hr with hr | ⟨ch, he⟩
    · exact hdel r hr
    · -- the page is deleted, so it is not live
      subst he
      obtain ⟨th, -, -, hexec⟩ := op_point hrun hstep
      obtain ⟨-, -, hw⟩ := exec_command_live hexec (choice_of_failStop hfail) hconn
      obtain ⟨-, total, users, d, hslot, -⟩ := hmisses
      rw [hw] at hslot
      dsimp only at hslot
      rw [slots_del_self] at hslot
      cases hslot
  · exact absurd ⟨ch, keys, he⟩ hsmembers

/-- In every run without the two races, live pages that miss a row will be deleted, as long as
the connection is not in error. -/
theorem fresh (hrun : ServerRun lib poolSize ok c)
    (hok : ∀ c e, ok c e → failStop e = true ∧
      (Connected c → EnumeratesMissing lib.json c e ∧ StoresDeletable c e))
    (hconn : Connected c) : Fresh lib.json c := by
  induction hrun with
  | start =>
      rintro t j k ⟨i, conn, name, email, now, ch, w, hi, -⟩
      simp [Config.initial] at hi
  | step hrun hstep hstepOk ih =>
      have hconn' := connected_of_step hstep hconn
      obtain ⟨hfail, hraces⟩ := hok _ _ hstepOk
      obtain ⟨henum, hstore⟩ := hraces hconn'
      exact fresh_step hrun (.step hrun hstep hstepOk) hstep hfail hconn henum hstore (ih hconn')

end HttpServerDemo
