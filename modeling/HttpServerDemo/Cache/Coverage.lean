import HttpServerDemo.Cache.Entries

/-!
# The index of the list pages

`ListUsers` publishes a page in two steps, `SET` and `SADD`, and `InvalidateListCache` drops the
whole index at its end. In between a page is covered by the call that is about to add its key.
What loses pages is dropping the index while a page no longer waits to be added: `covered` is the
invariant of the runs in which that does not happen.
-/

namespace HttpServerDemo

open Interleaving Keyspace

variable {lib : Libraries} {poolSize : Nat} {ok : Server → ServerEvent → Prop} {c c' : Server}
  {e : ServerEvent} {t : Nat} {k : Octets}

/-- The keys in the index. -/
def indexed (c : Server) : List Octets :=
  c.world.keyspace.members kListCacheIndex

/-- Only keys of pages are in the index. -/
theorem isListKey_of_indexed (hrun : ServerRun lib poolSize ok c) (hk : k ∈ indexed c) :
    IsListKey k := by
  unfold indexed members at hk
  split at hk
  · rename_i ms d hslot
    exact (set_slot hrun hslot).2.2 k hk
  · cases hk

/-- A list page is stored under the key. -/
def LivePage (c : Server) (k : Octets) : Prop :=
  IsListKey k ∧ (c.world.keyspace.slots k).isSome

/-- A `ListUsers` call has stored its page and is about to add the key to the index. -/
def AwaitsIndex (c : Server) (k : Octets) : Prop :=
  ∃ t, Awaits c t (.command (.sadd kListCacheIndex k))

/-- Every live page is in the index or about to be added. -/
def Covered (c : Server) : Prop :=
  ∀ k, LivePage c k → k ∈ indexed c ∨ AwaitsIndex c k

/-- The index is dropped only while every live page is about to be added to it. -/
def DropsCovered (c : Server) (e : ServerEvent) : Prop :=
  ∀ t ch r, e = .op t (.command (.del kListCacheIndex)) ch r → ∀ k, LivePage c k → AwaitsIndex c k

/-- A page that is live after a step was live before, or the step stored it. -/
theorem live_page_step (hrun : ServerRun lib poolSize ok c) (hrun' : ServerRun lib poolSize ok c')
    (hstep : Step (grpcServer lib) c e c') (h : LivePage c' k) :
    LivePage c k ∨ ∃ t v ttl ch r, e = .op t (.command (.set k v ttl)) ch r := by
  obtain ⟨hk, hsome⟩ := h
  obtain ⟨slot, hslot⟩ := Option.isSome_iff_exists.mp hsome
  obtain ⟨t, limit, offset, n, s, total, users, -, -, -, hvalue⟩ := page_entry hrun' hslot hk
  obtain ⟨value, d⟩ := slot
  dsimp only at hvalue
  subst hvalue
  rcases string_slot_step hrun hstep hslot hk.ne.2.1 with ⟨hold, -⟩ | ⟨t, ttl, ch, r, he, -⟩
  · exact .inl ⟨hk, by rw [hold]; rfl⟩
  · exact .inr ⟨t, _, ttl, ch, r, he⟩

/-- A key stays in the index until the index is dropped. -/
theorem indexed_step (hrun : ServerRun lib poolSize ok c) (hstep : Step (grpcServer lib) c e c')
    (hfail : failStop e = true) (hconn : Connected c') (hk : k ∈ indexed c)
    (hdrop : ∀ t ch r, e ≠ .op t (.command (.del kListCacheIndex)) ch r) : k ∈ indexed c' := by
  have hindex : ∃ ms, c.world.keyspace.slots kListCacheIndex = some ⟨.set ms, none⟩ := by
    cases hslot : c.world.keyspace.slots kListCacheIndex with
    | none => simp [indexed, members, hslot] at hk
    | some slot =>
        obtain ⟨ms, rfl⟩ := index_slot hrun hslot
        exact ⟨ms, rfl⟩
  obtain ⟨ms, hslot⟩ := hindex
  have hkms : k ∈ ms := by simpa [indexed, members, hslot] using hk
  -- it is enough that the slot of the index stays as it is
  have hkeep : c'.world.keyspace.slots kListCacheIndex = some ⟨.set ms, none⟩ → k ∈ indexed c' := by
    intro hslot'
    simpa [indexed, members, hslot'] using hkms
  cases e with
  | call | ret =>
      cases hstep
      exact hk
  | env e =>
      cases hstep with
      | env hdrift =>
          rcases drift_keyspace hdrift with hks | hks | ⟨key, hks, v, d, hexpired⟩ |
            ⟨key, old, ms', d, hold, hperm, hks⟩
          · exact hkeep (hks ▸ hslot)
          · exact hkeep (hks ▸ slots_tick_persistent hslot)
          · refine hkeep ?_
            have hne : kListCacheIndex ≠ key := by
              rintro rfl
              rw [hslot] at hexpired
              cases hexpired
            dsimp only
            rw [hks, slots_drop_ne _ hne, hslot]
          · by_cases hkey : kListCacheIndex = key
            · subst hkey
              rw [hslot] at hold
              cases hold
              show k ∈ members _ kListCacheIndex
              rw [hks]
              simpa [members] using hperm.mem_iff.mpr hkms
            · refine hkeep ?_
              dsimp only
              rw [hks, slots_put_ne _ hkey, hslot]
  | op t o ch r =>
      obtain ⟨th, -, hpoint, hexec⟩ := op_point hrun hstep
      rcases exec_keyspace hexec with hks | ⟨cmd, rfl, hks⟩
      · exact hkeep (hks ▸ hslot)
      by_cases hkey : kListCacheIndex = cmd.key
      swap
      · exact hkeep (by rw [hks, slots_run_ne hkey, hslot])
      cases cmd with
      | set key v ttl => exact absurd hkey.symm hpoint.set.ne_index
      | get key => exact hkeep (by rw [hks, run_get, hslot])
      | smembers key => exact hkeep (by rw [hks, run_smembers, hslot])
      | incr key => exact absurd (hkey.trans hpoint.incr.1) list_cache_index_ne
      | del key =>
          have hkey : kListCacheIndex = key := hkey
          subst hkey
          exact absurd rfl (hdrop t ch r)
      | sadd key m =>
          have hkey : kListCacheIndex = key := hkey
          subst hkey
          show k ∈ members _ kListCacheIndex
          rw [hks, mem_members_sadd]
          · exact .inl hk
          · intro slot hslot'
            obtain ⟨ms', rfl⟩ := index_slot hrun hslot'
            exact ⟨ms', rfl⟩

/-- A page that has just been stored is about to be added to the index. -/
theorem awaits_index_of_set (hrun : ServerRun lib poolSize ok c) {v : Octets} {ttl : Option Nat}
    {ch : Choice} {r : Option Reply}
    (hstep : Step (grpcServer lib) c (.op t (.command (.set k v ttl)) ch r) c')
    (hk : IsListKey k) : AwaitsIndex c' k := by
  obtain ⟨th, p, hth, hprog, hth', hafter, -⟩ := hrun.op_after hstep
  have hset := (server_point hafter).set
  have hnext := server_point (hafter.snoc r)
  refine ⟨t, _, hth', ?_⟩
  generalize own t c.log = h at hset hnext
  generalize th.req = req at hset hnext
  cases hset with
  | createUser r0 now conn id hkey =>
      exact absurd hk (hkey ▸ (isUserKey_user_key _).not_isListKey)
  | getUser r0 g conn row rest hkey =>
      exact absurd hk (hkey ▸ (isUserKey_user_key _).not_isListKey)
  | @listUsers limit offset r0 g conn count rows hkey hvalue httl =>
      subst hkey hvalue httl
      exact hnext.after_page
  | getStats g conn count hkey => exact absurd hkey hk.ne.1

/-- One step keeps every live page covered. -/
theorem covered_step (hrun : ServerRun lib poolSize ok c) (hrun' : ServerRun lib poolSize ok c')
    (hstep : Step (grpcServer lib) c e c') (hfail : failStop e = true) (hconn : Connected c')
    (hdrops : DropsCovered c e) (h : Covered c) : Covered c' := by
  intro k hk
  rcases live_page_step hrun hrun' hstep hk with hold | ⟨t, v, ttl, ch, r, rfl⟩
  · by_cases hdrop : ∃ t ch r, e = .op t (.command (.del kListCacheIndex)) ch r
    · -- the index is dropped: the key is about to be added and stays so
      obtain ⟨t, ch, r, rfl⟩ := hdrop
      obtain ⟨u, hawaits⟩ := hdrops t ch r rfl k hold
      rcases hstep.awaits hawaits with hawaits | ⟨ch', r', he⟩
      · exact .inr ⟨u, hawaits⟩
      · cases he
    · have hkeep := fun t ch r he => hdrop ⟨t, ch, r, he⟩
      rcases h k hold with hin | ⟨u, hawaits⟩
      · exact .inl (indexed_step hrun hstep hfail hconn hin hkeep)
      · rcases hstep.awaits hawaits with hawaits | ⟨ch, r, rfl⟩
        · exact .inr ⟨u, hawaits⟩
        · -- the key is added
          left
          obtain ⟨th, -, -, hexec⟩ := op_point hrun hstep
          obtain ⟨-, -, hw⟩ := exec_command_live hexec (choice_of_failStop hfail) hconn
          show k ∈ members _ kListCacheIndex
          rw [hw]
          refine (mem_members_sadd ?_).mpr (.inr rfl)
          intro slot hslot
          obtain ⟨ms, rfl⟩ := index_slot hrun hslot
          exact ⟨ms, rfl⟩
  · exact .inr (awaits_index_of_set hrun hstep hk.1)

/-- In every run that drops the index only while it covers, live pages are covered as long as the
connection is not in error. -/
theorem covered (hrun : ServerRun lib poolSize ok c)
    (hok : ∀ c e, ok c e → failStop e = true ∧ (Connected c → DropsCovered c e))
    (hconn : Connected c) :
    Covered c := by
  induction hrun with
  | start =>
      intro k hk
      cases hk.2
  | step hrun hstep hstepOk ih =>
      have hconn' := connected_of_step hstep hconn
      obtain ⟨hfail, hdrops⟩ := hok _ _ hstepOk
      exact covered_step hrun (.step hrun hstep hstepOk) hstep hfail hconn (hdrops hconn')
        (ih hconn')

end HttpServerDemo
