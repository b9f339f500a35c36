import HttpServerDemo.GrpcServer.Runs
import HttpServerDemo.Store.MysqlPool

/-!
# Connections are exclusive

No connection is idle or held twice, so `lastInsertId` reads the id of the row that the same call
has just inserted. `created_row` is what the rest of the development uses: the id that
`CreateUser` works with is the id of its own row.
-/

namespace HttpServerDemo

open Interleaving Lending

variable {lib : Libraries} {poolSize : Nat} {ok : Server → ServerEvent → Prop} {c c' : Server}
  {t : Nat}

/-- The connection that a call holds. -/
def held (t : Nat) (c : Server) : Option Nat :=
  holding none (own t c.log)

/-- Every connection is idle or held, at most once. -/
structure Exclusive (c : Server) : Prop where
  nodup : c.world.idle.Nodup
  notIdle : ∀ t conn, held t c = some conn → conn ∉ c.world.idle
  unique : ∀ t u conn, held t c = some conn → held u c = some conn → t = u

theorem held_op_self {o : Op} {ch : Choice} {r : o.Res}
    (hstep : Step (grpcServer lib) c (.op t o ch r) c') :
    held t c' = holding (held t c) [⟨o, r⟩] := by
  rw [held, hstep.log_eq, own_append, own_op_self, holding_append]
  rfl

theorem held_op_ne {u : Nat} (hu : u ≠ t) {o : Op} {ch : Choice} {r : o.Res}
    (hstep : Step (grpcServer lib) c (.op u o ch r) c') : held t c' = held t c := by
  rw [held, hstep.log_eq, own_append, own_op_ne hu, List.append_nil]
  rfl

/-- An operation other than `acquire` and `release` changes no hold. -/
theorem held_eq {u : Nat} {o : Op} {ch : Choice} {r : o.Res}
    (hstep : Step (grpcServer lib) c (.op u o ch r) c') (hacquire : o ≠ .acquire)
    (hrelease : ∀ conn, o ≠ .release conn) (t : Nat) : held t c' = held t c := by
  by_cases hu : u = t
  · subst hu
    rw [held_op_self hstep]
    cases o with
    | acquire => exact absurd rfl hacquire
    | release conn => exact absurd rfl (hrelease conn)
    | nowUnixSeconds | execute | lastInsertId | query | command => rfl
  · exact held_op_ne hu hstep

/-- The event is neither an `acquire` nor a `release`. -/
def PoolUntouched (e : ServerEvent) : Prop :=
  (∀ t ch conn, e ≠ .op t .acquire ch conn) ∧ ∀ t conn ch r, e ≠ .op t (.release conn) ch r

/-- A step that is neither an `acquire` nor a `release` leaves the pool and the connections that
calls hold as they are. -/
theorem pool_untouched (hrun : ServerRun lib poolSize ok c) {e : ServerEvent}
    (hstep : Step (grpcServer lib) c e c') (he : PoolUntouched e) :
    (∀ t, held t c' = held t c) ∧ c'.world.idle = c.world.idle := by
  have hlog := hstep.log_eq
  cases e with
  | call t req | ret t resp =>
      have hheld : ∀ t, held t c' = held t c := fun t => by simp [held, hlog, own_append]
      cases hstep
      exact ⟨hheld, rfl⟩
  | env e =>
      have hheld : ∀ t, held t c' = held t c := fun t => by simp [held, hlog, own_append]
      cases hstep with
      | env hdrift => exact ⟨hheld, (drift_frame hdrift).2.2.1⟩
  | op t o ch r =>
      obtain ⟨req, -, -, hexec⟩ := op_point hrun hstep
      cases o with
      | acquire => exact absurd rfl (he.1 t ch r)
      | release conn => exact absurd rfl (he.2 t conn ch r)
      | execute conn name email now =>
          refine ⟨held_eq hstep (by simp) (by simp), ?_⟩
          rcases exec_execute hexec with ⟨-, hw⟩ | ⟨-, -, -, -, hidle, -⟩
          · rw [hw]
          · exact hidle
      | nowUnixSeconds => exact ⟨held_eq hstep (by simp) (by simp), by rw [exec_now hexec]⟩
      | lastInsertId conn =>
          exact ⟨held_eq hstep (by simp) (by simp), by rw [(exec_last_insert_id hexec).2]⟩
      | query conn q => exact ⟨held_eq hstep (by simp) (by simp), by rw [(exec_query hexec).1]⟩
      | command cmd =>
          refine ⟨held_eq hstep (by simp) (by simp), ?_⟩
          rcases exec_command hexec with ⟨-, -, -, hw⟩ | ⟨-, -, ⟨_, hw⟩ | ⟨_, hw⟩⟩ <;> rw [hw]

/-- What a step does to the pool and to the connections that calls hold. -/
theorem pool_cases (hrun : ServerRun lib poolSize ok c) {e : ServerEvent}
    (hstep : Step (grpcServer lib) c e c') :
    (∃ t ch conn, e = .op t .acquire ch conn ∧ held t c = none ∧ held t c' = some conn ∧
      (∀ u, u ≠ t → held u c' = held u c) ∧ c.world.idle = c'.world.idle ++ [conn] ∧
      exec lib.mysql .acquire ch c.world = some (conn, c'.world)) ∨
    (∃ t conn ch r, e = .op t (.release conn) ch r ∧ held t c = some conn ∧ held t c' = none ∧
      (∀ u, u ≠ t → held u c' = held u c) ∧ c'.world.idle = c.world.idle ++ [conn] ∧
      exec lib.mysql (.release conn) ch c.world = some (r, c'.world)) ∨
    (PoolUntouched e ∧ (∀ t, held t c' = held t c) ∧ c'.world.idle = c.world.idle) := by
  by_cases he : PoolUntouched e
  · exact .inr (.inr ⟨he, pool_untouched hrun hstep he⟩)
  · simp only [PoolUntouched, not_and_or, not_forall, not_not] at he
    rcases he with ⟨t, ch, conn, rfl⟩ | ⟨t, conn, ch, r, rfl⟩
    · obtain ⟨req, -, hpoint, hexec⟩ := op_point hrun hstep
      exact .inl ⟨t, ch, conn, rfl, hpoint.acquire, held_op_self hstep,
        fun u hu => held_op_ne (Ne.symm hu) hstep, (exec_acquire hexec).1, hexec⟩
    · obtain ⟨req, -, hpoint, hexec⟩ := op_point hrun hstep
      exact .inr (.inl ⟨t, conn, ch, r, rfl, hpoint.release, held_op_self hstep,
        fun u hu => held_op_ne (Ne.symm hu) hstep, by rw [exec_release hexec], hexec⟩)

/-- Calls and pool keep a ledger of the connections. -/
theorem kept (hrun : ServerRun lib poolSize ok c) :
    ∃ ledger, Kept (List.range poolSize) c.world.idle (held · c) ledger := by
  induction hrun with
  | start => exact ⟨_, Kept.start List.nodup_range⟩
  | @step c e c' hrun hstep hok ih =>
      obtain ⟨ledger, hkept⟩ := ih
      rcases pool_cases hrun hstep with ⟨t, ch, conn, -, hempty, hself, hother, hidle, -⟩ |
        ⟨t, conn, ch, r, -, hheld, hself, hother, hidle, -⟩ | ⟨-, hheld, hidle⟩
      · rw [hidle] at hkept
        exact ⟨_, hkept.lend hempty hself hother⟩
      · rw [hidle]
        exact ⟨_, hkept.giveBack hheld hself hother⟩
      · rw [hidle]
        exact ⟨ledger, hkept.congr hheld⟩

/-- Connections stay exclusive. -/
theorem exclusive (hrun : ServerRun lib poolSize ok c) : Exclusive c := by
  obtain ⟨ledger, hkept⟩ := kept hrun
  refine ⟨hkept.nodup, fun t conn ht hidle => ?_, fun t u conn ht hu => ?_⟩
  · have hlent := ((hkept.held_iff t conn).mp ht).2
    rw [((hkept.mem_idle conn).mp hidle).2] at hlent
    cases hlent
  · have hlent := ((hkept.held_iff t conn).mp ht).2
    rw [((hkept.held_iff u conn).mp hu).2] at hlent
    exact (Option.some.inj hlent).symm

/-- For its pool, a run of the server is an interleaving of `acquire` and the destruction of guards,
and every connection that a call holds is in the hand of a guard. -/
theorem pool_run (hrun : ServerRun lib poolSize ok c) {cfg : MysqlConfig} {calls : InitCalls}
    {pool : MysqlPool} (hinit : MysqlPool.fresh.init cfg calls = (true, pool))
    (hsize : cfg.poolSize.toInt.toNat = poolSize) :
    ∃ events s, .shutdown ∉ events ∧ (PoolState.mk pool []).run events = some s ∧
      s.pool.idle = c.world.idle ∧
      ∀ t conn, held t c = some conn → ∃ guard, s.held guard = some conn := by
  induction hrun with
  | start =>
      refine ⟨[], _, by simp, rfl, ?_, fun t conn h => by cases h⟩
      rw [← hsize]
      exact (initial_idle hinit).symm
  | @step c e c' hrun hstep hok ih =>
      obtain ⟨events, s, hopen, hevents, hidle, hguards⟩ := ih
      rcases pool_cases hrun hstep with ⟨t, ch, conn, -, hempty, hself, hother, -, hexec⟩ |
        ⟨t, conn, ch, r, -, hheld, hself, hother, -, hexec⟩ | ⟨-, hheld, hsame⟩
      -- the call constructs a guard
      · refine ⟨events ++ [.acquire], ⟨{ s.pool with idle := c'.world.idle },
          s.guards ++ [⟨some conn, true⟩]⟩, by simp [hopen], ?_, rfl, fun u taken hu => ?_⟩
        · rw [PoolState.run_concat hevents, PoolState.step, exec_acquire_pool hidle hexec]
          rfl
        · by_cases hut : u = t
          · subst hut
            rw [hself] at hu
            cases hu
            exact ⟨s.guards.length, PoolState.held_append_length _⟩
          · rw [hother u hut] at hu
            obtain ⟨guard, hguard⟩ := hguards u taken hu
            refine ⟨guard, (PoolState.held_append_ne _ s.pool ?_).trans hguard⟩
            rintro rfl
            exact absurd (PoolState.held_length.symm.trans hguard) (by simp)
      -- the call destroys its guard
      · obtain ⟨guard, hguard⟩ := hguards t conn hheld
        have hget := PoolState.get_of_held hguard
        refine ⟨events ++ [.destroy guard], ⟨s.pool.release conn,
          s.guards.set guard ⟨some conn, false⟩⟩, by simp [hopen], ?_,
          exec_release_pool hidle hexec, fun u taken hu => ?_⟩
        · rw [PoolState.run_concat hevents, PoolState.step, hget]
        · have hut : u ≠ t := by
            rintro rfl
            rw [hself] at hu
            cases hu
          rw [hother u hut] at hu
          obtain ⟨other, hother⟩ := hguards u taken hu
          refine ⟨other, (PoolState.held_set_ne _ s.pool ?_).trans hother⟩
          rintro rfl
          rw [hguard] at hother
          cases hother
          exact hut ((exclusive hrun).unique u t conn hu hheld)
      · exact ⟨events, s, hopen, hevents, hidle.trans hsame.symm,
          fun t conn h => hguards t conn (hheld t ▸ h)⟩

/-! ## The id of the inserted row -/

/-- The connection remembers the id of a row that call `t` has inserted. -/
def Remembers (c : Server) (t conn : Nat) (name email : Text) (now : Int64) : Prop :=
  ∃ (i : Nat) (ch : Choice) (w : World),
    c.log[i]? = some ⟨.op t (.execute conn name email now) ch true, w⟩ ∧
      c.world.insertIds conn = w.table.autoIncrement

theorem Remembers.frame {e : ServerEvent} (hstep : Step (grpcServer lib) c e c') {conn : Nat}
    {name email : Text} {now : Int64} (h : Remembers c t conn name email now)
    (hids : c'.world.insertIds conn = c.world.insertIds conn) :
    Remembers c' t conn name email now := by
  obtain ⟨i, ch, w, hi, hid⟩ := h
  refine ⟨i, ch, w, ?_, hids.trans hid⟩
  rw [hstep.log_eq, List.getElem?_append_left (List.getElem?_eq_some_iff.mp hi).1, hi]

/-- A call that has just inserted a row still holds its connection, and the connection remembers
the id of that row. -/
theorem remembers (hrun : ServerRun lib poolSize ok c) {h : History} {conn : Nat}
    {name email : Text} {now : Int64}
    (hown : own t c.log = h ++ [⟨.execute conn name email now, true⟩]) :
    held t c = some conn ∧ Remembers c t conn name email now := by
  induction hrun generalizing h with
  | start => simp [Config.initial] at hown
  | @step c e c' hrun hstep hok ih =>
      have hlog := hstep.log_eq
      cases e with
      | call u req | ret u resp =>
          rw [hlog, own_append] at hown
          obtain ⟨hheld, hremembers⟩ := ih (by simpa using hown)
          refine ⟨by simpa [held, hlog, own_append] using hheld, hremembers.frame hstep ?_⟩
          cases hstep
          rfl
      | env e =>
          rw [hlog, own_append] at hown
          obtain ⟨hheld, hremembers⟩ := ih (by simpa using hown)
          refine ⟨by simpa [held, hlog, own_append] using hheld, hremembers.frame hstep ?_⟩
          cases hstep with
          | env hdrift => rw [(drift_frame hdrift).2.1]
      | op u o ch r =>
          obtain ⟨th, -, hpoint, hexec⟩ := op_point hrun hstep
          by_cases hu : u = t
          · subst hu
            rw [hlog, own_append, own_op_self] at hown
            cases (List.append_inj' hown rfl).2
            obtain ⟨-, r0, hbefore⟩ := hpoint.execute
            refine ⟨?_, c.log.length, ch, c.world, ?_, ?_⟩
            · rw [held_op_self hstep, held, hbefore]
              rfl
            · simp [hlog]
            · rcases exec_execute hexec with ⟨hfalse, -⟩ | ⟨-, -, -, hids, -⟩
              · cases hfalse
              · rw [hids]
                exact if_pos rfl
          · rw [hlog, own_append, own_op_ne hu, List.append_nil] at hown
            obtain ⟨hheld, hremembers⟩ := ih hown
            refine ⟨held_op_ne hu hstep ▸ hheld,
              hremembers.frame hstep (exec_insert_ids hexec ?_)⟩
            -- the other call holds another connection
            rintro name' email' now' rfl
            obtain ⟨-, r0, hbefore⟩ := hpoint.execute
            have hother : held u c = some conn := by
              rw [held, hbefore]
              rfl
            exact hu ((exclusive hrun).unique u t conn hother hheld)

/-- The id that `CreateUser` goes on with is the id of the row it has inserted. -/
theorem created_row (hrun : ServerRun lib poolSize ok c) {r0 : Option Keyspace.Reply}
    {now : Int64} {conn id : Nat} {name email : Text}
    (hown : ⟨incrOp, r0⟩ :: inserted now conn name email id <+: own t c.log) :
    ∃ (i : Nat) (ch : Choice) (w : World),
      c.log[i]? = some ⟨.op t (.execute conn name email now) ch true, w⟩ ∧
      w.table.nextRow name email now = (⟨id, name, email, now⟩ : Row) ∧
      w.table.rows ++ [⟨id, name, email, now⟩] <+: c.world.table.rows := by
  obtain ⟨h, hown⟩ := hown
  have hown' : own t (c.log.take c.log.length) =
      ([⟨incrOp, r0⟩, ⟨.nowUnixSeconds, now⟩, ⟨.acquire, conn⟩] ++
        [⟨.execute conn name email now, true⟩]) ++ ⟨.lastInsertId conn, id⟩ :: h := by
    rw [List.take_length, ← hown]
    rfl
  obtain ⟨j, ch, w, hlt, hj, hbefore⟩ := own_at hown'
  obtain ⟨c1, c2, hrun1, hlog1, rfl, hstep1, -, hlater⟩ := hrun.at hj
  rw [← hlog1] at hbefore
  -- `last_insert_id` answers on the connection that the insert went through
  obtain ⟨-, i, ch', w', hi, hid⟩ := remembers hrun1 hbefore
  obtain ⟨th, -, -, hexec⟩ := op_point hrun1 hstep1
  have hilt : i < j := by
    have := (List.getElem?_eq_some_iff.mp hi).1
    rw [hlog1, List.length_take] at this
    omega
  rw [hlog1, List.getElem?_take_of_lt hilt] at hi
  have hrow : w'.table.nextRow name email now = (⟨id, name, email, now⟩ : Row) := by
    rw [(exec_last_insert_id hexec).1, hid]
    rfl
  exact ⟨i, ch', w', hi, hrow, hrow ▸ inserted_row_now hrun hi⟩

/-- A user that `CreateUser` has returned is the row that the call has inserted, and the call has
gone through all its steps. -/
theorem created_user (hrun : ServerRun lib poolSize ok c) {i : Nat} {name email : Text}
    {user : User} (hcall : Called c t (.createUser name email))
    (hret : replyAt c i = some (t, .user user)) :
    ∃ (n conn : Nat) (row : Row) (ch : Choice) (w : World),
      c.log[n]? = some ⟨.op t (.execute conn row.name row.email row.createdAt) ch true, w⟩ ∧
      n < i ∧ w.table.nextRow row.name row.email row.createdAt = row ∧
      user = createdUser row.id row.name row.email row.createdAt ∧
      row.name = name ∧ row.email = email ∧
      CreateDone lib.json name email row.id row.createdAt (own t (c.log.take i)) := by
  have hpoint := ret_point_at hrun hret hcall
  obtain ⟨id, now, rfl, hdone⟩ := hpoint.created
  obtain ⟨w, hi⟩ := replyAt_eq_some.mp hret
  obtain ⟨c1, c2, hrun1, hlog, rfl, -⟩ := hrun.at hi
  have hsteps := hdone
  obtain ⟨r0, conn, set, keys, d, r1, r2, hdeleted, hown⟩ := hsteps
  have hown1 : ⟨incrOp, r0⟩ :: inserted now conn name email id <+: own t c1.log := by
    rw [hlog, hown]
    exact ⟨_, rfl⟩
  obtain ⟨n, ch, wn, hn, hnext, -⟩ := created_row hrun1 hown1
  have hni : n < i := by
    have := (List.getElem?_eq_some_iff.mp hn).1
    rw [hlog, List.length_take] at this
    omega
  rw [hlog, List.getElem?_take_of_lt hni] at hn
  exact ⟨n, conn, ⟨id, name, email, now⟩, ch, wn, hn, hni, hnext, rfl, rfl, rfl, hdone⟩

end HttpServerDemo
