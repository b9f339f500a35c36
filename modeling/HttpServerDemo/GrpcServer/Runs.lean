import HttpServerDemo.GrpcServer.ControlFlow
import HttpServerDemo.Store.Keys

/-!
# Runs of the server

What holds between the instants of a run: calls are where their histories say, rows are only ever
appended, the clock of Redis never goes back, and every string under a key, the request counter
apart, was put there by the last `SET` of that key.
-/

namespace HttpServerDemo

open Interleaving Keyspace

/-- The configurations that a server with this many pooled connections reaches from empty
stores by steps that satisfy `ok`. -/
abbrev ServerRun (lib : Libraries) (poolSize : Nat) (ok : Server → ServerEvent → Prop) :
    Server → Prop :=
  Run (grpcServer lib) (.initial poolSize) ok

variable {lib : Libraries} {poolSize : Nat} {ok : Server → ServerEvent → Prop} {c c' : Server}
  {e : ServerEvent} {w w' : World} {i j t : Nat}

/-! ## Where calls are -/

/-- The call that starts at an instant. -/
def callAt (c : Server) (i : Nat) : Option (Nat × Request) :=
  c.log[i]?.bind fun entry =>
    match entry.event with
    | .call t req => some (t, req)
    | _ => none

/-- The response that is returned at an instant. -/
def replyAt (c : Server) (i : Nat) : Option (Nat × Response) :=
  c.log[i]?.bind fun entry =>
    match entry.event with
    | .ret t resp => some (t, resp)
    | _ => none

theorem callAt_eq_some {req : Request} :
    callAt c i = some (t, req) ↔ ∃ w, c.log[i]? = some ⟨.call t req, w⟩ := by
  constructor
  · intro h
    obtain ⟨⟨event, w⟩, hi, hentry⟩ := Option.bind_eq_some_iff.mp h
    cases event with
    | call u req' =>
        cases hentry
        exact ⟨w, hi⟩
    | op | ret | env => cases hentry
  · rintro ⟨w, hi⟩
    simp [callAt, hi]

theorem replyAt_eq_some {resp : Response} :
    replyAt c i = some (t, resp) ↔ ∃ w, c.log[i]? = some ⟨.ret t resp, w⟩ := by
  constructor
  · intro h
    obtain ⟨⟨event, w⟩, hi, hentry⟩ := Option.bind_eq_some_iff.mp h
    cases event with
    | ret u resp' =>
        cases hentry
        exact ⟨w, hi⟩
    | call | op | env => cases hentry
  · rintro ⟨w, hi⟩
    simp [replyAt, hi]

/-- Call `t` has been made with this request. -/
def Called (c : Server) (t : Nat) (req : Request) : Prop :=
  ∃ i, callAt c i = some (t, req)

/-- A call is one call, with one request. -/
theorem called_unique (hrun : ServerRun lib poolSize ok c) {req req' : Request}
    (h : Called c t req) (h' : Called c t req') : req = req' := by
  obtain ⟨i, hi⟩ := h
  obtain ⟨j, hj⟩ := h'
  obtain ⟨w, hi⟩ := callAt_eq_some.mp hi
  obtain ⟨w', hj⟩ := callAt_eq_some.mp hj
  exact hrun.call_unique (List.mem_of_getElem? hi) (List.mem_of_getElem? hj)

/-- What was called at an instant is called. -/
theorem Called.of_take {c1 : Server} {req : Request} (h : Called c1 t req)
    (hlog : c1.log = c.log.take i) : Called c t req := by
  obtain ⟨j, hj⟩ := h
  obtain ⟨w, hj⟩ := callAt_eq_some.mp hj
  have hlt := (List.getElem?_eq_some_iff.mp hj).1
  rw [hlog, List.getElem?_take_of_lt (by rw [hlog, List.length_take] at hlt; omega)] at hj
  exact ⟨j, callAt_eq_some.mpr ⟨w, hj⟩⟩

/-- A call is at a program point of its request. -/
theorem thread_point (hrun : ServerRun lib poolSize ok c)
    {th : Thread Op Op.Res Request Response} (hth : c.threads[t]? = some th) :
    Called c t th.req ∧ ServerPoint lib.json th.req (own t c.log) th.prog.head := by
  obtain ⟨w, hcall⟩ := hrun.thread_called hth
  obtain ⟨j, hj⟩ := List.mem_iff_getElem?.mp hcall
  exact ⟨⟨j, callAt_eq_some.mpr ⟨w, hj⟩⟩, server_point (hrun.thread_after hth)⟩

/-- An operation is issued at a program point of its call. -/
theorem op_point (hrun : ServerRun lib poolSize ok c) {o : Op} {ch : Choice} {r : o.Res}
    (hstep : Step (grpcServer lib) c (.op t o ch r) c') :
    ∃ req, Called c t req ∧ ServerPoint lib.json req (own t c.log) (.issue o) ∧
      exec lib.mysql o ch c.world = some (r, c'.world) := by
  obtain ⟨th, k, hth, hprog, -, -, hexec⟩ := hrun.op_after hstep
  obtain ⟨hcalled, hpoint⟩ := thread_point hrun hth
  rw [hprog] at hpoint
  exact ⟨th.req, hcalled, hpoint, hexec⟩

/-- The program point of an operation in the log, and its effect. -/
theorem op_point_at (hrun : ServerRun lib poolSize ok c) {o : Op} {ch : Choice} {r : o.Res}
    (hi : c.log[i]? = some ⟨.op t o ch r, w⟩) :
    ∃ req w', Called c t req ∧ ServerPoint lib.json req (own t (c.log.take i)) (.issue o) ∧
      exec lib.mysql o ch w = some (r, w') := by
  obtain ⟨c1, c2, hrun1, hlog, rfl, hstep, -⟩ := hrun.at hi
  obtain ⟨req, hcalled, hpoint, hexec⟩ := op_point hrun1 hstep
  exact ⟨req, c2.world, hcalled.of_take hlog, hlog ▸ hpoint, hexec⟩

/-- The answers of a call lead its handler to what it returns. -/
theorem ret_after_at (hrun : ServerRun lib poolSize ok c) {resp : Response} {req : Request}
    (hret : replyAt c i = some (t, resp)) (hcall : Called c t req) :
    After (UserServiceImpl.handle lib.json req) (own t (c.log.take i)) (.pure resp) := by
  obtain ⟨w, hi⟩ := replyAt_eq_some.mp hret
  obtain ⟨c1, c2, hrun1, hlog, rfl, hstep, -⟩ := hrun.at hi
  cases hstep with
  | @ret _ th _ hthread hprog hlive =>
      obtain ⟨hcalled, -⟩ := thread_point hrun1 hthread
      rw [called_unique hrun hcall (hcalled.of_take hlog), ← hlog, ← hprog]
      exact hrun1.thread_after hthread

/-- The program point of a return in the log, for the request of the call. -/
theorem ret_point_at (hrun : ServerRun lib poolSize ok c) {resp : Response} {req : Request}
    (hret : replyAt c i = some (t, resp)) (hcall : Called c t req) :
    ServerPoint lib.json req (own t (c.log.take i)) (.done resp) :=
  server_point (ret_after_at hrun hret hcall)

/-! ## Rows are only appended -/

/-- A step appends at most one row. -/
theorem rows_prefix_of_step (hstep : Step (grpcServer lib) c e c') :
    c.world.table.rows <+: c'.world.table.rows := by
  cases hstep with
  | call | ret => exact List.prefix_rfl
  | op hthread hprog hexec =>
      rcases exec_rows hexec with hrows | ⟨conn, name, email, now, -, -, hrows⟩
      · exact hrows ▸ List.prefix_rfl
      · exact hrows ▸ List.prefix_append _ _
  | env hdrift => exact (drift_frame hdrift).1 ▸ List.prefix_rfl

theorem rows_prefix_of_later (hlater : Later (grpcServer lib) ok c c') :
    c.world.table.rows <+: c'.world.table.rows :=
  hlater.rel (R := fun c c' => c.world.table.rows <+: c'.world.table.rows)
    (fun _ => List.prefix_rfl) List.IsPrefix.trans rows_prefix_of_step

/-- The rows at an instant are the first of the rows now. -/
theorem rows_prefix_now (hrun : ServerRun lib poolSize ok c) (hi : c.log[i]? = some ⟨e, w⟩) :
    w.table.rows <+: c.world.table.rows := by
  obtain ⟨c1, c2, -, -, rfl, hstep, -, hlater⟩ := hrun.at hi
  exact (rows_prefix_of_step hstep).trans (rows_prefix_of_later hlater)

/-- The rows at an instant are the first of the rows at every later one. -/
theorem rows_prefix (hrun : ServerRun lib poolSize ok c) {e' : ServerEvent} (hij : i ≤ j)
    (hi : c.log[i]? = some ⟨e, w⟩) (hj : c.log[j]? = some ⟨e', w'⟩) :
    w.table.rows <+: w'.table.rows := by
  rcases Nat.eq_or_lt_of_le hij with rfl | hlt
  · rw [hi] at hj
    cases hj
    exact List.prefix_rfl
  · obtain ⟨c1, c2, hrun1, hlog, rfl, -⟩ := hrun.at hj
    refine rows_prefix_now hrun1 (i := i) (e := e) ?_
    rw [hlog, List.getElem?_take_of_lt hlt, hi]

/-- The row of a successful INSERT stays at its place. -/
theorem inserted_row_now (hrun : ServerRun lib poolSize ok c) {conn : Nat} {name email : Text}
    {now : Int64} {ch : Choice}
    (hi : c.log[i]? = some ⟨.op t (.execute conn name email now) ch true, w⟩) :
    w.table.rows ++ [w.table.nextRow name email now] <+: c.world.table.rows := by
  obtain ⟨c1, c2, hrun1, hlog, rfl, hstep, -, hlater⟩ := hrun.at hi
  obtain ⟨th, -, -, hexec⟩ := op_point hrun1 hstep
  rcases exec_execute hexec with ⟨hfalse, -⟩ | ⟨-, -, hrows, -⟩
  · cases hfalse
  · exact hrows ▸ rows_prefix_of_later hlater

/-- The rows at an instant; from the end of the log on, the rows now. -/
def rowsAt (c : Server) (i : Nat) : List Row :=
  match c.log[i]? with
  | some entry => entry.before.table.rows
  | none => c.world.table.rows

theorem rowsAt_eq (hi : c.log[i]? = some ⟨e, w⟩) : rowsAt c i = w.table.rows := by
  simp [rowsAt, hi]

theorem rowsAt_now (hrun : ServerRun lib poolSize ok c) (i : Nat) :
    rowsAt c i <+: c.world.table.rows := by
  unfold rowsAt
  split
  · rename_i entry hi
    exact rows_prefix_now hrun hi
  · exact List.prefix_rfl

theorem rowsAt_mono (hrun : ServerRun lib poolSize ok c) (hij : i ≤ j) :
    rowsAt c i <+: rowsAt c j := by
  cases hj : c.log[j]? with
  | none =>
      have hlast : rowsAt c j = c.world.table.rows := by simp [rowsAt, hj]
      exact hlast ▸ rowsAt_now hrun i
  | some entry =>
      have hlt : i < c.log.length :=
        Nat.lt_of_le_of_lt hij (List.getElem?_eq_some_iff.mp hj).1
      rw [rowsAt_eq hj, rowsAt_eq (List.getElem?_eq_getElem hlt)]
      exact rows_prefix hrun hij (List.getElem?_eq_getElem hlt) hj

/-- The row of a successful INSERT is there at every later instant. -/
theorem inserted_row (hrun : ServerRun lib poolSize ok c) {conn : Nat} {name email : Text}
    {now : Int64} {ch : Choice} (hij : i < j)
    (hi : c.log[i]? = some ⟨.op t (.execute conn name email now) ch true, w⟩) :
    w.table.rows ++ [w.table.nextRow name email now] <+: rowsAt c j := by
  cases hj : c.log[j]? with
  | none =>
      have hlast : rowsAt c j = c.world.table.rows := by simp [rowsAt, hj]
      exact hlast ▸ inserted_row_now hrun hi
  | some entry =>
      obtain ⟨e', w'⟩ := entry
      obtain ⟨c1, c2, hrun1, hlog, rfl, -⟩ := hrun.at hj
      rw [rowsAt_eq hj]
      rw [← List.getElem?_take_of_lt hij, ← hlog] at hi
      exact inserted_row_now hrun1 hi

/-- Call `t` executes an operation at an instant. -/
def Executes (c : Server) (i t : Nat) (o : Op) : Prop :=
  ∃ (ch : Choice) (r : o.Res) (w : World), c.log[i]? = some ⟨.op t o ch r, w⟩

/-- What has happened before an instant has happened then. -/
theorem Executes.take {c1 : Server} {o : Op} (h : Executes c i t o) (hlog : c1.log = c.log.take j)
    (hij : i < j) : Executes c1 i t o ∧ rowsAt c1 i = rowsAt c i := by
  obtain ⟨ch, r, w, hi⟩ := h
  have hi1 : c1.log[i]? = some ⟨.op t o ch r, w⟩ := by
    rw [hlog, List.getElem?_take_of_lt hij, hi]
  exact ⟨⟨ch, r, w, hi1⟩, by rw [rowsAt_eq hi, rowsAt_eq hi1]⟩

/-- The query by id finds every row that matches. -/
theorem mem_select_of_matches {mysql : NumericPrefix} {rows : List Row} {id : Text} {row : Row}
    (hrow : row ∈ rows) (hmatches : row.Matches mysql id) :
    row.cells ∈ (Query.userById id).select mysql rows :=
  List.mem_map_of_mem (List.mem_filter.mpr ⟨hrow, decide_eq_true hmatches⟩)

/-- A query in the log read the rows of its instant. -/
theorem query_at (hrun : ServerRun lib poolSize ok c) {conn : Nat} {q : Query} {ch : Choice}
    {r : ResultSet} (hi : c.log[i]? = some ⟨.op t (.query conn q) ch (some r), w⟩) :
    r = q.select lib.mysql w.table.rows := by
  obtain ⟨req, w', -, -, hexec⟩ := op_point_at hrun hi
  rcases (exec_query hexec).2 with hnone | ⟨hr, -⟩
  · cases hnone
  · exact Option.some.inj hr

/-! ## Time -/

/-- No key outlives its deadline. -/
theorem timely_keyspace (hrun : ServerRun lib poolSize ok c) : Timely c.world.keyspace := by
  induction hrun with
  | start => exact timely_empty
  | step _ hstep _ ih =>
      cases hstep with
      | call | ret => exact ih
      | op hthread hprog hexec =>
          rcases exec_keyspace hexec with hks | ⟨cmd, -, hks⟩
          · exact hks ▸ ih
          · exact hks ▸ ih.run cmd
      | env hdrift =>
          rcases drift_keyspace hdrift with hks | hks | ⟨key, hks, -⟩ |
            ⟨key, old, ms, d, hslot, -, hks⟩
          · exact hks ▸ ih
          · exact hks ▸ Timely.tick
          · exact hks ▸ ih.drop key
          · exact hks ▸ ih.put fun d hd => ih key _ d hslot hd

/-- The clock never goes back. -/
theorem clock_of_step (hstep : Step (grpcServer lib) c e c') :
    c.world.keyspace.clock ≤ c'.world.keyspace.clock := by
  cases hstep with
  | call | ret => exact Nat.le_refl _
  | op hthread hprog hexec =>
      rcases exec_keyspace hexec with hks | ⟨cmd, -, hks⟩
      · exact Nat.le_of_eq (by rw [hks])
      · exact Nat.le_of_eq (by rw [hks, clock_run])
  | env hdrift =>
      rcases drift_keyspace hdrift with hks | hks | ⟨key, hks, -⟩ |
        ⟨key, old, ms, d, -, -, hks⟩ <;> dsimp only <;> rw [hks]
      · exact Nat.le_succ _
      · rw [clock_drop]
      · rw [clock_put]

/-- The clock has not gone back since an instant. -/
theorem clock_now (hrun : ServerRun lib poolSize ok c) (hi : c.log[i]? = some ⟨e, w⟩) :
    w.keyspace.clock ≤ c.world.keyspace.clock := by
  obtain ⟨c1, c2, -, -, rfl, hstep, -, hlater⟩ := hrun.at hi
  exact Nat.le_trans (clock_of_step hstep)
    (hlater.rel (R := fun c c' => c.world.keyspace.clock ≤ c'.world.keyspace.clock)
      (fun _ => Nat.le_refl _) Nat.le_trans clock_of_step)

/-- The clock does not go back from one instant to a later one. -/
theorem clock_mono (hrun : ServerRun lib poolSize ok c) {e' : ServerEvent} (hij : i ≤ j)
    (hi : c.log[i]? = some ⟨e, w⟩) (hj : c.log[j]? = some ⟨e', w'⟩) :
    w.keyspace.clock ≤ w'.keyspace.clock := by
  rcases Nat.lt_or_eq_of_le hij with hlt | rfl
  · obtain ⟨c1, c2, hrun1, hlog, rfl, -⟩ := hrun.at hj
    refine clock_now hrun1 (i := i) (e := e) ?_
    rw [hlog, List.getElem?_take_of_lt hlt, hi]
  · rw [hi] at hj
    cases hj
    exact Nat.le_refl _

/-! ## Failures -/

/-- A query is answered with a result set. -/
def answered : ServerEvent → Bool
  | .op _ (.query _ _) _ none => false
  | _ => true

/-- A Redis command is applied and answered. -/
def redisOk : ServerEvent → Bool
  | .op _ (.command _) ch _ => decide (ch = .ok)
  | _ => true

/-- A Redis command is applied and answered, or breaks the connection. -/
def failStop : ServerEvent → Bool
  | .op _ (.command _) .ok _ => true
  | .op _ (.command _) (.broken _) _ => true
  | .op _ (.command _) _ _ => false
  | _ => true

theorem failStop_of_redisOk (h : redisOk e = true) : failStop e = true := by
  cases e with
  | op t o ch r =>
      cases o with
      | command cmd =>
          cases of_decide_eq_true h
          rfl
      | nowUnixSeconds | acquire | release | execute | lastInsertId | query => rfl
  | call | ret | env => rfl

theorem choice_of_failStop {cmd : Command} {ch : Choice} {r : Option Reply}
    (h : failStop (.op t (.command cmd) ch r) = true) :
    ch = .ok ∨ ∃ applied, ch = .broken applied := by
  cases ch with
  | ok => exact .inl rfl
  | broken applied => exact .inr ⟨applied, rfl⟩
  | clock | fail | lost => cases h

/-- The connection to Redis is not in error. -/
def Connected (c : Server) : Prop :=
  c.world.contextError = false

/-- The connection never recovers. -/
theorem connected_of_step (hstep : Step (grpcServer lib) c e c') (h : Connected c') :
    Connected c := by
  cases hstep with
  | call | ret => exact h
  | op hthread hprog hexec => exact exec_context hexec h
  | env hdrift => exact (drift_frame hdrift).2.2.2.symm.trans h

/-- Without failures the connection is never in error. -/
theorem connected_of_redisOk (hrun : ServerRun lib poolSize ok c)
    (hok : ∀ c e, ok c e → redisOk e = true) : Connected c := by
  induction hrun with
  | start => rfl
  | @step c e c' hrun hstep hstepOk ih =>
      cases hstep with
      | call | ret => exact ih
      | env hdrift => exact (drift_frame hdrift).2.2.2.trans ih
      | @op t th o k ch r w hthread hprog hexec =>
          have hexec : exec lib.mysql o ch c.world = some (r, w) := hexec
          cases o with
          | command cmd =>
              cases of_decide_eq_true (hok _ _ hstepOk)
              -- only a command that breaks the connection sets the context in error
              rcases exec_command hexec with ⟨hlive, -, -, hw⟩ | ⟨-, hlive | hlive, -⟩
              · rw [Connected, hw]
                exact hlive
              · rw [ih] at hlive
                cases hlive
              · exact absurd rfl hlive
          | nowUnixSeconds => rw [exec_now hexec]; exact ih
          | acquire => rw [(exec_acquire hexec).2]; exact ih
          | release conn => rw [exec_release hexec]; exact ih
          | lastInsertId conn => rw [(exec_last_insert_id hexec).2]; exact ih
          | query conn q => rw [(exec_query hexec).1]; exact ih
          | execute conn name email now =>
              rcases exec_execute hexec with ⟨-, hw⟩ | ⟨-, -, -, -, -, -, hlive⟩
              · rw [hw]; exact ih
              · exact hlive.trans ih

/-! ## Playing a schedule -/

/-- The server after a schedule, from empty stores, if every step passes the check. -/
def play (check : Server → ServerEvent → Bool) (poolSize : Nat)
    (schedule : List (Action Choice Drift Request)) : Option Server :=
  execute (grpcServer .standard) check (.initial (.initial poolSize)) schedule

/-- A call from its start to its return, with nothing in between. -/
def whole (t : Nat) (req : Request) (choices : List Choice) :
    List (Action Choice Drift Request) :=
  .call req :: choices.map (.op t) ++ [.ret t]

/-- The choices of a `CreateUser` that succeeds and deletes this many pages. -/
def creates (now : Int64) (pages : Nat) : List Choice :=
  [.ok, .clock now] ++ List.replicate (8 + pages) .ok

/-- A schedule that can be played is a run; what is computed of its end holds there, and so does
what follows from that in every run. -/
theorem exists_run_with (check : Server → ServerEvent → Bool)
    (schedule : List (Action Choice Drift Request)) (hcheck : ∀ c e, check c e = true → ok c e)
    {p q : Server → Prop} [DecidablePred p]
    (h : ((play check poolSize schedule).any fun c => decide (p c)) = true)
    (hq : ∀ c, ServerRun .standard poolSize ok c → p c → q c) :
    ∃ c, ServerRun .standard poolSize ok c ∧ p c ∧ q c := by
  obtain ⟨c, hrun, hp⟩ := Interleaving.exists_run check schedule hcheck h
  exact ⟨c, hrun, hp, hq c hrun hp⟩

end HttpServerDemo
