import HttpServerDemo.GrpcServer.Connections

/-!
# Concurrent creations

The rows of the table are the rows that the calls have inserted, one for each call that has
inserted any. A `CreateUser` that succeeds returns the row that it has inserted itself, and one
that fails has inserted none (`creations_keep_their_rows`).
-/

namespace HttpServerDemo

open Interleaving

variable {lib : Libraries} {poolSize : Nat} {ok : Server → ServerEvent → Prop} {c c' : Server}
  {e : ServerEvent} {t : Nat} {row : Row}

/-- The call that inserts a row in this entry of the log, and the row. -/
def insertion : Entry Op Op.Res World Choice Drift Request Response → Option (Nat × Row)
  | ⟨.op t (.execute _ name email now) _ true, w⟩ => some (t, w.table.nextRow name email now)
  | _ => none

/-- The calls that have inserted a row, and their rows. -/
def insertions (c : Server) : List (Nat × Row) :=
  c.log.filterMap insertion

/-- An insertion is the INSERT of its call. -/
theorem mem_insertions :
    (t, row) ∈ insertions c ↔ ∃ (i conn : Nat) (name email : Text) (now : Int64) (ch : Choice)
      (w : World), c.log[i]? = some ⟨.op t (.execute conn name email now) ch true, w⟩ ∧
        w.table.nextRow name email now = row := by
  rw [insertions, List.mem_filterMap]
  constructor
  · rintro ⟨entry, hmem, hentry⟩
    obtain ⟨i, hi⟩ := List.mem_iff_getElem?.mp hmem
    unfold insertion at hentry
    split at hentry
    · cases hentry
      exact ⟨i, _, _, _, _, _, _, hi, rfl⟩
    · cases hentry
  · rintro ⟨i, conn, name, email, now, ch, w, hi, rfl⟩
    exact ⟨_, List.mem_of_getElem? hi, rfl⟩

/-- A step that inserts a row appends it to the table, and no other step changes the table. -/
theorem insertions_step (hrun : ServerRun lib poolSize ok c)
    (hstep : Step (grpcServer lib) c e c') :
    (insertions c' = insertions c ∧ c'.world.table.rows = c.world.table.rows) ∨
      ∃ t conn name email now ch, e = .op t (.execute conn name email now) ch true ∧
        insertions c' = insertions c ++ [(t, c.world.table.nextRow name email now)] ∧
        c'.world.table.rows = c.world.table.rows ++ [c.world.table.nextRow name email now] := by
  have happend : insertions c' = insertions c ++ [⟨e, c.world⟩].filterMap insertion := by
    rw [insertions, hstep.log_eq, List.filterMap_append]
    rfl
  cases e with
  | call | ret =>
      cases hstep
      exact .inl ⟨happend.trans (List.append_nil _), rfl⟩
  | env e =>
      cases hstep with
      | env hdrift => exact .inl ⟨happend.trans (List.append_nil _), (drift_frame hdrift).1⟩
  | op t o ch r =>
      obtain ⟨req, -, -, hexec⟩ := op_point hrun hstep
      cases o with
      | execute conn name email now =>
          rcases exec_execute hexec with ⟨rfl, hw⟩ | ⟨rfl, -, hrows, -⟩
          · exact .inl ⟨happend.trans (List.append_nil _), by rw [hw]⟩
          · exact .inr ⟨t, conn, name, email, now, ch, rfl, happend, hrows⟩
      | nowUnixSeconds | acquire | release | lastInsertId | query | command =>
          rcases exec_rows hexec with hrows | ⟨conn, name, email, now, ho, -⟩
          · exact .inl ⟨happend.trans (List.append_nil _), hrows⟩
          · cases ho

/-- The rows of the table are the inserted rows, in order. -/
theorem rows_eq_insertions (hrun : ServerRun lib poolSize ok c) :
    c.world.table.rows = (insertions c).map Prod.snd := by
  induction hrun with
  | start => rfl
  | @step c e c' hrun hstep hok ih =>
      rcases insertions_step hrun hstep with ⟨hins, hrows⟩ |
        ⟨t, _, name, email, now, _, -, hins, hrows⟩
      · rw [hins, hrows, ih]
      · rw [hins, hrows, ih, List.map_append]
        rfl

/-- A call inserts at most one row. -/
theorem insertions_nodup (hrun : ServerRun lib poolSize ok c) :
    ((insertions c).map Prod.fst).Nodup := by
  induction hrun with
  | start => exact List.nodup_nil
  | @step c e c' hrun hstep hok ih =>
      rcases insertions_step hrun hstep with ⟨hins, -⟩ |
        ⟨t, conn, name, email, now, ch, rfl, hins, -⟩
      · rwa [hins]
      · rw [hins, List.map_append]
        refine List.nodup_append.mpr ⟨ih, List.nodup_singleton _, ?_⟩
        rintro u hu v hv rfl
        cases List.mem_singleton.mp hv
        -- a call that is about to insert has not inserted before
        obtain ⟨⟨u, row⟩, hmem, rfl⟩ := List.mem_map.mp hu
        obtain ⟨i, conn', name', email', now', ch', w, hi, -⟩ := mem_insertions.mp hmem
        obtain ⟨req, -, hpoint, -⟩ := op_point hrun hstep
        obtain ⟨-, r, hown⟩ := hpoint.execute
        have hbefore := mem_own hi
        rw [hown] at hbefore
        simp at hbefore

/-- An insertion is made by a `CreateUser` call, with the name and email of its request and the
time that it has read. -/
theorem insertion_source (hrun : ServerRun lib poolSize ok c) (h : (t, row) ∈ insertions c) :
    Called c t (.createUser row.name row.email) ∧
      (⟨.nowUnixSeconds, row.createdAt⟩ : Answer Op Op.Res) ∈ own t c.log := by
  obtain ⟨i, conn, name, email, now, ch, w, hi, rfl⟩ := mem_insertions.mp h
  obtain ⟨req, w', hcalled, hpoint, -⟩ := op_point_at hrun hi
  obtain ⟨rfl, r, hown⟩ := hpoint.execute
  refine ⟨hcalled, (own_mono t (List.take_prefix i c.log)).subset ?_⟩
  rw [hown]
  simp [UsersTable.nextRow]

/-- What concurrent `CreateUser` calls owe their callers. -/
structure CreationsKeepTheirRows (c : Server) : Prop where
  /-- The table has one row for every call that has inserted one, and no other rows. -/
  rows : c.world.table.rows = (insertions c).map Prod.snd
  once : ((insertions c).map Prod.fst).Nodup
  /-- A row has the name and the email that its call was made with and the time it has read. -/
  source : ∀ t row, (t, row) ∈ insertions c → Called c t (.createUser row.name row.email) ∧
    (⟨.nowUnixSeconds, row.createdAt⟩ : Answer Op Op.Res) ∈ own t c.log
  /-- A call that succeeds returns the row that it has inserted. -/
  returned : ∀ t i name email user, Called c t (.createUser name email) →
    replyAt c i = some (t, .user user) →
    ∃ row, (t, row) ∈ insertions c ∧ user = createdUser row.id row.name row.email row.createdAt ∧
      row.name = name ∧ row.email = email
  /-- A call that fails has inserted no row. -/
  failed : ∀ t i code message row, replyAt c i = some (t, .error code message) →
    (t, row) ∉ insertions c
  /-- Different calls return different ids. -/
  distinct : ∀ t u i j name email name' email' user user', t ≠ u →
    Called c t (.createUser name email) → replyAt c i = some (t, .user user) →
    Called c u (.createUser name' email') → replyAt c j = some (u, .user user') →
    user.id ≠ user'.id

/-- A call that has inserted a row succeeds. -/
theorem not_mem_insertions_of_error (hrun : ServerRun lib poolSize ok c) {i : Nat}
    {code : StatusCode} {message : String} (hret : replyAt c i = some (t, .error code message)) :
    (t, row) ∉ insertions c := by
  intro h
  have hcall := (insertion_source hrun h).1
  obtain ⟨n, conn, name, email, now, ch, w, hn, -⟩ := mem_insertions.mp h
  obtain ⟨w', hi⟩ := replyAt_eq_some.mp hret
  have hmem : (⟨.execute conn name email now, true⟩ : Answer Op Op.Res) ∈ own t (c.log.take i) :=
    mem_own (by rw [List.getElem?_take_of_lt (hrun.op_lt_ret hn hi), hn])
  obtain ⟨_, _, _, _, -, hresp⟩ := (ret_point_at hrun hret hcall).executed hmem
  cases hresp

/-- In every run, whatever fails, concurrent creations keep their rows. -/
theorem creations_keep_their_rows (hrun : ServerRun lib poolSize ok c) :
    CreationsKeepTheirRows c := by
  have hreturned : ∀ t i name email user, Called c t (.createUser name email) →
      replyAt c i = some (t, .user user) →
      ∃ row, (t, row) ∈ insertions c ∧
        user = createdUser row.id row.name row.email row.createdAt ∧
        row.name = name ∧ row.email = email := by
    intro t i name email user hcall hret
    obtain ⟨n, conn, row, ch, w, hn, -, hnext, huser, hname, hemail, -⟩ :=
      created_user hrun hcall hret
    exact ⟨row, mem_insertions.mpr ⟨n, conn, _, _, _, ch, w, hn, hnext⟩, huser, hname, hemail⟩
  refine ⟨rows_eq_insertions hrun, insertions_nodup hrun, fun t row => insertion_source hrun,
    hreturned, fun t i code message row => not_mem_insertions_of_error hrun, ?_⟩
  intro t u i j name email name' email' user user' hne hcall hret hcall' hret' hid
  obtain ⟨row, hrow, rfl, -⟩ := hreturned t i name email user hcall hret
  obtain ⟨row', hrow', rfl, -⟩ := hreturned u j name' email' user' hcall' hret'
  have hsame : row.id = row'.id := by exact_mod_cast Decimal.text_injective hid
  have hnodup : ((insertions c).map fun p => p.2.id).Nodup := by
    have hrows : (c.world.table.rows.map Row.id).Nodup :=
      List.pairwise_map.mpr (c.world.table.sorted.imp fun hlt => Nat.ne_of_lt hlt)
    rwa [rows_eq_insertions hrun, List.map_map] at hrows
  exact hne (congrArg Prod.fst (List.inj_on_of_nodup_map hnodup hrow hrow' hsame))

/-- With two calls in progress at once, of which the second returns first, and a failed one. -/
theorem creations_keep_their_rows_overlapping :
    ∃ c, ServerRun .standard 2 (fun _ _ => True) c ∧
      (replyAt c 16 = some (1, .user ⟨.ascii "2", .ascii "Bob", .ascii "bob@example.com", 8⟩) ∧
        replyAt c 23 = some (0, .user ⟨.ascii "1", .ascii "Ann", .ascii "ann@example.com", 7⟩) ∧
        replyAt c 30 = some (2, .error .internal "create user failed")) ∧
      CreationsKeepTheirRows c := by
  refine exists_run_with (fun _ _ => true)
    (List.flatten
      [[.call (.createUser (.ascii "Ann") (.ascii "ann@example.com")),
        .call (.createUser (.ascii "Bob") (.ascii "bob@example.com")),
        .op 0 .ok, .op 1 .ok, .op 0 (.clock 7), .op 1 (.clock 8), .op 0 .ok, .op 1 .ok,
        .op 0 .ok, .op 1 .ok],
      List.replicate 6 (.op 1 .ok), [.ret 1], List.replicate 6 (.op 0 .ok), [.ret 0],
      whole 2 (.createUser (.ascii "Cid") (.ascii "cid@example.com"))
        [.ok, .clock 9, .ok, .fail, .ok]])
    (fun _ _ _ => trivial) ?_ ?_
  · decide +kernel
  intro c hrun _
  exact creations_keep_their_rows hrun

end HttpServerDemo
