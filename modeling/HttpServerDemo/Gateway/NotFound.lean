import HttpServerDemo.Gateway.UserController
import HttpServerDemo.GrpcServer.Runs

/-!
# What a 404 means

`GetUser` returns `nullopt` for a user who does not exist and also for a query that failed, so a
404 means that the user was absent exactly when the query, if one was made, did not fail
(`not_found_iff_query_answered`). After the cached entry has expired, a failing query makes an
existing user absent (`existing_user_not_found`).
-/

namespace HttpServerDemo

open Interleaving Keyspace

variable {lib : Libraries} {poolSize : Nat} {ok : Server → ServerEvent → Prop} {c : Server}
  {i m t : Nat}

/-- Before instant `i`, a query of call `t` has failed. -/
def QueryFailed (c : Server) (t i : Nat) : Prop :=
  ∃ (n conn : Nat) (q : Query) (ch : Choice) (w : World), n < i ∧
    c.log[n]? = some ⟨.op t (.query conn q) ch none, w⟩

/-- What a `GetUser` that starts at instant `m` and returns at instant `i` owes its caller, all the
way to the HTTP response. -/
structure NotFoundMeansAbsent (lib : Libraries) (c : Server) (t m i : Nat) (id : Text)
    (resp : Response) : Prop where
  /-- NOT_FOUND says that no row matched at some instant of the call, and so at its start. -/
  absent : resp.NotFound → ∃ n, m < n ∧ n < i ∧ ∀ row ∈ rowsAt c n, ¬ row.Matches lib.mysql id
  /-- A failed query is not reported as NOT_FOUND. -/
  reported : QueryFailed c t i → ¬ resp.NotFound
  /-- The client passes NOT_FOUND on as `kNotFound` and the gateway as 404, and nothing else. -/
  passed : ∀ instanceId params (rpc : Text → Outcome) err lastError, rpc id = .handled resp →
    ((GrpcClient.getUser (rpc id) UserServiceImpl.emptyUser err).1 = .kNotFound ↔ resp.NotFound) ∧
    ((UserController.getUser lib.json instanceId (id :: params) rpc err lastError).code =
      .k404NotFound ↔ resp.NotFound)

/-- A `GetUser` whose query has failed answers NOT_FOUND. -/
theorem not_found_of_query_failed (hrun : ServerRun lib poolSize ok c) {id : Text}
    {resp : Response} (hcall : Called c t (.getUser id)) (hret : replyAt c i = some (t, resp))
    (hfailed : QueryFailed c t i) : resp.NotFound := by
  obtain ⟨n, conn, q, ch, w, hni, hn⟩ := hfailed
  have hmem : (⟨.query conn q, none⟩ : Answer Op Op.Res) ∈ own t (c.log.take i) :=
    mem_own (by rw [List.getElem?_take_of_lt hni, hn])
  have hpoint := ret_point_at hrun hret hcall
  rcases hpoint.got with ⟨r, -, hown, -⟩ | ⟨r, g, u, -, hown, -⟩ |
    ⟨r, g, conn', res, hres, hown, hresp⟩ | ⟨r, g, conn', row, rest, s, hown, -⟩
  · rw [hown] at hmem
    simp at hmem
  · rw [hown] at hmem
    simp at hmem
  · exact ⟨_, hresp⟩
  · rw [hown] at hmem
    simp at hmem

/-- A `GetUser` that answers NOT_FOUND has made a query, and it failed or found no row. -/
theorem query_of_not_found (hrun : ServerRun lib poolSize ok c) {id : Text} {resp : Response}
    (hcall : callAt c m = some (t, .getUser id)) (hret : replyAt c i = some (t, resp))
    (hnotFound : resp.NotFound) :
    QueryFailed c t i ∨ ∃ n, m < n ∧ n < i ∧ ∀ row ∈ rowsAt c n, ¬ row.Matches lib.mysql id := by
  obtain ⟨message, rfl⟩ := hnotFound
  -- of the four ways to answer only the one without a user is NOT_FOUND
  obtain ⟨wm, hm⟩ := callAt_eq_some.mp hcall
  have hpoint := ret_point_at hrun hret ⟨m, hcall⟩
  rcases hpoint.got with ⟨r, -, -, hresp⟩ | ⟨r, g, u, -, -, hresp⟩ |
    ⟨r, g, conn, res, hres, hown, -⟩ | ⟨r, g, conn, row, rest, s, -, hresp⟩
  · cases hresp
  · cases hresp
  · have hquery : own t (c.log.take i) =
        [⟨incrOp, r⟩, ⟨getOp (userKey id), g⟩, ⟨.acquire, conn⟩] ++
          ⟨.query conn (.userById id), res⟩ :: [⟨.release conn, ()⟩] := hown
    obtain ⟨n, ch, w, hni, hn, -⟩ := own_at hquery
    rcases hres with rfl | rfl
    · exact .inl ⟨n, conn, _, ch, w, hni, hn⟩
    · refine .inr ⟨n, hrun.call_lt_op hm hn, hni, ?_⟩
      intro row hrow hmatches
      have hempty := query_at hrun hn
      rw [← rowsAt_eq hn] at hempty
      have hfound := mem_select_of_matches hrow hmatches
      rw [← hempty] at hfound
      cases hfound
  · cases hresp

/-- Whatever fails and whatever Redis holds, a `GetUser` meets what it owes exactly when its query,
if it makes one, does not fail. -/
theorem not_found_iff_query_answered (hrun : ServerRun lib poolSize ok c) {id : Text}
    {resp : Response} (hcall : callAt c m = some (t, .getUser id))
    (hret : replyAt c i = some (t, resp)) :
    NotFoundMeansAbsent lib c t m i id resp ↔ ¬ QueryFailed c t i := by
  constructor
  · intro h hfailed
    exact h.reported hfailed (not_found_of_query_failed hrun ⟨m, hcall⟩ hret hfailed)
  · intro hanswered
    refine ⟨?_, fun hfailed => absurd hfailed hanswered, ?_⟩
    · intro hnotFound
      rcases query_of_not_found hrun hcall hret hnotFound with hfailed | habsent
      · exact absurd hfailed hanswered
      · exact habsent
    · intro instanceId params rpc err lastError hrpc
      rw [rpc_not_found_iff, http_not_found_iff, hrpc]
      simp

/-- With an id that no row has. -/
theorem not_found_iff_query_answered_absent :
    ∃ c, ServerRun .standard 1 (fun _ _ => True) c ∧
      (callAt c 12 = some (1, .getUser (.ascii "2")) ∧
        replyAt c 18 = some (1, .error .notFound "user not found") ∧
        ∀ entry ∈ c.log, answered entry.event = true) ∧
      NotFoundMeansAbsent .standard c 1 12 18 (.ascii "2")
        (.error .notFound "user not found") := by
  refine exists_run_with (fun _ _ => true)
    (whole 0 (.createUser (.ascii "Ann") (.ascii "ann@example.com")) (creates 7 0) ++
      whole 1 (.getUser (.ascii "2")) (List.replicate 5 .ok))
    (fun _ _ _ => trivial) (by decide +kernel) ?_
  rintro c hrun ⟨hcall, hret, hanswered⟩
  refine (not_found_iff_query_answered hrun hcall hret).mpr ?_
  rintro ⟨n, conn, q, ch, w, -, hn⟩
  cases hanswered _ (List.mem_of_getElem? hn)

/-- The query of a `GetUser` fails after the cached entry has expired, and the user who was created
before is not found. -/
theorem existing_user_not_found :
    ¬ ∀ c, ServerRun .standard 1 (fun _ _ => True) c → ∀ t m i id resp,
      callAt c m = some (t, .getUser id) → replyAt c i = some (t, resp) →
        NotFoundMeansAbsent .standard c t m i id resp := by
  intro hclaim
  have hplay : ∃ c, ServerRun .standard 1 (fun _ _ => True) c ∧
      callAt c 13 = some (1, .getUser (.ascii "1")) ∧
      replyAt c 19 = some (1, .error .notFound "user not found") ∧
      ∃ row ∈ rowsAt c 13, row.Matches NumericPrefix.standard (.ascii "1") := by
    refine exists_run (fun _ _ => true)
      (whole 0 (.createUser (.ascii "Ann") (.ascii "ann@example.com")) (creates 7 0) ++
        [.env (.expire (Octets.ascii "user:1"))] ++
        whole 1 (.getUser (.ascii "1")) [.ok, .ok, .ok, .fail, .ok])
      (fun _ _ _ => trivial) ?_
    decide +kernel
  obtain ⟨c, hrun, hcall, hret, row, hrow, hmatches⟩ := hplay
  obtain ⟨n, hmn, -, hnone⟩ := (hclaim c hrun 1 13 19 _ _ hcall hret).absent ⟨_, rfl⟩
  exact hnone row ((rowsAt_mono hrun (Nat.le_of_lt hmn)).subset hrow) hmatches

end HttpServerDemo
