import HttpServerDemo.Cache.ReadYourWrites

/-!
# The id that was asked for

MySQL compares the id of a row with the number at the start of the text that a client sends, and
the user entries are keyed by that text. So `GetUser` returns the user whose id is that number,
and `answers_id_asked_iff` says that this is the id asked for exactly when the text is the decimal
numeral of a natural number, or no row is found. Any other text with such a number at its start
is answered with another user's id (`other_id_answered`).
-/

namespace HttpServerDemo

open Interleaving Keyspace

variable {lib : Libraries} {poolSize : Nat} {ok : Server → ServerEvent → Prop} {c : Server}
  {i t : Nat} {id : Text}

/-- What is under the key of an id matches the id: the key holds the id up to its first NUL, and so
much of it decides the number. -/
theorem matches_of_key {mysql : NumericPrefix} {row : Row} {id' : Text}
    (hkey : Octets.cStr (userKey id) = Octets.cStr (userKey id')) (h : row.Matches mysql id') :
    row.Matches mysql id := by
  rw [cStr_user_key, cStr_user_key] at hkey
  have hid : Octets.cStr id.bytes = Octets.cStr id'.bytes := List.append_cancel_left hkey
  show mysql.toNumber id.bytes = row.id
  rw [← mysql.toNumber_cStr, hid, mysql.toNumber_cStr]
  exact h

/-- The numeral of a row's id matches the row. -/
theorem matches_text (mysql : NumericPrefix) (row : Row) :
    row.Matches mysql (Decimal.text row.id) :=
  mysql.toNumber_ofNat row.id

/-- A user that `GetUser` returns has the id of a row that matches the id asked for. -/
theorem row_of_got_user (hrun : ServerRun lib poolSize ok c) {user : User}
    (hcall : Called c t (.getUser id)) (hret : replyAt c i = some (t, .user user)) :
    ∃ row ∈ rowsAt c i, row.Matches lib.mysql id ∧ user.id = Decimal.text row.id := by
  have hpoint := ret_point_at hrun hret hcall
  generalize hown : own t (c.log.take i) = h at hpoint
  rcases hpoint.got with ⟨r0, -, -, hresp⟩ | ⟨r0, g, u, hhit, rfl, hresp⟩ |
    ⟨r0, g, conn, res, -, -, hresp⟩ | ⟨r0, g, conn, cells, rest, s, rfl, hresp⟩
  · cases hresp
  · -- served from Redis
    cases hresp
    obtain ⟨s, hs, hdecode⟩ := Option.bind_eq_some_iff.mp hhit
    cases RedisClient.stringReply_eq_some hs
    obtain ⟨g, ch, wg, hgi, hg, -⟩ := own_at (hown : _ = [⟨incrOp, r0⟩] ++ _ :: [])
    obtain ⟨c1, d, hrun1, -, hrows, -, -, -, hslot⟩ := hit_at hrun hg hcall
    obtain ⟨v, hv, row, hmem, hsource⟩ := user_entry hrun1 hslot (isUserKey_user_key id)
    cases hv
    rw [← hrows] at hmem
    refine ⟨row, (rowsAt_mono hrun (Nat.le_of_lt hgi)).subset hmem, ?_⟩
    rcases hsource with ⟨hkey, rfl⟩ | ⟨id', hkey, hmatches, rfl⟩
    · rw [decode_user_text] at hdecode
      cases hdecode
      rw [← cStr_user_key_text] at hkey
      exact ⟨matches_of_key hkey (matches_text _ row), rfl⟩
    · rw [decode_user_text] at hdecode
      cases hdecode
      exact ⟨matches_of_key hkey hmatches, id_readBack row⟩
  · cases hresp
  · -- rebuilt from the row
    cases hresp
    obtain ⟨n, ch, wn, hni, hn, -⟩ := own_at
      (hown : _ = [⟨incrOp, r0⟩, ⟨getOp _, g⟩, ⟨.acquire, conn⟩] ++ _ :: _)
    obtain ⟨row, hmem, hmatches, rfl⟩ := row_of_select (query_at hrun hn)
    rw [← rowsAt_eq hn] at hmem
    exact ⟨row, (rowsAt_mono hrun (Nat.le_of_lt hni)).subset hmem, hmatches, id_readBack row⟩

/-- The id is the decimal numeral of a natural number: digits only, without leading zeros. -/
def IsNumeral (id : Text) : Prop :=
  ∃ n : Nat, id = Decimal.text n

/-- The SELECT of call `t`, issued before instant `i`, fails or runs on a table in which no row
matches the id. -/
def SelectsNone (lib : Libraries) (c : Server) (t i : Nat) (id : Text) : Prop :=
  ∃ (n conn : Nat) (ch : Choice) (res : Option ResultSet) (w : World), n < i ∧
    c.log[n]? = some ⟨.op t (.query conn (.userById id)) ch res, w⟩ ∧
    (res = none ∨ ∀ row ∈ rowsAt c n, ¬ row.Matches lib.mysql id)

/-- A numeral is the id of every row that it matches. -/
theorem IsNumeral.id_eq {mysql : NumericPrefix} {row : Row} (hid : IsNumeral id)
    (h : row.Matches mysql id) : id = Decimal.text row.id := by
  obtain ⟨n, rfl⟩ := hid
  rw [h.id_eq (Octets.cStr_eq_self (Decimal.nulFree_text n))]

/-- A call whose SELECT finds no row returns no user. -/
theorem not_user_of_selects_none (hrun : ServerRun lib poolSize ok c) {user : User}
    (hcall : Called c t (.getUser id)) (hret : replyAt c i = some (t, .user user)) :
    ¬ SelectsNone lib c t i id := by
  rintro ⟨n, conn, ch, res, w, hni, hn, hnone⟩
  have hmem : (⟨.query conn (.userById id), res⟩ : Answer Op Op.Res) ∈ own t (c.log.take i) :=
    mem_own (by rw [List.getElem?_take_of_lt hni, hn])
  have hpoint := ret_point_at hrun hret hcall
  rcases hpoint.got with ⟨r0, -, -, hresp⟩ | ⟨r0, g, u, -, hown, -⟩ |
    ⟨r0, g, conn', res', -, -, hresp⟩ | ⟨r0, g, conn', cells, rest, s, hown, -⟩
  · cases hresp
  · rw [hown] at hmem
    simp at hmem
  · cases hresp
  · rw [hown] at hmem
    obtain ⟨rfl, rfl⟩ : conn = conn' ∧ res = some (cells :: rest) := by simpa using hmem
    rcases hnone with hnone | hnone
    · cases hnone
    · obtain ⟨row, hrow, hmatches, -⟩ := row_of_select (query_at hrun hn)
      exact hnone row (rowsAt_eq hn ▸ hrow) hmatches

/-- Whatever Redis and the table hold, a `GetUser` returns no user with another id exactly when the
id it is asked for is a numeral or its SELECT finds no row. -/
theorem answers_id_asked_iff (hrun : ServerRun lib poolSize ok c) (hid : id.bytes ≠ [])
    {resp : Response} (hcall : Called c t (.getUser id)) (hret : replyAt c i = some (t, resp)) :
    (∀ user, resp = .user user → user.id = id) ↔ IsNumeral id ∨ SelectsNone lib c t i id := by
  constructor
  · intro hsame
    have hnumeral : ∀ user, resp = .user user → IsNumeral id := by
      rintro user rfl
      obtain ⟨row, -, -, hrow⟩ := row_of_got_user hrun hcall hret
      exact ⟨row.id, (hsame user rfl).symm.trans hrow⟩
    have hpoint := ret_point_at hrun hret hcall
    rcases hpoint.got with ⟨r0, hempty, -⟩ | ⟨r0, g, u, -, -, hresp⟩ |
      ⟨r0, g, conn, res, hres, hown, -⟩ | ⟨r0, g, conn, cells, rest, s, -, hresp⟩
    · exact absurd hempty hid
    · exact .inl (hnumeral _ hresp)
    · right
      obtain ⟨n, ch, w, hni, hn, -⟩ := own_at
        (hown : _ = [⟨incrOp, r0⟩, ⟨getOp _, g⟩, ⟨.acquire, conn⟩] ++ _ :: _)
      refine ⟨n, conn, ch, res, w, hni, hn, hres.imp_right ?_⟩
      rintro rfl row hrow hmatches
      have hfound := mem_select_of_matches hrow hmatches
      rw [rowsAt_eq hn, ← query_at hrun hn] at hfound
      cases hfound
    · exact .inl (hnumeral _ hresp)
  · rintro (hnumeral | hnone) user rfl
    · obtain ⟨row, -, hmatches, hrow⟩ := row_of_got_user hrun hcall hret
      rw [hrow, ← hnumeral.id_eq hmatches]
    · exact absurd hnone (not_user_of_selects_none hrun hcall hret)

/-- With the numeral of a created user's id. -/
theorem answers_id_asked_iff_created :
    ∃ c, ServerRun .standard 1 (fun _ _ => True) c ∧
      (callAt c 12 = some (1, .getUser (.ascii "1")) ∧
        replyAt c 15 =
          some (1, .user ⟨.ascii "1", .ascii "Ann", .ascii "ann@example.com", 7⟩)) ∧
      ((∀ user, Response.user ⟨.ascii "1", .ascii "Ann", .ascii "ann@example.com", 7⟩ =
          .user user → user.id = .ascii "1") ↔
        IsNumeral (.ascii "1") ∨ SelectsNone .standard c 1 15 (.ascii "1")) := by
  refine exists_run_with (fun _ _ => true)
    (whole 0 (.createUser (.ascii "Ann") (.ascii "ann@example.com")) (creates 7 0) ++
      whole 1 (.getUser (.ascii "1")) (List.replicate 2 .ok))
    (fun _ _ _ => trivial) (by decide +kernel) ?_
  rintro c hrun ⟨hcall, hret⟩
  exact answers_id_asked_iff hrun (by decide) ⟨12, hcall⟩ hret

/-- `GetUser` answers for `1abc` with user 1, because MySQL reads the text as the number 1. -/
theorem other_id_answered :
    ¬ ∀ c, ServerRun .standard 1 (fun _ e => redisOk e = true) c → ∀ t i id resp,
      id.bytes ≠ [] → Called c t (.getUser id) → replyAt c i = some (t, resp) →
        ∀ user, resp = .user user → user.id = id := by
  intro hclaim
  have hplay : ∃ c, ServerRun .standard 1 (fun _ e => redisOk e = true) c ∧
      callAt c 12 = some (1, .getUser (.ascii "1abc")) ∧
      replyAt c 19 =
        some (1, .user ⟨.ascii "1", .ascii "Ann", .ascii "ann@example.com", 7⟩) :=
    exists_run (fun _ e => redisOk e)
      (whole 0 (.createUser (.ascii "Ann") (.ascii "ann@example.com")) (creates 7 0) ++
        whole 1 (.getUser (.ascii "1abc")) (List.replicate 6 .ok))
      (fun _ _ h => h) (by decide +kernel)
  obtain ⟨c, hrun, hcall, hret⟩ := hplay
  have hsame := hclaim c hrun 1 19 _ _ (by decide) ⟨12, hcall⟩ hret _ rfl
  exact absurd hsame (by decide)

end HttpServerDemo
