import HttpServerDemo.Store.UserRepository

/-!
# What the cache entries and the result rows decode to

A row decodes to its user with name and email cut at their first U+0000. What the repository
stores in Redis passes through C strings unchanged and decodes to what was encoded.
-/

namespace HttpServerDemo

/-- The user that a row is read back as. -/
def readBack (r : Row) : User :=
  rowToUser r.cells

/-- The users that the page query of these rows is read back as. -/
def pageUsers (limit offset : Int32) (rows : List Row) : List User :=
  (slice limit offset rows).map readBack

/-- Reading a row back cuts its texts at their first U+0000 and keeps the rest. -/
theorem readBack_eq (r : Row) :
    readBack r = ⟨Decimal.text r.id, r.name.cStr, r.email.cStr, r.createdAt⟩ := by
  have hid : (Decimal.text r.id).cStr = Decimal.text r.id := (Decimal.nulFree_text _).cStr_eq
  have hcreated : (Decimal.text r.createdAt.toInt).cStr = Decimal.text r.createdAt.toInt :=
    (Decimal.nulFree_text _).cStr_eq
  have hcell : Octets.cStr (Decimal.ofInt r.createdAt.toInt) = Decimal.ofInt r.createdAt.toInt :=
    Octets.cStr_eq_self (Decimal.nul_not_mem_ofInt _)
  simp [readBack, rowToUser, Row.cells, Cells.get, strtoll, hid, hcreated, hcell]

theorem id_readBack (r : Row) : (readBack r).id = Decimal.text r.id := by
  rw [readBack_eq]

/-- A `COUNT(*)` is read back as the number of rows. -/
theorem row_to_count_select (mysql : NumericPrefix) (table : UsersTable) :
    (rowToCount (Query.countUsers.select mysql table.rows)).toInt = table.rows.length := by
  have hlt := table.length_lt
  have hcell : (Decimal.text table.rows.length).cStr = Decimal.text table.rows.length :=
    (Decimal.nulFree_text _).cStr_eq
  have hread : rowToCount (Query.countUsers.select mysql table.rows) =
      Int64.ofInt table.rows.length := by
    simp only [rowToCount, Query.select, Cells.get, List.getD_cons_zero, hcell, strtoll,
      Decimal.bytes_text, Octets.cStr_eq_self (Decimal.nul_not_mem_ofInt _)]
    exact Decimal.strtoll_ofInt (by omega) (by omega)
  rw [hread]
  exact Int64.toInt_ofInt_of_le (by omega) (by omega)

/-- The page query is read back as the page. -/
theorem rows_to_users_select (mysql : NumericPrefix) (limit offset : Int32) (rows : List Row) :
    ((Query.usersPage limit offset).select mysql rows).map rowToUser =
      pageUsers limit offset rows := by
  simp [Query.select, pageUsers, readBack, Function.comp_def]

variable (json : JsonLibrary)

/-- A cached user decodes to the user. -/
theorem decode_user_text (u : User) : decodeUser json (userToJsonString json u) = some u := by
  simp [decodeUser]

theorem push_users_documents (out users : List User) :
    pushUsers out (users.map userToJson) = (out ++ users, true) := by
  induction users generalizing out with
  | nil => simp [pushUsers]
  | cons u users ih =>
      simp only [List.map_cons, pushUsers, json_to_user_user_to_json, ih, List.append_assoc,
        List.singleton_append]

/-- The document of a page is in normal form. -/
theorem normal_page_to_json (total : Int64) (users : List User) :
    (pageToJson total users).Normal := by
  refine Json.normal_object fun f hf => ?_
  simp only [List.mem_cons, List.not_mem_nil, or_false] at hf
  rcases hf with rfl | rfl
  · trivial
  · refine Json.normalItems_iff.mpr fun j hj => ?_
    obtain ⟨u, -, rfl⟩ := List.mem_map.mp hj
    exact normal_user_to_json u

/-- A cached page decodes to its users and total. -/
theorem decode_page_text (total : Int64) (users out : List User) :
    decodePage json (json.dump (pageToJson total users)) out = (users, some total) := by
  have hne : Text.ascii "total" ≠ Text.ascii "users" := by decide
  simp only [decodePage, json.parse_dump _ (normal_page_to_json total users)]
  simp only [pageToJson, Json.object, Json.index, Json.value, List.foldl_cons, List.foldl_nil,
    Json.field_insert_self, Json.field_insert_ne hne, Json.items, push_users_documents,
    List.nil_append, Json.getInt64, if_true]

/-- The text of a page determines its total and its users. -/
theorem page_text_inj {total total' : Int64} {users users' : List User}
    (h : json.dump (pageToJson total users) = json.dump (pageToJson total' users')) :
    total = total' ∧ users = users' := by
  have hdecode := decode_page_text json total users []
  rw [h, decode_page_text] at hdecode
  cases hdecode
  exact ⟨rfl, rfl⟩

/-- A cached page passes through a C string unchanged. -/
theorem cStr_page_text (total : Int64) (users : List User) :
    Octets.cStr (json.dump (pageToJson total users)) = json.dump (pageToJson total users) :=
  Octets.cStr_eq_self (json.nul_not_mem_dump _)

/-- A cached count is read back. -/
theorem strtoll_count_text (total : Int64) : strtoll (Decimal.ofInt total.toInt) = total := by
  rw [strtoll, Octets.cStr_eq_self (Decimal.nul_not_mem_ofInt _), Decimal.strtoll_ofInt64]

end HttpServerDemo
