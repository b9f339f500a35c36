import HttpServerDemo.Library.JsonText
import HttpServerDemo.Library.Sequential
import HttpServerDemo.Store.Codec
import HttpServerDemo.Store.ControlFlow

/-!
# Which damaged cache entries are served

The decoders work by defaults: a field that is missing is filled in, and only a text that does not
parse, a root of the wrong type and a mistyped field are noticed. `ReadableUser` and `ReadablePage`
describe the documents that pass, `damaged_entry_iff` says for each of the three reads which
entries are served, and `empty_object_served` serves an entry that nothing has stored.
-/

namespace HttpServerDemo

open Interleaving Keyspace

variable {α : Type} {json : JsonLibrary}

/-! ## What the repository stores -/

/-- The text reads as the document of a user. -/
def StoredUser (json : JsonLibrary) (s : Octets) : Prop :=
  ∃ u, json.parse s = some (userToJson u)

/-- The text reads as the document of a page. -/
def StoredPage (json : JsonLibrary) (s : Octets) : Prop :=
  ∃ total users, json.parse s = some (pageToJson total users)

/-- The text is the numeral of a count. -/
def StoredCount (s : Octets) : Prop :=
  ∃ n : Int64, s = Decimal.ofInt n.toInt

/-! ## What the decoders let pass -/

/-- A string. -/
def IsString (j : Json) : Prop :=
  ∃ s, j = .str s

/-- A number. -/
def IsNumber (j : Json) : Prop :=
  (∃ n, j = .int n) ∨ (∃ n, j = .uint n) ∨ ∃ n, j = .float n

/-- The field is missing or its value is as required. -/
def OptionalField (key : Text) (P : Json → Prop) (fields : Json.Fields) : Prop :=
  ∀ v, Json.field key fields = some v → P v

/-- An object in which no field of a user is mistyped. -/
def ReadableUser (j : Json) : Prop :=
  ∃ fields, j = .obj fields ∧ OptionalField (.ascii "id") IsString fields ∧
    OptionalField (.ascii "name") IsString fields ∧ OptionalField (.ascii "email") IsString fields ∧
    OptionalField (.ascii "created_at") IsNumber fields

/-- A null, an array of readable users, or an object with readable users for values. -/
def ReadableUsers (j : Json) : Prop :=
  j = .null ∨ (∃ items, j = .arr items ∧ ∀ u ∈ items, ReadableUser u) ∨
    ∃ fields, j = .obj fields ∧ ∀ f ∈ fields, ReadableUser f.2

/-- A null, or an object in which neither field of a page is mistyped. -/
def ReadablePage (j : Json) : Prop :=
  j = .null ∨ ∃ fields, j = .obj fields ∧ OptionalField (.ascii "users") ReadableUsers fields ∧
    OptionalField (.ascii "total") IsNumber fields

/-- A text that parses to such a document. -/
def Reads (json : JsonLibrary) (P : Json → Prop) (s : Octets) : Prop :=
  ∃ j, json.parse s = some j ∧ P j

theorem isSome_getString (j : Json) : (Json.getString j).isSome ↔ IsString j := by
  cases j <;> simp [Json.getString, IsString]

theorem isSome_getInt64 (j : Json) : (Json.getInt64 j).isSome ↔ IsNumber j := by
  cases j <;> simp [Json.getInt64, IsNumber]

/-- A field is read unless it is there and its value is refused. -/
theorem isSome_value {get : Json → Option α} {P : Json → Prop} (hget : ∀ j, (get j).isSome ↔ P j)
    (key : Text) (default : α) (fields : Json.Fields) :
    (Json.value get key default (.obj fields)).isSome ↔ OptionalField key P fields := by
  cases hfield : Json.field key fields with
  | none => simp [Json.value, OptionalField, hfield]
  | some v => simp [Json.value, OptionalField, hfield, hget]

/-- `JsonToUser` throws unless the document is a readable user. -/
theorem isSome_jsonToUser {j : Json} : (jsonToUser j).isSome ↔ ReadableUser j := by
  cases j with
  | obj fields =>
      have hid := isSome_value isSome_getString (.ascii "id") Text.empty fields
      have hname := isSome_value isSome_getString (.ascii "name") Text.empty fields
      have hemail := isSome_value isSome_getString (.ascii "email") Text.empty fields
      have hcreated := isSome_value isSome_getInt64 (.ascii "created_at") 0 fields
      simp only [ReadableUser, Json.obj.injEq, exists_eq_left', ← hid, ← hname, ← hemail,
        ← hcreated]
      rw [jsonToUser]
      -- each of the four reads throws or gives its value
      cases Json.value Json.getString (.ascii "id") Text.empty (.obj fields) <;>
        cases Json.value Json.getString (.ascii "name") Text.empty (.obj fields) <;>
        cases Json.value Json.getString (.ascii "email") Text.empty (.obj fields) <;>
        cases Json.value Json.getInt64 (.ascii "created_at") 0 (.obj fields) <;>
        simp
  | null | bool | int | uint | float | str | arr =>
      simp [jsonToUser, Json.value, ReadableUser]

/-- The loop of the hit path runs to its end unless an element is refused. -/
theorem pushUsers_done {items : List Json} {out : List User} :
    (pushUsers out items).2 = true ↔ ∀ j ∈ items, ReadableUser j := by
  induction items generalizing out with
  | nil => simp [pushUsers]
  | cons j items ih =>
      cases hj : jsonToUser j with
      | none =>
          have : ¬ ReadableUser j := fun h => by simp [← isSome_jsonToUser, hj] at h
          simp [pushUsers, hj, this]
      | some u =>
          have : ReadableUser j := isSome_jsonToUser.mp (by simp [hj])
          simp [pushUsers, hj, this, ih]

/-- What the loop visits is readable when the element under `users` is. -/
theorem readable_items {j : Json} : (∀ u ∈ j.items, ReadableUser u) ↔ ReadableUsers j := by
  cases j with
  | obj fields =>
      simp only [Json.items, ReadableUsers, List.forall_mem_map]
      simp
  | null | arr => simp [Json.items, ReadableUsers]
  | bool | int | uint | float | str => simp [Json.items, ReadableUsers, ReadableUser]

/-- The lookup of `users` in an object inserts a null, which the loop accepts, and leaves `total`
alone. -/
theorem index_users (fields : Json.Fields) :
    ∃ users fields', Json.index (.ascii "users") (.obj fields) = some (users, .obj fields') ∧
      (ReadableUsers users ↔ OptionalField (.ascii "users") ReadableUsers fields) ∧
      Json.field (.ascii "total") fields' = Json.field (.ascii "total") fields := by
  cases husers : Json.field (.ascii "users") fields with
  | none =>
      refine ⟨.null, _, by rw [Json.index, husers], ?_, Json.field_insert_ne (by decide) _ _⟩
      simp [OptionalField, husers, ReadableUsers]
  | some v =>
      refine ⟨v, fields, by rw [Json.index, husers], ?_, rfl⟩
      simp [OptionalField, husers]

/-- The `try` block of `ListUsers` throws unless the text reads as a page. -/
theorem isSome_decodePage {s : Octets} (out : List User) :
    (decodePage json s out).2.isSome ↔ Reads json ReadablePage s := by
  rw [decodePage, Reads]
  cases json.parse s with
  | none => simp
  | some j =>
      cases j with
      | obj fields =>
          obtain ⟨users, fields', hindex, husers, htotal⟩ := index_users fields
          have hvalue := isSome_value isSome_getInt64 (.ascii "total") 0 fields'
          have hdone : (pushUsers [] users.items).2 = true ↔ ∀ j ∈ users.items, ReadableUser j :=
            pushUsers_done
          rw [readable_items, husers] at hdone
          rw [OptionalField, htotal, ← OptionalField] at hvalue
          simp only [Option.some.injEq, exists_eq_left', ReadablePage, reduceCtorEq, false_or,
            Json.obj.injEq, hindex, ← hdone, ← hvalue]
          cases (pushUsers [] users.items).2 <;> simp
      | null =>
          have hne : Text.ascii "total" ≠ Text.ascii "users" := by decide
          simp [Json.index, Json.items, pushUsers, Json.value, Json.field, hne, ReadablePage]
      | bool | int | uint | float | str | arr => simp [Json.index, ReadablePage]

/-- The `try` block of `GetUser` throws unless the text reads as a user. -/
theorem isSome_decodeUser {s : Octets} :
    (decodeUser json s).isSome ↔ Reads json ReadableUser s := by
  rw [decodeUser, Reads]
  cases json.parse s with
  | none => simp
  | some j => simp [isSome_jsonToUser]

/-! ## What is served -/

/-- A program that reads the key first goes on after this string as after a missing key. -/
def ServedAsMiss (p : Prog α) (key s : Octets) : Prop :=
  ∃ k, p = .op (getOp key) k ∧ k (some (.string s)) = k (some .nil)

theorem servedAsMiss_op {key s : Octets} {k : Option Reply → Prog α} :
    ServedAsMiss (.op (getOp key) k) key s ↔ k (some (.string s)) = k (some .nil) := by
  constructor
  · rintro ⟨k', hk, h⟩
    cases hk
    exact h
  · intro h
    exact ⟨k, rfl, h⟩

/-- `GetUser` goes back to the database exactly for the texts that do not read as a user. -/
theorem get_user_served_as_miss {id : Text} {s : Octets} :
    ServedAsMiss (getUser json id) (userKey id) s ↔ ¬ Reads json ReadableUser s := by
  rw [get_user_eq, servedAsMiss_op, ← isSome_decodeUser]
  simp only [RedisClient.stringReply, Option.bind_some, Option.bind_none]
  cases decodeUser json s with
  | none => simp
  | some u => simp

/-- What `ListUsers` returns: its output parameters when it succeeds. -/
def outputs : Bool × List User × Int64 → Option (List User × Int64)
  | (true, users, total) => some (users, total)
  | (false, _, _) => none

/-- `ListUsers` goes back to the database exactly for the texts that do not read as a page. -/
theorem list_users_served_as_miss {limit offset : Int32} {out : List User} {total : Int64}
    {s : Octets} :
    ServedAsMiss (listUsers json limit offset out total >>= fun r => pure (outputs r))
      (listCacheKey limit offset) s ↔ ¬ Reads json ReadablePage s := by
  rw [list_users_eq, Program.op_bind, servedAsMiss_op, ← isSome_decodePage out]
  cases hpage : (decodePage json s out).2 with
  | none =>
      simp only [triedPage, RedisClient.stringReply, Option.map_some, Option.map_none,
        Option.getD_some, Option.getD_none, hpage, Option.isSome_none, Bool.false_eq_true,
        not_false_eq_true, iff_true]
      -- what the damaged entry left in the vector is returned only by a failure
      refine congrArg (Program.op _) (funext fun conn => congrArg (Program.op _) ?_)
      funext count
      cases count with
      | none => rfl
      | some count =>
          refine congrArg (Program.op _) (funext fun rows => ?_)
          cases rows <;> rfl
  | some n => simp [triedPage, RedisClient.stringReply, hpage]

/-- `GetStats` never goes back to the database when there is an entry. -/
theorem get_stats_served_as_miss {totalUsers requestCount : Int64} {s : Octets} :
    ¬ ServedAsMiss (getStats totalUsers requestCount) totalUsersKey s := by
  rw [get_stats_eq, servedAsMiss_op]
  simp [RedisClient.stringReply]

/-- An entry that the repository would not store is treated as missing by `GetUser` and `ListUsers`
exactly when the decoder refuses it, and by `GetStats` never. -/
theorem damaged_entry_iff (json : JsonLibrary) (id : Text) (limit offset : Int32)
    (out : List User) (total totalUsers requestCount : Int64) (s : Octets) :
    ((¬ StoredUser json s → ServedAsMiss (getUser json id) (userKey id) s) ↔
      StoredUser json s ∨ ¬ Reads json ReadableUser s) ∧
    ((¬ StoredPage json s →
        ServedAsMiss (listUsers json limit offset out total >>= fun r => pure (outputs r))
          (listCacheKey limit offset) s) ↔
      StoredPage json s ∨ ¬ Reads json ReadablePage s) ∧
    ((¬ StoredCount s → ServedAsMiss (getStats totalUsers requestCount) totalUsersKey s) ↔
      StoredCount s) := by
  rw [get_user_served_as_miss, list_users_served_as_miss]
  refine ⟨by tauto, by tauto, fun h => ?_, fun h hs => absurd h hs⟩
  by_contra hs
  exact get_stats_served_as_miss (h hs)

/-- The object `{}` is served as the user with empty fields, where the database has no user at
all. -/
theorem empty_object_served :
    ¬ StoredUser JsonText.rfc8259 (Octets.ascii "{}") ∧
    (getUser JsonText.rfc8259 (.ascii "1")).alone (exec NumericPrefix.standard) [.ok]
        { World.initial 1 with
          keyspace := Keyspace.empty.put (userKey (.ascii "1"))
            ⟨.string (Octets.ascii "{}"), none⟩ } =
      some (some ⟨.empty, .empty, .empty, 0⟩,
        { World.initial 1 with
          keyspace := Keyspace.empty.put (userKey (.ascii "1"))
            ⟨.string (Octets.ascii "{}"), none⟩ }) ∧
    ((getUser JsonText.rfc8259 (.ascii "1")).alone (exec NumericPrefix.standard)
        [.ok, .ok, .ok, .ok] (World.initial 1)).map Prod.fst = some none := by
  refine ⟨?_, ?_, ?_⟩
  · rintro ⟨u, hu⟩
    have hparse : JsonText.rfc8259.parse (Octets.ascii "{}") = some (.obj []) := by rfl
    rw [hparse] at hu
    cases hu
  · rfl
  · rfl

end HttpServerDemo
