import HttpServerDemo.Library.Json

/-!
# Users and their JSON documents

The `User` message of `user.proto` and the conversions of `common/json_utils.h`. An exception
thrown by an accessor is `none`. `json_to_user_user_to_json` is the round trip.
-/

namespace HttpServerDemo

/-- `user.v1.User`. -/
@[ext] structure User where
  id : Text
  name : Text
  email : Text
  createdAt : Int64
  deriving DecidableEq

/-- `UserToJson`. -/
def userToJson (u : User) : Json :=
  .object [(.ascii "id", .str u.id), (.ascii "name", .str u.name), (.ascii "email", .str u.email),
    (.ascii "created_at", .int u.createdAt)]

/-- `UserToJsonString`. -/
def userToJsonString (json : JsonLibrary) (u : User) : Octets :=
  json.dump (userToJson u)

/-- `JsonToUser`: a missing field takes its default, a mistyped one throws. -/
def jsonToUser (j : Json) : Option User := do
  let id ← j.value Json.getString (.ascii "id") .empty
  let name ← j.value Json.getString (.ascii "name") .empty
  let email ← j.value Json.getString (.ascii "email") .empty
  let createdAt ← j.value Json.getInt64 (.ascii "created_at") 0
  some { id, name, email, createdAt }

/-- The document of a user is in normal form. -/
theorem normal_user_to_json (u : User) : (userToJson u).Normal := by
  refine Json.normal_object fun f hf => ?_
  simp only [List.mem_cons, List.not_mem_nil, or_false] at hf
  rcases hf with rfl | rfl | rfl | rfl <;> trivial

/-- Decoding the document of a user gives the user. -/
@[simp] theorem json_to_user_user_to_json (u : User) : jsonToUser (userToJson u) = some u := by
  have h1 : Text.ascii "id" ≠ Text.ascii "name" := by decide
  have h2 : Text.ascii "id" ≠ Text.ascii "email" := by decide
  have h3 : Text.ascii "id" ≠ Text.ascii "created_at" := by decide
  have h4 : Text.ascii "name" ≠ Text.ascii "email" := by decide
  have h5 : Text.ascii "name" ≠ Text.ascii "created_at" := by decide
  have h6 : Text.ascii "email" ≠ Text.ascii "created_at" := by decide
  simp only [jsonToUser, userToJson, Json.object, Json.value, List.foldl_cons, List.foldl_nil,
    Json.field_insert_self, Json.field_insert_ne h1, Json.field_insert_ne h2,
    Json.field_insert_ne h3, Json.field_insert_ne h4, Json.field_insert_ne h5,
    Json.field_insert_ne h6, Json.getString, Json.getInt64, Option.bind_eq_bind, Option.bind_some]

/-- The stored text of a user parses to the user's document. -/
@[simp] theorem parse_user_to_json_string (json : JsonLibrary) (u : User) :
    json.parse (userToJsonString json u) = some (userToJson u) :=
  json.parse_dump _ (normal_user_to_json u)

/-- The stored text of a user passes through a C string unchanged. -/
@[simp] theorem cStr_user_to_json_string (json : JsonLibrary) (u : User) :
    Octets.cStr (userToJsonString json u) = userToJsonString json u :=
  Octets.cStr_eq_self (json.nul_not_mem_dump _)

end HttpServerDemo
