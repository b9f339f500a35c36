import HttpServerDemo.Library.FieldTypes

/-!
# The messages of `user.v1`

The nine messages of `generated/user/v1/user.pb.cc`, each the table of its fields: number, has bit,
the has bits that make `Clear` reset it, and type. The functions of a message are those of its
table.
-/

namespace HttpServerDemo.Proto

open FieldType

variable (lib : WireLibrary)

/-- A singular scalar field. -/
def scalarField (number : Nat) (mask : UInt32) (clearMask : Option UInt32) (k : Scalar lib)
    (hnumber : 0 < number ∧ number < 16 := by decide) (hmask : mask ≠ 0 := by decide)
    (hclear : clearMask.all (fun all => mask &&& all == mask) = true := by decide) :
    MessageField lib where
  number := ⟨number, hnumber.1, Nat.lt_trans hnumber.2 (by decide)⟩
  mask := mask
  clearMask := clearMask
  type := k.fieldType
  lawful := k.lawful
  number_lt := hnumber.2
  mask_ne := hmask
  clear_covers := hclear

/-- The field of a reply with one message in it. -/
def messageField (L : Layout lib) : MessageField lib where
  number := ⟨1, by decide⟩
  mask := 0x1
  clearMask := some 0x1
  type := FieldType.message L
  lawful := FieldType.messageLawful L
  number_lt := by decide
  mask_ne := by decide
  clear_covers := by decide

/-- The field of a reply with a list of messages in it. -/
def repeatedField (L : Layout lib) : MessageField lib where
  number := ⟨1, by decide⟩
  mask := 0x1
  clearMask := some 0x1
  type := FieldType.repeated L
  lawful := FieldType.repeatedLawful L
  number_lt := by decide
  mask_ne := by decide
  clear_covers := by decide

/-- The fields of `User`. `Clear` resets `created_at` whether or not its has bit is set. -/
def User.layout : Layout lib where
  fields := [scalarField lib 1 0x1 (some 0x1) (string lib),
    scalarField lib 2 0x2 (some 0x2) (string lib),
    scalarField lib 3 0x4 (some 0x4) (string lib),
    scalarField lib 4 0x8 none (int64 lib)]
  numbers := (by decide : List.Pairwise (fun m n => n ≠ m) [1, 2, 3, 4])
  masks := (by decide : List.Pairwise (fun m n : UInt32 => n &&& m = 0) [0x1, 0x2, 0x4, 0x8])

def CreateUserRequest.layout : Layout lib where
  fields := [scalarField lib 1 0x1 (some 0x1) (string lib),
    scalarField lib 2 0x2 (some 0x2) (string lib)]
  numbers := (by decide : List.Pairwise (fun m n => n ≠ m) [1, 2])
  masks := (by decide : List.Pairwise (fun m n : UInt32 => n &&& m = 0) [0x1, 0x2])

/-- A reply with one user, as `CreateUserReply` and `GetUserReply` are. -/
def userReply : Layout lib where
  fields := [messageField lib (User.layout lib)]
  numbers := (by decide : List.Pairwise (fun m n => n ≠ m) [1])
  masks := (by decide : List.Pairwise (fun m n : UInt32 => n &&& m = 0) [0x1])

def CreateUserReply.layout : Layout lib :=
  userReply lib

def GetUserRequest.layout : Layout lib where
  fields := [scalarField lib 1 0x1 (some 0x1) (string lib)]
  numbers := (by decide : List.Pairwise (fun m n => n ≠ m) [1])
  masks := (by decide : List.Pairwise (fun m n : UInt32 => n &&& m = 0) [0x1])

def GetUserReply.layout : Layout lib :=
  userReply lib

/-- The fields of `ListUsersRequest`. `Clear` resets both if either has bit is set. -/
def ListUsersRequest.layout : Layout lib where
  fields := [scalarField lib 1 0x1 (some 0x3) (int32 lib),
    scalarField lib 2 0x2 (some 0x3) (int32 lib)]
  numbers := (by decide : List.Pairwise (fun m n => n ≠ m) [1, 2])
  masks := (by decide : List.Pairwise (fun m n : UInt32 => n &&& m = 0) [0x1, 0x2])

def ListUsersReply.layout : Layout lib where
  fields := [repeatedField lib (User.layout lib), scalarField lib 2 0x2 none (int64 lib)]
  numbers := (by decide : List.Pairwise (fun m n => n ≠ m) [1, 2])
  masks := (by decide : List.Pairwise (fun m n : UInt32 => n &&& m = 0) [0x1, 0x2])

def GetStatsRequest.layout : Layout lib where
  fields := []
  numbers := List.Pairwise.nil
  masks := List.Pairwise.nil

/-- The fields of `GetStatsReply`. `Clear` resets both if either has bit is set. -/
def GetStatsReply.layout : Layout lib where
  fields := [scalarField lib 1 0x1 (some 0x3) (int64 lib),
    scalarField lib 2 0x2 (some 0x3) (int64 lib)]
  numbers := (by decide : List.Pairwise (fun m n => n ≠ m) [1, 2])
  masks := (by decide : List.Pairwise (fun m n : UInt32 => n &&& m = 0) [0x1, 0x2])

abbrev User : Type := Message (User.layout lib)
abbrev CreateUserRequest : Type := Message (CreateUserRequest.layout lib)
abbrev CreateUserReply : Type := Message (CreateUserReply.layout lib)
abbrev GetUserRequest : Type := Message (GetUserRequest.layout lib)
abbrev GetUserReply : Type := Message (GetUserReply.layout lib)
abbrev ListUsersRequest : Type := Message (ListUsersRequest.layout lib)
abbrev ListUsersReply : Type := Message (ListUsersReply.layout lib)
abbrev GetStatsRequest : Type := Message (GetStatsRequest.layout lib)
abbrev GetStatsReply : Type := Message (GetStatsReply.layout lib)

/-- The messages of the file. -/
inductive MessageType where
  | user
  | createUserRequest
  | createUserReply
  | getUserRequest
  | getUserReply
  | listUsersRequest
  | listUsersReply
  | getStatsRequest
  | getStatsReply

def MessageType.layout : MessageType → Layout lib
  | user => User.layout lib
  | createUserRequest => CreateUserRequest.layout lib
  | createUserReply => CreateUserReply.layout lib
  | getUserRequest => GetUserRequest.layout lib
  | getUserReply => GetUserReply.layout lib
  | listUsersRequest => ListUsersRequest.layout lib
  | listUsersReply => ListUsersReply.layout lib
  | getStatsRequest => GetStatsRequest.layout lib
  | getStatsReply => GetStatsReply.layout lib

/-! ## Accessors -/

variable {lib}

namespace User

def new : User lib := Message.new _

def id (m : User lib) : Text := m.get .here
def name (m : User lib) : Text := m.get (.there .here)
def email (m : User lib) : Text := m.get (.there (.there .here))
def createdAt (m : User lib) : Int64 := m.get (.there (.there (.there .here)))

def setId (m : User lib) (v : Text) : User lib :=
  m.set .here v ((string lib).consistent_true v)

def setName (m : User lib) (v : Text) : User lib :=
  m.set (.there .here) v ((string lib).consistent_true v)

def setEmail (m : User lib) (v : Text) : User lib :=
  m.set (.there (.there .here)) v ((string lib).consistent_true v)

def setCreatedAt (m : User lib) (v : Int64) : User lib :=
  m.set (.there (.there (.there .here))) v ((int64 lib).consistent_true v)

end User

namespace CreateUserRequest

def new : CreateUserRequest lib := Message.new _

def name (m : CreateUserRequest lib) : Text := m.get .here
def email (m : CreateUserRequest lib) : Text := m.get (.there .here)

def setName (m : CreateUserRequest lib) (v : Text) : CreateUserRequest lib :=
  m.set .here v ((string lib).consistent_true v)

def setEmail (m : CreateUserRequest lib) (v : Text) : CreateUserRequest lib :=
  m.set (.there .here) v ((string lib).consistent_true v)

end CreateUserRequest

/-- `user()` of a reply: its user, or the default instance. -/
def userReply.user (m : Message (userReply lib)) : User lib :=
  Option.getD (m.get .here) User.new

/-- `mutable_user()` of a reply, with what becomes of the user. -/
def userReply.mutableUser (m : Message (userReply lib)) (change : User lib → User lib) :
    Message (userReply lib) :=
  m.set .here (some (change (user m))) (Eq.refl true)

def CreateUserReply.new : CreateUserReply lib := Message.new _

def CreateUserReply.user (m : CreateUserReply lib) : User lib :=
  userReply.user m

def CreateUserReply.mutableUser (m : CreateUserReply lib) (change : User lib → User lib) :
    CreateUserReply lib :=
  userReply.mutableUser m change

namespace GetUserRequest

def new : GetUserRequest lib := Message.new _

def id (m : GetUserRequest lib) : Text := m.get .here

def setId (m : GetUserRequest lib) (v : Text) : GetUserRequest lib :=
  m.set .here v ((string lib).consistent_true v)

end GetUserRequest

def GetUserReply.new : GetUserReply lib := Message.new _

def GetUserReply.user (m : GetUserReply lib) : User lib :=
  userReply.user m

def GetUserReply.mutableUser (m : GetUserReply lib) (change : User lib → User lib) :
    GetUserReply lib :=
  userReply.mutableUser m change

namespace ListUsersRequest

def new : ListUsersRequest lib := Message.new _

def limit (m : ListUsersRequest lib) : Int32 := m.get .here
def offset (m : ListUsersRequest lib) : Int32 := m.get (.there .here)

def setLimit (m : ListUsersRequest lib) (v : Int32) : ListUsersRequest lib :=
  m.set .here v ((int32 lib).consistent_true v)

def setOffset (m : ListUsersRequest lib) (v : Int32) : ListUsersRequest lib :=
  m.set (.there .here) v ((int32 lib).consistent_true v)

end ListUsersRequest

namespace ListUsersReply

def new : ListUsersReply lib := Message.new _

def users (m : ListUsersReply lib) : List (User lib) := m.get .here
def total (m : ListUsersReply lib) : Int64 := m.get (.there .here)

/-- `add_users()`, with what becomes of the new user. -/
def addUsers (m : ListUsersReply lib) (change : User lib → User lib) : ListUsersReply lib :=
  m.set .here (users m ++ [change User.new]) fun h => Bool.noConfusion h

def setTotal (m : ListUsersReply lib) (v : Int64) : ListUsersReply lib :=
  m.set (.there .here) v ((int64 lib).consistent_true v)

end ListUsersReply

namespace GetStatsReply

def new : GetStatsReply lib := Message.new _

def totalUsers (m : GetStatsReply lib) : Int64 := m.get .here
def requestCount (m : GetStatsReply lib) : Int64 := m.get (.there .here)

def setTotalUsers (m : GetStatsReply lib) (v : Int64) : GetStatsReply lib :=
  m.set .here v ((int64 lib).consistent_true v)

def setRequestCount (m : GetStatsReply lib) (v : Int64) : GetStatsReply lib :=
  m.set (.there .here) v ((int64 lib).consistent_true v)

end GetStatsReply

def GetStatsRequest.new : GetStatsRequest lib := Message.new _

/-! ## On the wire -/

/-- What messages of a type serialize to has the sizes that were announced, and reads back, one
after the other and into whatever message it is parsed, as a message that says what they say when
one is merged into the other. -/
theorem messages_round_trip (t : MessageType) (m : Message (t.layout lib))
    {ms : List (Message (t.layout lib))} {ss : List Octets}
    (h : List.Forall₂ (fun source s => source.serializeToString = some s) ms ss) :
    List.Forall₂ (fun source s => s.length = source.byteSizeLong.1) ms ss ∧
      ∃ m', m.parseFromString ss.flatten = some m' ∧
        m'.content = (ms.foldl Message.mergeImpl (Message.new (t.layout lib))).content :=
  ⟨h.imp fun _ _ hs => (Message.parse_serialize m hs).1, Message.parse_serialize_all m h⟩

/-- Users that say the same have the same values. -/
theorem User.values_eq {m m' : User lib} (h : m.content = m'.content) :
    m.id = m'.id ∧ m.name = m'.name ∧ m.email = m'.email ∧ m.createdAt = m'.createdAt := by
  have hvalues : m.values = m'.values := congrArg Prod.fst h
  unfold id name email createdAt Message.get
  rw [hvalues]
  exact ⟨rfl, rfl, rfl, rfl⟩

/-- With two users, the second of which has another name and no id. -/
theorem messages_round_trip_users :
    ∃ m' : User .standard, User.new.parseFromString
        [10, 1, 49, 18, 3, 65, 110, 110, 32, 7, 18, 2, 66, 111, 26, 1, 98] = some m' ∧
      m'.id = .ascii "1" ∧ m'.name = .ascii "Bo" ∧ m'.email = .ascii "b" ∧ m'.createdAt = 7 := by
  have hserialized : List.Forall₂ (fun (source : User .standard) s =>
      source.serializeToString = some s)
      [((User.new.setId (.ascii "1")).setName (.ascii "Ann")).setCreatedAt 7,
        (User.new.setName (.ascii "Bo")).setEmail (.ascii "b")]
      [[10, 1, 49, 18, 3, 65, 110, 110, 32, 7], [18, 2, 66, 111, 26, 1, 98]] := by
    refine .cons ?_ (.cons ?_ .nil)
    · decide +kernel
    · decide +kernel
  obtain ⟨-, m', hparse, hcontent⟩ := messages_round_trip .user User.new hserialized
  exact ⟨m', hparse, User.values_eq hcontent⟩

end HttpServerDemo.Proto
