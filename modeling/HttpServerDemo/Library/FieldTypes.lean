import Mathlib.Algebra.Order.BigOperators.Group.List
import HttpServerDemo.Library.Messages

/-!
# Types of fields

Singular scalars (`string`, `int64` and `int32` are instances of one definition), singular messages
and repeated messages, each with its laws.
-/

variable {lib : WireLibrary}

namespace FieldType

/-- A singular field of a scalar type, which is not serialized while it has its default. -/
structure Scalar (lib : WireLibrary) where
  Value : Type
  zero : Value
  isZero : Value → Bool
  write : FieldNumber → Value → Octets
  size : Value → Nat
  payload : Value → Payload
  /-- The parser takes payloads of this wire type. -/
  accepts : Payload → Bool
  ofPayload : Payload → Option Value
  writes : ∀ number v, number.val < 16 →
    Writes lib.read (write number v) (size v) [⟨number, payload v⟩]
  accepted : ∀ v, accepts (payload v) = true
  of_payload : ∀ v, ofPayload (payload v) = some v
  eq_zero : ∀ v, isZero v = true → v = zero

namespace Scalar

variable (k : Scalar lib)

def fieldType : FieldType where
  Value := k.Value
  init := k.zero
  clear _ := k.zero
  serialize number v := if k.isZero v then [] else k.write number v
  byteSize v := (if k.isZero v then 0 else k.size v, v)
  merge v w := if k.isZero w then v else w
  accepts := k.accepts
  mergePayload p _ := k.ofPayload p

theorem merge_zero (w : k.Value) : (if k.isZero w then k.zero else w) = w := by
  by_cases hzero : k.isZero w = true
  · rw [if_pos hzero]
    exact (k.eq_zero w hzero).symm
  · rw [if_neg hzero]

/-- A scalar says what it is. Without its has bit it has its default. -/
def lawful : k.fieldType.Lawful lib where
  Content := k.Value
  content _ v := v
  Consistent b v := b = false → v = k.zero
  payloads v := if k.isZero v then [] else [k.payload v]
  consistent_init _ := rfl
  content_absent v h := h rfl
  consistent_clear _ _ _ _ := rfl
  consistent_sized _ h := h
  content_sized _ _ := rfl
  writes number v hnumber _ := by
    show Writes lib.read (if k.isZero v then [] else k.write number v)
      (if k.isZero v then 0 else k.size v) _
    split
    · exact WireLibrary.writes_nil
    · exact k.writes number v hnumber
  accepted v p hp := by
    split at hp
    · cases hp
    · rw [List.mem_singleton.mp hp]
      exact k.accepted v
  consistent_payload _ _ _ _ _ _ h := nomatch h
  consistent_merge _ _ _ _ _ h := nomatch h
  merges b v w _ _ _ := by
    show ∃ b' v', k.fieldType.mergePayloads (if k.isZero w then [] else [k.payload w]) (b, v) =
      some (b', v') ∧ v' = if k.isZero w then v else w
    split
    · exact ⟨b, v, rfl, rfl⟩
    · refine ⟨true, w, ?_, rfl⟩
      show ((k.ofPayload (k.payload w)).map fun v => (true, v)).bind _ = _
      rw [k.of_payload w]
      rfl
  merge_congr _ v _ v' w _ _ _ h := by
    show (if k.isZero w then v else w) = if k.isZero w then v' else w
    rw [h]
  merge_init w _ := k.merge_zero w

/-- With its has bit, a scalar may have any value. -/
theorem consistent_true (v : k.Value) : k.lawful.Consistent true v := by
  intro h
  cases h

end Scalar

/-- `string`. The parser refuses what is not UTF-8. -/
def string (lib : WireLibrary) : Scalar lib where
  Value := Text
  zero := .empty
  isZero v := v.bytes.isEmpty
  write number v := lib.writeString number v.bytes
  size v := 1 + lib.stringSize v.bytes
  payload v := .lengthDelimited v.bytes
  accepts
    | .lengthDelimited _ => true
    | _ => false
  ofPayload
    | .lengthDelimited bytes =>
        if h : Utf8.valid bytes = true then some ⟨bytes, h⟩ else none
    | _ => none
  writes number v h := lib.string number v.bytes h
  accepted _ := rfl
  of_payload v := dif_pos v.valid
  eq_zero _ h := Text.ext (List.isEmpty_iff.mp h)

/-- `int64`. -/
def int64 (lib : WireLibrary) : Scalar lib where
  Value := Int64
  zero := 0
  isZero v := v == 0
  write := lib.writeInt64
  size := lib.int64SizePlusOne
  payload v := .varint v.toUInt64
  accepts
    | .varint _ => true
    | _ => false
  ofPayload
    | .varint v => some v.toInt64
    | _ => none
  writes := lib.int64
  accepted _ := rfl
  of_payload _ := rfl
  eq_zero _ h := eq_of_beq h

/-- `int32`, with its sign extended on the wire. -/
def int32 (lib : WireLibrary) : Scalar lib where
  Value := Int32
  zero := 0
  isZero v := v == 0
  write := lib.writeInt32
  size := lib.int32SizePlusOne
  payload v := .varint v.toInt64.toUInt64
  accepts
    | .varint _ => true
    | _ => false
  ofPayload
    | .varint v => some v.toUInt32.toInt32
    | _ => none
  writes := lib.int32
  accepted _ := rfl
  eq_zero _ h := eq_of_beq h
  of_payload v := by
    refine congrArg some (Int32.toBitVec_inj.mp ?_)
    show (v.toBitVec.signExtend 64).setWidth 32 = v.toBitVec
    refine BitVec.eq_of_getLsbD_eq fun i hi => ?_
    rw [BitVec.getLsbD_setWidth, BitVec.getLsbD_signExtend]
    simp [hi, Nat.lt_trans hi (by decide : 32 < 64)]

variable (L : Layout lib)

/-- A singular field of a message type. -/
def message : FieldType where
  Value := Option (Message L)
  init := none
  clear v := v.map Message.clear
  serialize number v :=
    match v with
    | some m => lib.writeMessage number m.cachedSize m.internalSerialize
    | none => []
  byteSize v :=
    match v with
    | some m => (1 + lib.messageSize m.byteSizeLong.1, some m.byteSizeLong.2)
    | none => (0, none)
  merge v w :=
    match v, w with
    | v, none => v
    | none, some source => some source.copy
    | some m, some source => some (m.mergeImpl source)
  accepts
    | .lengthDelimited _ => true
    | _ => false
  mergePayload p v :=
    match p with
    | .lengthDelimited s => ((v.getD (Message.new L)).mergeFromString s).map some
    | _ => none

/-- A repeated field of a message type. -/
def repeated : FieldType where
  Value := List (Message L)
  init := []
  clear _ := []
  serialize number v :=
    v.flatMap fun m => lib.writeMessage number m.cachedSize m.internalSerialize
  byteSize v :=
    (v.length + (v.map fun m => lib.messageSize m.byteSizeLong.1).sum,
      v.map fun m => m.byteSizeLong.2)
  merge v w := v ++ w.map Message.copy
  accepts
    | .lengthDelimited _ => true
    | _ => false
  mergePayload p v :=
    match p with
    | .lengthDelimited s => ((Message.new L).mergeFromString s).map fun m => v ++ [m]
    | _ => none

variable {L}

/-- A message with its size in front, as the size has been cached. -/
theorem writes_message (number : FieldNumber) (m : Message L) (h : number.val < 16) :
    Writes lib.read
      (lib.writeMessage number m.byteSizeLong.2.cachedSize m.byteSizeLong.2.internalSerialize)
      (1 + lib.messageSize m.byteSizeLong.1)
      [⟨number, .lengthDelimited m.byteSizeLong.2.internalSerialize⟩] := by
  intro hsize
  have hle := lib.le_messageSize m.byteSizeLong.1
  have hlength := (m.writes (by omega)).1
  have hcached : m.byteSizeLong.2.cachedSize =
      Int32.ofNat m.byteSizeLong.2.internalSerialize.length := by
    rw [hlength]
    rfl
  have hwrites := lib.message number m.byteSizeLong.2.internalSerialize h
  rw [hlength] at hwrites
  rw [hcached, hlength]
  exact hwrites hsize

/-- What a message field says: the message, if it has one. -/
def messageContent (b : Bool) (v : Option (Message L)) :
    Option (Contents L.fields × List Record) :=
  if b then v.map Message.content else none

/-- Without its has bit, a message field has no message or one that says nothing. -/
def MessageConsistent (b : Bool) (v : Option (Message L)) : Prop :=
  if b then v.isSome = true else ∀ m ∈ v, m.content = (Message.new L).content

/-- What a message field says is what the message in it says, or a new one. -/
theorem content_getD {b : Bool} {v : Option (Message L)} (h : MessageConsistent b v) :
    (v.getD (Message.new L)).content = (messageContent b v).getD (Message.new L).content := by
  cases b with
  | true =>
      obtain ⟨m, rfl⟩ := Option.isSome_iff_exists.mp h
      rfl
  | false =>
      cases v with
      | none => rfl
      | some m => exact h m rfl

/-- Merging a message in merges it into the message that is there, or into a new one. -/
theorem content_merge_message (v : Option (Message L)) (source : Message L) :
    messageContent true ((message L).merge v (some source)) =
      some ((v.getD (Message.new L)).mergeImpl source).content := by
  cases v with
  | none => exact congrArg some source.merge_new.symm
  | some m => rfl

theorem merges_message (b : Bool) (v : Option (Message L)) {source : Message L}
    (hsize : source.byteSizeLong.1 < 2 ^ 31) :
    ∃ b' v', (message L).mergePayloads
        [.lengthDelimited source.byteSizeLong.2.internalSerialize] (b, v) = some (b', v') ∧
      messageContent b' v' = messageContent true ((message L).merge v (some source)) := by
  obtain ⟨m, hm, hcontent⟩ := Message.merges (v.getD (Message.new L)) hsize
  refine ⟨true, some m, ?_, ?_⟩
  · show ((((v.getD (Message.new L)).mergeFromString _).map some).map _).bind _ = _
    rw [hm]
    rfl
  · rw [content_merge_message, ← hcontent]
    rfl

/-- A singular message field. -/
def messageLawful (L : Layout lib) : (message L).Lawful lib where
  Content := Option (Contents L.fields × List Record)
  content := messageContent
  Consistent := MessageConsistent
  payloads (v : Option (Message L)) :=
    match v with
    | some m => [.lengthDelimited m.byteSizeLong.2.internalSerialize]
    | none => []
  consistent_init := by
    intro m hm
    cases hm
  content_absent _ _ := rfl
  consistent_clear b v h := by
    intro m hm
    obtain ⟨m', -, rfl⟩ := Option.map_eq_some_iff.mp hm
    exact m'.content_clear
  consistent_sized v h := by
    obtain ⟨m, rfl⟩ := Option.isSome_iff_exists.mp h
    rfl
  content_sized v h := by
    obtain ⟨m, rfl⟩ := Option.isSome_iff_exists.mp h
    exact congrArg some m.content_sized
  writes number v hnumber h := by
    obtain ⟨m, rfl⟩ := Option.isSome_iff_exists.mp h
    exact writes_message number m hnumber
  accepted v p hp := by
    match v with
    | some m =>
        rw [List.mem_singleton.mp hp]
        rfl
    | none => cases hp
  consistent_payload b v p v' _ hv := by
    match p with
    | .lengthDelimited s =>
        obtain ⟨m, -, rfl⟩ := Option.map_eq_some_iff.mp hv
        rfl
  consistent_merge b v w _ hw := by
    obtain ⟨source, rfl⟩ := Option.isSome_iff_exists.mp hw
    match v with
    | some m => rfl
    | none => rfl
  merges b v w _ hw hsize := by
    obtain ⟨source, rfl⟩ := Option.isSome_iff_exists.mp hw
    have hle := lib.le_messageSize source.byteSizeLong.1
    have hsize : 1 + lib.messageSize source.byteSizeLong.1 < 2 ^ 31 := hsize
    exact merges_message b v (by omega)
  merge_congr b v b' v' w h h' hw heq := by
    obtain ⟨source, rfl⟩ := Option.isSome_iff_exists.mp hw
    have hsame : (Option.getD v (Message.new L)).content =
        (Option.getD v' (Message.new L)).content := by
      rw [content_getD h, content_getD h', heq]
    calc
      messageContent true ((message L).merge v (some source)) = _ :=
        content_merge_message v source
      _ = some ((Option.getD v' (Message.new L)).mergeImpl source).content :=
        congrArg some (Message.merge_congr hsame source)
      _ = _ := (content_merge_message v' source).symm
  merge_init w hw := by
    obtain ⟨source, rfl⟩ := Option.isSome_iff_exists.mp hw
    rfl

theorem writes_messages (number : FieldNumber) (ms : List (Message L)) (h : number.val < 16) :
    Writes lib.read ((repeated L).serialize number ((repeated L).byteSize ms).2)
      ((repeated L).byteSize ms).1
      ((ms.map fun m => Payload.lengthDelimited m.byteSizeLong.2.internalSerialize).map
        fun p => ⟨number, p⟩) := by
  induction ms with
  | nil => exact WireLibrary.writes_nil
  | cons m ms ih =>
      have hsum : ((repeated L).byteSize (m :: ms)).1 =
          1 + lib.messageSize m.byteSizeLong.1 + ((repeated L).byteSize ms).1 := by
        show ms.length + 1 + (lib.messageSize m.byteSizeLong.1 +
            (ms.map fun m => lib.messageSize m.byteSizeLong.1).sum) =
          1 + lib.messageSize m.byteSizeLong.1 +
            (ms.length + (ms.map fun m => lib.messageSize m.byteSizeLong.1).sum)
        omega
      rw [hsum]
      exact WireLibrary.writes_append (writes_message number m h) ih

theorem merges_messages (b : Bool) (ms : List (Message L)) {sources : List (Message L)}
    (hsize : ∀ source ∈ sources, source.byteSizeLong.1 < 2 ^ 31) :
    ∃ b' ms', (repeated L).mergePayloads (sources.map fun m =>
        .lengthDelimited m.byteSizeLong.2.internalSerialize) (b, ms) = some (b', ms') ∧
      List.map Message.content ms' =
        List.map Message.content ms ++ List.map Message.content sources := by
  induction sources generalizing b ms with
  | nil => exact ⟨b, ms, rfl, (List.append_nil _).symm⟩
  | cons source sources ih =>
      obtain ⟨m, hm, hcontent⟩ :=
        Message.merges (Message.new L) (hsize source List.mem_cons_self)
      obtain ⟨b', ms', hms', hrest⟩ :=
        ih true (ms ++ [m]) fun s hs => hsize s (List.mem_cons_of_mem source hs)
      refine ⟨b', ms', ?_, ?_⟩
      · show ((((Message.new L).mergeFromString _).map fun m => ms ++ [m]).map _).bind _ = _
        rw [hm]
        exact hms'
      · rw [hrest, List.map_append, List.append_assoc]
        refine congrArg (_ ++ ·) ?_
        show m.content :: List.map Message.content sources = source.content :: _
        rw [hcontent, Message.merge_new]

theorem content_sized_messages (ms : List (Message L)) :
    (ms.map fun m => m.byteSizeLong.2).map Message.content = ms.map Message.content := by
  rw [List.map_map]
  exact List.map_congr_left fun m _ => m.content_sized

theorem content_merge_messages (ms sources : List (Message L)) :
    List.map Message.content ((repeated L).merge ms sources) =
      ms.map Message.content ++ sources.map Message.content := by
  show List.map Message.content (ms ++ sources.map Message.copy) = _
  rw [List.map_append, List.map_map]
  rfl

/-- No message of a repeated field is larger than all of them. -/
theorem size_le_repeated {ms : List (Message L)} {m : Message L} (h : m ∈ ms) :
    m.byteSizeLong.1 ≤ ((repeated L).byteSize ms).1 := by
  refine Nat.le_trans (lib.le_messageSize _) (Nat.le_trans ?_ (Nat.le_add_left _ _))
  exact List.le_sum_of_mem (List.mem_map.mpr ⟨m, h, rfl⟩)

/-- A repeated message field. Without its has bit it is empty. -/
def repeatedLawful (L : Layout lib) : (repeated L).Lawful lib where
  Content := List (Contents L.fields × List Record)
  content _ := List.map Message.content
  Consistent b (v : List (Message L)) := b = false → v = []
  payloads := List.map fun m => .lengthDelimited m.byteSizeLong.2.internalSerialize
  consistent_init _ := rfl
  content_absent v h := congrArg (List.map Message.content) (h rfl)
  consistent_clear _ _ _ _ := rfl
  consistent_sized _ _ h := nomatch h
  content_sized v _ := content_sized_messages v
  writes number v hnumber _ := writes_messages number v hnumber
  accepted v p hp := by
    obtain ⟨m, -, rfl⟩ := List.mem_map.mp hp
    rfl
  consistent_payload _ _ _ _ _ _ h := nomatch h
  consistent_merge _ _ _ _ _ h := nomatch h
  merges b v w _ _ hsize := by
    obtain ⟨b', v', hv', hcontent⟩ := merges_messages b v fun source hsource =>
      Nat.lt_of_le_of_lt (size_le_repeated hsource) hsize
    exact ⟨b', v', hv', hcontent.trans (content_merge_messages v w).symm⟩
  merge_congr _ v _ v' w _ _ _ h := by
    calc
      List.map Message.content ((repeated L).merge v w) = _ := content_merge_messages v w
      _ = List.map Message.content v' ++ List.map Message.content w := congrArg (· ++ _) h
      _ = _ := (content_merge_messages v' w).symm
  merge_init w _ := content_merge_messages [] w

end FieldType
