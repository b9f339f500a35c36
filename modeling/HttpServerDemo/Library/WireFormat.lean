import HttpServerDemo.Library.Varint

/-!
# The wire format of protocol buffers

A message on the wire is a sequence of records, each a field number and a payload of one of four
wire types; groups are left out. `WireLibrary` is what generated code relies on of the runtime:
writers for each type of field, the sizes they announce, and a reader that takes back what has been
written, record by record. `WireLibrary.standard` is the format itself.
-/

/-- The number of a field. -/
abbrev FieldNumber : Type :=
  {n : Nat // 0 < n ∧ n < 2 ^ 29}

/-- What a record holds. -/
inductive Payload where
  | varint (v : UInt64)
  | fixed64 (v : UInt64)
  | lengthDelimited (bytes : Octets)
  | fixed32 (v : UInt32)
  deriving DecidableEq

/-- A record. -/
structure Record where
  number : FieldNumber
  payload : Payload
  deriving DecidableEq

/-- The bytes are as long as announced, and read as the records, if an `int` can hold the size. -/
def Writes (read : Octets → Option (List Record)) (s : Octets) (size : Nat)
    (records : List Record) : Prop :=
  size < 2 ^ 31 → s.length = size ∧ read s = some records

/-- The functions of the runtime. -/
structure WireLibrary where
  writeString : FieldNumber → Octets → Octets
  stringSize : Octets → Nat
  writeInt64 : FieldNumber → Int64 → Octets
  int64SizePlusOne : Int64 → Nat
  writeInt32 : FieldNumber → Int32 → Octets
  int32SizePlusOne : Int32 → Nat
  /-- Write a message, given its cached size and what it serializes to. -/
  writeMessage : FieldNumber → Int32 → Octets → Octets
  /-- The size of a message with its length in front. -/
  messageSize : Nat → Nat
  writeUnknownFields : List Record → Octets
  unknownFieldsSize : List Record → Nat
  /-- The records of a message, or `none` for bytes that are not records. -/
  read : Octets → Option (List Record)
  read_nil : read [] = some []
  read_append : ∀ s t records, read s = some records → read (s ++ t) = (read t).map (records ++ ·)
  string : ∀ number s, number.val < 16 →
    Writes read (writeString number s) (1 + stringSize s) [⟨number, .lengthDelimited s⟩]
  int64 : ∀ number v, number.val < 16 →
    Writes read (writeInt64 number v) (int64SizePlusOne v) [⟨number, .varint v.toUInt64⟩]
  int32 : ∀ number v, number.val < 16 →
    Writes read (writeInt32 number v) (int32SizePlusOne v) [⟨number, .varint v.toInt64.toUInt64⟩]
  message : ∀ number body, number.val < 16 →
    Writes read (writeMessage number (Int32.ofNat body.length) body) (1 + messageSize body.length)
      [⟨number, .lengthDelimited body⟩]
  le_messageSize : ∀ n, n ≤ messageSize n
  unknownFields : ∀ records,
    Writes read (writeUnknownFields records) (unknownFieldsSize records) records

namespace WireLibrary

variable {lib : WireLibrary} {s t : Octets} {m n : Nat} {records records' : List Record}

/-- Nothing is no record. -/
theorem writes_nil : Writes lib.read [] 0 [] :=
  fun _ => ⟨rfl, lib.read_nil⟩

/-- Bytes one after the other read as records one after the other. -/
theorem writes_append (h : Writes lib.read s m records) (h' : Writes lib.read t n records') :
    Writes lib.read (s ++ t) (m + n) (records ++ records') := by
  intro hsize
  obtain ⟨hlength, hread⟩ := h (by omega)
  obtain ⟨hlength', hread'⟩ := h' (by omega)
  refine ⟨?_, ?_⟩
  · rw [List.length_append, hlength, hlength']
  · rw [lib.read_append s t records hread, hread']
    rfl

end WireLibrary

/-! ## Sequences of items -/

namespace Reader

variable {α : Type} {read : Octets → Option (α × Octets)}

/-- What has been read is not empty, and does not depend on what follows. -/
def Local (read : Octets → Option (α × Octets)) : Prop :=
  ∀ s x rest, read s = some (x, rest) →
    rest.length < s.length ∧ ∀ t, read (s ++ t) = some (x, rest ++ t)

/-- Read items, at most `k`, until nothing is left. -/
def readUpTo (read : Octets → Option (α × Octets)) : Nat → Octets → Option (List α)
  | _, [] => some []
  | 0, _ :: _ => none
  | k + 1, b :: s =>
      (read (b :: s)).bind fun item => (readUpTo read k item.2).map (item.1 :: ·)

/-- Read items until nothing is left. -/
def readAll (read : Octets → Option (α × Octets)) (s : Octets) : Option (List α) :=
  readUpTo read s.length s

theorem readUpTo_of_length_le (h : Local read) {k : Nat} {s : Octets} (hk : s.length ≤ k) :
    readUpTo read k s = readAll read s := by
  have hsame : ∀ n k j (s : Octets), s.length ≤ n → s.length ≤ k → s.length ≤ j →
      readUpTo read k s = readUpTo read j s := by
    intro n
    induction n with
    | zero =>
        intro k j s hn _ _
        cases List.eq_nil_of_length_eq_zero (Nat.le_zero.mp hn)
        cases k <;> cases j <;> rfl
    | succ n ih =>
        intro k j s hn hk hj
        cases s with
        | nil => cases k <;> cases j <;> rfl
        | cons b s =>
            obtain ⟨k, rfl⟩ := Nat.exists_eq_succ_of_ne_zero (Nat.ne_of_gt (Nat.lt_of_lt_of_le
              (Nat.succ_pos _) hk))
            obtain ⟨j, rfl⟩ := Nat.exists_eq_succ_of_ne_zero (Nat.ne_of_gt (Nat.lt_of_lt_of_le
              (Nat.succ_pos _) hj))
            show (read (b :: s)).bind _ = (read (b :: s)).bind _
            refine Option.bind_congr fun item hitem => ?_
            obtain ⟨x, rest⟩ := item
            have hshort := (h _ _ _ hitem).1
            show (readUpTo read k rest).map _ = (readUpTo read j rest).map _
            rw [ih k j rest (by omega) (by omega) (by omega)]
  exact hsame k k s.length s hk hk (Nat.le_refl _)

theorem readAll_step (h : Local read) {s rest : Octets} {x : α} (hread : read s = some (x, rest)) :
    readAll read s = (readAll read rest).map (x :: ·) := by
  have hshort := (h _ _ _ hread).1
  cases s with
  | nil => exact absurd hshort (Nat.not_lt_zero _)
  | cons b s =>
      show (read (b :: s)).bind _ = _
      rw [hread]
      show (readUpTo read s.length rest).map _ = _
      rw [readUpTo_of_length_le h (Nat.le_of_lt_succ hshort)]

theorem readAll_append (h : Local read) {items : List α} {s : Octets} (t : Octets)
    (hread : readAll read s = some items) :
    readAll read (s ++ t) = (readAll read t).map (items ++ ·) := by
  induction items generalizing s with
  | nil =>
      cases s with
      | nil =>
          show _ = (readAll read t).map _
          simp
      | cons b s =>
          obtain ⟨⟨x, rest⟩, -, hmap⟩ := Option.bind_eq_some_iff.mp hread
          obtain ⟨tail, -, htail⟩ := Option.map_eq_some_iff.mp hmap
          cases htail
  | cons x items ih =>
      cases s with
      | nil => cases hread
      | cons b s =>
          obtain ⟨⟨x', rest⟩, hx, hmap⟩ := Option.bind_eq_some_iff.mp hread
          have hrest := readAll_step h hx
          rw [hread] at hrest
          obtain ⟨tail, htail, hcons⟩ := Option.map_eq_some_iff.mp hrest.symm
          cases hcons
          rw [readAll_step h ((h _ _ _ hx).2 t), ih htail, Option.map_map]
          rfl

end Reader

/-! ## The format -/

/-- A number in `k` octets, least significant first. -/
def littleEndian : Nat → Nat → Octets
  | 0, _ => []
  | k + 1, n => UInt8.ofNat (n % 256) :: littleEndian k (n / 256)

/-- Read a number of `k` octets. -/
def readLittleEndian : Nat → Octets → Option (Nat × Octets)
  | 0, s => some (0, s)
  | _ + 1, [] => none
  | k + 1, b :: s => (readLittleEndian k s).map fun item => (b.toNat + 256 * item.1, item.2)

theorem read_little_endian {k n : Nat} (hn : n < 256 ^ k) (rest : Octets) :
    readLittleEndian k (littleEndian k n ++ rest) = some (n, rest) := by
  induction k generalizing n with
  | zero =>
      cases Nat.lt_one_iff.mp hn
      rfl
  | succ k ih =>
      have hbyte : (UInt8.ofNat (n % 256)).toNat = n % 256 := by
        rw [UInt8.toNat_ofNat']
        omega
      have hdiv : n / 256 < 256 ^ k := by
        rw [Nat.div_lt_iff_lt_mul (by omega)]
        rwa [Nat.pow_succ] at hn
      show (readLittleEndian k (littleEndian k (n / 256) ++ rest)).map _ = _
      rw [ih hdiv]
      show some ((UInt8.ofNat (n % 256)).toNat + 256 * (n / 256), rest) = some (n, rest)
      have hsum : n % 256 + 256 * (n / 256) = n := by omega
      rw [hbyte, hsum]

theorem length_little_endian (k n : Nat) : (littleEndian k n).length = k := by
  induction k generalizing n with
  | zero => rfl
  | succ k ih => rw [littleEndian, List.length_cons, ih]

theorem read_little_endian_append {k n : Nat} {s rest : Octets}
    (h : readLittleEndian k s = some (n, rest)) :
    rest.length + k = s.length ∧ ∀ t, readLittleEndian k (s ++ t) = some (n, rest ++ t) := by
  induction k generalizing s n with
  | zero =>
      cases h
      exact ⟨rfl, fun t => rfl⟩
  | succ k ih =>
      cases s with
      | nil => cases h
      | cons b s =>
          obtain ⟨⟨m, rest'⟩, hm, hpair⟩ := Option.map_eq_some_iff.mp h
          cases hpair
          obtain ⟨hlength, happend⟩ := ih hm
          refine ⟨?_, fun t => ?_⟩
          · show List.length _ + (k + 1) = s.length + 1
            omega
          · show (readLittleEndian k (s ++ t)).map _ = _
            rw [happend t]
            rfl

namespace Payload

/-- The number of the wire type. -/
def wireType : Payload → Nat
  | varint _ => 0
  | fixed64 _ => 1
  | lengthDelimited _ => 2
  | fixed32 _ => 5

theorem wireType_lt (p : Payload) : p.wireType < 8 := by
  unfold wireType
  split <;> omega

def encode : Payload → Octets
  | varint v => Varint.encode v
  | fixed64 v => littleEndian 8 v.toNat
  | lengthDelimited bytes => Varint.encode (UInt64.ofNat bytes.length) ++ bytes
  | fixed32 v => littleEndian 4 v.toNat

def size : Payload → Nat
  | varint v => Varint.size v
  | fixed64 _ => 8
  | lengthDelimited bytes => Varint.size (UInt64.ofNat bytes.length) + bytes.length
  | fixed32 _ => 4

/-- Read a payload of a wire type. No length is above that of an `int`. -/
def read : Nat → Octets → Option (Payload × Octets)
  | 0, s => (Varint.read s).map fun item => (varint item.1, item.2)
  | 1, s => (readLittleEndian 8 s).map fun item => (fixed64 (UInt64.ofNat item.1), item.2)
  | 2, s => (Varint.read s).bind fun item =>
      if item.1.toNat < 2 ^ 31 ∧ item.1.toNat ≤ item.2.length then
        some (lengthDelimited (item.2.take item.1.toNat), item.2.drop item.1.toNat)
      else none
  | 5, s => (readLittleEndian 4 s).map fun item => (fixed32 (UInt32.ofNat item.1), item.2)
  | _, _ => none

theorem length_encode (p : Payload) : p.encode.length = p.size := by
  cases p with
  | varint v => exact Varint.length_encode v
  | fixed64 v => exact length_little_endian 8 _
  | lengthDelimited bytes =>
      show (Varint.encode _ ++ bytes).length = _
      rw [List.length_append, Varint.length_encode]
      rfl
  | fixed32 v => exact length_little_endian 4 _

theorem read_encode (p : Payload) (hp : p.size < 2 ^ 31) (rest : Octets) :
    read p.wireType (p.encode ++ rest) = some (p, rest) := by
  cases p with
  | varint v =>
      show (Varint.read (Varint.encode v ++ rest)).map _ = _
      rw [Varint.read_encode]
      rfl
  | fixed64 v =>
      show read 1 (littleEndian 8 v.toNat ++ rest) = _
      rw [read, read_little_endian v.toNat_lt]
      show some (fixed64 (UInt64.ofNat v.toNat), rest) = _
      rw [UInt64.ofNat_toNat]
  | lengthDelimited bytes =>
      have hlength : bytes.length < 2 ^ 31 := Nat.lt_of_le_of_lt (Nat.le_add_left _ _) hp
      have hword : (UInt64.ofNat bytes.length).toNat = bytes.length := by
        rw [UInt64.toNat_ofNat']
        omega
      show (Varint.read (Varint.encode (UInt64.ofNat bytes.length) ++ bytes ++ rest)).bind _ = _
      rw [List.append_assoc, Varint.read_encode]
      show (if (UInt64.ofNat bytes.length).toNat < 2 ^ 31 ∧ _ ≤ (bytes ++ rest).length then
        _ else none) = _
      rw [hword, if_pos ⟨hlength, by rw [List.length_append]; omega⟩, List.take_left,
        List.drop_left]
  | fixed32 v =>
      show read 5 (littleEndian 4 v.toNat ++ rest) = _
      rw [read, read_little_endian v.toNat_lt]
      show some (fixed32 (UInt32.ofNat v.toNat), rest) = _
      rw [UInt32.ofNat_toNat]

/-- A payload that has been read does not depend on what follows. -/
theorem read_append {k : Nat} {s rest : Octets} {p : Payload} (h : read k s = some (p, rest)) :
    rest.length ≤ s.length ∧ ∀ t, read k (s ++ t) = some (p, rest ++ t) := by
  unfold read at h
  split at h
  · obtain ⟨⟨v, rest'⟩, hv, hpair⟩ := Option.map_eq_some_iff.mp h
    cases hpair
    obtain ⟨hshort, happend⟩ := Varint.read_append hv
    refine ⟨Nat.le_of_lt hshort, fun t => ?_⟩
    show (Varint.read (s ++ t)).map _ = _
    rw [happend t]
    rfl
  · obtain ⟨⟨n, rest'⟩, hn, hpair⟩ := Option.map_eq_some_iff.mp h
    cases hpair
    obtain ⟨hlength, happend⟩ := read_little_endian_append hn
    refine ⟨Nat.le.intro hlength, fun t => ?_⟩
    show (readLittleEndian 8 (s ++ t)).map _ = _
    rw [happend t]
    rfl
  · obtain ⟨⟨v, tail⟩, hv, hif⟩ := Option.bind_eq_some_iff.mp h
    obtain ⟨hshort, happend⟩ := Varint.read_append hv
    split at hif
    · rename_i hfits
      cases hif
      refine ⟨?_, fun t => ?_⟩
      · show (tail.drop v.toNat).length ≤ s.length
        rw [List.length_drop]
        omega
      · show (Varint.read (s ++ t)).bind _ = _
        rw [happend t]
        show (if v.toNat < 2 ^ 31 ∧ v.toNat ≤ (tail ++ t).length then _ else none) = _
        rw [if_pos ⟨hfits.1, by rw [List.length_append]; exact Nat.le_add_right_of_le hfits.2⟩,
          List.take_append_of_le_length hfits.2, List.drop_append_of_le_length hfits.2]
    · cases hif
  · obtain ⟨⟨n, rest'⟩, hn, hpair⟩ := Option.map_eq_some_iff.mp h
    cases hpair
    obtain ⟨hlength, happend⟩ := read_little_endian_append hn
    refine ⟨Nat.le.intro hlength, fun t => ?_⟩
    show (readLittleEndian 4 (s ++ t)).map _ = _
    rw [happend t]
    rfl
  · cases h

end Payload

namespace Record

/-- The number in front of the payload. -/
def tag (r : Record) : UInt64 :=
  UInt64.ofNat (r.number.val * 8 + r.payload.wireType)

def encode (r : Record) : Octets :=
  Varint.encode r.tag ++ r.payload.encode

def size (r : Record) : Nat :=
  Varint.size r.tag + r.payload.size

/-- Read a record. -/
def read (s : Octets) : Option (Record × Octets) :=
  (Varint.read s).bind fun item =>
    if h : 0 < item.1.toNat / 8 ∧ item.1.toNat / 8 < 2 ^ 29 then
      (Payload.read (item.1.toNat % 8) item.2).map fun payload =>
        (⟨⟨item.1.toNat / 8, h⟩, payload.1⟩, payload.2)
    else none

theorem toNat_tag (r : Record) : r.tag.toNat = r.number.val * 8 + r.payload.wireType := by
  have hnumber := r.number.property.2
  have htype := r.payload.wireType_lt
  unfold tag
  rw [UInt64.toNat_ofNat']
  omega

/-- The tags of the first fifteen fields take one octet. -/
theorem size_tag {r : Record} (h : r.number.val < 16) : Varint.size r.tag = 1 := by
  have htype := r.payload.wireType_lt
  have hpos := r.number.property.1
  have hlog : r.tag.toNat.log2 < 7 := by
    rw [toNat_tag]
    exact (Nat.log2_lt (by omega)).mpr (by omega)
  unfold Varint.size
  omega

theorem length_encode (r : Record) : r.encode.length = r.size := by
  unfold encode size
  rw [List.length_append, Varint.length_encode, Payload.length_encode]

theorem read_encode (r : Record) (hr : r.size < 2 ^ 31) (rest : Octets) :
    read (r.encode ++ rest) = some (r, rest) := by
  have htype := r.payload.wireType_lt
  have hdiv : r.tag.toNat / 8 = r.number.val := by
    rw [toNat_tag]
    omega
  have hmod : r.tag.toNat % 8 = r.payload.wireType := by
    rw [toNat_tag]
    omega
  have hsize : r.payload.size < 2 ^ 31 := by
    unfold size at hr
    omega
  unfold read encode
  rw [List.append_assoc, Varint.read_encode]
  show (if h : 0 < r.tag.toNat / 8 ∧ r.tag.toNat / 8 < 2 ^ 29 then _ else none) = _
  rw [dif_pos (by rw [hdiv]; exact r.number.property)]
  simp only [hdiv, hmod, Payload.read_encode r.payload hsize rest, Option.map_some]

theorem read_local : Reader.Local read := by
  intro s r rest h
  obtain ⟨⟨v, tail⟩, hv, hif⟩ := Option.bind_eq_some_iff.mp h
  obtain ⟨hshort, happend⟩ := Varint.read_append hv
  split at hif
  · rename_i hnumber
    obtain ⟨⟨p, rest'⟩, hp, hpair⟩ := Option.map_eq_some_iff.mp hif
    cases hpair
    obtain ⟨hle, hpayload⟩ := Payload.read_append hp
    refine ⟨Nat.lt_of_le_of_lt hle hshort, fun t => ?_⟩
    unfold read
    rw [happend t]
    show (if h : 0 < v.toNat / 8 ∧ v.toNat / 8 < 2 ^ 29 then _ else none) = _
    rw [dif_pos hnumber]
    show (Payload.read (v.toNat % 8) (tail ++ t)).map _ = _
    rw [hpayload t]
    rfl
  · cases hif

end Record

/-! ## The library -/

namespace WireFormat

/-- Records one after the other. -/
def writeRecords (records : List Record) : Octets :=
  records.flatMap Record.encode

def recordsSize (records : List Record) : Nat :=
  (records.map Record.size).sum

/-- The records of a message. -/
def readRecords (s : Octets) : Option (List Record) :=
  Reader.readAll Record.read s

theorem writes_record (r : Record) : Writes readRecords r.encode r.size [r] := by
  intro hsize
  refine ⟨r.length_encode, ?_⟩
  have hread := r.read_encode hsize []
  rw [List.append_nil] at hread
  unfold readRecords
  rw [Reader.readAll_step Record.read_local hread]
  rfl

/-- A record of one of the first fifteen fields. -/
theorem writes_field (number : FieldNumber) (p : Payload) (h : number.val < 16) :
    Writes readRecords (Record.encode ⟨number, p⟩) (1 + p.size) [⟨number, p⟩] := by
  have hsize : Record.size ⟨number, p⟩ = 1 + p.size := by
    unfold Record.size
    rw [Record.size_tag h]
  exact hsize ▸ writes_record ⟨number, p⟩

theorem writes_records (records : List Record) :
    Writes readRecords (writeRecords records) (recordsSize records) records := by
  induction records with
  | nil => exact fun _ => ⟨rfl, rfl⟩
  | cons r records ih =>
      have hsum : recordsSize (r :: records) = r.size + recordsSize records := rfl
      intro hsize
      rw [hsum] at hsize ⊢
      obtain ⟨hlength, hread⟩ := writes_record r (by omega)
      obtain ⟨hlength', hread'⟩ := ih (by omega)
      refine ⟨?_, ?_⟩
      · show (r.encode ++ writeRecords records).length = _
        rw [List.length_append, hlength, hlength']
      · show Reader.readAll Record.read (r.encode ++ writeRecords records) = _
        rw [Reader.readAll_append Record.read_local _ hread]
        show (readRecords (writeRecords records)).map _ = _
        rw [hread']
        rfl

/-- A message, with its cached size in front. -/
def writeMessage (number : FieldNumber) (cachedSize : Int32) (body : Octets) : Octets :=
  Varint.encode (Record.tag ⟨number, .lengthDelimited body⟩) ++
    (Varint.encode cachedSize.toUInt32.toUInt64 ++ body)

/-- With the right cached size, a message is written as a record. -/
theorem write_message_eq (number : FieldNumber) {body : Octets} (h : body.length < 2 ^ 31) :
    writeMessage number (Int32.ofNat body.length) body =
      Record.encode ⟨number, .lengthDelimited body⟩ := by
  have hword : (Int32.ofNat body.length).toUInt32.toUInt64 = UInt64.ofNat body.length := by
    refine UInt64.toNat_inj.mp ?_
    show (UInt32.ofNat body.length).toUInt64.toNat = _
    rw [UInt32.toNat_toUInt64, UInt32.toNat_ofNat', UInt64.toNat_ofNat']
    omega
  unfold writeMessage
  rw [hword]
  rfl

end WireFormat

open WireFormat in
/-- The runtime after the encoding that protocol buffers document. -/
def WireLibrary.standard : WireLibrary where
  writeString number s := Record.encode ⟨number, .lengthDelimited s⟩
  stringSize s := Payload.size (.lengthDelimited s)
  writeInt64 number v := Record.encode ⟨number, .varint v.toUInt64⟩
  int64SizePlusOne v := 1 + Payload.size (.varint v.toUInt64)
  writeInt32 number v := Record.encode ⟨number, .varint v.toInt64.toUInt64⟩
  int32SizePlusOne v := 1 + Payload.size (.varint v.toInt64.toUInt64)
  writeMessage := WireFormat.writeMessage
  messageSize n := Varint.size (UInt64.ofNat n) + n
  writeUnknownFields := writeRecords
  unknownFieldsSize := recordsSize
  read := readRecords
  read_nil := rfl
  read_append _ t _ h := Reader.readAll_append Record.read_local t h
  string number s h := writes_field number (.lengthDelimited s) h
  int64 number v h := writes_field number (.varint v.toUInt64) h
  int32 number v h := writes_field number (.varint v.toInt64.toUInt64) h
  message number body h := by
    intro hsize
    rw [write_message_eq number (by omega)]
    exact writes_field number (.lengthDelimited body) h hsize
  le_messageSize n := Nat.le_add_left _ _
  unknownFields := writes_records
