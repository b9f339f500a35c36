import HttpServerDemo.Library.Fields

/-!
# Generated messages

A message carries the proof that its values agree with its has bits, and every function of its class
keeps it. What is serialized has the size that was announced and reads back as a message that says
the same (`parse_serialize`); messages serialized one after the other read back as one merged into
the other (`parse_serialize_all`).
-/

variable {lib : WireLibrary}

/-- A message. Its values agree with its has bits, which `CheckHasBitConsistency` asserts, and no
record that is kept as unknown is one that the parser recognises. -/
structure Message (L : Layout lib) where
  hasBits : UInt32
  values : Values L.fields
  unknownFields : List Record
  cachedSize : Int32
  consistent : Fields.Consistent hasBits L.fields values
  unrecognised : ∀ r ∈ unknownFields, Fields.recognises L.fields r = false

namespace Message

variable {L : Layout lib}

/-- A new message. -/
def new (L : Layout lib) : Message L where
  hasBits := 0
  values := Fields.init L.fields
  unknownFields := []
  cachedSize := 0
  consistent := Fields.consistent_init L.fields
  unrecognised _ h := absurd h List.not_mem_nil

def clear (m : Message L) : Message L where
  hasBits := 0
  values := Fields.clear m.hasBits L.fields m.values
  unknownFields := []
  cachedSize := m.cachedSize
  consistent := Fields.consistent_clear m.consistent
  unrecognised _ h := absurd h List.not_mem_nil

/-- `_InternalSerialize`. The sizes in front of messages in it are those that were cached. -/
def internalSerialize (m : Message L) : Octets :=
  Fields.serialize m.hasBits L.fields m.values ++
    if m.unknownFields.isEmpty then [] else lib.writeUnknownFields m.unknownFields

/-- `ByteSizeLong`: the size, and the message with the sizes cached in it. -/
def byteSizeLong (m : Message L) : Nat × Message L :=
  let sized := Fields.byteSize m.hasBits L.fields m.values
  let total := sized.1 +
    if m.unknownFields.isEmpty then 0 else lib.unknownFieldsSize m.unknownFields
  (total, { m with
    values := sized.2
    cachedSize := Int32.ofNat total
    consistent := Fields.consistent_sized m.consistent })

/-- `MergeImpl`. -/
def mergeImpl (m source : Message L) : Message L where
  hasBits := m.hasBits ||| source.hasBits
  values := Fields.merge source.hasBits L.fields m.values source.values
  unknownFields := m.unknownFields ++ source.unknownFields
  cachedSize := m.cachedSize
  consistent := Fields.consistent_merge m.consistent source.consistent
  unrecognised r h := (List.mem_append.mp h).elim (m.unrecognised r) (source.unrecognised r)

/-- `CopyFrom`, of another message. -/
def copyFrom (m source : Message L) : Message L :=
  m.clear.mergeImpl source

/-- What the copy constructor makes. The cached size is not copied. -/
def copy (m : Message L) : Message L :=
  { m with cachedSize := 0 }

/-- The target of a move assignment, which swaps everything but the cached sizes. -/
def moveFrom (m source : Message L) : Message L :=
  { source with cachedSize := m.cachedSize }

/-- The value of a field. -/
def get {f : MessageField lib} (i : FieldRef L.fields f) (m : Message L) : f.type.Value :=
  i.get m.values

/-- Store a value that goes with a has bit. -/
def set {f : MessageField lib} (i : FieldRef L.fields f) (m : Message L) (v : f.type.Value)
    (hv : f.lawful.Consistent true v) : Message L :=
  { m with
    hasBits := m.hasBits ||| f.mask
    values := i.set v m.values
    consistent := i.consistent_set L.pairwise_masks m.consistent hv }

/-- What the parser does with a record. One that it does not recognise is kept. -/
def mergeRecord (m : Message L) (r : Record) : Option (Message L) :=
  if hr : Fields.recognises L.fields r = true then
    match h : Fields.mergeRecord L.fields r (m.hasBits, m.values) with
    | none => none
    | some (bits, values) => some { m with
        hasBits := bits
        values := values
        consistent := (Fields.consistent_merge_record L.pairwise_masks m.consistent h).1 }
  else some { m with
    unknownFields := m.unknownFields ++ [r]
    unrecognised := fun q hq => (List.mem_append.mp hq).elim (m.unrecognised q) fun hq =>
      List.mem_singleton.mp hq ▸ Bool.eq_false_iff.mpr hr }

/-- `MergeFromString`. -/
def mergeFromString (m : Message L) (s : Octets) : Option (Message L) :=
  (lib.read s).bind fun records => records.foldlM mergeRecord m

/-- `ParseFromString`. -/
def parseFromString (m : Message L) (s : Octets) : Option (Message L) :=
  m.clear.mergeFromString s

/-- `SerializeToString`: messages that an `int` cannot hold the size of are refused. -/
def serializeToString (m : Message L) : Option Octets :=
  if 2 ^ 31 ≤ m.byteSizeLong.1 then none else some m.byteSizeLong.2.internalSerialize

/-- What a message says. -/
def content (m : Message L) : Contents L.fields × List Record :=
  (Fields.content m.hasBits L.fields m.values, m.unknownFields)

/-- The records that are read of what is serialized. -/
def records (m : Message L) : List Record :=
  Fields.records m.hasBits L.fields m.values ++ m.unknownFields

variable {m m' source : Message L}

theorem content_eq (hfields : Fields.content m.hasBits L.fields m.values =
    Fields.content m'.hasBits L.fields m'.values) (hunknown : m.unknownFields = m'.unknownFields) :
    m.content = m'.content := by
  unfold content
  rw [hfields, hunknown]

theorem content_clear (m : Message L) : m.clear.content = (new L).content :=
  content_eq (Fields.content_absent m.clear.consistent) rfl

theorem content_sized (m : Message L) : m.byteSizeLong.2.content = m.content :=
  content_eq (Fields.content_sized m.consistent) rfl

/-- What is serialized after the sizes have been computed has the size that was announced. -/
theorem writes (m : Message L) :
    Writes lib.read m.byteSizeLong.2.internalSerialize m.byteSizeLong.1 m.records := by
  refine WireLibrary.writes_append (Fields.writes m.consistent) ?_
  show Writes lib.read (if m.unknownFields.isEmpty then [] else _)
    (if m.unknownFields.isEmpty then 0 else _) m.unknownFields
  split
  · rename_i hempty
    rw [List.isEmpty_iff.mp hempty]
    exact WireLibrary.writes_nil
  · exact lib.unknownFields m.unknownFields

theorem merge_congr (h : m.content = m'.content) (source : Message L) :
    (m.mergeImpl source).content = (m'.mergeImpl source).content := by
  obtain ⟨hfields, hunknown⟩ := Prod.mk.inj h
  refine content_eq ?_ ?_
  · exact Fields.merge_congr m.consistent m'.consistent source.consistent hfields
  · show m.unknownFields ++ _ = m'.unknownFields ++ _
    rw [hunknown]

/-- Merging into a new message is copying. -/
theorem merge_new (source : Message L) : ((new L).mergeImpl source).content = source.content := by
  refine content_eq ?_ rfl
  show Fields.content (0 ||| source.hasBits) _ _ = _
  rw [UInt32.zero_or]
  exact Fields.merge_init source.consistent

/-- Copying makes a message that says the same, whatever it said before. -/
theorem content_copy_from (m source : Message L) :
    (m.copyFrom source).content = source.content := by
  unfold copyFrom
  rw [merge_congr (content_clear m), merge_new]

/-- Records that the fields take. -/
theorem merge_recognised {records : List Record} {bits : UInt32} {values : Values L.fields}
    (hrecognised : ∀ r ∈ records, Fields.recognises L.fields r = true)
    (h : Fields.mergeRecords L.fields records (m.hasBits, m.values) = some (bits, values)) :
    ∃ m', records.foldlM mergeRecord m = some m' ∧ m'.hasBits = bits ∧ m'.values = values ∧
      m'.unknownFields = m.unknownFields := by
  induction records generalizing m with
  | nil =>
      cases h
      exact ⟨m, rfl, rfl, rfl, rfl⟩
  | cons r records ih =>
      obtain ⟨⟨word, ws⟩, hfirst, hrest⟩ := Option.bind_eq_some_iff.mp h
      have hword : Fields.mergeRecord L.fields r (m.hasBits, m.values) = some (word, ws) := hfirst
      have hstep : ∃ m₁, mergeRecord m r = some m₁ ∧ m₁.hasBits = word ∧ m₁.values = ws ∧
          m₁.unknownFields = m.unknownFields := by
        unfold mergeRecord
        rw [dif_pos (hrecognised r List.mem_cons_self)]
        split
        · rename_i hnone
          rw [hword] at hnone
          cases hnone
        · rename_i word' ws' hsome
          rw [hword] at hsome
          cases hsome
          exact ⟨_, rfl, rfl, rfl, rfl⟩
      obtain ⟨m₁, hm₁, rfl, rfl, hunknown⟩ := hstep
      obtain ⟨m', hm', hbits, hvalues, hunknown'⟩ :=
        ih (fun q hq => hrecognised q (List.mem_cons_of_mem r hq)) hrest
      refine ⟨m', ?_, hbits, hvalues, hunknown'.trans hunknown⟩
      show (mergeRecord m r).bind _ = _
      rw [hm₁]
      exact hm'

/-- Records that no field takes are kept. -/
theorem merge_unrecognised {records : List Record}
    (hunrecognised : ∀ r ∈ records, Fields.recognises L.fields r = false) :
    ∃ m', records.foldlM mergeRecord m = some m' ∧ m'.hasBits = m.hasBits ∧
      m'.values = m.values ∧ m'.unknownFields = m.unknownFields ++ records := by
  induction records generalizing m with
  | nil => exact ⟨m, rfl, rfl, rfl, (List.append_nil _).symm⟩
  | cons r records ih =>
      have hr := hunrecognised r List.mem_cons_self
      have hstep : ∃ m₁, mergeRecord m r = some m₁ ∧ m₁.hasBits = m.hasBits ∧
          m₁.values = m.values ∧ m₁.unknownFields = m.unknownFields ++ [r] := by
        unfold mergeRecord
        rw [dif_neg (by rw [hr]; exact Bool.false_ne_true)]
        exact ⟨_, rfl, rfl, rfl, rfl⟩
      obtain ⟨m₁, hm₁, hbits, hvalues, hunknown⟩ := hstep
      obtain ⟨m', hm', hbits', hvalues', hunknown'⟩ :=
        @ih m₁ fun q hq => hunrecognised q (List.mem_cons_of_mem r hq)
      refine ⟨m', ?_, hbits'.trans hbits, hvalues'.trans hvalues, ?_⟩
      · show (mergeRecord m r).bind _ = _
        rw [hm₁]
        exact hm'
      · rw [hunknown', hunknown, List.append_assoc]
        rfl

/-- Merging in what has been serialized is merging in the message. -/
theorem merges (m : Message L) {source : Message L} (hsize : source.byteSizeLong.1 < 2 ^ 31) :
    ∃ m', m.mergeFromString source.byteSizeLong.2.internalSerialize = some m' ∧
      m'.content = (m.mergeImpl source).content := by
  obtain ⟨bits, values, hfields, hcontent, -⟩ := Fields.merges L.pairwise_numbers
    L.pairwise_masks m.consistent source.consistent (Nat.lt_of_le_of_lt (Nat.le_add_right _ _) hsize)
  obtain ⟨m₁, hm₁, rfl, rfl, hunknown₁⟩ :=
    merge_recognised (fun r hr => Fields.recognises_of_mem hr) hfields
  obtain ⟨m₂, hm₂, hbits₂, hvalues₂, hunknown₂⟩ := @merge_unrecognised _ L m₁ _ source.unrecognised
  refine ⟨m₂, ?_, ?_⟩
  · unfold mergeFromString
    rw [(writes source hsize).2]
    show (Fields.records source.hasBits L.fields source.values ++ source.unknownFields).foldlM
      mergeRecord m = some m₂
    rw [List.foldlM_append, hm₁]
    exact hm₂
  · refine content_eq ?_ ?_
    · rw [hbits₂, hvalues₂]
      exact hcontent
    · rw [hunknown₂, hunknown₁]
      rfl

/-- What has been merged in one after the other. -/
theorem merge_from_append {s t : Octets} {records : List Record} (hs : lib.read s = some records) :
    m.mergeFromString (s ++ t) = (m.mergeFromString s).bind fun m => m.mergeFromString t := by
  unfold mergeFromString
  rw [lib.read_append s t records hs, hs]
  show _ = (records.foldlM mergeRecord m).bind fun m => (lib.read t).bind _
  cases lib.read t with
  | none =>
      show none = (records.foldlM mergeRecord m).bind fun _ => none
      rw [Option.bind_fun_none]
  | some records' =>
      show (records ++ records').foldlM mergeRecord m = _
      rw [List.foldlM_append]
      rfl

/-- What is serialized reads back as a message that says the same. -/
theorem parse_serialize (m : Message L) {s : Octets} (h : source.serializeToString = some s) :
    s.length = source.byteSizeLong.1 ∧
      ∃ m', m.parseFromString s = some m' ∧ m'.content = source.content := by
  unfold serializeToString at h
  split at h
  · cases h
  · rename_i hsize
    have hsize : source.byteSizeLong.1 < 2 ^ 31 := Nat.lt_of_not_le hsize
    cases h
    obtain ⟨m', hm', hcontent⟩ := merges m.clear hsize
    refine ⟨(writes source hsize).1, m', hm', ?_⟩
    rw [hcontent, merge_congr (content_clear m), merge_new]

theorem merge_all_congr {m m' : Message L} (h : m.content = m'.content)
    (sources : List (Message L)) :
    (sources.foldl mergeImpl m).content = (sources.foldl mergeImpl m').content := by
  induction sources generalizing m m' with
  | nil => exact h
  | cons source sources ih => exact ih (merge_congr h source)

/-- Messages serialized one after the other read back as one merged into the other. -/
theorem parse_serialize_all (m : Message L) {sources : List (Message L)} {ss : List Octets}
    (h : List.Forall₂ (fun source s => serializeToString source = some s) sources ss) :
    ∃ m', m.parseFromString ss.flatten = some m' ∧
      m'.content = (sources.foldl mergeImpl (new L)).content := by
  have hmerge : ∀ m : Message L, ∃ m', m.mergeFromString ss.flatten = some m' ∧
      m'.content = (sources.foldl mergeImpl m).content := by
    induction h with
    | nil =>
        intro m
        refine ⟨m, ?_, rfl⟩
        unfold mergeFromString
        rw [List.flatten_nil, lib.read_nil]
        rfl
    | @cons source s sources ss hs _ ih =>
        intro m
        unfold serializeToString at hs
        split at hs
        · cases hs
        · rename_i hsize
          have hsize : source.byteSizeLong.1 < 2 ^ 31 := Nat.lt_of_not_le hsize
          cases hs
          obtain ⟨m₁, hm₁, hcontent₁⟩ := merges m hsize
          obtain ⟨m₂, hm₂, hcontent₂⟩ := ih m₁
          refine ⟨m₂, ?_, hcontent₂.trans (merge_all_congr hcontent₁ sources)⟩
          rw [List.flatten_cons, merge_from_append (writes source hsize).2, hm₁]
          exact hm₂
  obtain ⟨m', hm', hcontent⟩ := hmerge m.clear
  exact ⟨m', hm', hcontent.trans (merge_all_congr (content_clear m) sources)⟩

end Message
