import HttpServerDemo.Library.WireFormat

/-!
# The fields of generated messages

What the generated code of a message does runs through the table of its fields, and does with each
what its type says if its has bit is set. `FieldType` is what it does with a field,
`FieldType.Lawful` what this amounts to: what a value says (`content`), when it agrees with its has
bit, and that what is serialized has the size that was announced and says the same when it is
merged in. The laws of the fields, one by one, give those of all fields of a message; the last is
`Fields.merges`.
-/

/-! ## Has bits -/

/-- The bit is set. -/
def checkHasBit (bits mask : UInt32) : Bool :=
  bits &&& mask != 0

theorem check_zero (mask : UInt32) : checkHasBit 0 mask = false := by
  unfold checkHasBit
  rw [UInt32.zero_and]
  rfl

theorem check_or (bits bits' mask : UInt32) :
    checkHasBit (bits ||| bits') mask = (checkHasBit bits mask || checkHasBit bits' mask) := by
  have hdistrib : (bits ||| bits') &&& mask = bits &&& mask ||| bits' &&& mask :=
    UInt32.toBitVec_inj.mp BitVec.and_or_distrib_right
  unfold checkHasBit
  rw [hdistrib, Bool.eq_iff_iff]
  simp only [bne_iff_ne, Bool.or_eq_true, ne_eq, UInt32.or_eq_zero_iff, not_and_or]

/-- A bit that is set is set. -/
theorem check_set (bits : UInt32) {mask : UInt32} (h : mask ≠ 0) :
    checkHasBit (bits ||| mask) mask = true := by
  rw [check_or]
  unfold checkHasBit
  rw [UInt32.and_self, Bool.or_eq_true]
  exact .inr (bne_iff_ne.mpr h)

/-- Setting a bit leaves the others. -/
theorem check_set_ne (bits : UInt32) {mask mask' : UInt32} (h : mask &&& mask' = 0) :
    checkHasBit (bits ||| mask) mask' = checkHasBit bits mask' := by
  rw [check_or]
  unfold checkHasBit
  rw [h]
  exact Bool.or_false _

/-- Where none of several bits is set, no one of them is. -/
theorem check_of_covers {bits mask all : UInt32} (h : mask &&& all = mask)
    (hall : checkHasBit bits all = false) : checkHasBit bits mask = false := by
  unfold checkHasBit at hall ⊢
  rw [bne_eq_false_iff_eq] at hall ⊢
  rw [← h, UInt32.and_comm mask, ← UInt32.and_assoc, hall, UInt32.zero_and]

/-! ## Fields -/

/-- What generated code does with a field of some type. -/
structure FieldType where
  Value : Type
  /-- The value in a new message. -/
  init : Value
  clear : Value → Value
  serialize : FieldNumber → Value → Octets
  /-- The size of what is serialized, and the value with the sizes cached in it. -/
  byteSize : Value → Nat × Value
  merge : Value → Value → Value
  /-- The parser takes a payload of this wire type for the field. -/
  accepts : Payload → Bool
  mergePayload : Payload → Value → Option Value

/-- Payloads for one field, one after the other; the parser sets its has bit. -/
def FieldType.mergePayloads (T : FieldType) (payloads : List Payload) (slot : Bool × T.Value) :
    Option (Bool × T.Value) :=
  payloads.foldlM (fun slot p => (T.mergePayload p slot.2).map fun v => (true, v)) slot

/-- What the functions of a field type amount to. -/
structure FieldType.Lawful (lib : WireLibrary) (T : FieldType) where
  Content : Type
  /-- What a value says, given its has bit. -/
  content : Bool → T.Value → Content
  /-- A value agrees with its has bit. -/
  Consistent : Bool → T.Value → Prop
  /-- What the parser reads of what is serialized. -/
  payloads : T.Value → List Payload
  consistent_init : Consistent false T.init
  content_absent : ∀ v, Consistent false v → content false v = content false T.init
  consistent_clear : ∀ b v, Consistent b v → Consistent false (T.clear v)
  consistent_sized : ∀ v, Consistent true v → Consistent true (T.byteSize v).2
  content_sized : ∀ v, Consistent true v → content true (T.byteSize v).2 = content true v
  writes : ∀ number v, number.val < 16 → Consistent true v →
    Writes lib.read (T.serialize number (T.byteSize v).2) (T.byteSize v).1
      ((payloads v).map fun p => ⟨number, p⟩)
  accepted : ∀ v, ∀ p ∈ payloads v, T.accepts p = true
  consistent_payload : ∀ b v p v', Consistent b v → T.mergePayload p v = some v' →
    Consistent true v'
  consistent_merge : ∀ b v w, Consistent b v → Consistent true w → Consistent true (T.merge v w)
  merges : ∀ b v w, Consistent b v → Consistent true w → (T.byteSize w).1 < 2 ^ 31 →
    ∃ b' v', T.mergePayloads (payloads w) (b, v) = some (b', v') ∧
      content b' v' = content true (T.merge v w)
  merge_congr : ∀ b v b' v' w, Consistent b v → Consistent b' v' → Consistent true w →
    content b v = content b' v' → content true (T.merge v w) = content true (T.merge v' w)
  merge_init : ∀ w, Consistent true w → content true (T.merge T.init w) = content true w

/-- A field: its number, its has bit, which has bits make `Clear` reset it (it is always reset
where there are none), and its type. -/
structure MessageField (lib : WireLibrary) where
  number : FieldNumber
  mask : UInt32
  clearMask : Option UInt32
  type : FieldType
  lawful : type.Lawful lib
  number_lt : number.val < 16
  mask_ne : mask ≠ 0
  clear_covers : clearMask.all (fun all => mask &&& all == mask) = true

variable {lib : WireLibrary}

namespace MessageField

variable (f : MessageField lib)

/-! ### One field of a message with these has bits -/

def clear (bits : UInt32) (v : f.type.Value) : f.type.Value :=
  if f.clearMask.all (checkHasBit bits) then f.type.clear v else v

def serialize (bits : UInt32) (v : f.type.Value) : Octets :=
  if checkHasBit bits f.mask then f.type.serialize f.number v else []

def byteSize (bits : UInt32) (v : f.type.Value) : Nat × f.type.Value :=
  if checkHasBit bits f.mask then f.type.byteSize v else (0, v)

/-- Merge in the field of a message with these has bits. -/
def merge (bits : UInt32) (v w : f.type.Value) : f.type.Value :=
  if checkHasBit bits f.mask then f.type.merge v w else v

/-- The parser takes the record for the field. -/
def recognises (r : Record) : Bool :=
  r.number == f.number && f.type.accepts r.payload

def content (bits : UInt32) (v : f.type.Value) : f.lawful.Content :=
  f.lawful.content (checkHasBit bits f.mask) v

def Consistent (bits : UInt32) (v : f.type.Value) : Prop :=
  f.lawful.Consistent (checkHasBit bits f.mask) v

/-- The records that are read of what is serialized. -/
def records (bits : UInt32) (v : f.type.Value) : List Record :=
  if checkHasBit bits f.mask then (f.lawful.payloads v).map fun p => ⟨f.number, p⟩ else []

variable {f : MessageField lib} {bits bits' word word' : UInt32} {v v' w : f.type.Value}

theorem consistent_init : f.Consistent 0 f.type.init := by
  unfold Consistent
  rw [check_zero]
  exact f.lawful.consistent_init

theorem content_absent (h : f.Consistent 0 v) : f.content 0 v = f.content 0 f.type.init := by
  unfold Consistent at h
  unfold content
  rw [check_zero] at h ⊢
  exact f.lawful.content_absent v h

theorem consistent_clear (h : f.Consistent bits v) : f.Consistent 0 (f.clear bits v) := by
  unfold Consistent at h ⊢
  rw [check_zero]
  unfold clear
  split
  · exact f.lawful.consistent_clear _ _ h
  · -- none of the has bits that make `Clear` reset the field is set, so its own is not
    rename_i hkept
    have habsent : checkHasBit bits f.mask = false := by
      cases hclear : f.clearMask with
      | none => exact absurd (by rw [hclear]; rfl) hkept
      | some all =>
          have hcovers := f.clear_covers
          rw [hclear] at hkept hcovers
          exact check_of_covers (eq_of_beq hcovers) (Bool.eq_false_iff.mpr hkept)
    exact habsent ▸ h

theorem consistent_sized (h : f.Consistent bits v) : f.Consistent bits (f.byteSize bits v).2 := by
  unfold Consistent at h ⊢
  unfold byteSize
  cases hbit : checkHasBit bits f.mask with
  | false =>
      rw [hbit] at h
      exact h
  | true => exact f.lawful.consistent_sized v (hbit ▸ h)

theorem content_sized (h : f.Consistent bits v) :
    f.content bits (f.byteSize bits v).2 = f.content bits v := by
  unfold Consistent at h
  unfold content byteSize
  cases hbit : checkHasBit bits f.mask with
  | false => rfl
  | true => exact f.lawful.content_sized v (hbit ▸ h)

theorem writes (h : f.Consistent bits v) :
    Writes lib.read (f.serialize bits (f.byteSize bits v).2) (f.byteSize bits v).1
      (f.records bits v) := by
  unfold Consistent at h
  unfold serialize byteSize records
  cases hbit : checkHasBit bits f.mask with
  | false => exact WireLibrary.writes_nil
  | true => exact f.lawful.writes f.number v f.number_lt (hbit ▸ h)

theorem recognises_of_mem {r : Record} (h : r ∈ f.records bits v) : f.recognises r = true := by
  unfold records at h
  split at h
  · obtain ⟨p, hp, rfl⟩ := List.mem_map.mp h
    unfold recognises
    rw [f.lawful.accepted v p hp, Bool.and_true]
    exact beq_self_eq_true f.number
  · cases h

theorem consistent_merge (h : f.Consistent word v) (h' : f.Consistent bits w) :
    f.Consistent (word ||| bits) (f.merge bits v w) := by
  unfold Consistent at h h' ⊢
  unfold merge
  rw [check_or]
  cases hbit : checkHasBit bits f.mask with
  | false =>
      rw [Bool.or_false]
      exact h
  | true =>
      rw [Bool.or_true]
      exact f.lawful.consistent_merge _ v w h (hbit ▸ h')

theorem merge_congr (h : f.Consistent word v) (h' : f.Consistent word' v')
    (hw : f.Consistent bits w) (heq : f.content word v = f.content word' v') :
    f.content (word ||| bits) (f.merge bits v w) =
      f.content (word' ||| bits) (f.merge bits v' w) := by
  unfold Consistent at h h' hw
  unfold content at heq ⊢
  unfold merge
  rw [check_or, check_or]
  cases hbit : checkHasBit bits f.mask with
  | false =>
      rw [Bool.or_false, Bool.or_false]
      exact heq
  | true =>
      rw [Bool.or_true, Bool.or_true]
      exact f.lawful.merge_congr _ v _ v' w h h' (hbit ▸ hw) heq

theorem merge_init (hw : f.Consistent bits w) :
    f.content bits (f.merge bits f.type.init w) = f.content bits w := by
  unfold Consistent at hw
  unfold content merge
  cases hbit : checkHasBit bits f.mask with
  | false => exact (f.lawful.content_absent w (hbit ▸ hw)).symm
  | true => exact f.lawful.merge_init w (hbit ▸ hw)

end MessageField

/-- The fields of a message. -/
structure Layout (lib : WireLibrary) where
  fields : List (MessageField lib)
  numbers : (fields.map fun f => f.number.val).Pairwise fun m n => n ≠ m
  masks : (fields.map fun f => f.mask).Pairwise fun m n => n &&& m = 0

theorem Layout.pairwise_numbers (L : Layout lib) :
    L.fields.Pairwise fun f g => g.number ≠ f.number :=
  (List.pairwise_map.mp L.numbers).imp fun hne heq => hne (congrArg Subtype.val heq)

theorem Layout.pairwise_masks (L : Layout lib) :
    L.fields.Pairwise fun f g => g.mask &&& f.mask = 0 :=
  List.pairwise_map.mp L.masks

/-- A value for each field. -/
@[reducible] def Values : List (MessageField lib) → Type
  | [] => Unit
  | f :: fs => f.type.Value × Values fs

/-- What the values of fields say. -/
@[reducible] def Contents : List (MessageField lib) → Type
  | [] => Unit
  | f :: fs => f.lawful.Content × Contents fs

namespace Fields

/-! ### All fields of a message -/

/-- The values in a new message. -/
def init : (fs : List (MessageField lib)) → Values fs
  | [] => ()
  | f :: fs => (f.type.init, init fs)

def clear (bits : UInt32) : (fs : List (MessageField lib)) → Values fs → Values fs
  | [], _ => ()
  | f :: fs, vs => (f.clear bits vs.1, clear bits fs vs.2)

def serialize (bits : UInt32) : (fs : List (MessageField lib)) → Values fs → Octets
  | [], _ => []
  | f :: fs, vs => f.serialize bits vs.1 ++ serialize bits fs vs.2

def byteSize (bits : UInt32) : (fs : List (MessageField lib)) → Values fs → Nat × Values fs
  | [], _ => (0, ())
  | f :: fs, vs =>
      ((f.byteSize bits vs.1).1 + (byteSize bits fs vs.2).1,
        ((f.byteSize bits vs.1).2, (byteSize bits fs vs.2).2))

def merge (bits : UInt32) : (fs : List (MessageField lib)) → Values fs → Values fs → Values fs
  | [], _, _ => ()
  | f :: fs, vs, ws => (f.merge bits vs.1 ws.1, merge bits fs vs.2 ws.2)

/-- The parser finds the field of a record. -/
def recognises (fs : List (MessageField lib)) (r : Record) : Bool :=
  fs.any fun f => f.recognises r

/-- What the parser does with a record: the payload goes to the field of its number. -/
def mergeRecord : (fs : List (MessageField lib)) → Record → UInt32 × Values fs →
    Option (UInt32 × Values fs)
  | [], _, s => some s
  | f :: fs, r, s =>
      if f.recognises r then
        (f.type.mergePayload r.payload s.2.1).map fun v => (s.1 ||| f.mask, (v, s.2.2))
      else (mergeRecord fs r (s.1, s.2.2)).map fun rest => (rest.1, (s.2.1, rest.2))

/-- Records, one after the other. -/
def mergeRecords (fs : List (MessageField lib)) (records : List Record)
    (s : UInt32 × Values fs) : Option (UInt32 × Values fs) :=
  records.foldlM (fun s r => mergeRecord fs r s) s

/-- What the values say. -/
def content (bits : UInt32) : (fs : List (MessageField lib)) → Values fs → Contents fs
  | [], _ => ()
  | f :: fs, vs => (f.content bits vs.1, content bits fs vs.2)

/-- The values agree with the has bits. -/
def Consistent (bits : UInt32) : (fs : List (MessageField lib)) → Values fs → Prop
  | [], _ => True
  | f :: fs, vs => f.Consistent bits vs.1 ∧ Consistent bits fs vs.2

/-- The records that are read of what is serialized. -/
def records (bits : UInt32) : (fs : List (MessageField lib)) → Values fs → List Record
  | [], _ => []
  | f :: fs, vs => f.records bits vs.1 ++ records bits fs vs.2

/-- Two words have the same has bits for the fields. -/
def SameBits (bits bits' : UInt32) (fs : List (MessageField lib)) : Prop :=
  ∀ f ∈ fs, checkHasBit bits f.mask = checkHasBit bits' f.mask

variable {fs : List (MessageField lib)} {f : MessageField lib} {bits bits' word word' : UInt32}

theorem SameBits.head (h : SameBits bits bits' (f :: fs)) :
    checkHasBit bits f.mask = checkHasBit bits' f.mask :=
  h f List.mem_cons_self

theorem SameBits.tail (h : SameBits bits bits' (f :: fs)) : SameBits bits bits' fs :=
  fun g hg => h g (List.mem_cons_of_mem f hg)

theorem content_congr (h : SameBits bits bits' fs) (vs : Values fs) :
    content bits fs vs = content bits' fs vs := by
  induction fs with
  | nil => rfl
  | cons f fs ih =>
      unfold content MessageField.content
      rw [h.head, ih h.tail]

theorem consistent_congr (h : SameBits bits bits' fs) {vs : Values fs}
    (hvs : Consistent bits fs vs) : Consistent bits' fs vs := by
  induction fs with
  | nil => trivial
  | cons f fs ih =>
      refine ⟨?_, ih h.tail hvs.2⟩
      have hhead := hvs.1
      unfold MessageField.Consistent at hhead ⊢
      exact h.head ▸ hhead

theorem consistent_init (fs : List (MessageField lib)) : Consistent 0 fs (init fs) := by
  induction fs with
  | nil => trivial
  | cons f fs ih => exact ⟨f.consistent_init, ih⟩

theorem consistent_clear {vs : Values fs} (h : Consistent bits fs vs) :
    Consistent 0 fs (clear bits fs vs) := by
  induction fs with
  | nil => trivial
  | cons f fs ih => exact ⟨MessageField.consistent_clear h.1, ih h.2⟩

/-- Values that agree with no has bit say nothing. -/
theorem content_absent {vs : Values fs} (h : Consistent 0 fs vs) :
    content 0 fs vs = content 0 fs (init fs) := by
  induction fs with
  | nil => rfl
  | cons f fs ih =>
      unfold content
      rw [MessageField.content_absent h.1, ih h.2]
      rfl

theorem consistent_sized {vs : Values fs} (h : Consistent bits fs vs) :
    Consistent bits fs (byteSize bits fs vs).2 := by
  induction fs with
  | nil => trivial
  | cons f fs ih => exact ⟨MessageField.consistent_sized h.1, ih h.2⟩

theorem content_sized {vs : Values fs} (h : Consistent bits fs vs) :
    content bits fs (byteSize bits fs vs).2 = content bits fs vs := by
  induction fs with
  | nil => rfl
  | cons f fs ih =>
      show (f.content bits (f.byteSize bits vs.1).2,
        content bits fs (byteSize bits fs vs.2).2) = _
      rw [MessageField.content_sized h.1, ih h.2]
      rfl

/-- What is serialized after the sizes have been computed has the size that was announced. -/
theorem writes {vs : Values fs} (h : Consistent bits fs vs) :
    Writes lib.read (serialize bits fs (byteSize bits fs vs).2) (byteSize bits fs vs).1
      (records bits fs vs) := by
  induction fs with
  | nil => exact WireLibrary.writes_nil
  | cons f fs ih => exact WireLibrary.writes_append (MessageField.writes h.1) (ih h.2)

theorem consistent_merge {vs ws : Values fs} (h : Consistent word fs vs)
    (h' : Consistent bits fs ws) : Consistent (word ||| bits) fs (merge bits fs vs ws) := by
  induction fs with
  | nil => trivial
  | cons f fs ih => exact ⟨MessageField.consistent_merge h.1 h'.1, ih h.2 h'.2⟩

/-- Merging into messages that say the same gives messages that say the same. -/
theorem merge_congr {vs vs' ws : Values fs} (h : Consistent word fs vs)
    (h' : Consistent word' fs vs') (hw : Consistent bits fs ws)
    (heq : content word fs vs = content word' fs vs') :
    content (word ||| bits) fs (merge bits fs vs ws) =
      content (word' ||| bits) fs (merge bits fs vs' ws) := by
  induction fs with
  | nil => rfl
  | cons f fs ih =>
      obtain ⟨hhead, htail⟩ := Prod.mk.inj heq
      unfold content merge
      rw [MessageField.merge_congr h.1 h'.1 hw.1 hhead, ih h.2 h'.2 hw.2 htail]

/-- Merging into a new message is copying. -/
theorem merge_init {ws : Values fs} (hw : Consistent bits fs ws) :
    content bits fs (merge bits fs (init fs) ws) = content bits fs ws := by
  induction fs with
  | nil => rfl
  | cons f fs ih =>
      unfold content merge init
      rw [MessageField.merge_init hw.1, ih hw.2]

theorem recognises_of_mem {vs : Values fs} {r : Record} (h : r ∈ records bits fs vs) :
    recognises fs r = true := by
  induction fs with
  | nil => cases h
  | cons f fs ih =>
      unfold recognises
      rw [List.any_cons, Bool.or_eq_true]
      rcases List.mem_append.mp h with hhead | htail
      · exact .inl (MessageField.recognises_of_mem hhead)
      · exact .inr (ih htail)

/-! ### The parser -/

/-- What merging a record in does to the field that takes it, and to none else. -/
theorem merge_record_head {r : Record} {v v' : f.type.Value} {vs : Values fs}
    (hr : f.recognises r = true) (hv : f.type.mergePayload r.payload v = some v') :
    mergeRecord (f :: fs) r (bits, (v, vs)) = some (bits ||| f.mask, (v', vs)) := by
  unfold mergeRecord
  rw [if_pos hr, hv]
  rfl

theorem merge_record_tail {r : Record} {v : f.type.Value} {vs vs' : Values fs}
    (hr : f.recognises r = false) (hvs : mergeRecord fs r (bits, vs) = some (bits', vs')) :
    mergeRecord (f :: fs) r (bits, (v, vs)) = some (bits', (v, vs')) := by
  unfold mergeRecord
  rw [hr, if_neg Bool.false_ne_true, hvs]
  rfl

/-- A record leaves the values consistent, and the has bits of other fields as they are. -/
theorem consistent_merge_record {r : Record} {vs vs' : Values fs}
    (hmasks : fs.Pairwise fun f g => g.mask &&& f.mask = 0) (h : Consistent bits fs vs)
    (hvs : mergeRecord fs r (bits, vs) = some (bits', vs')) :
    Consistent bits' fs vs' ∧
      ∀ mask, (∀ f ∈ fs, f.mask &&& mask = 0) → checkHasBit bits' mask = checkHasBit bits mask := by
  induction fs generalizing bits' with
  | nil =>
      cases hvs
      exact ⟨trivial, fun mask hmask => rfl⟩
  | cons f fs ih =>
      obtain ⟨hdisjoint, hmasks⟩ := List.pairwise_cons.mp hmasks
      unfold mergeRecord at hvs
      split at hvs
      · obtain ⟨v, hv, hpair⟩ := Option.map_eq_some_iff.mp hvs
        cases hpair
        refine ⟨⟨?_, ?_⟩, ?_⟩
        · unfold MessageField.Consistent
          rw [check_set bits f.mask_ne]
          exact f.lawful.consistent_payload _ _ _ _ h.1 hv
        · refine consistent_congr (fun g hg => ?_) h.2
          refine (check_set_ne bits ?_).symm
          rw [UInt32.and_comm]
          exact hdisjoint g hg
        · exact fun mask hmask => check_set_ne bits (hmask f List.mem_cons_self)
      · obtain ⟨⟨word, ws⟩, hws, hpair⟩ := Option.map_eq_some_iff.mp hvs
        cases hpair
        obtain ⟨hconsistent, hsame⟩ := ih hmasks h.2 hws
        refine ⟨⟨?_, hconsistent⟩, ?_⟩
        · have hhead := h.1
          unfold MessageField.Consistent at hhead ⊢
          rw [hsame f.mask hdisjoint]
          exact hhead
        · exact fun mask hmask => hsame mask fun g hg => hmask g (List.mem_cons_of_mem f hg)

/-- Payloads that come in for the first field. -/
theorem merge_records_head {payloads : List Payload} {v v' : f.type.Value} (vs : Values fs)
    {b : Bool} (haccepts : ∀ p ∈ payloads, f.type.accepts p = true)
    (hv : f.type.mergePayloads payloads (checkHasBit bits f.mask, v) = some (b, v')) :
    ∃ word, mergeRecords (f :: fs) (payloads.map fun p => ⟨f.number, p⟩) (bits, (v, vs)) =
      some (word, (v', vs)) ∧ checkHasBit word f.mask = b ∧
      ∀ mask, f.mask &&& mask = 0 → checkHasBit word mask = checkHasBit bits mask := by
  induction payloads generalizing bits v with
  | nil =>
      cases hv
      exact ⟨bits, rfl, rfl, fun mask hmask => rfl⟩
  | cons p payloads ih =>
      obtain ⟨slot, hslot, hrest⟩ := Option.bind_eq_some_iff.mp hv
      obtain ⟨u, hu, rfl⟩ := Option.map_eq_some_iff.mp hslot
      have hrest : f.type.mergePayloads payloads (checkHasBit (bits ||| f.mask) f.mask, u) =
          some (b, v') := by
        rw [check_set bits f.mask_ne]
        exact hrest
      obtain ⟨word, hword, hb, hothers⟩ :=
        ih (fun q hq => haccepts q (List.mem_cons_of_mem p hq)) hrest
      have hr : f.recognises ⟨f.number, p⟩ = true := by
        unfold MessageField.recognises
        rw [haccepts p List.mem_cons_self, Bool.and_true]
        exact beq_self_eq_true f.number
      refine ⟨word, ?_, hb, fun mask hmask => ?_⟩
      · show (mergeRecord (f :: fs) ⟨f.number, p⟩ (bits, (v, vs))).bind _ = _
        rw [merge_record_head hr hu]
        exact hword
      · rw [hothers mask hmask, check_set_ne bits hmask]

/-- Records that are not for the first field. -/
theorem merge_records_tail {rs : List Record} {v : f.type.Value} {vs vs' : Values fs}
    (hr : ∀ r ∈ rs, f.recognises r = false)
    (hvs : mergeRecords fs rs (bits, vs) = some (bits', vs')) :
    mergeRecords (f :: fs) rs (bits, (v, vs)) = some (bits', (v, vs')) := by
  induction rs generalizing bits vs with
  | nil =>
      cases hvs
      rfl
  | cons r rs ih =>
      obtain ⟨⟨word, ws⟩, hword, hrest⟩ := Option.bind_eq_some_iff.mp hvs
      show (mergeRecord (f :: fs) r (bits, (v, vs))).bind _ = _
      rw [merge_record_tail (hr r List.mem_cons_self) hword]
      exact ih (fun q hq => hr q (List.mem_cons_of_mem r hq)) hrest

/-- The records of other fields are not for a field. -/
theorem not_recognised {vs : Values fs} {r : Record} (hnumber : ∀ g ∈ fs, g.number ≠ f.number)
    (hr : r ∈ records bits fs vs) : f.recognises r = false := by
  obtain ⟨g, hg, hrecognised⟩ := List.any_eq_true.mp (recognises_of_mem hr)
  unfold MessageField.recognises at hrecognised ⊢
  rw [Bool.and_eq_true, beq_iff_eq] at hrecognised
  rw [hrecognised.1, beq_eq_false_iff_ne.mpr (hnumber g hg), Bool.false_and]

/-- Merging in what has been serialized is merging in the message. -/
theorem merges {vs ws : Values fs}
    (hnumbers : fs.Pairwise fun f g => g.number ≠ f.number)
    (hmasks : fs.Pairwise fun f g => g.mask &&& f.mask = 0) (h : Consistent word fs vs)
    (hw : Consistent bits fs ws) (hsize : (byteSize bits fs ws).1 < 2 ^ 31) :
    ∃ word' vs', mergeRecords fs (records bits fs ws) (word, vs) = some (word', vs') ∧
      content word' fs vs' = content (word ||| bits) fs (merge bits fs vs ws) ∧
      ∀ mask, (∀ f ∈ fs, f.mask &&& mask = 0) →
        checkHasBit word' mask = checkHasBit word mask := by
  induction fs generalizing word with
  | nil => exact ⟨word, (), rfl, rfl, fun mask hmask => rfl⟩
  | cons f fs ih =>
      obtain ⟨hnumber, hnumbers⟩ := List.pairwise_cons.mp hnumbers
      obtain ⟨hdisjoint, hmasks⟩ := List.pairwise_cons.mp hmasks
      have hsizes : (f.byteSize bits ws.1).1 + (byteSize bits fs ws.2).1 < 2 ^ 31 := hsize
      -- the first field takes its records
      have hfirst : ∃ word' v', mergeRecords (f :: fs) (f.records bits ws.1) (word, vs) =
          some (word', (v', vs.2)) ∧
          f.content word' v' = f.content (word ||| bits) (f.merge bits vs.1 ws.1) ∧
          ∀ mask, f.mask &&& mask = 0 → checkHasBit word' mask = checkHasBit word mask := by
        have hhead := h.1
        have hhead' := hw.1
        unfold MessageField.Consistent at hhead hhead'
        unfold MessageField.byteSize at hsizes
        unfold MessageField.records MessageField.content MessageField.merge
        rw [check_or]
        cases hbit : checkHasBit bits f.mask with
        | false =>
            rw [Bool.or_false]
            exact ⟨word, vs.1, rfl, rfl, fun mask hmask => rfl⟩
        | true =>
            rw [hbit] at hhead' hsizes
            obtain ⟨b, v', hmerges, hcontent⟩ :=
              f.lawful.merges _ vs.1 ws.1 hhead hhead' (Nat.lt_of_le_of_lt (Nat.le_add_right _ _)
                hsizes)
            obtain ⟨word', hword, hb, hothers⟩ :=
              merge_records_head vs.2 (f.lawful.accepted ws.1) hmerges
            refine ⟨word', v', hword, ?_, hothers⟩
            rw [hb, Bool.or_true]
            exact hcontent
      obtain ⟨word₁, v', hword₁, hcontent₁, hothers₁⟩ := hfirst
      have hsame : ∀ g ∈ fs, checkHasBit word₁ g.mask = checkHasBit word g.mask := by
        intro g hg
        refine hothers₁ g.mask ?_
        rw [UInt32.and_comm]
        exact hdisjoint g hg
      -- the others take the rest
      obtain ⟨word₂, vs', hword₂, hcontent₂, hothers₂⟩ :=
        ih hnumbers hmasks (consistent_congr (fun g hg => (hsame g hg).symm) h.2) hw.2
          (Nat.lt_of_le_of_lt (Nat.le_add_left _ _) hsizes)
      refine ⟨word₂, (v', vs'), ?_, ?_, ?_⟩
      · unfold mergeRecords records
        rw [List.foldlM_append]
        show (mergeRecords (f :: fs) (f.records bits ws.1) (word, vs)).bind _ = _
        rw [hword₁]
        exact merge_records_tail (fun r hr => not_recognised hnumber hr) hword₂
      · unfold content merge
        rw [hcontent₂]
        have hhead : f.content word₂ v' = f.content word₁ v' := by
          unfold MessageField.content
          rw [hothers₂ f.mask hdisjoint]
        have htail : content (word₁ ||| bits) fs (merge bits fs vs.2 ws.2) =
            content (word ||| bits) fs (merge bits fs vs.2 ws.2) := by
          refine content_congr (fun g hg => ?_) _
          rw [check_or, check_or, hsame g hg]
        rw [hhead, hcontent₁, htail]
      · intro mask hmask
        rw [hothers₂ mask fun g hg => hmask g (List.mem_cons_of_mem f hg),
          hothers₁ mask (hmask f List.mem_cons_self)]

end Fields

/-! ## One field among several -/

/-- The place of a field. -/
inductive FieldRef : List (MessageField lib) → MessageField lib → Type 1 where
  | here {f : MessageField lib} {fs : List (MessageField lib)} : FieldRef (f :: fs) f
  | there {f g : MessageField lib} {fs : List (MessageField lib)} (i : FieldRef fs f) :
      FieldRef (g :: fs) f

namespace FieldRef

variable {fs : List (MessageField lib)} {f : MessageField lib}

def get : {fs : List (MessageField lib)} → FieldRef fs f → Values fs → f.type.Value
  | _ :: _, .here, vs => vs.1
  | _ :: _, .there i, vs => i.get vs.2

def set : {fs : List (MessageField lib)} → FieldRef fs f → f.type.Value → Values fs → Values fs
  | _ :: _, .here, v, vs => (v, vs.2)
  | _ :: _, .there i, v, vs => (vs.1, i.set v vs.2)

theorem mem (i : FieldRef fs f) : f ∈ fs := by
  induction i with
  | here => exact List.mem_cons_self
  | there i ih => exact List.mem_cons_of_mem _ ih

/-- Storing a value and setting the has bit leaves the values consistent. -/
theorem consistent_set (i : FieldRef fs f) {bits : UInt32} {vs : Values fs} {v : f.type.Value}
    (hmasks : fs.Pairwise fun f g => g.mask &&& f.mask = 0) (h : Fields.Consistent bits fs vs)
    (hv : f.lawful.Consistent true v) : Fields.Consistent (bits ||| f.mask) fs (i.set v vs) := by
  induction i with
  | @here f fs =>
      obtain ⟨hdisjoint, -⟩ := List.pairwise_cons.mp hmasks
      refine ⟨?_, Fields.consistent_congr (fun g hg => ?_) h.2⟩
      · unfold MessageField.Consistent
        rw [check_set bits f.mask_ne]
        exact hv
      · refine (check_set_ne bits ?_).symm
        rw [UInt32.and_comm]
        exact hdisjoint g hg
  | @there f g fs i ih =>
      obtain ⟨hdisjoint, hmasks⟩ := List.pairwise_cons.mp hmasks
      refine ⟨?_, ih hmasks h.2 hv⟩
      have hhead := h.1
      unfold MessageField.Consistent at hhead ⊢
      rw [check_set_ne bits (hdisjoint f i.mem)]
      exact hhead

end FieldRef
