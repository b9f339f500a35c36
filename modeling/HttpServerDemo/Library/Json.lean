import HttpServerDemo.Library.Decimal

/-!
# JSON documents

`Json` is a document tree with the accessors of a dynamically typed JSON library: `index` is
the inserting `operator[]`, `items` is what a range-based `for` visits, `value` is the lookup
with a default. An accessor that throws returns `none`. Objects keep their fields in key order,
as an ordered map does.

`JsonLibrary` is a writer and a reader of documents that agree: what is written is read back,
and no text that is written contains a NUL octet.
-/

/-- A JSON document. `int` is an integer of the signed 64-bit range, `uint` a larger unsigned one,
and `float` a number with a fraction or an exponent, of which only the conversion to a signed
64-bit integer is kept. -/
inductive Json where
  | null
  | bool (b : Bool)
  | int (n : Int64)
  | uint (n : UInt64)
  | float (truncated : Int64)
  | str (s : Text)
  | arr (items : List Json)
  | obj (fields : List (Text × Json))

namespace Json

/-- The fields of an object, in key order. -/
abbrev Fields : Type := List (Text × Json)

/-- Assign a field, keeping the key order. -/
def insert (key : Text) (value : Json) : Fields → Fields
  | [] => [(key, value)]
  | (k, v) :: rest =>
      if key = k then (key, value) :: rest
      else if key.bytes < k.bytes then (key, value) :: (k, v) :: rest
      else (k, v) :: insert key value rest

/-- The object with the given fields, assigned in the order listed. -/
def object (fields : Fields) : Json :=
  .obj (fields.foldl (fun fs field => insert field.1 field.2 fs) [])

/-- The value of a field. -/
def field (key : Text) : Fields → Option Json
  | [] => none
  | (k, v) :: rest => if key = k then some v else field key rest

/-- The inserting lookup `j[key]`: the element, and the document it leaves behind. A missing field
of an object and a null document get a null element; any other document throws. -/
def index (key : Text) : Json → Option (Json × Json)
  | .null => some (.null, .obj [(key, .null)])
  | .obj fields =>
      match field key fields with
      | some v => some (v, .obj fields)
      | none => some (.null, .obj (insert key .null fields))
  | _ => none

/-- What a range-based `for` visits: the items of an array, the values of an object, nothing for
null, and a scalar itself. -/
def items : Json → List Json
  | .null => []
  | .arr items => items
  | .obj fields => fields.map Prod.snd
  | j => [j]

/-- Conversion to a string; any other document throws. -/
def getString : Json → Option Text
  | .str s => some s
  | _ => none

/-- Conversion to a signed 64-bit integer; a document that is not a number throws. -/
def getInt64 : Json → Option Int64
  | .int n => some n
  | .uint n => some n.toInt64
  | .float truncated => some truncated
  | _ => none

/-- `j.value(key, default)`: the converted field of an object, or the default where the field is
missing. A document that is not an object throws. -/
def value {α : Type} (get : Json → Option α) (key : Text) (default : α) : Json → Option α
  | .obj fields =>
      match field key fields with
      | some v => get v
      | none => some default
  | _ => none

/-- The keys are in strictly increasing order. -/
def Sorted (fields : Fields) : Prop :=
  fields.Pairwise fun a b => a.1.bytes < b.1.bytes

mutual
/-- The document is its own normal form: it has integers of the signed 64-bit range only and its
objects are in key order. -/
def Normal : Json → Prop
  | .uint _ => False
  | .float _ => False
  | .arr items => NormalItems items
  | .obj fields => Sorted fields ∧ NormalFields fields
  | _ => True

/-- Every item of an array is in normal form. -/
def NormalItems : List Json → Prop
  | [] => True
  | j :: rest => Normal j ∧ NormalItems rest

/-- The value of every field is in normal form. -/
def NormalFields : Fields → Prop
  | [] => True
  | (_, j) :: rest => Normal j ∧ NormalFields rest
end

theorem normalItems_iff {items : List Json} :
    NormalItems items ↔ ∀ j ∈ items, Normal j := by
  induction items with
  | nil => simp [NormalItems]
  | cons j rest ih => simp [NormalItems, ih]

theorem normalFields_iff {fields : Fields} :
    NormalFields fields ↔ ∀ f ∈ fields, Normal f.2 := by
  induction fields with
  | nil => simp [NormalFields]
  | cons f rest ih => simp [NormalFields, ih]

/-- Looking up the field just assigned gives its value. -/
@[simp] theorem field_insert_self (key : Text) (v : Json) (fields : Fields) :
    field key (insert key v fields) = some v := by
  induction fields with
  | nil => simp [insert, field]
  | cons f rest ih =>
      simp only [insert]
      split_ifs with h1 h2
      · simp [field]
      · simp [field]
      · simp [field, h1, ih]

/-- Assigning a field does not disturb the others. -/
theorem field_insert_ne {key other : Text} (h : other ≠ key) (v : Json) (fields : Fields) :
    field other (insert key v fields) = field other fields := by
  induction fields with
  | nil => simp [insert, field, h]
  | cons f rest ih =>
      simp only [insert]
      split_ifs with h1 h2
      · subst h1
        simp [field, h]
      · simp [field, h]
      · simp [field, ih]

/-- A key assigned to a sorted object lands behind the smaller keys. -/
theorem mem_keys_insert {key : Text} {v : Json} {fields : Fields} {f : Text × Json}
    (h : f ∈ insert key v fields) : f = (key, v) ∨ f ∈ fields := by
  induction fields with
  | nil => exact .inl (by simpa [insert] using h)
  | cons g rest ih =>
      simp only [insert] at h
      split_ifs at h with h1 h2
      · rcases List.mem_cons.mp h with h | h
        · exact .inl h
        · exact .inr (by simp [h])
      · rcases List.mem_cons.mp h with h | h
        · exact .inl h
        · exact .inr h
      · rcases List.mem_cons.mp h with h | h
        · exact .inr (by simp [h])
        · rcases ih h with h | h
          · exact .inl h
          · exact .inr (by simp [h])

/-- Assigning a field keeps the key order. -/
theorem sorted_insert (key : Text) (v : Json) {fields : Fields} (h : Sorted fields) :
    Sorted (insert key v fields) := by
  induction fields with
  | nil => simp [insert, Sorted]
  | cons f rest ih =>
      obtain ⟨k, w⟩ := f
      obtain ⟨hhead, htail⟩ := List.pairwise_cons.mp h
      simp only [insert]
      split_ifs with h1 h2
      · subst h1
        exact List.pairwise_cons.mpr ⟨hhead, htail⟩
      · refine List.pairwise_cons.mpr ⟨fun g hg => ?_, h⟩
        rcases List.mem_cons.mp hg with rfl | hg
        · exact h2
        · exact List.lt_trans h2 (hhead g hg)
      · refine List.pairwise_cons.mpr ⟨fun g hg => ?_, ih htail⟩
        rcases mem_keys_insert hg with rfl | hg
        · have hne : k.bytes ≠ key.bytes := fun he => h1 (Text.ext he.symm)
          exact (List.le_iff_lt_or_eq.mp (List.not_lt.mp h2)).resolve_right hne
        · exact hhead g hg

/-- A field with the greatest key is assigned at the end. -/
theorem insert_of_lt {key : Text} {v : Json} {fields : Fields}
    (h : ∀ f ∈ fields, f.1.bytes < key.bytes) : insert key v fields = fields ++ [(key, v)] := by
  induction fields with
  | nil => rfl
  | cons f rest ih =>
      have hf : f.1.bytes < key.bytes := h f (by simp)
      have hne : key ≠ f.1 := fun he => List.lt_irrefl _ (he ▸ hf)
      simp only [insert, hne, if_false, List.lt_asymm hf, List.cons_append]
      rw [ih fun g hg => h g (by simp [hg])]

/-- Assigning fields that are already in key order reproduces them. -/
theorem object_of_sorted {fields : Fields} (h : Sorted fields) : object fields = .obj fields := by
  have key : ∀ (fs acc : Fields), Sorted (acc ++ fs) →
      fs.foldl (fun fs field => insert field.1 field.2 fs) acc = acc ++ fs := by
    intro fs
    induction fs with
    | nil => intro acc _; simp
    | cons f fs ih =>
        intro acc hs
        have hlast : ∀ g ∈ acc, g.1.bytes < f.1.bytes :=
          fun g hg => (List.pairwise_append.mp hs).2.2 g hg f (by simp)
        rw [List.foldl_cons, insert_of_lt hlast, ih _ (by simpa using hs)]
        simp
  simpa [object] using congrArg Json.obj (key fields [] h)

/-- An object built from normal values is in normal form. -/
theorem normal_object {fields : Fields} (h : ∀ f ∈ fields, Normal f.2) :
    Normal (object fields) := by
  have key : ∀ (fs acc : Fields), (∀ f ∈ fs, Normal f.2) →
      Sorted acc ∧ NormalFields acc →
      Normal (.obj (fs.foldl (fun fs field => insert field.1 field.2 fs) acc)) := by
    intro fs
    induction fs with
    | nil => intro acc _ hacc; simpa [Normal] using hacc
    | cons f fs ih =>
        intro acc hfs hacc
        refine ih _ (fun g hg => hfs g (by simp [hg])) ⟨sorted_insert _ _ hacc.1, ?_⟩
        rw [normalFields_iff]
        intro g hg
        rcases mem_keys_insert hg with rfl | hg
        · exact hfs f (by simp)
        · exact normalFields_iff.mp hacc.2 g hg
  exact key fields [] h ⟨List.Pairwise.nil, trivial⟩

end Json

/-- A writer and a reader of JSON text. The reader inverts the writer on documents in normal form,
and the writer escapes control characters, NUL among them. -/
structure JsonLibrary where
  dump : Json → Octets
  parse : Octets → Option Json
  parse_dump : ∀ j, j.Normal → parse (dump j) = some j
  nul_not_mem_dump : ∀ j, 0 ∉ dump j
