import Mathlib.Data.List.TakeWhile
import Mathlib.Data.List.Infix
import Mathlib.Tactic.Common

/-!
# Octet strings, C strings and UTF-8 text

A byte string is a list of octets. `cStr` is what a callee sees of it through a
NUL-terminated pointer: everything before the first NUL. `Text` is a byte string together with
the proof that it is well-formed UTF-8 (RFC 3629), so ill-formed text cannot be built. Cutting a
text at its first NUL and joining two texts give texts again, because a NUL octet never occurs
inside a multi-octet character.
-/

/-- A byte string. -/
abbrev Octets : Type := List UInt8

namespace Octets

/-- What a NUL-terminated pointer to the bytes shows: the part before the first NUL. -/
def cStr (s : Octets) : Octets :=
  s.takeWhile (· != 0)

/-- The octets of an ASCII literal. -/
def ascii (s : String) : Octets :=
  s.toList.map fun c => UInt8.ofNat c.toNat

/-- The NUL-terminated view of a byte string contains no NUL. -/
theorem nul_not_mem_cStr (s : Octets) : 0 ∉ cStr s := by
  intro h
  have := List.mem_takeWhile_imp h
  simp at this

/-- A byte string without NUL is seen in full. -/
theorem cStr_eq_self {s : Octets} (h : 0 ∉ s) : cStr s = s := by
  refine List.takeWhile_eq_self_iff.mpr fun b hb => ?_
  have : b ≠ 0 := fun hz => h (hz ▸ hb)
  simpa using this

/-- A byte string is seen in full exactly when it has no NUL. -/
theorem cStr_eq_self_iff {s : Octets} : cStr s = s ↔ 0 ∉ s :=
  ⟨fun h => h ▸ nul_not_mem_cStr s, cStr_eq_self⟩

@[simp] theorem cStr_cStr (s : Octets) : cStr (cStr s) = cStr s :=
  cStr_eq_self (nul_not_mem_cStr s)

/-- A NUL-free prefix is seen in full before the rest. -/
theorem cStr_append {a : Octets} (h : 0 ∉ a) (b : Octets) : cStr (a ++ b) = a ++ cStr b := by
  refine List.takeWhile_append_of_pos fun c hc => ?_
  have : c ≠ 0 := fun hz => h (hz ▸ hc)
  simpa using this

end Octets

namespace Utf8

/-- An inclusive range of octets. -/
abbrev Range : Type := UInt8 × UInt8

/-- The ranges the octets after a lead octet must fall in, or `none` for an octet that starts no
character. -/
def follow (b : UInt8) : Option (List Range) :=
  let tail : Range := (0x80, 0xBF)
  if b < 0x80 then some []
  else if b < 0xC2 then none
  else if b < 0xE0 then some [tail]
  else if b = 0xE0 then some [(0xA0, 0xBF), tail]
  else if b = 0xED then some [(0x80, 0x9F), tail]
  else if b < 0xF0 then some [tail, tail]
  else if b = 0xF0 then some [(0x90, 0xBF), tail, tail]
  else if b < 0xF4 then some [tail, tail, tail]
  else if b = 0xF4 then some [(0x80, 0x8F), tail, tail]
  else none

/-- Read a byte string, where `pending` are the ranges still owed to the current character. -/
def scan : (pending : List Range) → Octets → Bool
  | [], [] => true
  | [], b :: rest =>
      match follow b with
      | some pending => scan pending rest
      | none => false
  | _ :: _, [] => false
  | (lo, hi) :: pending, b :: rest => decide (lo ≤ b) && decide (b ≤ hi) && scan pending rest

/-- Well-formed UTF-8. -/
def valid (s : Octets) : Bool :=
  scan [] s

/-- Every range owed by a lead octet excludes the ASCII octets. -/
theorem follow_ge {b : UInt8} {pending : List Range} (h : follow b = some pending) :
    ∀ r ∈ pending, 0x80 ≤ r.1 := by
  unfold follow at h
  dsimp only at h
  split_ifs at h <;> simp only [Option.some.injEq] at h <;> subst h <;> simp

/-- An ASCII octet is a character of its own. -/
theorem follow_ascii {b : UInt8} (h : b < 0x80) : follow b = some [] := by
  simp [follow, h]

/-- After a complete text the reader stands between characters again. -/
theorem scan_append {pending : List Range} {a : Octets} (h : scan pending a = true)
    (b : Octets) : scan pending (a ++ b) = scan [] b := by
  induction a generalizing pending with
  | nil =>
      cases pending with
      | nil => rfl
      | cons => simp [scan] at h
  | cons c a ih =>
      cases pending with
      | nil =>
          simp only [List.cons_append, scan] at h ⊢
          cases hf : follow c with
          | none => simp [hf] at h
          | some next =>
              simp only [hf] at h ⊢
              exact ih h
      | cons r pending =>
          simp only [List.cons_append, scan, Bool.and_eq_true, decide_eq_true_eq] at h ⊢
          simpa [h.1.1, h.1.2] using ih h.2

/-- Joining two texts gives a text. -/
theorem valid_append {a b : Octets} (ha : valid a = true) (hb : valid b = true) :
    valid (a ++ b) = true :=
  (scan_append ha b).trans hb

/-- ASCII octets form a text. -/
theorem valid_ascii {s : Octets} (h : ∀ b ∈ s, b < 0x80) : valid s = true := by
  induction s with
  | nil => rfl
  | cons b s ih =>
      have hb : follow b = some [] := follow_ascii (h b (by simp))
      have hs : valid s = true := ih fun c hc => h c (by simp [hc])
      simpa [valid, scan, hb] using hs

/-- A cut at the first NUL falls between characters: no range that is still owed admits NUL. -/
theorem scan_cStr {pending : List Range} (hp : ∀ r ∈ pending, 0x80 ≤ r.1) {s : Octets}
    (h : scan pending s = true) : scan pending (Octets.cStr s) = true := by
  induction s generalizing pending with
  | nil => exact h
  | cons b s ih =>
      by_cases hb : b = 0
      · subst hb
        cases pending with
        | nil => simp [Octets.cStr, scan]
        | cons r pending =>
            have hr : 0x80 ≤ r.1 := hp r (by simp)
            simp only [scan, Bool.and_eq_true, decide_eq_true_eq] at h
            exact absurd (UInt8.le_trans hr h.1.1) (by decide)
      · have hcut : Octets.cStr (b :: s) = b :: Octets.cStr s := by
          simp [Octets.cStr, hb]
        rw [hcut]
        cases pending with
        | nil =>
            simp only [scan] at h ⊢
            cases hf : follow b with
            | none => simp [hf] at h
            | some next =>
                simp only [hf] at h ⊢
                exact ih (follow_ge hf) h
        | cons r pending =>
            simp only [scan, Bool.and_eq_true] at h ⊢
            exact ⟨h.1, ih (fun q hq => hp q (by simp [hq])) h.2⟩

end Utf8

/-- Well-formed UTF-8 text. -/
@[ext] structure Text where
  bytes : Octets
  valid : Utf8.valid bytes = true
  deriving DecidableEq

namespace Text

/-- The text of an ASCII literal. -/
def ascii (s : String) (h : Utf8.valid (Octets.ascii s) = true := by exact Eq.refl true) : Text :=
  ⟨Octets.ascii s, h⟩

/-- The empty text. -/
def empty : Text :=
  ⟨[], rfl⟩

/-- Two texts one after the other. -/
def append (a b : Text) : Text :=
  ⟨a.bytes ++ b.bytes, Utf8.valid_append a.valid b.valid⟩

instance : Append Text :=
  ⟨append⟩

instance : Inhabited Text :=
  ⟨empty⟩

@[simp] theorem bytes_append (a b : Text) : (a ++ b).bytes = a.bytes ++ b.bytes :=
  rfl

@[simp] theorem bytes_ascii (s : String) (h) : (ascii s h).bytes = Octets.ascii s :=
  rfl

/-- The text that a NUL-terminated pointer to it shows. -/
def cStr (s : Text) : Text :=
  ⟨Octets.cStr s.bytes, Utf8.scan_cStr (by simp) s.valid⟩

@[simp] theorem bytes_cStr (s : Text) : s.cStr.bytes = Octets.cStr s.bytes :=
  rfl

/-- The text has no U+0000. -/
def NulFree (s : Text) : Prop :=
  0 ∉ s.bytes

instance (s : Text) : Decidable s.NulFree :=
  inferInstanceAs (Decidable (¬ _))

/-- A text reads back through a C string unchanged exactly when it has no U+0000. -/
theorem cStr_eq_self_iff {s : Text} : s.cStr = s ↔ s.NulFree := by
  rw [Text.ext_iff]
  exact Octets.cStr_eq_self_iff

theorem NulFree.cStr_eq {s : Text} (h : s.NulFree) : s.cStr = s :=
  cStr_eq_self_iff.mpr h

theorem nulFree_cStr (s : Text) : s.cStr.NulFree :=
  Octets.nul_not_mem_cStr s.bytes

end Text
