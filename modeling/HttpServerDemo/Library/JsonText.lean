import HttpServerDemo.Library.Json

/-!
# JSON text

A concrete `JsonLibrary`: `dump` writes compact RFC 8259 text and escapes every character below
U+0020, and `parse` reads it back by recursive descent. `value_dump` is the round trip of one
document in front of any text that does not continue a number, and `rfc8259` packages the pair.

The reader takes integers of 64 bits, signed or unsigned, and rejects fractions, exponents and
escaped surrogate pairs, which the writer never produces for a document in normal form.
-/

namespace JsonText

/-! ## Writing -/

/-- The octet of a lower-case hexadecimal digit. -/
def hexDigit (d : Nat) : UInt8 :=
  UInt8.ofNat (if d < 10 then 48 + d else 87 + d)

/-- The octets an octet of a string is written as. -/
def escape (b : UInt8) : Octets :=
  if b = 0x22 then [0x5C, 0x22]
  else if b = 0x5C then [0x5C, 0x5C]
  else if b = 0x08 then [0x5C, 0x62]
  else if b = 0x0C then [0x5C, 0x66]
  else if b = 0x0A then [0x5C, 0x6E]
  else if b = 0x0D then [0x5C, 0x72]
  else if b = 0x09 then [0x5C, 0x74]
  else if b < 0x20 then
    [0x5C, 0x75, 0x30, 0x30, hexDigit (b.toNat / 16), hexDigit (b.toNat % 16)]
  else [b]

/-- The body of a string literal with its closing quote. -/
def dumpChars (s : Octets) : Octets :=
  s.flatMap escape ++ [0x22]

mutual
/-- The compact text of a document. -/
def dump : Json → Octets
  | .null => Octets.ascii "null"
  | .bool true => Octets.ascii "true"
  | .bool false => Octets.ascii "false"
  | .int n => Decimal.ofInt n.toInt
  | .uint n => Decimal.ofNat n.toNat
  | .float truncated => Decimal.ofInt truncated.toInt ++ Octets.ascii ".0"
  | .str s => 0x22 :: dumpChars s.bytes
  | .arr [] => [0x5B, 0x5D]
  | .arr (j :: rest) => 0x5B :: (dump j ++ dumpItems rest)
  | .obj [] => [0x7B, 0x7D]
  | .obj ((k, j) :: rest) =>
      0x7B :: 0x22 :: (dumpChars k.bytes ++ 0x3A :: (dump j ++ dumpFields rest))

/-- The items after the first, with the closing bracket. -/
def dumpItems : List Json → Octets
  | [] => [0x5D]
  | j :: rest => 0x2C :: (dump j ++ dumpItems rest)

/-- The fields after the first, with the closing brace. -/
def dumpFields : Json.Fields → Octets
  | [] => [0x7D]
  | (k, j) :: rest =>
      0x2C :: 0x22 :: (dumpChars k.bytes ++ 0x3A :: (dump j ++ dumpFields rest))
end

/-! ## Reading -/

/-- White space between tokens. -/
def isSpace (b : UInt8) : Bool :=
  b == 0x20 || b == 0x09 || b == 0x0A || b == 0x0D

/-- Drop white space. -/
def skipSpace (s : Octets) : Octets :=
  s.dropWhile isSpace

/-- The value of a hexadecimal digit. -/
def hexValue (b : UInt8) : Option Nat :=
  if 48 ≤ b.toNat ∧ b.toNat ≤ 57 then some (b.toNat - 48)
  else if 97 ≤ b.toNat ∧ b.toNat ≤ 102 then some (b.toNat - 87)
  else if 65 ≤ b.toNat ∧ b.toNat ≤ 70 then some (b.toNat - 55)
  else none

/-- The UTF-8 octets of a code unit below U+10000. -/
def encode (n : Nat) : Octets :=
  if n < 0x80 then [UInt8.ofNat n]
  else if n < 0x800 then [UInt8.ofNat (0xC0 + n / 64), UInt8.ofNat (0x80 + n % 64)]
  else [UInt8.ofNat (0xE0 + n / 4096), UInt8.ofNat (0x80 + n / 64 % 64),
    UInt8.ofNat (0x80 + n % 64)]

/-- The octet that a two-character escape stands for. -/
def unescape (b : UInt8) : Option UInt8 :=
  if b = 0x22 then some 0x22
  else if b = 0x5C then some 0x5C
  else if b = 0x2F then some 0x2F
  else if b = 0x62 then some 0x08
  else if b = 0x66 then some 0x0C
  else if b = 0x6E then some 0x0A
  else if b = 0x72 then some 0x0D
  else if b = 0x74 then some 0x09
  else none

/-- Read the body of a string literal up to its closing quote. -/
def chars : Octets → Option (Octets × Octets)
  | [] => none
  | b :: rest =>
      if b = 0x22 then some ([], rest)
      else if b = 0x5C then
        match rest with
        | 0x75 :: h1 :: h2 :: h3 :: h4 :: rest => do
            let d1 ← hexValue h1
            let d2 ← hexValue h2
            let d3 ← hexValue h3
            let d4 ← hexValue h4
            let (s, rest) ← chars rest
            some (encode (((d1 * 16 + d2) * 16 + d3) * 16 + d4) ++ s, rest)
        | e :: rest => do
            let c ← unescape e
            let (s, rest) ← chars rest
            some (c :: s, rest)
        | [] => none
      else if b < 0x20 then none
      else do
        let (s, rest) ← chars rest
        some (b :: s, rest)

/-- Read a string literal after its opening quote; its content must be well-formed UTF-8. -/
def string (s : Octets) : Option (Text × Octets) := do
  let (s, rest) ← chars s
  if h : Utf8.valid s = true then some (⟨s, h⟩, rest) else none

/-- Read an integer. A leading zero, a fraction and an exponent are rejected. -/
def number (s : Octets) : Option (Json × Octets) :=
  let negative := s.head? == some 0x2D
  let s := if negative then s.tail else s
  let digits := s.takeWhile Decimal.isDigit
  let rest := s.dropWhile Decimal.isDigit
  if digits = [] ∨ (digits.head? = some 0x30 ∧ digits ≠ [0x30]) then none
  else if rest.head? = some 0x2E ∨ rest.head? = some 0x65 ∨ rest.head? = some 0x45 then none
  else
    let n : Int := if negative then -(Decimal.read 0 digits : Int) else Decimal.read 0 digits
    if -2 ^ 63 ≤ n ∧ n < 2 ^ 63 then some (.int (Int64.ofInt n), rest)
    else if 2 ^ 63 ≤ n ∧ n < 2 ^ 64 then some (.uint (UInt64.ofNat n.toNat), rest)
    else none

/-- Read a fixed word. -/
def word (w : Octets) (j : Json) (s : Octets) : Option (Json × Octets) :=
  if w <+: s then some (j, s.drop w.length) else none

mutual
/-- Read one document; `fuel` bounds the nesting and the number of items. -/
def value : (fuel : Nat) → Octets → Option (Json × Octets)
  | 0, _ => none
  | fuel + 1, s =>
      match skipSpace s with
      | [] => none
      | b :: rest =>
          if b = 0x22 then (string rest).map fun p => (.str p.1, p.2)
          else if b = 0x5B then
            if (skipSpace rest).head? = some 0x5D then some (.arr [], (skipSpace rest).tail)
            else (items fuel rest).map fun p => (.arr p.1, p.2)
          else if b = 0x7B then
            if (skipSpace rest).head? = some 0x7D then some (.obj [], (skipSpace rest).tail)
            else (members fuel rest).map fun p => (.object p.1, p.2)
          else if b = 0x6E then word (Octets.ascii "null") .null (b :: rest)
          else if b = 0x74 then word (Octets.ascii "true") (.bool true) (b :: rest)
          else if b = 0x66 then word (Octets.ascii "false") (.bool false) (b :: rest)
          else number (b :: rest)

/-- Read the items of an array and its closing bracket. -/
def items : (fuel : Nat) → Octets → Option (List Json × Octets)
  | 0, _ => none
  | fuel + 1, s => do
      let (j, rest) ← value fuel s
      match skipSpace rest with
      | [] => none
      | b :: rest =>
          if b = 0x5D then some ([j], rest)
          else if b = 0x2C then do
            let (js, rest) ← items fuel rest
            some (j :: js, rest)
          else none

/-- Read the fields of an object and its closing brace. -/
def members : (fuel : Nat) → Octets → Option (Json.Fields × Octets)
  | 0, _ => none
  | fuel + 1, s =>
      match skipSpace s with
      | [] => none
      | q :: rest =>
          if q = 0x22 then do
            let (k, rest) ← string rest
            match skipSpace rest with
            | [] => none
            | c :: rest =>
                if c = 0x3A then do
                  let (j, rest) ← value fuel rest
                  match skipSpace rest with
                  | [] => none
                  | b :: rest =>
                      if b = 0x7D then some ([(k, j)], rest)
                      else if b = 0x2C then do
                        let (fs, rest) ← members fuel rest
                        some ((k, j) :: fs, rest)
                      else none
                else none
          else none
end

/-- Read a text that holds one document. -/
def parse (s : Octets) : Option Json := do
  let (j, rest) ← value (s.length + 1) s
  if skipSpace rest = [] then some j else none

/-! ## Round trip of strings -/

theorem hexValue_hexDigit {d : Nat} (h : d < 16) : hexValue (hexDigit d) = some d := by
  have : ∀ d : Fin 16, hexValue (hexDigit d) = some d.val := by decide
  exact this ⟨d, h⟩

/-- A two-character escape is read as the octet it stands for. -/
theorem chars_unescape {e c : UInt8} (he : e ≠ 0x75) (hc : unescape e = some c)
    (rest : Octets) :
    chars (0x5C :: e :: rest) = (chars rest).map fun p => (c :: p.1, p.2) := by
  rw [chars.eq_def]
  simp only [show (0x5C : UInt8) ≠ 0x22 by decide, if_false, if_true]
  split
  · rename_i heq
    exact absurd (List.cons.inj heq).1 he
  · rename_i e' rest' _ heq
    obtain ⟨rfl, rfl⟩ := List.cons.inj heq
    cases chars rest <;> simp [hc]
  · rename_i heq
    cases heq

/-- An octet that needs no escape is read as itself. -/
theorem chars_plain {b : UInt8} (hq : b ≠ 0x22) (hs : b ≠ 0x5C) (hc : ¬ b < 0x20)
    (rest : Octets) : chars (b :: rest) = (chars rest).map fun p => (b :: p.1, p.2) := by
  rw [chars.eq_def]
  cases hr : chars rest <;> simp [hq, hs, hc, hr]

/-- Reading a string body undoes the escape of one octet. -/
theorem chars_escape (b : UInt8) (rest : Octets) :
    chars (escape b ++ rest) = (chars rest).map fun p => (b :: p.1, p.2) := by
  unfold escape
  split_ifs with h1 h2 h3 h4 h5 h6 h7 h8
  · subst h1
    exact chars_unescape (by decide) rfl rest
  · subst h2
    exact chars_unescape (by decide) rfl rest
  · subst h3
    exact chars_unescape (by decide) rfl rest
  · subst h4
    exact chars_unescape (by decide) rfl rest
  · subst h5
    exact chars_unescape (by decide) rfl rest
  · subst h6
    exact chars_unescape (by decide) rfl rest
  · subst h7
    exact chars_unescape (by decide) rfl rest
  -- other control characters: four hexadecimal digits, the first two zero
  · have hlt : b.toNat < 32 := by simpa [UInt8.lt_iff_toNat_lt] using h8
    have hhi := hexValue_hexDigit (d := b.toNat / 16) (by omega)
    have hlo := hexValue_hexDigit (d := b.toNat % 16) (by omega)
    have h0 : hexValue 0x30 = some 0 := rfl
    have henc : encode (((0 * 16 + 0) * 16 + b.toNat / 16) * 16 + b.toNat % 16) = [b] := by
      rw [show ((0 * 16 + 0) * 16 + b.toNat / 16) * 16 + b.toNat % 16 = b.toNat by omega]
      simp [encode, show b.toNat < 128 by omega]
    simp only [List.cons_append, List.nil_append, chars]
    simp only [h0, hhi, hlo, Option.bind_eq_bind, Option.bind_some, henc]
    cases chars rest <;> rfl
  · exact chars_plain h1 h2 h8 rest

/-- Reading a string body gives back the octets that were written. -/
theorem chars_dumpChars (s rest : Octets) : chars (dumpChars s ++ rest) = some (s, rest) := by
  induction s with
  | nil =>
      show chars (0x22 :: rest) = some ([], rest)
      rw [chars.eq_def]
      rfl
  | cons b s ih =>
      have hsplit : dumpChars (b :: s) ++ rest = escape b ++ (dumpChars s ++ rest) := by
        simp [dumpChars]
      rw [hsplit, chars_escape, ih]
      rfl

theorem string_dumpChars (s : Text) (rest : Octets) :
    string (dumpChars s.bytes ++ rest) = some (s, rest) := by
  simp [string, chars_dumpChars, s.valid]

/-! ## Round trip of numbers -/

/-- The text does not continue a number. -/
def EndsNumber (rest : Octets) : Prop :=
  ∀ b ∈ rest.head?, Decimal.isDigit b = false ∧ b ≠ 0x2E ∧ b ≠ 0x65 ∧ b ≠ 0x45

theorem EndsNumber.cons {b : UInt8} {rest : Octets}
    (h : Decimal.isDigit b = false ∧ b ≠ 0x2E ∧ b ≠ 0x65 ∧ b ≠ 0x45) :
    EndsNumber (b :: rest) := by
  intro c hc
  obtain rfl : b = c := by simpa using hc
  exact h

/-- The digits of a number end where the text does not continue it. -/
theorem takeWhile_ofNat_append (n : Nat) {rest : Octets} (hrest : EndsNumber rest) :
    (Decimal.ofNat n ++ rest).takeWhile Decimal.isDigit = Decimal.ofNat n ∧
      (Decimal.ofNat n ++ rest).dropWhile Decimal.isDigit = rest := by
  have hdigits : ∀ b ∈ Decimal.ofNat n, Decimal.isDigit b = true :=
    fun _ h => Decimal.isDigit_of_mem_ofNat h
  rw [List.takeWhile_append_of_pos hdigits, List.dropWhile_append_of_pos hdigits]
  cases rest with
  | nil => simp
  | cons b rest =>
      have hb := (hrest b rfl).1
      simp [hb]

/-- Reading the numeral of a signed 64-bit integer. -/
theorem number_ofInt {i : Int} (hlo : -2 ^ 63 ≤ i) (hhi : i < 2 ^ 63) {rest : Octets}
    (hrest : EndsNumber rest) :
    number (Decimal.ofInt i ++ rest) = some (.int (Int64.ofInt i), rest) := by
  -- no fraction and no exponent follows
  have hend : ¬ (rest.head? = some 0x2E ∨ rest.head? = some 0x65 ∨ rest.head? = some 0x45) := by
    rintro (h | h | h)
    · exact (hrest _ h).2.1 rfl
    · exact (hrest _ h).2.2.1 rfl
    · exact (hrest _ h).2.2.2 rfl
  -- digits, without a leading zero
  have hdigits : ∀ n, ¬ (Decimal.ofNat n = [] ∨
      ((Decimal.ofNat n).head? = some 0x30 ∧ Decimal.ofNat n ≠ [0x30])) := by
    rintro n (h | ⟨h, hne⟩)
    · exact Decimal.ofNat_ne_nil n h
    · exact hne (Decimal.ofNat_eq_zero_of_head h)
  cases i with
  | ofNat n =>
      obtain ⟨htake, hdrop⟩ := takeWhile_ofNat_append n hrest
      obtain ⟨b, tail, hn, hb⟩ := Decimal.ofNat_eq_cons n
      have hsign : ((Decimal.ofNat n ++ rest).head? == some 0x2D) = false := by
        simp [hn, Decimal.isDigit_ne hb (c := 0x2D) rfl]
      simp only [number, Decimal.ofInt, hsign, Bool.false_eq_true, if_false, htake, hdrop,
        hdigits, hend, Decimal.read_ofNat]
      rw [if_pos ⟨hlo, hhi⟩]
      rfl
  | negSucc n =>
      obtain ⟨htake, hdrop⟩ := takeWhile_ofNat_append (n + 1) hrest
      simp only [number, Decimal.ofInt, List.cons_append, List.head?_cons, beq_self_eq_true,
        if_true, List.tail_cons, htake, hdrop, hdigits, hend, if_false, Decimal.read_ofNat]
      rw [if_pos ⟨hlo, hhi⟩]
      rfl

/-- The numeral of an integer starts like a number. -/
theorem ofInt_eq_cons (i : Int) :
    ∃ b tail, Decimal.ofInt i = b :: tail ∧ (b = 0x2D ∨ Decimal.isDigit b = true) := by
  cases i with
  | ofNat n =>
      obtain ⟨b, tail, hn, hb⟩ := Decimal.ofNat_eq_cons n
      exact ⟨b, tail, hn, .inr hb⟩
  | negSucc n => exact ⟨0x2D, _, rfl, .inl rfl⟩


/-! ## Round trip of documents -/

theorem skipSpace_cons {b : UInt8} {rest : Octets} (h : isSpace b = false) :
    skipSpace (b :: rest) = b :: rest := by
  simp [skipSpace, h]

/-- An octet that starts a number starts nothing else. -/
theorem number_start {b : UInt8} (h : b = 0x2D ∨ Decimal.isDigit b = true) :
    isSpace b = false ∧ b ≠ 0x22 ∧ b ≠ 0x5B ∧ b ≠ 0x7B ∧ b ≠ 0x6E ∧ b ≠ 0x74 ∧ b ≠ 0x66 ∧
      b ≠ 0x5D ∧ b ≠ 0x7D := by
  rcases h with rfl | h
  · decide
  · have hne {c : UInt8} (hc : Decimal.isDigit c = false) : b ≠ c := Decimal.isDigit_ne h hc
    refine ⟨?_, hne rfl, hne rfl, hne rfl, hne rfl, hne rfl, hne rfl, hne rfl, hne rfl⟩
    simp [isSpace, hne (c := 0x20) rfl, hne (c := 0x09) rfl, hne (c := 0x0A) rfl,
      hne (c := 0x0D) rfl]

/-- The text of a document starts with a visible octet that is no closing bracket. -/
theorem dump_eq_cons (j : Json) :
    ∃ b tail, dump j = b :: tail ∧ isSpace b = false ∧ b ≠ 0x5D ∧ b ≠ 0x7D := by
  have hnumber : ∀ i : Int, ∃ b tail, Decimal.ofInt i = b :: tail ∧
      isSpace b = false ∧ b ≠ 0x5D ∧ b ≠ 0x7D := by
    intro i
    obtain ⟨b, tail, hi, hb⟩ := ofInt_eq_cons i
    obtain ⟨hspace, _, _, _, _, _, _, h1, h2⟩ := number_start hb
    exact ⟨b, tail, hi, hspace, h1, h2⟩
  cases j with
  | null => exact ⟨_, _, rfl, by decide⟩
  | bool b => cases b <;> exact ⟨_, _, rfl, by decide⟩
  | int n => exact hnumber n.toInt
  | uint n => exact hnumber (.ofNat n.toNat)
  | float t =>
      obtain ⟨b, tail, hi, hb⟩ := hnumber t.toInt
      exact ⟨b, tail ++ Octets.ascii ".0", by simp [dump, hi], hb⟩
  | str s => exact ⟨_, _, rfl, by decide⟩
  | arr items =>
      cases items with
      | nil => exact ⟨_, _, rfl, by decide⟩
      | cons j rest => exact ⟨_, _, by rw [dump], by decide⟩
  | obj fields =>
      cases fields with
      | nil => exact ⟨_, _, rfl, by decide⟩
      | cons f rest => exact ⟨_, _, by rw [dump], by decide⟩

theorem dumpItems_eq_cons (js : List Json) :
    ∃ b tail, dumpItems js = b :: tail ∧ (b = 0x5D ∨ b = 0x2C) := by
  cases js with
  | nil => exact ⟨_, _, rfl, .inl rfl⟩
  | cons j js => exact ⟨_, _, by rw [dumpItems], .inr rfl⟩

theorem dumpFields_eq_cons (fs : Json.Fields) :
    ∃ b tail, dumpFields fs = b :: tail ∧ (b = 0x7D ∨ b = 0x2C) := by
  cases fs with
  | nil => exact ⟨_, _, rfl, .inl rfl⟩
  | cons f fs => exact ⟨_, _, by rw [dumpFields], .inr rfl⟩

theorem endsNumber_dumpItems (js : List Json) (rest : Octets) :
    EndsNumber (dumpItems js ++ rest) := by
  obtain ⟨b, tail, h, hb⟩ := dumpItems_eq_cons js
  rw [h]
  rcases hb with rfl | rfl <;> exact .cons (by decide)

theorem endsNumber_dumpFields (fs : Json.Fields) (rest : Octets) :
    EndsNumber (dumpFields fs ++ rest) := by
  obtain ⟨b, tail, h, hb⟩ := dumpFields_eq_cons fs
  rw [h]
  rcases hb with rfl | rfl <;> exact .cons (by decide)

mutual
/-- Reading the text of a normal document, in front of any text that does not continue a number,
gives the document and leaves that text. -/
theorem value_dump (j : Json) (fuel : Nat) (rest : Octets) (hj : j.Normal)
    (hfuel : (dump j).length < fuel) (hrest : EndsNumber rest) :
    value fuel (dump j ++ rest) = some (j, rest) := by
  obtain ⟨fuel, rfl⟩ : ∃ n, fuel = n + 1 := ⟨fuel - 1, by omega⟩
  match j with
  | .null => rfl
  | .bool true => rfl
  | .bool false => rfl
  | .uint n => exact hj.elim
  | .float t => exact hj.elim
  | .int n =>
      obtain ⟨b, tail, hi, hb⟩ := ofInt_eq_cons n.toInt
      obtain ⟨hspace, h1, h2, h3, h4, h5, h6, _, _⟩ := number_start hb
      have hnum := number_ofInt n.le_toInt n.toInt_lt hrest
      rw [hi] at hnum
      simp only [dump, hi, value, List.cons_append, skipSpace_cons hspace, h1, h2, h3, h4, h5, h6,
        if_false]
      simpa using hnum
  | .str s =>
      simp only [dump, List.cons_append, value, skipSpace_cons (by decide : isSpace 0x22 = false),
        if_true, string_dumpChars, Option.map_some]
  | .arr [] => rfl
  -- the first item decides that this is no empty array
  | .arr (j :: js) =>
      have hlen : (dump j ++ dumpItems js).length < fuel := by
        simp only [dump, List.length_cons, List.length_append] at hfuel ⊢
        omega
      obtain ⟨b, tail, hd, hspace, hb, _⟩ := dump_eq_cons j
      have hhead : (skipSpace (dump j ++ dumpItems js ++ rest)).head? ≠ some 0x5D := by
        rw [hd, List.cons_append, List.cons_append, skipSpace_cons hspace]
        simpa using hb
      have hitems := items_dump j js fuel rest hj.1 hj.2 hlen
      simp only [dump, List.cons_append, value, skipSpace_cons (by decide : isSpace 0x5B = false),
        show (0x5B : UInt8) ≠ 0x22 by decide, if_false, if_true, hhead, hitems, Option.map_some]
  | .obj [] => rfl
  | .obj ((k, j) :: fs) =>
      have hlen : (dumpChars k.bytes ++ 0x3A :: (dump j ++ dumpFields fs)).length + 1 < fuel := by
        simp only [dump, List.length_cons, List.length_append] at hfuel ⊢
        omega
      have hmembers := members_dump k j fs fuel rest hj.2.1 hj.2.2 hlen
      have hobject := Json.object_of_sorted hj.1
      simp only [dump, List.cons_append, value, skipSpace_cons (by decide : isSpace 0x7B = false),
        skipSpace_cons (by decide : isSpace 0x22 = false), List.head?_cons, Option.some.injEq,
        show (0x7B : UInt8) ≠ 0x22 by decide, show (0x7B : UInt8) ≠ 0x5B by decide,
        show (0x22 : UInt8) ≠ 0x7D by decide, if_false, if_true]
      rw [hmembers]
      simp [hobject]
termination_by fuel

/-- Reading the items of an array and its closing bracket. -/
theorem items_dump (j : Json) (js : List Json) (fuel : Nat) (rest : Octets) (hj : j.Normal)
    (hjs : Json.NormalItems js) (hfuel : (dump j ++ dumpItems js).length < fuel) :
    items fuel (dump j ++ dumpItems js ++ rest) = some (j :: js, rest) := by
  obtain ⟨fuel, rfl⟩ : ∃ n, fuel = n + 1 := ⟨fuel - 1, by omega⟩
  have hpos : 0 < (dumpItems js).length := by
    obtain ⟨b, tail, h, _⟩ := dumpItems_eq_cons js
    simp [h]
  have hvalue := value_dump j fuel (dumpItems js ++ rest) hj
    (by simp only [List.length_append] at hfuel; omega) (endsNumber_dumpItems js rest)
  rw [items, List.append_assoc, hvalue]
  match js with
  | [] => rfl
  | j' :: js =>
      have hrec := items_dump j' js fuel rest hjs.1 hjs.2 (by
        simp only [dumpItems, List.length_cons, List.length_append] at hfuel ⊢
        omega)
      simp only [dumpItems, List.cons_append, Option.bind_eq_bind, Option.bind_some,
        skipSpace_cons (by decide : isSpace 0x2C = false),
        show (0x2C : UInt8) ≠ 0x5D by decide, if_false, if_true, hrec]
termination_by fuel

/-- Reading the fields of an object and its closing brace. -/
theorem members_dump (k : Text) (j : Json) (fs : Json.Fields) (fuel : Nat) (rest : Octets)
    (hj : j.Normal) (hfs : Json.NormalFields fs)
    (hfuel : (dumpChars k.bytes ++ 0x3A :: (dump j ++ dumpFields fs)).length + 1 < fuel) :
    members fuel (0x22 :: (dumpChars k.bytes ++ 0x3A :: (dump j ++ dumpFields fs) ++ rest)) =
      some ((k, j) :: fs, rest) := by
  obtain ⟨fuel, rfl⟩ : ∃ n, fuel = n + 1 := ⟨fuel - 1, by omega⟩
  have hvalue := value_dump j fuel (dumpFields fs ++ rest) hj
    (by simp only [List.length_append, List.length_cons] at hfuel; omega)
    (endsNumber_dumpFields fs rest)
  simp only [members, skipSpace_cons (by decide : isSpace 0x22 = false), if_true,
    List.append_assoc, List.cons_append, string_dumpChars, Option.bind_eq_bind, Option.bind_some,
    skipSpace_cons (by decide : isSpace 0x3A = false), hvalue]
  match fs with
  | [] => rfl
  | (k', j') :: fs =>
      have hrec := members_dump k' j' fs fuel rest hfs.1 hfs.2 (by
        simp only [dumpFields, List.length_cons, List.length_append] at hfuel ⊢
        omega)
      simp only [List.append_assoc, List.cons_append] at hrec
      simp only [dumpFields, List.cons_append, List.append_assoc,
        skipSpace_cons (by decide : isSpace 0x2C = false),
        show (0x2C : UInt8) ≠ 0x7D by decide, if_false, if_true, hrec, Option.bind_some]
termination_by fuel
end

/-- `parse` reads back what `dump` writes. -/
theorem parse_dump (j : Json) (hj : j.Normal) : parse (dump j) = some j := by
  have hvalue := value_dump j ((dump j).length + 1) [] hj (Nat.lt_succ_self _)
    (by simp [EndsNumber])
  rw [List.append_nil] at hvalue
  simp [parse, hvalue, skipSpace]

/-! ## No NUL is written -/

theorem nul_not_mem_escape (b : UInt8) : 0 ∉ escape b := by
  have hhex : ∀ d : Fin 16, (0 : UInt8) ≠ hexDigit d := by decide
  unfold escape
  split_ifs with h1 h2 h3 h4 h5 h6 h7 h8
  · decide
  · decide
  · decide
  · decide
  · decide
  · decide
  · decide
  · have hlt : b.toNat < 32 := by simpa [UInt8.lt_iff_toNat_lt] using h8
    have hhi := hhex ⟨b.toNat / 16, by omega⟩
    have hlo := hhex ⟨b.toNat % 16, by omega⟩
    simp [hhi, hlo]
  · simp only [List.mem_singleton]
    rintro rfl
    exact h8 (by decide)

theorem nul_not_mem_dumpChars (s : Octets) : 0 ∉ dumpChars s := by
  simp [dumpChars, nul_not_mem_escape]

mutual
/-- No written document contains a NUL octet. -/
theorem nul_not_mem_dump : ∀ j : Json, 0 ∉ dump j
  | .null => by decide
  | .bool true => by decide
  | .bool false => by decide
  | .int n => Decimal.nul_not_mem_ofInt _
  | .uint n => Decimal.nul_not_mem_ofNat _
  | .float t => by
      have hword : (0 : UInt8) ∉ Octets.ascii ".0" := by decide
      simp [dump, Decimal.nul_not_mem_ofInt, hword]
  | .str s => by simp [dump, nul_not_mem_dumpChars]
  | .arr [] => by decide
  | .arr (j :: js) => by simp [dump, nul_not_mem_dump j, nul_not_mem_dumpItems js]
  | .obj [] => by decide
  | .obj ((k, j) :: fs) => by
      simp [dump, nul_not_mem_dumpChars, nul_not_mem_dump j, nul_not_mem_dumpFields fs]

theorem nul_not_mem_dumpItems : ∀ js : List Json, 0 ∉ dumpItems js
  | [] => by decide
  | j :: js => by simp [dumpItems, nul_not_mem_dump j, nul_not_mem_dumpItems js]

theorem nul_not_mem_dumpFields : ∀ fs : Json.Fields, 0 ∉ dumpFields fs
  | [] => by decide
  | (k, j) :: fs => by
      simp [dumpFields, nul_not_mem_dumpChars, nul_not_mem_dump j, nul_not_mem_dumpFields fs]
end

/-- Compact RFC 8259 text. -/
def rfc8259 : JsonLibrary where
  dump := dump
  parse := parse
  parse_dump := parse_dump
  nul_not_mem_dump := nul_not_mem_dump

end JsonText
