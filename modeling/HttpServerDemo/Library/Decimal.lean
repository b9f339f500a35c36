import HttpServerDemo.Library.Octets
import Mathlib.Tactic.Ring

/-!
# Decimal numerals

`ofNat` and `ofInt` write an integer in decimal, as `std::to_string` does, and `strtoll` reads a
64-bit integer back: leading white space, an optional sign, the digits that follow, and the
nearest representable value when the number does not fit. `strtoll_ofInt64` is the round trip.
-/

namespace Decimal

/-- The octet of a decimal digit. -/
def digit (d : Nat) : UInt8 :=
  UInt8.ofNat (48 + d)

/-- The octet is one of `0` to `9`. -/
def isDigit (b : UInt8) : Bool :=
  decide (48 ≤ b) && decide (b ≤ 57)

/-- Write the digits of `n` in front of `acc`; `fuel` bounds their number. -/
def write : (fuel n : Nat) → (acc : Octets) → Octets
  | 0, _, acc => acc
  | fuel + 1, n, acc =>
      let acc := digit (n % 10) :: acc
      if n / 10 = 0 then acc else write fuel (n / 10) acc

/-- The decimal numeral of a natural number. -/
def ofNat (n : Nat) : Octets :=
  write (n + 1) n []

/-- The decimal numeral of an integer. -/
def ofInt : Int → Octets
  | .ofNat n => ofNat n
  | .negSucc n => 45 :: ofNat (n + 1)

/-- The number that a string of digits denotes, after the digits already read into `acc`. -/
def read (acc : Nat) (s : Octets) : Nat :=
  s.foldl (fun n b => 10 * n + (b.toNat - 48)) acc

/-- Keep an integer within the 64-bit range. -/
def clamp (n : Int) : Int64 :=
  if n < -2 ^ 63 then Int64.minValue
  else if 2 ^ 63 ≤ n then Int64.maxValue
  else Int64.ofInt n

/-- The octets that `isspace` accepts in the C locale. -/
def isSpace (b : UInt8) : Bool :=
  b == 32 || (decide (9 ≤ b) && decide (b ≤ 13))

/-- The 64-bit integer at the start of a string, and 0 where there is none. -/
def strtoll (s : Octets) : Int64 :=
  match s.dropWhile isSpace with
  | 45 :: rest => clamp (-(read 0 (rest.takeWhile isDigit) : Int))
  | 43 :: rest => clamp (read 0 (rest.takeWhile isDigit) : Int)
  | rest => clamp (read 0 (rest.takeWhile isDigit) : Int)

theorem isDigit_digit {d : Nat} (h : d < 10) : isDigit (digit d) = true := by
  have : ∀ d : Fin 10, isDigit (digit d) = true := by decide
  exact this ⟨d, h⟩

theorem toNat_digit {d : Nat} (h : d < 10) : (digit d).toNat - 48 = d := by
  have : ∀ d : Fin 10, (digit d).toNat - 48 = d := by decide
  exact this ⟨d, h⟩

/-- The digits written are digits. -/
theorem isDigit_of_mem_write {fuel n : Nat} {acc : Octets}
    (hacc : ∀ b ∈ acc, isDigit b = true) : ∀ b ∈ write fuel n acc, isDigit b = true := by
  induction fuel generalizing n acc with
  | zero => exact hacc
  | succ fuel ih =>
      have hcons : ∀ b ∈ digit (n % 10) :: acc, isDigit b = true := by
        intro b hb
        rcases List.mem_cons.mp hb with rfl | hb
        · exact isDigit_digit (Nat.mod_lt _ (by decide))
        · exact hacc b hb
      simp only [write]
      split
      · exact hcons
      · exact ih hcons

theorem isDigit_of_mem_ofNat {n : Nat} {b : UInt8} (h : b ∈ ofNat n) : isDigit b = true :=
  isDigit_of_mem_write (by simp) b h

/-- Reading after the digits of `n` were written in front continues from `n`. -/
theorem read_write {fuel n : Nat} {acc : Octets} (h : n < fuel) :
    read 0 (write fuel n acc) = read n acc := by
  induction fuel generalizing n acc with
  | zero => omega
  | succ fuel ih =>
      have hd := toNat_digit (Nat.mod_lt n (by decide : 0 < 10))
      simp only [write]
      split
      · rename_i hz
        simp only [read, List.foldl_cons, hd]
        congr 1
        omega
      · rw [ih (by omega)]
        simp only [read, List.foldl_cons, hd]
        congr 1
        omega

/-- Reading the numeral of `n` gives `n`. -/
@[simp] theorem read_ofNat (n : Nat) : read 0 (ofNat n) = n := by
  rw [ofNat, read_write (Nat.lt_succ_self n)]
  rfl

/-- Different numbers have different numerals. -/
theorem ofNat_injective : Function.Injective ofNat := fun m n h => by
  rw [← read_ofNat m, h, read_ofNat]

/-- A numeral has at least one digit. -/
theorem ofNat_ne_nil (n : Nat) : ofNat n ≠ [] := by
  have hwrite : ∀ fuel n acc, acc ≠ [] → write fuel n acc ≠ [] := by
    intro fuel
    induction fuel with
    | zero => exact fun _ _ h => h
    | succ fuel ih =>
        intro n acc _
        simp only [write]
        split
        · simp
        · exact ih _ _ (by simp)
  simp only [ofNat, write]
  split
  · simp
  · exact hwrite _ _ _ (by simp)

theorem isDigit_lt {b : UInt8} (h : isDigit b = true) : b < 0x80 := by
  simp only [isDigit, Bool.and_eq_true, decide_eq_true_eq] at h
  exact UInt8.lt_of_le_of_lt h.2 (by decide)

theorem isDigit_not_isSpace {b : UInt8} (h : isDigit b = true) : isSpace b = false := by
  simp only [isDigit, Bool.and_eq_true, decide_eq_true_eq, UInt8.le_iff_toNat_le] at h
  have h32 : b ≠ 32 := by
    rintro rfl
    exact absurd h.1 (by decide)
  have h13 : ¬ b ≤ 13 := by
    rw [UInt8.le_iff_toNat_le]
    exact fun hle => absurd (h.1.trans hle) (by decide)
  simp [isSpace, h32, h13]

theorem isDigit_ne {b c : UInt8} (h : isDigit b = true) (hc : isDigit c = false) : b ≠ c := by
  rintro rfl
  simp [h] at hc

/-- The head of a numeral is a digit. -/
theorem ofNat_eq_cons (n : Nat) : ∃ b rest, ofNat n = b :: rest ∧ isDigit b = true := by
  obtain ⟨b, rest, h⟩ := List.exists_cons_of_ne_nil (ofNat_ne_nil n)
  exact ⟨b, rest, h, isDigit_of_mem_ofNat (h ▸ List.mem_cons_self)⟩

/-- The numeral of a positive number does not start with a zero. -/
theorem head_write_ne_zero {fuel n : Nat} {acc : Octets} (hn : 0 < n) (h : n < fuel) :
    (write fuel n acc).head? ≠ some 0x30 := by
  induction fuel generalizing n acc with
  | zero => omega
  | succ fuel ih =>
      simp only [write]
      split
      · rename_i hz
        have hdigit : ∀ d : Fin 10, digit d = 0x30 → d = 0 := by decide
        intro heq
        have := hdigit ⟨n % 10, Nat.mod_lt _ (by decide)⟩ (by simpa using heq)
        have := congrArg Fin.val this
        simp only [Fin.val_zero] at this
        omega
      · exact ih (by omega) (by omega)

/-- Only the numeral of zero starts with a zero. -/
theorem ofNat_eq_zero_of_head {n : Nat} (h : (ofNat n).head? = some 0x30) :
    ofNat n = [0x30] := by
  rcases Nat.eq_zero_or_pos n with rfl | hn
  · rfl
  · exact absurd h (head_write_ne_zero hn (Nat.lt_succ_self n))

/-- The numeral of an integer consists of digits and a minus sign. -/
theorem isDigit_or_minus_of_mem_ofInt {i : Int} {b : UInt8} (h : b ∈ ofInt i) :
    isDigit b = true ∨ b = 45 := by
  cases i with
  | ofNat n => exact .inl (isDigit_of_mem_ofNat h)
  | negSucc n =>
      rcases List.mem_cons.mp h with rfl | h
      · exact .inr rfl
      · exact .inl (isDigit_of_mem_ofNat h)

/-- Everything in the numeral of an integer is ASCII and not NUL. -/
theorem mem_ofInt {i : Int} {b : UInt8} (h : b ∈ ofInt i) : b < 0x80 ∧ b ≠ 0 := by
  rcases isDigit_or_minus_of_mem_ofInt h with hb | rfl
  · exact ⟨isDigit_lt hb, isDigit_ne hb rfl⟩
  · decide

/-- The numeral determines the integer. -/
theorem ofInt_injective : Function.Injective ofInt := by
  have hminus : ∀ m n : Nat, ofNat m ≠ 45 :: ofNat n := by
    intro m n h
    obtain ⟨b, rest, hm, hb⟩ := ofNat_eq_cons m
    rw [hm] at h
    exact isDigit_ne hb (by rfl) (List.cons.inj h).1
  intro i j h
  cases i with
  | ofNat m =>
      cases j with
      | ofNat n => rw [ofNat_injective h]
      | negSucc n => exact absurd h (hminus m (n + 1))
  | negSucc m =>
      cases j with
      | ofNat n => exact absurd h.symm (hminus n (m + 1))
      | negSucc n =>
          have := ofNat_injective (List.cons.inj h).2
          rw [Nat.succ.inj this]

theorem nul_not_mem_ofInt (i : Int) : 0 ∉ ofInt i := fun h => (mem_ofInt h).2 rfl

theorem nul_not_mem_ofNat (n : Nat) : 0 ∉ ofNat n := nul_not_mem_ofInt (.ofNat n)

/-- A numeral is ASCII text. -/
def text (i : Int) : Text :=
  ⟨ofInt i, Utf8.valid_ascii fun _ h => (mem_ofInt h).1⟩

@[simp] theorem bytes_text (i : Int) : (text i).bytes = ofInt i :=
  rfl

/-- The text of a numeral determines the integer. -/
theorem text_injective : Function.Injective text :=
  fun _ _ h => ofInt_injective (congrArg Text.bytes h)

theorem nulFree_text (i : Int) : (text i).NulFree :=
  nul_not_mem_ofInt i

theorem takeWhile_isDigit_ofNat (n : Nat) : (ofNat n).takeWhile isDigit = ofNat n :=
  List.takeWhile_eq_self_iff.mpr fun _ h => isDigit_of_mem_ofNat h

/-- `strtoll` reads a numeral whose value fits back. -/
theorem strtoll_ofInt {i : Int} (hlo : -2 ^ 63 ≤ i) (hhi : i < 2 ^ 63) :
    strtoll (ofInt i) = Int64.ofInt i := by
  have hclamp : clamp i = Int64.ofInt i := by
    unfold clamp
    rw [if_neg (by omega), if_neg (by omega)]
  cases i with
  | ofNat n =>
      obtain ⟨b, rest, hn, hb⟩ := ofNat_eq_cons n
      have hdigits := takeWhile_isDigit_ofNat n
      have hread := read_ofNat n
      rw [hn] at hdigits hread
      have h45 : b ≠ 45 := isDigit_ne hb rfl
      have h43 : b ≠ 43 := isDigit_ne hb rfl
      simp only [strtoll, ofInt, hn, List.dropWhile_cons, isDigit_not_isSpace hb,
        Bool.false_eq_true, if_false]
      split
      · simp_all
      · simp_all
      · rw [hdigits, hread]
        exact hclamp
  | negSucc n =>
      have hspace : isSpace 45 = false := rfl
      simp only [strtoll, ofInt, List.dropWhile_cons, hspace, Bool.false_eq_true, if_false,
        takeWhile_isDigit_ofNat, read_ofNat]
      exact hclamp

/-- `strtoll` undoes the decimal rendering of a 64-bit integer. -/
@[simp] theorem strtoll_ofInt64 (n : Int64) : strtoll (ofInt n.toInt) = n := by
  rw [strtoll_ofInt n.le_toInt n.toInt_lt, Int64.ofInt_toInt]

end Decimal
