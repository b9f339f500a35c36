import Mathlib.Tactic.Ring
import HttpServerDemo.Library.Octets

/-!
# Base-128 varints

A 64-bit number as at most ten octets of seven bits each, least significant first, with the high
bit set in every octet but the last. The reader takes back what the writer wrote whatever follows
it (`read_encode`), and what it has read does not depend on what follows (`read_append`). It also
takes longer encodings than the writer's, and drops the bits of a tenth octet that do not fit.
-/

namespace Varint

/-- The groups of a number, in at most `k + 1` octets. -/
def groups : Nat → Nat → Octets
  | 0, n => [UInt8.ofNat n]
  | k + 1, n =>
      if n < 128 then [UInt8.ofNat n]
      else UInt8.ofNat (n % 128 + 128) :: groups k (n / 128)

/-- Read a number of at most `k + 1` groups. -/
def readGroups : Nat → Octets → Option (Nat × Octets)
  | _, [] => none
  | 0, b :: rest => if b.toNat < 128 then some (b.toNat, rest) else none
  | k + 1, b :: rest =>
      if b.toNat < 128 then some (b.toNat, rest)
      else (readGroups k rest).map fun (n, rest) => (b.toNat - 128 + 128 * n, rest)

/-- The octets of a number. -/
def encode (v : UInt64) : Octets :=
  groups 9 v.toNat

/-- Read a number, and what follows it. -/
def read (s : Octets) : Option (UInt64 × Octets) :=
  (readGroups 9 s).map fun (n, rest) => (UInt64.ofNat n, rest)

/-- How many octets a number takes. -/
def size (v : UInt64) : Nat :=
  v.toNat.log2 / 7 + 1

theorem read_groups_groups {k n : Nat} (hn : n < 128 ^ (k + 1)) (rest : Octets) :
    readGroups k (groups k n ++ rest) = some (n, rest) := by
  induction k generalizing n with
  | zero =>
      have hlt : n < 128 := by omega
      have hbyte : (UInt8.ofNat n).toNat = n := by
        rw [UInt8.toNat_ofNat']
        omega
      show (if (UInt8.ofNat n).toNat < 128 then _ else _) = _
      rw [hbyte, if_pos hlt]
      rfl
  | succ k ih =>
      unfold groups
      by_cases hlt : n < 128
      · have hbyte : (UInt8.ofNat n).toNat = n := by
          rw [UInt8.toNat_ofNat']
          omega
        rw [if_pos hlt]
        show (if (UInt8.ofNat n).toNat < 128 then _ else _) = _
        rw [hbyte, if_pos hlt]
        rfl
      · have hbyte : (UInt8.ofNat (n % 128 + 128)).toNat = n % 128 + 128 := by
          rw [UInt8.toNat_ofNat']
          omega
        have hdiv : n / 128 < 128 ^ (k + 1) := by
          rw [Nat.div_lt_iff_lt_mul (by omega)]
          rwa [Nat.pow_succ] at hn
        rw [if_neg hlt]
        show (if (UInt8.ofNat (n % 128 + 128)).toNat < 128 then _
          else (readGroups k (groups k (n / 128) ++ rest)).map _) = _
        rw [hbyte, if_neg (by omega), ih hdiv]
        show some (n % 128 + 128 - 128 + 128 * (n / 128), rest) = some (n, rest)
        have hsum : n % 128 + 128 - 128 + 128 * (n / 128) = n := by omega
        rw [hsum]

/-- Reading takes back what was written. -/
theorem read_encode (v : UInt64) (rest : Octets) : read (encode v ++ rest) = some (v, rest) := by
  have hlt : v.toNat < 128 ^ (9 + 1) := lt_of_lt_of_le v.toNat_lt (by decide)
  unfold read encode
  rw [read_groups_groups hlt]
  show some (UInt64.ofNat v.toNat, rest) = some (v, rest)
  rw [UInt64.ofNat_toNat]

theorem log2_div (n : Nat) (hn : 128 ≤ n) : n.log2 = (n / 128).log2 + 7 := by
  have hne : n / 128 ≠ 0 := by omega
  have hlow := Nat.log2_self_le hne
  have hhigh := Nat.lt_log2_self (n := n / 128)
  refine (Nat.log2_eq_iff (by omega)).mpr ⟨?_, ?_⟩
  · rw [Nat.pow_add]
    omega
  · have hpow : 2 ^ ((n / 128).log2 + 7 + 1) = 2 ^ ((n / 128).log2 + 1) * 128 := by ring
    rw [hpow]
    omega

theorem length_groups {k n : Nat} (hn : n < 128 ^ (k + 1)) :
    (groups k n).length = n.log2 / 7 + 1 := by
  have hsmall : ∀ n, n < 128 → n.log2 / 7 = 0 := by
    intro n hlt
    have hlog : n.log2 < 7 := by
      by_cases hz : n = 0
      · subst hz
        decide
      · exact (Nat.log2_lt hz).mpr (by omega)
    omega
  induction k generalizing n with
  | zero =>
      rw [hsmall n (by omega)]
      rfl
  | succ k ih =>
      unfold groups
      by_cases hlt : n < 128
      · rw [if_pos hlt, hsmall n hlt]
        rfl
      · have hdiv : n / 128 < 128 ^ (k + 1) := by
          rw [Nat.div_lt_iff_lt_mul (by omega)]
          rwa [Nat.pow_succ] at hn
        rw [if_neg hlt, List.length_cons, ih hdiv, log2_div n (by omega)]
        omega

theorem length_encode (v : UInt64) : (encode v).length = size v :=
  length_groups (lt_of_lt_of_le v.toNat_lt (by decide))

/-- What has been read does not depend on what follows, and is not empty. -/
theorem read_groups_append {k : Nat} {s rest : Octets} {n : Nat}
    (h : readGroups k s = some (n, rest)) :
    rest.length < s.length ∧ ∀ t, readGroups k (s ++ t) = some (n, rest ++ t) := by
  induction k generalizing s n with
  | zero =>
      cases s with
      | nil => cases h
      | cons b s =>
          unfold readGroups at h
          split at h
          · rename_i hlt
            cases h
            exact ⟨Nat.lt_succ_self _, fun t => if_pos hlt⟩
          · cases h
  | succ k ih =>
      cases s with
      | nil => cases h
      | cons b s =>
          unfold readGroups at h
          split at h
          · rename_i hlt
            cases h
            exact ⟨Nat.lt_succ_self _, fun t => if_pos hlt⟩
          · rename_i hge
            obtain ⟨⟨m, rest'⟩, hm, hpair⟩ := Option.map_eq_some_iff.mp h
            cases hpair
            obtain ⟨hshort, happend⟩ := ih hm
            refine ⟨Nat.lt_succ_of_lt hshort, fun t => ?_⟩
            show (if b.toNat < 128 then _ else (readGroups k (s ++ t)).map _) = _
            rw [if_neg hge, happend t]
            rfl

theorem read_append {s rest : Octets} {v : UInt64} (h : read s = some (v, rest)) :
    rest.length < s.length ∧ ∀ t, read (s ++ t) = some (v, rest ++ t) := by
  obtain ⟨⟨n, rest'⟩, hn, hpair⟩ := Option.map_eq_some_iff.mp h
  cases hpair
  obtain ⟨hshort, happend⟩ := read_groups_append hn
  refine ⟨hshort, fun t => ?_⟩
  unfold read
  rw [happend t]
  rfl

end Varint
