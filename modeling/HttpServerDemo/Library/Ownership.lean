import Mathlib.Data.List.Nodup
import Mathlib.Logic.Function.Basic
import Mathlib.Tactic.Common

/-!
# Who owns what

A store shared out among owners: every entry belongs to exactly one of them. `Partition.set` is the
one rule: whoever owns an address, or anyone where it is free, may allocate, change or free it.
Where there is only one owner, `Inventory` lists what it owns.
-/

namespace Ownership

variable {ι A V : Type}

/-- The parts are disjoint and make up the whole. -/
structure Partition (whole : A → Option V) (part : ι → A → Option V) : Prop where
  whole_of_part : ∀ i a v, part i a = some v → whole a = some v
  exists_owner : ∀ a v, whole a = some v → ∃ i, part i a = some v
  owner_unique : ∀ i j a v v', part i a = some v → part j a = some v' → i = j

variable {whole : A → Option V} {part : ι → A → Option V}

/-- Nothing is owned by anyone. -/
theorem Partition.empty : Partition (fun _ : A => (none : Option V)) fun (_ : ι) _ => none where
  whole_of_part := by
    intro i a v h
    cases h
  exists_owner := by
    intro a v h
    cases h
  owner_unique := by
    intro i j a v v' h
    cases h

/-- What nobody owns is in no part. -/
theorem Partition.part_eq_none (h : Partition whole part) {a : A} (ha : whole a = none) (i : ι) :
    part i a = none := by
  cases hpart : part i a with
  | none => rfl
  | some v =>
      have := h.whole_of_part i a v hpart
      rw [ha] at this
      cases this

/-- An owner may set an entry that is its own, or nobody's. -/
theorem Partition.set [DecidableEq ι] [DecidableEq A] (h : Partition whole part) {i : ι} {a : A}
    (hown : part i a = whole a) (v : Option V) :
    Partition (Function.update whole a v)
      (Function.update part i (Function.update (part i) a v)) := by
  -- at the address only the owner counts, and elsewhere nothing changes
  have hother : ∀ j b, b ≠ a →
      Function.update part i (Function.update (part i) a v) j b = part j b := by
    intro j b hb
    by_cases hj : j = i
    · subst hj
      rw [Function.update_self, Function.update_of_ne hb]
    · rw [Function.update_of_ne hj]
  have hself : ∀ j x, Function.update part i (Function.update (part i) a v) j a = some x →
      j = i ∧ v = some x := by
    intro j x hx
    by_cases hj : j = i
    · subst hj
      rw [Function.update_self, Function.update_self] at hx
      exact ⟨rfl, hx⟩
    · rw [Function.update_of_ne hj] at hx
      have hwhole := h.whole_of_part j a x hx
      rw [← hown] at hwhole
      exact absurd (h.owner_unique j i a x x hx hwhole) hj
  refine ⟨fun j b x hx => ?_, fun b x hx => ?_, fun j k b x y hx hy => ?_⟩
  · by_cases hb : b = a
    · subst hb
      rw [Function.update_self]
      exact (hself j x hx).2
    · rw [Function.update_of_ne hb]
      rw [hother j b hb] at hx
      exact h.whole_of_part j b x hx
  · by_cases hb : b = a
    · subst hb
      rw [Function.update_self] at hx
      exact ⟨i, by rw [Function.update_self, Function.update_self, hx]⟩
    · rw [Function.update_of_ne hb] at hx
      obtain ⟨j, hj⟩ := h.exists_owner b x hx
      exact ⟨j, by rw [hother j b hb, hj]⟩
  · by_cases hb : b = a
    · subst hb
      rw [(hself j x hx).1, (hself k y hy).1]
    · rw [hother j b hb] at hx
      rw [hother k b hb] at hy
      exact h.owner_unique j k b x y hx hy

/-! ## A single owner -/

/-- The entries of the store, each once. -/
structure Inventory (store : A → Option V) (entries : List (A × V)) : Prop where
  nodup : (entries.map Prod.fst).Nodup
  eq_some_iff : ∀ a v, store a = some v ↔ (a, v) ∈ entries

variable {store : A → Option V} {entries entries' : List (A × V)}

/-- Nothing is owned. -/
theorem Inventory.empty : Inventory (fun _ : A => (none : Option V)) [] where
  nodup := .nil
  eq_some_iff := by
    intro a v
    constructor
    · intro h
      cases h
    · intro h
      cases h

/-- The order does not matter. -/
theorem Inventory.perm (h : Inventory store entries) (hperm : entries.Perm entries') :
    Inventory store entries' where
  nodup := (hperm.map Prod.fst).nodup_iff.mp h.nodup
  eq_some_iff a v := by
    rw [h.eq_some_iff a v, hperm.mem_iff]

/-- What is not in the list is free. -/
theorem Inventory.eq_none_of_nil (h : Inventory store []) (a : A) : store a = none := by
  cases hstore : store a with
  | none => rfl
  | some v =>
      have hmem := (h.eq_some_iff a v).mp hstore
      cases hmem

/-- The entry at the head of the list. -/
theorem Inventory.head {a : A} {v : V} (h : Inventory store ((a, v) :: entries)) :
    store a = some v :=
  (h.eq_some_iff a v).mpr List.mem_cons_self

/-- Allocate at a free address. -/
theorem Inventory.alloc [DecidableEq A] (h : Inventory store entries) {a : A}
    (hfree : store a = none) (v : V) :
    Inventory (Function.update store a (some v)) ((a, v) :: entries) where
  nodup := by
    rw [List.map_cons, List.nodup_cons]
    refine ⟨fun hmem => ?_, h.nodup⟩
    obtain ⟨⟨b, x⟩, hentry, heq⟩ := List.mem_map.mp hmem
    have hstore := (h.eq_some_iff b x).mpr hentry
    rw [show b = a from heq, hfree] at hstore
    cases hstore
  eq_some_iff b x := by
    by_cases hb : b = a
    · subst hb
      rw [Function.update_self, List.mem_cons, ← h.eq_some_iff, hfree]
      simp only [Option.some.injEq, Prod.mk.injEq, true_and, reduceCtorEq, or_false, eq_comm]
    · rw [Function.update_of_ne hb, h.eq_some_iff, List.mem_cons]
      simp only [Prod.mk.injEq, hb, false_and, false_or]

/-- Free the entry at the head of the list. -/
theorem Inventory.free [DecidableEq A] {a : A} {v : V}
    (h : Inventory store ((a, v) :: entries)) :
    Inventory (Function.update store a none) entries where
  nodup := (List.nodup_cons.mp h.nodup).2
  eq_some_iff b x := by
    have hfresh := (List.nodup_cons.mp h.nodup).1
    by_cases hb : b = a
    · subst hb
      rw [Function.update_self]
      simp only [reduceCtorEq, false_iff]
      exact fun hmem => hfresh (List.mem_map.mpr ⟨_, hmem, rfl⟩)
    · rw [Function.update_of_ne hb, h.eq_some_iff, List.mem_cons]
      simp only [Prod.mk.injEq, hb, false_and, false_or]

/-- Change the entry at the head of the list. -/
theorem Inventory.set [DecidableEq A] {a : A} {v : V} (h : Inventory store ((a, v) :: entries))
    (x : V) : Inventory (Function.update store a (some x)) ((a, x) :: entries) := by
  have hset := h.free.alloc (Function.update_self a none store) x
  rwa [Function.update_idem] at hset

end Ownership
