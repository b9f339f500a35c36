import Mathlib.Data.List.Perm.Basic
import Mathlib.Logic.Function.Basic
import Mathlib.Tactic.Common

/-!
# Lending items from a stock

A `Ledger` says who has each item, so that no item can be with two holders. `Kept` relates it to
what an implementation keeps: the items that are idle, and what each holder has in hand. Lending,
passing on and giving back are updates of the ledger, and `Kept.lend`, `Kept.pass` and
`Kept.giveBack` say that an implementation which moves the item keeps the ledger.
`Kept.idle_or_held` and `Kept.perm_stock` are what this is for: nothing is lent twice and nothing
is lost.
-/

namespace Lending

variable {ι H : Type}

/-- Who has each item, and `none` for an item in stock. -/
abbrev Ledger (ι H : Type) : Type := ι → Option H

/-- The idle items and what each holder has in hand are as the ledger says. -/
structure Kept (stock idle : List ι) (held : H → Option ι) (ledger : Ledger ι H) : Prop where
  nodup : idle.Nodup
  mem_idle : ∀ a, a ∈ idle ↔ a ∈ stock ∧ ledger a = none
  held_iff : ∀ h a, held h = some a ↔ a ∈ stock ∧ ledger a = some h

variable {stock idle : List ι} {held held' : H → Option ι} {ledger : Ledger ι H}

/-- At first everything is in stock. -/
theorem Kept.start (h : stock.Nodup) : Kept stock stock (fun _ : H => none) fun _ => none where
  nodup := h
  mem_idle := by simp
  held_iff := by simp

section
variable [DecidableEq ι]

/-- Lending an idle item to a holder with empty hands. -/
theorem Kept.lend {a : ι} (hkept : Kept stock (idle ++ [a]) held ledger) {h : H}
    (hempty : held h = none) (hself : held' h = some a) (hother : ∀ g, g ≠ h → held' g = held g) :
    Kept stock idle held' (Function.update ledger a (some h)) := by
  have hnodup := hkept.nodup
  rw [List.nodup_append] at hnodup
  obtain ⟨hidle, -, hfresh⟩ := hnodup
  obtain ⟨hstock, hledger⟩ := (hkept.mem_idle a).mp (by simp)
  refine ⟨hidle, fun b => ?_, fun g b => ?_⟩
  · by_cases hb : b = a
    · subst hb
      simp only [Function.update_self, reduceCtorEq, and_false, iff_false]
      exact fun hmem => hfresh b hmem b (by simp) rfl
    · have := hkept.mem_idle b
      simpa [hb] using this
  · by_cases hb : b = a
    · subst hb
      rw [Function.update_self]
      by_cases hg : g = h
      · subst hg
        simp [hself, hstock]
      · rw [hother g hg, hkept.held_iff, hledger]
        simp [Ne.symm hg]
    · rw [Function.update_of_ne hb]
      by_cases hg : g = h
      · subst hg
        have hnone : ¬ (b ∈ stock ∧ ledger b = some g) := fun hmem => by
          have := (hkept.held_iff g b).mpr hmem
          rw [hempty] at this
          cases this
        simp [hself, Ne.symm hb, hnone]
      · rw [hother g hg, hkept.held_iff]

/-- Giving an item back. -/
theorem Kept.giveBack (hkept : Kept stock idle held ledger) {a : ι} {h : H}
    (hheld : held h = some a) (hself : held' h = none) (hother : ∀ g, g ≠ h → held' g = held g) :
    Kept stock (idle ++ [a]) held' (Function.update ledger a none) := by
  obtain ⟨hstock, hledger⟩ := (hkept.held_iff h a).mp hheld
  have hlent : a ∉ idle := fun hmem => by
    rw [((hkept.mem_idle a).mp hmem).2] at hledger
    cases hledger
  refine ⟨List.nodup_append.mpr ⟨hkept.nodup, by simp, ?_⟩, fun b => ?_, fun g b => ?_⟩
  · intro x hx y hy hxy
    rw [List.mem_singleton.mp hy] at hxy
    exact hlent (hxy ▸ hx)
  · by_cases hb : b = a
    · subst hb
      simp [hstock]
    · have := hkept.mem_idle b
      simpa [hb] using this
  · by_cases hg : g = h
    · subst hg
      rw [hself]
      by_cases hb : b = a
      · simp [hb]
      · have hnone : ¬ (b ∈ stock ∧ ledger b = some g) := fun hmem => by
          have := (hkept.held_iff g b).mpr hmem
          rw [hheld] at this
          cases this
          exact hb rfl
        simp [hb, hnone]
    · rw [hother g hg, hkept.held_iff]
      by_cases hb : b = a
      · subst hb
        simp [hledger, Ne.symm hg]
      · rw [Function.update_of_ne hb]
end

/-- Passing on what a holder has, if anything, to a holder with empty hands. -/
theorem Kept.pass [DecidableEq H] (hkept : Kept stock idle held ledger) {h g : H} (hne : g ≠ h)
    (hempty : held g = none) (hgiver : held' h = none) (htaker : held' g = held h)
    (hother : ∀ f, f ≠ h → f ≠ g → held' f = held f) :
    Kept stock idle held' fun a => if ledger a = some h then some g else ledger a := by
  refine ⟨hkept.nodup, fun a => ?_, fun f a => ?_⟩
  · rw [hkept.mem_idle]
    split
    · rename_i hledger
      simp [hledger]
    · exact .rfl
  · have hg : ¬ (a ∈ stock ∧ ledger a = some g) := fun hmem => by
      rw [(hkept.held_iff g a).mpr hmem] at hempty
      cases hempty
    by_cases hfh : f = h
    · subst hfh
      rw [hgiver]
      split <;> simp_all
    · by_cases hfg : f = g
      · subst hfg
        rw [htaker, hkept.held_iff]
        split <;> simp_all
      · rw [hother f hfh hfg, hkept.held_iff]
        split
        · rename_i hledger
          simp [hledger, Ne.symm hfh, Ne.symm hfg]
        · exact .rfl

/-- Only the hands have to stay as they are. -/
theorem Kept.congr (hkept : Kept stock idle held ledger) (h : ∀ g, held' g = held g) :
    Kept stock idle held' ledger where
  nodup := hkept.nodup
  mem_idle := hkept.mem_idle
  held_iff g a := by rw [h, hkept.held_iff]

/-- What is idle or in hand belongs to the stock. -/
theorem Kept.mem_stock (hkept : Kept stock idle held ledger) {a : ι}
    (h : a ∈ idle ∨ ∃ g, held g = some a) : a ∈ stock := by
  rcases h with h | ⟨g, h⟩
  · exact ((hkept.mem_idle a).mp h).1
  · exact ((hkept.held_iff g a).mp h).1

/-- An item is idle and in no hand, or not idle and in exactly one hand. -/
theorem Kept.idle_or_held (hkept : Kept stock idle held ledger) {a : ι} (h : a ∈ stock) :
    (a ∈ idle ∧ ∀ g, held g ≠ some a) ∨ (a ∉ idle ∧ ∃! g, held g = some a) := by
  simp only [hkept.mem_idle, ne_eq, hkept.held_iff, h, true_and]
  cases hledger : ledger a with
  | none => simp
  | some g => simp [ExistsUnique]

/-- When all hands are empty, the stock is complete. -/
theorem Kept.perm_stock (hkept : Kept stock idle held ledger) (hstock : stock.Nodup)
    (h : ∀ g, held g = none) : idle.Perm stock := by
  refine (List.perm_ext_iff_of_nodup hkept.nodup hstock).mpr fun a => ?_
  refine ⟨fun hmem => hkept.mem_stock (.inl hmem), fun hmem => ?_⟩
  rcases hkept.idle_or_held hmem with ⟨hidle, -⟩ | ⟨-, g, hg, -⟩
  · exact hidle
  · rw [h] at hg
    cases hg

end Lending
