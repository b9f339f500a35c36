import Mathlib.Data.Finset.Card
import Mathlib.Tactic.Common

/-!
# A condition variable that counts

Threads wait on the variable until something is available; every unit that becomes available
notifies one sleeper, if there is one. A notified thread checks again later, so other threads can
be faster, and a thread can wake up without being notified.

`Sound` is the invariant: as long as some thread sleeps, no more units are available than notified
threads are on their way. It is kept by every operation, so no notification is lost.
-/

/-- The threads in `wait`: those that sleep, those that were notified and have not checked again
yet, and those that woke up by themselves and have not checked again yet. -/
structure CondVar (T : Type) where
  sleeping : Finset T
  notified : Finset T
  woken : Finset T

namespace CondVar

variable {T : Type}

/-- No thread is in `wait`. -/
def initial : CondVar T :=
  ⟨∅, ∅, ∅⟩

/-- As long as some thread sleeps, every available unit has a notified thread that will come for
it. -/
structure Sound (available : Nat) (cv : CondVar T) : Prop where
  disjoint : Disjoint cv.sleeping cv.notified
  covered : cv.sleeping.Nonempty → available ≤ cv.notified.card

theorem sound_initial {available : Nat} : Sound available (initial : CondVar T) where
  disjoint := Finset.disjoint_empty_left _
  covered h := by simp [initial] at h

/-- When nobody sleeps, anything may become available. -/
theorem Sound.of_idle {available : Nat} {cv : CondVar T} (h : Sound available cv)
    (hidle : cv.sleeping = ∅) (available' : Nat) : Sound available' cv where
  disjoint := h.disjoint
  covered hs := by simp [hidle] at hs

variable [DecidableEq T]

/-- The threads in `wait`. -/
def waiting (cv : CondVar T) : Finset T :=
  cv.sleeping ∪ (cv.notified ∪ cv.woken)

/-- A thread finds nothing available and sleeps, for the first time or again. -/
def sleep (t : T) (cv : CondVar T) : CondVar T :=
  ⟨insert t cv.sleeping, cv.notified.erase t, cv.woken.erase t⟩

/-- A thread that does not sleep finds a unit available and takes it. -/
def proceed (t : T) (cv : CondVar T) : CondVar T :=
  ⟨cv.sleeping, cv.notified.erase t, cv.woken.erase t⟩

/-- A sleeper is notified. -/
def notify (t : T) (cv : CondVar T) : CondVar T :=
  ⟨cv.sleeping.erase t, insert t cv.notified, cv.woken⟩

/-- A sleeper wakes up by itself. -/
def wake (t : T) (cv : CondVar T) : CondVar T :=
  ⟨cv.sleeping.erase t, cv.notified, insert t cv.woken⟩

/-- Whoever waits after going to sleep waited before or has just begun to. -/
theorem mem_waiting_sleep {cv : CondVar T} {t u : T} (h : u ∈ (cv.sleep t).waiting) :
    u ∈ cv.waiting ∨ u = t := by
  simp only [waiting, sleep, Finset.mem_union, Finset.mem_insert, Finset.mem_erase] at h ⊢
  tauto

/-- Whoever waits after a thread has proceeded waited before, and is not that thread. -/
theorem mem_waiting_proceed {cv : CondVar T} {t u : T} (ht : t ∉ cv.sleeping)
    (h : u ∈ (cv.proceed t).waiting) : u ∈ cv.waiting ∧ u ≠ t := by
  simp only [waiting, proceed, Finset.mem_union, Finset.mem_erase] at h ⊢
  rcases h with h | h
  · exact ⟨.inl h, fun hu => ht (hu ▸ h)⟩
  · tauto

/-- Notifying a sleeper changes nothing in who waits. -/
theorem mem_waiting_notify {cv : CondVar T} {t u : T} (ht : t ∈ cv.sleeping)
    (h : u ∈ (cv.notify t).waiting) : u ∈ cv.waiting := by
  simp only [waiting, notify, Finset.mem_union, Finset.mem_insert, Finset.mem_erase] at h ⊢
  rcases h with ⟨-, h⟩ | (rfl | h) | h
  · exact .inl h
  · exact .inl ht
  · exact .inr (.inl h)
  · exact .inr (.inr h)

/-- Waking up by itself changes nothing in who waits. -/
theorem mem_waiting_wake {cv : CondVar T} {t u : T} (ht : t ∈ cv.sleeping)
    (h : u ∈ (cv.wake t).waiting) : u ∈ cv.waiting := by
  simp only [waiting, wake, Finset.mem_union, Finset.mem_insert, Finset.mem_erase] at h ⊢
  rcases h with ⟨-, h⟩ | h | rfl | h
  · exact .inl h
  · exact .inr (.inl h)
  · exact .inl ht
  · exact .inr (.inr h)

variable {available : Nat} {cv : CondVar T} {t : T}

/-- A thread that sleeps has found nothing. -/
theorem Sound.sleep (h : Sound 0 cv) : Sound 0 (cv.sleep t) where
  disjoint := by
    refine Finset.disjoint_left.mpr fun u hu hn => ?_
    rcases Finset.mem_insert.mp hu with rfl | hu
    · exact Finset.notMem_erase u _ hn
    · exact Finset.disjoint_left.mp h.disjoint hu (Finset.mem_of_mem_erase hn)
  covered _ := Nat.zero_le _

/-- A thread takes a unit, and with it at most its own notification. -/
theorem Sound.proceed (h : Sound (available + 1) cv) : Sound available (cv.proceed t) where
  disjoint := h.disjoint.mono_right (Finset.erase_subset _ _)
  covered hs := by
    have hcard := h.covered hs
    have hpred := Finset.pred_card_le_card_erase (s := cv.notified) (a := t)
    simp only [CondVar.proceed]
    omega

/-- A unit becomes available and one more thread is notified. -/
theorem Sound.notify (h : Sound available cv) (ht : t ∈ cv.sleeping) :
    Sound (available + 1) (cv.notify t) where
  disjoint := by
    refine Finset.disjoint_left.mpr fun u hu hn => ?_
    rcases Finset.mem_insert.mp hn with rfl | hn
    · exact Finset.notMem_erase u _ hu
    · exact Finset.disjoint_left.mp h.disjoint (Finset.mem_of_mem_erase hu) hn
  covered _ := by
    have hnew : t ∉ cv.notified := Finset.disjoint_left.mp h.disjoint ht
    simp only [CondVar.notify]
    rw [Finset.card_insert_of_notMem hnew]
    exact Nat.succ_le_succ (h.covered ⟨t, ht⟩)

/-- A thread that wakes up by itself takes no notification away. -/
theorem Sound.wake (h : Sound available cv) : Sound available (cv.wake t) where
  disjoint := h.disjoint.mono_left (Finset.erase_subset _ _)
  covered hs := h.covered (hs.mono (Finset.erase_subset _ _))

end CondVar
