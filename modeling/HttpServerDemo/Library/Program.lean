import Mathlib.Data.List.Basic
import Mathlib.Tactic.Common

/-!
# Sequential programs over atomic operations

A `Program` is a tree: it returns a value, or it issues an operation and continues with the
answer. `After p h q` says that `p`, whose operations were answered as the history `h` tells, has
become `q`. The history determines the program point, so what a caller needs to know about a
running program is read off its own history; `after_bind` and `after_op` compute it.
-/

namespace Interleaving

variable {Op : Type} {Res : Op → Type} {α β : Type}

/-- A program that issues operations `o : Op`, answered in `Res o`, and returns a value. -/
inductive Program (Op : Type) (Res : Op → Type) (α : Type) where
  | pure (a : α)
  | op (o : Op) (k : Res o → Program Op Res α)

namespace Program

/-- Continue with the result. -/
def bind : Program Op Res α → (α → Program Op Res β) → Program Op Res β
  | .pure a, f => f a
  | .op o k, f => .op o fun r => (k r).bind f

instance : Monad (Program Op Res) where
  pure := .pure
  bind := .bind

/-- The program that issues one operation and returns its answer. -/
def call (o : Op) : Program Op Res (Res o) :=
  .op o .pure

@[simp] theorem pure_bind (a : α) (f : α → Program Op Res β) : (pure a >>= f) = f a :=
  rfl

@[simp] theorem op_bind (o : Op) (k : Res o → Program Op Res α) (f : α → Program Op Res β) :
    (Program.op o k >>= f) = .op o fun r => k r >>= f :=
  rfl

@[simp] theorem call_bind (o : Op) (f : Res o → Program Op Res β) :
    (call o >>= f) = .op o f :=
  rfl

theorem bind_assoc {γ : Type} (p : Program Op Res α) (f : α → Program Op Res β)
    (g : β → Program Op Res γ) : ((p >>= f) >>= g) = p >>= fun a => f a >>= g := by
  induction p with
  | pure a => rfl
  | op o k ih => exact congrArg (Program.op o) (funext fun r => ih r)

end Program

/-- Where a program stands: at an operation it issues next, or at the value it returns. -/
inductive Head (Op : Type) (α : Type) where
  | issue (o : Op)
  | done (a : α)

/-- Where a program stands that goes on to apply `f` to the result. -/
def Head.map (f : α → β) : Head Op α → Head Op β
  | .issue o => .issue o
  | .done a => .done (f a)

theorem Head.map_eq_issue {x : Head Op α} {f : α → β} {o : Op} (h : x.map f = .issue o) :
    x = .issue o := by
  cases x with
  | issue o' => cases h; rfl
  | done a => cases h

theorem Head.map_eq_done {x : Head Op α} {f : α → β} {b : β} (h : x.map f = .done b) :
    ∃ a, x = .done a ∧ f a = b := by
  cases x with
  | issue o' => cases h
  | done a => cases h; exact ⟨a, rfl, rfl⟩

/-- Where a program stands. -/
def Program.head : Program Op Res α → Head Op α
  | .pure a => .done a
  | .op o _ => .issue o

/-- An operation with its answer. -/
abbrev Answer (Op : Type) (Res : Op → Type) : Type :=
  (o : Op) × Res o

/-- `After p h q`: with its operations answered as in `h`, `p` has become `q`. -/
inductive After : Program Op Res α → List (Answer Op Res) → Program Op Res α → Prop where
  | refl (p) : After p [] p
  | step {o : Op} {k : Res o → Program Op Res α} {r : Res o} {h : List (Answer Op Res)}
      {q : Program Op Res α} :
      After (k r) h q → After (.op o k) (⟨o, r⟩ :: h) q

/-- One more answer continues the program it was given to. -/
theorem After.snoc {p : Program Op Res α} {h : List (Answer Op Res)} {o : Op}
    {k : Res o → Program Op Res α} (hp : After p h (.op o k)) (r : Res o) :
    After p (h ++ [⟨o, r⟩]) (k r) := by
  generalize hq : Program.op o k = q at hp
  induction hp with
  | refl p => subst hq; exact .step (.refl _)
  | step _ ih => exact .step (ih hq)

/-- A returned program takes no answers. -/
@[simp] theorem after_pure {a : α} {h : List (Answer Op Res)} {q : Program Op Res α} :
    After (pure a) h q ↔ h = [] ∧ q = .pure a := by
  constructor
  · rintro ⟨⟩
    exact ⟨rfl, rfl⟩
  · rintro ⟨rfl, rfl⟩
    exact .refl _

/-- A program that issues an operation waits there or has been answered. -/
theorem after_op {o : Op} {k : Res o → Program Op Res α} {h : List (Answer Op Res)}
    {q : Program Op Res α} :
    After (.op o k) h q ↔
      (h = [] ∧ q = .op o k) ∨ ∃ r h', h = ⟨o, r⟩ :: h' ∧ After (k r) h' q := by
  constructor
  · rintro (_ | hk)
    · exact .inl ⟨rfl, rfl⟩
    · exact .inr ⟨_, _, rfl, hk⟩
  · rintro (⟨rfl, rfl⟩ | ⟨r, h', rfl, hk⟩)
    · exact .refl _
    · exact .step hk

/-- A program that returns a function of one answer waits for it or has been given it. -/
theorem after_op_pure {o : Op} {f : Res o → α} {h : List (Answer Op Res)}
    {q : Program Op Res α} :
    After (.op o fun r => .pure (f r)) h q ↔
      (h = [] ∧ q = .op o fun r => .pure (f r)) ∨ ∃ r, h = [⟨o, r⟩] ∧ q = .pure (f r) := by
  rw [after_op]
  refine or_congr_right ⟨?_, ?_⟩
  · rintro ⟨r, h', rfl, hk⟩
    obtain ⟨rfl, rfl⟩ := after_pure.mp hk
    exact ⟨r, rfl, rfl⟩
  · rintro ⟨r, rfl, rfl⟩
    exact ⟨r, [], rfl, .refl _⟩

/-- A sequence is inside its first part, waiting for an answer, or has left it. -/
theorem after_bind {p : Program Op Res α} {f : α → Program Op Res β} {h : List (Answer Op Res)}
    {q : Program Op Res β} :
    After (p >>= f) h q ↔
      (∃ o k, After p h (.op o k) ∧ q = .op o fun r => k r >>= f) ∨
      ∃ a h1 h2, h = h1 ++ h2 ∧ After p h1 (.pure a) ∧ After (f a) h2 q := by
  induction p generalizing h with
  -- the first part is over
  | pure a =>
      constructor
      · intro hq
        exact .inr ⟨a, [], h, rfl, .refl _, hq⟩
      · rintro (⟨o, k, hp, rfl⟩ | ⟨b, h1, h2, rfl, hp, hq⟩)
        · cases hp
        · cases hp
          exact hq
  | op o k ih =>
      rw [Program.op_bind, after_op]
      constructor
      · rintro (⟨rfl, rfl⟩ | ⟨r, h', rfl, hq⟩)
        · exact .inl ⟨o, k, .refl _, rfl⟩
        · rcases (ih r).mp hq with ⟨o', k', hp, rfl⟩ | ⟨a, h1, h2, rfl, hp, hq⟩
          · exact .inl ⟨o', k', .step hp, rfl⟩
          · exact .inr ⟨a, ⟨o, r⟩ :: h1, h2, rfl, .step hp, hq⟩
      · rintro (⟨o', k', hp, rfl⟩ | ⟨a, h1, h2, rfl, hp, hq⟩)
        · rcases after_op.mp hp with ⟨rfl, hop⟩ | ⟨r, h', rfl, hk⟩
          · cases hop
            exact .inl ⟨rfl, rfl⟩
          · exact .inr ⟨r, h', rfl, (ih r).mpr (.inl ⟨o', k', hk, rfl⟩)⟩
        · rcases after_op.mp hp with ⟨_, hop⟩ | ⟨r, h', rfl, hk⟩
          · cases hop
          · exact .inr ⟨r, h' ++ h2, rfl, (ih r).mpr (.inr ⟨a, h', h2, rfl, hk, hq⟩)⟩

/-- Applying a function to the result changes nothing before it. -/
theorem after_map {p : Program Op Res α} {f : α → β} {h : List (Answer Op Res)}
    {q : Program Op Res β} (hq : After (p >>= fun a => pure (f a)) h q) :
    ∃ q', After p h q' ∧ q.head = q'.head.map f := by
  rcases after_bind.mp hq with ⟨o, k, hp, rfl⟩ | ⟨a, h1, h2, rfl, hp, hq⟩
  · exact ⟨.op o k, hp, rfl⟩
  · obtain ⟨rfl, rfl⟩ := after_pure.mp hq
    exact ⟨.pure a, by simpa using hp, rfl⟩

end Interleaving
