import HttpServerDemo.Library.Program

/-!
# Safety of a program that runs alone

`Safe` is the weakest precondition of a program whose operations each have a precondition of their
own: whatever the operations answer, none is issued where it may not be, and what the program
returns satisfies the postcondition. `Safe.reaches` is what it is for.
-/

namespace Interleaving

variable {Op : Type} {Res : Op → Type} {World Choice α β : Type}

/-- The configurations that a program reaches when it runs alone. -/
inductive Reaches (exec : (o : Op) → Choice → World → Option (Res o × World)) :
    Program Op Res α → World → Program Op Res α → World → Prop where
  | refl (p w) : Reaches exec p w p w
  | step {o k ch r w w1 q w'} (hexec : exec o ch w = some (r, w1))
      (hrest : Reaches exec (k r) w1 q w') : Reaches exec (.op o k) w q w'

/-- Every operation is issued where it may be, and every value satisfies the postcondition. -/
def Safe (exec : (o : Op) → Choice → World → Option (Res o × World)) (Legal : World → Op → Prop) :
    Program Op Res α → World → (α → World → Prop) → Prop
  | .pure a, w, post => post a w
  | .op o k, w, post =>
      Legal w o ∧ ∀ ch r w', exec o ch w = some (r, w') → Safe exec Legal (k r) w' post

variable {exec : (o : Op) → Choice → World → Option (Res o × World)} {Legal : World → Op → Prop}
  {w w' : World} {post post' : α → World → Prop}

/-- A program that returns. -/
theorem Safe.pure {a : α} (h : post a w) :
    Safe exec Legal (pure a : Program Op Res α) w post :=
  h

/-- A program that issues an operation. -/
theorem Safe.op {o : Op} {k : Res o → Program Op Res α} (ho : Legal w o)
    (hk : ∀ ch r w', exec o ch w = some (r, w') → Safe exec Legal (k r) w' post) :
    Safe exec Legal (.op o k) w post :=
  ⟨ho, hk⟩

/-- A postcondition may be weakened. -/
theorem Safe.mono {p : Program Op Res α} (h : Safe exec Legal p w post)
    (hpost : ∀ a w, post a w → post' a w) : Safe exec Legal p w post' := by
  induction p generalizing w with
  | pure a => exact hpost a w h
  | op o k ih =>
      obtain ⟨ho, hk⟩ := h
      exact .op ho fun ch r w' hexec => ih r (hk ch r w' hexec)

/-- A sequence. -/
theorem Safe.bind {p : Program Op Res β} {f : β → Program Op Res α}
    (h : Safe exec Legal p w fun b w' => Safe exec Legal (f b) w' post) :
    Safe exec Legal (p >>= f) w post := by
  induction p generalizing w with
  | pure b => exact h
  | op o k ih =>
      obtain ⟨ho, hk⟩ := h
      exact .op ho fun ch r w' hexec => ih r (hk ch r w' hexec)

/-- A sequence whose first part has a specification. -/
theorem Safe.seq {p : Program Op Res β} {f : β → Program Op Res α} {mid : β → World → Prop}
    (h : Safe exec Legal p w mid) (hf : ∀ b w', mid b w' → Safe exec Legal (f b) w' post) :
    Safe exec Legal (p >>= f) w post :=
  .bind (h.mono hf)

/-- A program stays safe. -/
theorem Safe.reaches {p q : Program Op Res α} (h : Safe exec Legal p w post)
    (hreaches : Reaches exec p w q w') : Safe exec Legal q w' post := by
  induction hreaches with
  | refl => exact h
  | step hexec hrest ih => exact ih (h.2 _ _ _ hexec)

end Interleaving
