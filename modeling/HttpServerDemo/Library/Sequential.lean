import HttpServerDemo.Library.Machine

/-!
# A program that runs alone

`alone` executes the operations of a program one after the other, each with its choice, with no
other thread in between. `alone_bind` cuts the execution of a sequence where its second part
begins, `Program.Returns` bounds what a program can return, and `Later.alone` says that what a
program does alone it can do as a thread of the machine.
-/

namespace Interleaving

variable {Op : Type} {Res : Op → Type} {World Choice Env Req Resp α β : Type}

section
variable (exec : (o : Op) → Choice → World → Option (Res o × World))

/-- Execute a program with one choice for each operation it issues: its value and the world it
leaves. `none` means that an operation cannot execute with its choice, or that there are too few
choices or too many. -/
def Program.alone : Program Op Res α → List Choice → World → Option (α × World)
  | .pure a, [], w => some (a, w)
  | .op o k, ch :: chs, w =>
      match exec o ch w with
      | some (r, w) => (k r).alone chs w
      | none => none
  | .pure _, _ :: _, _ => none
  | .op _ _, [], _ => none
end

variable {exec : (o : Op) → Choice → World → Option (Res o × World)} {chs : List Choice}
  {w w' : World}

/-- A value takes no choices and leaves the world as it is. -/
@[simp] theorem alone_pure {a b : α} :
    (pure a : Program Op Res α).alone exec chs w = some (b, w') ↔ chs = [] ∧ a = b ∧ w = w' := by
  cases chs with
  | nil =>
      show some (a, w) = some (b, w') ↔ _
      simp
  | cons ch chs =>
      show none = some (b, w') ↔ _
      simp

/-- An operation takes the first choice, and the program goes on with its answer. -/
theorem alone_op {o : Op} {k : Res o → Program Op Res α} {a : α} :
    (Program.op o k).alone exec chs w = some (a, w') ↔
      ∃ ch rest r w1, chs = ch :: rest ∧ exec o ch w = some (r, w1) ∧
        (k r).alone exec rest w1 = some (a, w') := by
  cases chs with
  | nil =>
      constructor
      · intro h
        cases h
      · rintro ⟨ch, rest, r, w1, hchs, -⟩
        cases hchs
  | cons ch chs =>
      simp only [Program.alone]
      cases hexec : exec o ch w with
      | none =>
          constructor
          · intro h
            cases h
          · rintro ⟨ch', rest, r, w1, hchs, hexec', -⟩
            cases hchs
            rw [hexec] at hexec'
            cases hexec'
      | some answer =>
          obtain ⟨r, w1⟩ := answer
          constructor
          · intro h
            exact ⟨ch, chs, r, w1, rfl, hexec, h⟩
          · rintro ⟨ch', rest, r', w1', hchs, hexec', h⟩
            cases hchs
            rw [hexec] at hexec'
            cases hexec'
            exact h

/-- A single operation takes one choice. -/
@[simp] theorem alone_call {o : Op} {r : Res o} :
    (Program.call o : Program Op Res (Res o)).alone exec chs w = some (r, w') ↔
      ∃ ch, chs = [ch] ∧ exec o ch w = some (r, w') := by
  rw [Program.call, alone_op]
  constructor
  · rintro ⟨ch, rest, r', w1, rfl, hexec, hpure⟩
    obtain ⟨rfl, rfl, rfl⟩ := alone_pure.mp hpure
    exact ⟨ch, rfl, hexec⟩
  · rintro ⟨ch, rfl, hexec⟩
    exact ⟨ch, [], r, w', rfl, hexec, alone_pure.mpr ⟨rfl, rfl, rfl⟩⟩

/-- A sequence executes its first part and then its second. -/
theorem alone_bind {p : Program Op Res α} {f : α → Program Op Res β} {b : β} :
    (p >>= f).alone exec chs w = some (b, w') ↔
      ∃ first second a w1, chs = first ++ second ∧ p.alone exec first w = some (a, w1) ∧
        (f a).alone exec second w1 = some (b, w') := by
  induction p generalizing chs w with
  | pure a =>
      constructor
      · intro h
        exact ⟨[], chs, a, w, rfl, alone_pure.mpr ⟨rfl, rfl, rfl⟩, h⟩
      · rintro ⟨first, second, a', w1, rfl, hp, h⟩
        obtain ⟨rfl, rfl, rfl⟩ := alone_pure.mp hp
        exact h
  | op o k ih =>
      rw [Program.op_bind, alone_op]
      constructor
      · rintro ⟨ch, rest, r, w1, rfl, hexec, h⟩
        obtain ⟨first, second, a, w2, rfl, hp, h⟩ := (ih r).mp h
        exact ⟨ch :: first, second, a, w2, rfl, alone_op.mpr ⟨ch, first, r, w1, rfl, hexec, hp⟩, h⟩
      · rintro ⟨first, second, a, w2, rfl, hp, h⟩
        obtain ⟨ch, rest, r, w1, rfl, hexec, hp⟩ := alone_op.mp hp
        exact ⟨ch, rest ++ second, r, w1, rfl, hexec,
          (ih r).mpr ⟨rest, second, a, w2, rfl, hp, h⟩⟩

/-- Applying a function to the value executes nothing. -/
theorem alone_map {p : Program Op Res α} {f : α → β} {b : β} :
    (p >>= fun a => pure (f a)).alone exec chs w = some (b, w') ↔
      ∃ a, p.alone exec chs w = some (a, w') ∧ f a = b := by
  rw [alone_bind]
  constructor
  · rintro ⟨first, second, a, w1, rfl, hp, h⟩
    obtain ⟨rfl, hb, rfl⟩ := alone_pure.mp h
    exact ⟨a, by rwa [List.append_nil], hb⟩
  · rintro ⟨a, hp, hb⟩
    exact ⟨chs, [], a, w', (List.append_nil _).symm, hp, alone_pure.mpr ⟨rfl, hb, rfl⟩⟩

/-- Whatever its operations answer, the program returns such a value. -/
def Program.Returns (P : α → Prop) : Program Op Res α → Prop
  | .pure a => P a
  | .op _ k => ∀ r, (k r).Returns P

/-- What a program returns, however it was answered. -/
theorem Program.Returns.after {P : α → Prop} {p : Program Op Res α} {h : List (Answer Op Res)}
    {a : α} (hp : p.Returns P) (hafter : After p h (.pure a)) : P a := by
  induction p generalizing h with
  | pure b =>
      obtain ⟨-, heq⟩ := after_pure.mp hafter
      cases heq
      exact hp
  | op o k ih =>
      rcases after_op.mp hafter with ⟨-, heq⟩ | ⟨r, h', -, hrest⟩
      · cases heq
      · exact ih r (hp r) hrest

/-- What a program that runs alone returns. -/
theorem Program.Returns.alone {P : α → Prop} {p : Program Op Res α} {a : α} (hp : p.Returns P)
    (h : p.alone exec chs w = some (a, w')) : P a := by
  induction p generalizing chs w with
  | pure b =>
      obtain ⟨-, rfl, -⟩ := alone_pure.mp h
      exact hp
  | op o k ih =>
      obtain ⟨ch, rest, r, w1, -, -, h⟩ := alone_op.mp h
      exact ih r (hp r) h

/-- A sequence returns what its second part returns. -/
theorem Program.Returns.bind {P : β → Prop} {f : α → Program Op Res β}
    (hf : ∀ a, (f a).Returns P) (p : Program Op Res α) : (p >>= f).Returns P := by
  induction p with
  | pure a => exact hf a
  | op o k ih => exact ih

/-- A thread can execute the next part of its program with no other thread in between. -/
theorem Later.alone {S : System Op Res World Choice Env Req Resp}
    {ok : Config Op Res World Choice Env Req Resp → Event Op Res Choice Env Req Resp → Prop}
    {c : Config Op Res World Choice Env Req Resp} {t : Nat} {th : Thread Op Res Req Resp}
    {p : Program Op Res α} {f : α → Program Op Res Resp} {chs : List Choice} {a : α} {w' : World}
    (h : p.alone S.exec chs c.world = some (a, w')) (hok : ∀ c o ch r, ok c (.op t o ch r))
    (hthread : c.threads[t]? = some th) (hprog : th.prog = p >>= f) :
    ∃ c', Later S ok c c' ∧ c'.world = w' ∧ c'.threads[t]? = some { th with prog := f a } := by
  induction p generalizing chs c th with
  | pure b =>
      obtain ⟨-, rfl, rfl⟩ := alone_pure.mp h
      exact ⟨c, .refl, rfl, by rw [hthread, ← Program.pure_bind b f, ← hprog]⟩
  | op o k ih =>
      obtain ⟨ch, rest, r, w1, -, hexec, h⟩ := alone_op.mp h
      have hstep : Step S c (.op t o ch r) _ := .op hthread hprog hexec
      have hlt : t < c.threads.length := (List.getElem?_eq_some_iff.mp hthread).1
      obtain ⟨c', hlater, hw, hthread'⟩ :=
        ih r (c := ⟨w1, c.threads.set t { th with prog := k r >>= f }, c.record (.op t o ch r)⟩)
          h (List.getElem?_set_self hlt) rfl
      exact ⟨c', .head ⟨_, hstep, hok _ _ _ _⟩ hlater, hw, hthread'⟩

end Interleaving
