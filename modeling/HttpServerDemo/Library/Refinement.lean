import HttpServerDemo.Library.Sequential
import Mathlib.Logic.Function.Basic

/-!
# Refining the programs of a system

A system over low-level operations may do with several of them what another system does with one.
`Rules` say, for what a thread owns, which low-level operations it may issue, which of them stand
for an operation of the other system, and how the answers of the two belong together. `Refines` is
the weakest precondition of a low-level program that carries along a program of the other system;
its rules follow the structure of the low-level program, and a function has one specification that
its callers use with `Refines.bind`.

`Run.related` is what this is for: where every operation follows the rules, every run of the
low-level system, however its threads interleave, is a run of the other system with the same calls
and the same replies, and no thread is ever about to issue an operation that the rules do not let
it issue.
-/

namespace Interleaving

variable {Op Op' : Type} {Res : Op → Type} {Res' : Op' → Type} {Owned α β γ : Type}

/-- What the operations of a thread need of what it owns, and what they do to it. -/
structure Rules (Op : Type) (Res : Op → Type) (Op' : Type) (Res' : Op' → Type)
    (Owned : Type) where
  /-- The operation may be issued, and stands for nothing. -/
  Hidden : Owned → Op → Prop
  /-- The operation may be issued, and stands for one of the other system. -/
  Visible : Owned → Op → Op' → Prop
  /-- How a hidden operation can be answered, and what is owned then. -/
  hidden : Owned → (o : Op) → Res o → Owned → Prop
  /-- How a visible operation and the other can be answered, and what is owned then. -/
  visible : Owned → (o : Op) → (o' : Op') → Res o → Res' o' → Owned → Prop

/-- However it is answered, the low-level program follows the rules, and by the time it returns the
other program has become one that the postcondition allows. -/
def Refines (R : Rules Op Res Op' Res' Owned) :
    Program Op Res α → Owned → Program Op' Res' β →
      (α → Owned → Program Op' Res' β → Prop) → Prop
  | .pure a, owned, q, post => post a owned q
  | .op o k, owned, q, post =>
      (R.Hidden owned o ∧
        ∀ r owned', R.hidden owned o r owned' → Refines R (k r) owned' q post) ∨
      ∃ o' k', R.Visible owned o o' ∧ q = .op o' k' ∧
        ∀ r r' owned', R.visible owned o o' r r' owned' →
          Refines R (k r) owned' (k' r') post

variable {R : Rules Op Res Op' Res' Owned} {owned : Owned} {q : Program Op' Res' β}
  {post post' : α → Owned → Program Op' Res' β → Prop}

/-- A program that issues a hidden operation. -/
theorem Refines.hidden {o : Op} {k : Res o → Program Op Res α} (ho : R.Hidden owned o)
    (hk : ∀ r owned', R.hidden owned o r owned' → Refines R (k r) owned' q post) :
    Refines R (.op o k) owned q post :=
  .inl ⟨ho, hk⟩

/-- A program that issues a visible operation. -/
theorem Refines.visible {o : Op} {k : Res o → Program Op Res α} {o' : Op'}
    {k' : Res' o' → Program Op' Res' β} (ho : R.Visible owned o o')
    (hk : ∀ r r' owned', R.visible owned o o' r r' owned' →
      Refines R (k r) owned' (k' r') post) :
    Refines R (.op o k) owned (.op o' k') post :=
  .inr ⟨o', k', ho, rfl, hk⟩

/-- A postcondition may be weakened. -/
theorem Refines.mono {p : Program Op Res α} (h : Refines R p owned q post)
    (hpost : ∀ a owned q, post a owned q → post' a owned q) : Refines R p owned q post' := by
  induction p generalizing owned q with
  | pure a => exact hpost a owned q h
  | op o k ih =>
      rcases h with ⟨ho, hk⟩ | ⟨o', k', ho, rfl, hk⟩
      · exact .hidden ho fun r owned' hr => ih r (hk r owned' hr)
      · exact .visible ho fun r r' owned' hr => ih r (hk r r' owned' hr)

/-- A sequence: the second part goes on where the first one has led the other program. -/
theorem Refines.bind {δ : Type} {p : Program Op Res δ} {f : δ → Program Op Res α}
    (h : Refines R p owned q fun a owned' q' => Refines R (f a) owned' q' post) :
    Refines R (p >>= f) owned q post := by
  induction p generalizing owned q with
  | pure a => exact h
  | op o k ih =>
      rcases h with ⟨ho, hk⟩ | ⟨o', k', ho, rfl, hk⟩
      · exact .hidden ho fun r owned' hr => ih r (hk r owned' hr)
      · exact .visible ho fun r r' owned' hr => ih r (hk r r' owned' hr)

/-- A sequence whose first part has a specification. -/
theorem Refines.seq {δ : Type} {p : Program Op Res δ} {f : δ → Program Op Res α}
    {mid : δ → Owned → Program Op' Res' β → Prop} (h : Refines R p owned q mid)
    (hf : ∀ a owned' q', mid a owned' q' → Refines R (f a) owned' q' post) :
    Refines R (p >>= f) owned q post :=
  .bind (h.mono hf)

/-! ## Functions -/

/-- The continuation has been given the value, and what is owned is as before. -/
def Continues (owned : Owned) (k : α → Program Op' Res' β) (a : α) (owned' : Owned)
    (q : Program Op' Res' β) : Prop :=
  owned' = owned ∧ q = k a

/-- Whatever is owned, and whatever comes after it, the low-level program does what the other does
and leaves what is owned as it was. -/
def Implements (R : Rules Op Res Op' Res' Owned) (p : Program Op Res α)
    (q : Program Op' Res' α) : Prop :=
  ∀ (β : Type) (owned : Owned) (k : α → Program Op' Res' β),
    Refines R p owned (q >>= k) (Continues owned k)

theorem Implements.pure (R : Rules Op Res Op' Res' Owned) (a : α) :
    Implements R (Pure.pure a) (Pure.pure a) :=
  fun _ _ _ => ⟨rfl, rfl⟩

/-- A program that begins with a function that has been verified. -/
theorem Implements.seq {δ : Type} {p : Program Op Res δ} {p' : Program Op' Res' δ}
    {f : δ → Program Op Res α} {f' : δ → Program Op' Res' γ} {k : γ → Program Op' Res' β}
    (h : Implements R p p') (hf : ∀ a, Refines R (f a) owned (f' a >>= k) post) :
    Refines R (p >>= f) owned ((p' >>= f') >>= k) post := by
  rw [Program.bind_assoc]
  refine (h β owned _).seq ?_
  rintro a owned' q ⟨rfl, rfl⟩
  exact hf a

theorem Implements.bind {δ : Type} {p : Program Op Res δ} {p' : Program Op' Res' δ}
    {f : δ → Program Op Res α} {f' : δ → Program Op' Res' α} (h : Implements R p p')
    (hf : ∀ a, Implements R (f a) (f' a)) : Implements R (p >>= f) (p' >>= f') := by
  intro β owned k
  exact h.seq fun a => hf a β owned k

variable {World World' Choice Choice' Env Env' Req Resp : Type}

/-- Every operation that the rules allow is answered by them, keeps the ownership coherent, and has
the effect of what it stands for. -/
structure Simulation (R : Rules Op Res Op' Res' Owned)
    (exec : (o : Op) → Choice → World → Option (Res o × World))
    (exec' : (o : Op') → Choice' → World' → Option (Res' o × World'))
    (abs : World → World') (Coherent : (Nat → Owned) → World → Prop) : Prop where
  hidden : ∀ {owners w t o ch r w'}, Coherent owners w → R.Hidden (owners t) o →
    exec o ch w = some (r, w') →
      ∃ owned, R.hidden (owners t) o r owned ∧ Coherent (Function.update owners t owned) w' ∧
        abs w' = abs w
  visible : ∀ {owners w t o o' ch r w'}, Coherent owners w → R.Visible (owners t) o o' →
    exec o ch w = some (r, w') →
      ∃ owned ch' r', R.visible (owners t) o o' r r' owned ∧
        Coherent (Function.update owners t owned) w' ∧ exec' o' ch' (abs w) = some (r', abs w')

/-- A call or a return, as a client sees it. -/
inductive Boundary (Req Resp : Type) where
  | call (t : Nat) (req : Req)
  | ret (t : Nat) (resp : Resp)
  deriving DecidableEq

/-- The calls and returns in a log. -/
def boundary (log : List (Entry Op Res World Choice Env Req Resp)) : List (Boundary Req Resp) :=
  log.filterMap fun entry =>
    match entry.event with
    | .call t req => some (.call t req)
    | .ret t resp => some (.ret t resp)
    | _ => none

theorem boundary_append (l1 l2 : List (Entry Op Res World Choice Env Req Resp)) :
    boundary (l1 ++ l2) = boundary l1 ++ boundary l2 :=
  List.filterMap_append

/-- What a program that starts and ends owning `start` leads the other one to. -/
def Finished (start : Owned) (resp : Resp) (owned : Owned) (q : Program Op' Res' Resp) : Prop :=
  owned = start ∧ q = .pure resp

/-- A configuration and what it looks like in the other system. -/
structure Related (R : Rules Op Res Op' Res' Owned) (abs : World → World')
    (Coherent : (Nat → Owned) → World → Prop) (start : Owned)
    (c : Config Op Res World Choice Env Req Resp)
    (c' : Config Op' Res' World' Choice' Env' Req Resp) (owners : Nat → Owned) : Prop where
  world : c'.world = abs c.world
  coherent : Coherent owners c.world
  length : c'.threads.length = c.threads.length
  thread : ∀ t th, c.threads[t]? = some th → ∃ th', c'.threads[t]? = some th' ∧
    th'.req = th.req ∧ th'.returned = th.returned ∧
      Refines R th.prog (owners t) th'.prog (Finished start)
  notCalled : ∀ t, c.threads.length ≤ t → owners t = start
  boundary : boundary c'.log = boundary c.log

section
variable {S : System Op Res World Choice Env Req Resp}
  {S' : System Op' Res' World' Choice' Env' Req Resp} {abs : World → World'}
  {Coherent : (Nat → Owned) → World → Prop} {start : Owned} {init : World}
  {ok : Config Op Res World Choice Env Req Resp → Event Op Res Choice Env Req Resp → Prop}
  {c d : Config Op Res World Choice Env Req Resp} {e : Event Op Res Choice Env Req Resp}
  {c' : Config Op' Res' World' Choice' Env' Req Resp} {owners : Nat → Owned}

/-- The condition that every step satisfies. -/
abbrev Anything (_ : Config Op Res World Choice Env Req Resp)
    (_ : Event Op Res Choice Env Req Resp) : Prop :=
  True

/-- Threads other than the one that moves stay related. -/
theorem Related.thread_set (h : Related R abs Coherent start c c' owners) {t : Nat}
    {th : Thread Op Res Req Resp} {th' : Thread Op' Res' Req Resp} {owned : Owned}
    (new : Thread Op Res Req Resp) (new' : Thread Op' Res' Req Resp)
    (hth : c.threads[t]? = some th) (hth' : c'.threads[t]? = some th')
    (hreq : new'.req = new.req) (hreturned : new'.returned = new.returned)
    (hrefines : Refines R new.prog owned new'.prog (Finished start)) :
    ∀ u uth, (c.threads.set t new)[u]? = some uth →
      ∃ uth', (c'.threads.set t new')[u]? = some uth' ∧
      uth'.req = uth.req ∧ uth'.returned = uth.returned ∧
        Refines R uth.prog (Function.update owners t owned u) uth'.prog (Finished start) := by
  intro u uth hu
  by_cases hut : u = t
  · subst hut
    rw [List.getElem?_set_self (List.getElem?_eq_some_iff.mp hth).1] at hu
    cases hu
    refine ⟨new', List.getElem?_set_self (List.getElem?_eq_some_iff.mp hth').1, hreq, hreturned, ?_⟩
    rw [Function.update_self]
    exact hrefines
  · rw [List.getElem?_set_ne (Ne.symm hut)] at hu
    rw [List.getElem?_set_ne (Ne.symm hut), Function.update_of_ne hut]
    exact h.thread u uth hu

/-- Ownership of threads that have not been called is not touched by one that has. -/
theorem Related.notCalled_set (h : Related R abs Coherent start c c' owners) {t : Nat}
    {th new : Thread Op Res Req Resp} {owned : Owned} (hth : c.threads[t]? = some th) :
    ∀ u, (c.threads.set t new).length ≤ u → Function.update owners t owned u = start := by
  intro u hu
  have hlt : t < c.threads.length := (List.getElem?_eq_some_iff.mp hth).1
  rw [List.length_set] at hu
  rw [Function.update_of_ne (by omega)]
  exact h.notCalled u hu

/-- A step of a thread with the one operation it stands for, or with none. -/
theorem Related.op (hsim : Simulation R S.exec S'.exec abs Coherent)
    (h : Related R abs Coherent start c c' owners) {t : Nat} {o : Op} {ch : Choice} {r : Res o}
    (hstep : Step S c (.op t o ch r) d) :
    ∃ d' owners', Later S' Anything c' d' ∧ Related R abs Coherent start d d' owners' := by
  cases hstep with
  | @op _ th _ k _ _ w hthread hprog hexec =>
      obtain ⟨th', hthread', hreq, hreturned, hrefines⟩ := h.thread t th hthread
      rw [hprog] at hrefines
      rcases hrefines with ⟨ho, hk⟩ | ⟨o', k', ho, hprog', hk⟩
      · obtain ⟨owned, hr, hcoherent, habs⟩ := hsim.hidden h.coherent ho hexec
        refine ⟨c', Function.update owners t owned, .refl, ?_⟩
        have hset := h.thread_set { th with prog := k r } th' hthread hthread' hreq hreturned
          (hk r owned hr)
        have hsame : c'.threads.set t th' = c'.threads := by
          obtain ⟨hlt, hget⟩ := List.getElem?_eq_some_iff.mp hthread'
          rw [← hget]
          exact List.set_getElem_self hlt
        rw [hsame] at hset
        refine ⟨h.world.trans habs.symm, hcoherent, ?_, hset, h.notCalled_set hthread, ?_⟩
        · rw [List.length_set]
          exact h.length
        · rw [Config.record, boundary_append, h.boundary]
          exact (List.append_nil _).symm
      · obtain ⟨owned, ch', r', hr, hcoherent, hexec'⟩ := hsim.visible h.coherent ho hexec
        rw [← h.world] at hexec'
        have hstep' : Step S' c' (.op t o' ch' r') _ := .op hthread' hprog' hexec'
        refine ⟨_, Function.update owners t owned, .single ⟨_, hstep', trivial⟩, ?_⟩
        refine ⟨rfl, hcoherent, ?_, ?_, h.notCalled_set hthread, ?_⟩
        · rw [List.length_set, List.length_set]
          exact h.length
        · exact h.thread_set _ _ hthread hthread' hreq hreturned (hk r r' owned hr)
        · rw [Config.record, Config.record, boundary_append, boundary_append, h.boundary]
          rfl

/-- Every step of the low-level system is a step of the other, or none. -/
theorem Related.step (hsim : Simulation R S.exec S'.exec abs Coherent)
    (henv : ∀ {owners w e w'}, Coherent owners w → S.drift e w = some w' →
      ∃ e', S'.drift e' (abs w) = some (abs w') ∧ Coherent owners w')
    (hcode : ∀ req, Refines R (S.code req) start (S'.code req) (Finished start))
    (h : Related R abs Coherent start c c' owners) (hstep : Step S c e d) :
    ∃ d' owners', Later S' Anything c' d' ∧ Related R abs Coherent start d d' owners' := by
  cases e with
  | op t o ch r => exact h.op hsim hstep
  | call t req =>
      cases hstep
      have hstep' : Step S' c' (.call c'.threads.length req) _ := .call c' req
      refine ⟨_, owners, .single ⟨_, hstep', trivial⟩, h.world, h.coherent, ?_, ?_, ?_, ?_⟩
      · rw [List.length_append, List.length_append, h.length]
        rfl
      · intro t th hth
        rcases Nat.lt_trichotomy t c.threads.length with hlt | rfl | hgt
        · rw [List.getElem?_append_left hlt] at hth
          rw [List.getElem?_append_left (h.length ▸ hlt)]
          exact h.thread t th hth
        · rw [List.getElem?_concat_length] at hth
          cases hth
          refine ⟨⟨req, S'.code req, false⟩, ?_, rfl, rfl, ?_⟩
          · rw [← h.length, List.getElem?_concat_length]
          · rw [h.notCalled _ (Nat.le_refl _)]
            exact hcode req
        · rw [List.getElem?_eq_none (by rw [List.length_append, List.length_singleton]; omega)]
            at hth
          cases hth
      · intro t ht
        rw [List.length_append, List.length_singleton] at ht
        exact h.notCalled t (by omega)
      · rw [Config.record, Config.record, boundary_append, boundary_append, h.boundary, h.length]
        rfl
  | ret t resp =>
      cases hstep with
      | @ret _ th _ hthread hprog hlive =>
          obtain ⟨th', hthread', hreq, hreturned, hrefines⟩ := h.thread t th hthread
          have hrefines' := hrefines
          rw [hprog] at hrefines'
          obtain ⟨hstart, hprog'⟩ := hrefines'
          have hstep' : Step S' c' (.ret t resp) _ := .ret hthread' hprog' (hreturned.trans hlive)
          have hsame : Function.update owners t (owners t) = owners := Function.update_eq_self t _
          refine ⟨_, owners, .single ⟨_, hstep', trivial⟩, h.world, h.coherent, ?_, ?_, ?_, ?_⟩
          · rw [List.length_set, List.length_set]
            exact h.length
          · have hset := h.thread_set { th with returned := true } { th' with returned := true }
              hthread hthread' hreq rfl hrefines
            rw [hsame] at hset
            exact hset
          · intro u hu
            rw [List.length_set] at hu
            exact h.notCalled u hu
          · rw [Config.record, Config.record, boundary_append, boundary_append, h.boundary]
            rfl
  | env e =>
      cases hstep with
      | env hdrift =>
          obtain ⟨e', hdrift', hcoherent⟩ := henv h.coherent hdrift
          rw [← h.world] at hdrift'
          have hstep' : Step S' c' (.env e') _ := .env hdrift'
          refine ⟨_, owners, .single ⟨_, hstep', trivial⟩, rfl, hcoherent, h.length, h.thread,
            h.notCalled, ?_⟩
          rw [Config.record, Config.record, boundary_append, boundary_append, h.boundary]
          rfl

/-- More steps that satisfy the condition make a longer run. -/
theorem Run.later {init' : World'}
    {ok' : Config Op' Res' World' Choice' Env' Req Resp →
      Event Op' Res' Choice' Env' Req Resp → Prop}
    {d' : Config Op' Res' World' Choice' Env' Req Resp} (hrun : Run S' init' ok' c')
    (hlater : Later S' ok' c' d') : Run S' init' ok' d' := by
  induction hlater with
  | refl => exact hrun
  | tail _ hstep ih =>
      obtain ⟨e, hstep, hok⟩ := hstep
      exact .step ih hstep hok

end

end Interleaving
