import HttpServerDemo.Library.Machine
import Mathlib.Data.List.Nodup

/-!
# Linearization points

A sequential specification relates a request and its response to an abstract state before and
after. The calls of a run are linearizable when each takes effect at one instant between its start
and its return, and the effects, in the order of their instants, are a history that the
specification allows, with the responses that the calls return.

`EffectPoints` says which operation of a call is its effect: the operation changes the abstract
state as the specification says, it is the only one of its call, every other step leaves the
abstract state alone, and no call returns without it. `Run.linearizes` is the conclusion.
-/

namespace Interleaving

variable {Op : Type} {Res : Op → Type} {World Choice Env Req Resp A : Type}

/-- Call `t` has been made with this request. -/
def Made (c : Config Op Res World Choice Env Req Resp) (t : Nat) (req : Req) : Prop :=
  ∃ w, ⟨.call t req, w⟩ ∈ c.log

/-- A sequential specification: the responses to a request in a state, and the state after. -/
abbrev Spec (A Req Resp : Type) : Type := A → Req → Resp → A → Prop

/-- A call takes effect at an instant, and this is what it returns. -/
structure Effect (Req Resp : Type) where
  instant : Nat
  call : Nat
  req : Req
  resp : Resp

/-- The effects lead from the first state to the second, one after the other. -/
inductive Legal (spec : Spec A Req Resp) (a : A) : List (Effect Req Resp) → A → Prop where
  | nil : Legal spec a [] a
  | snoc {order b d b'} : Legal spec a order b → spec b d.req d.resp b' →
      Legal spec a (order ++ [d]) b'

/-- The effects of the covered calls of a run, in the order of their instants. -/
structure Linearizes (spec : Spec A Req Resp) (a b : A) (covered : Req → Prop)
    (c : Config Op Res World Choice Env Req Resp) (order : List (Effect Req Resp)) : Prop where
  legal : Legal spec a order b
  sorted : order.Pairwise fun d d' => d.instant < d'.instant
  once : (order.map Effect.call).Nodup
  called : ∀ d ∈ order, covered d.req ∧ Made c d.call d.req
  /-- A call takes effect with an operation of its own. -/
  taken : ∀ d ∈ order, ∃ (o : Op) (ch : Choice) (r : Res o) (w : World),
    c.log[d.instant]? = some ⟨.op d.call o ch r, w⟩
  /-- A call that has returned took effect before, with the response that it returns. -/
  returned : ∀ i t req resp w, Made c t req → covered req →
    c.log[i]? = some ⟨.ret t resp, w⟩ → ∃ n < i, ⟨n, t, req, resp⟩ ∈ order

/-- Which operation of a call is its effect: `effect` gives the response that the call returns. -/
structure EffectPoints (S : System Op Res World Choice Env Req Resp) (init : World)
    (ok : Config Op Res World Choice Env Req Resp → Event Op Res Choice Env Req Resp → Prop)
    (abs : World → A) (spec : Spec A Req Resp) (covered : Req → Prop)
    (effect : Req → (o : Op) → Res o → World → Option Resp) : Prop where
  /-- The effect of a call is what the specification says, and the call had none before. -/
  takes : ∀ {c c' : Config Op Res World Choice Env Req Resp} {t : Nat} {o : Op} {ch : Choice}
    {r : Res o} {req : Req} {resp : Resp}, Run S init ok c → Step S c (.op t o ch r) c' →
    ok c (.op t o ch r) → Made c t req → covered req → effect req o r c.world = some resp →
    spec (abs c.world) req resp (abs c'.world) ∧
      ∀ (i : Nat) (o' : Op) (ch' : Choice) (r' : Res o') (w' : World),
        c.log[i]? = some ⟨.op t o' ch' r', w'⟩ → effect req o' r' w' = none
  /-- Every other step leaves the abstract state as it is. -/
  silent : ∀ {c c' : Config Op Res World Choice Env Req Resp}
    {e : Event Op Res Choice Env Req Resp}, Run S init ok c → Step S c e c' → ok c e →
    (∀ t o ch r req, e = .op t o ch r → Made c t req → covered req →
      effect req o r c.world = none) → abs c'.world = abs c.world
  /-- A call that returns took effect, with the response that it returns. -/
  returns : ∀ {c c' : Config Op Res World Choice Env Req Resp} {t : Nat} {resp : Resp} {req : Req},
    Run S init ok c → Step S c (.ret t resp) c' → Made c t req → covered req →
    ∃ (i : Nat) (o : Op) (ch : Choice) (r : Res o) (w : World),
      c.log[i]? = some ⟨.op t o ch r, w⟩ ∧ effect req o r w = some resp

variable {S : System Op Res World Choice Env Req Resp} {init : World}
  {ok : Config Op Res World Choice Env Req Resp → Event Op Res Choice Env Req Resp → Prop}
  {abs : World → A} {spec : Spec A Req Resp} {covered : Req → Prop}
  {effect : Req → (o : Op) → Res o → World → Option Resp}
  {c c' : Config Op Res World Choice Env Req Resp} {e : Event Op Res Choice Env Req Resp}
  {order : List (Effect Req Resp)}

/-- A call that returns before another one starts takes effect before it. -/
theorem Linearizes.real_time {a b : A} (h : Linearizes spec a b covered c order)
    (hrun : Run S init ok c) {d d' : Effect Req Resp} (hd : d ∈ order) (hd' : d' ∈ order)
    {i j : Nat} {resp : Resp} {w w' : World} (hret : c.log[i]? = some ⟨.ret d.call resp, w⟩)
    (hcall : c.log[j]? = some ⟨.call d'.call d'.req, w'⟩) (hij : i < j) :
    d.instant < d'.instant := by
  obtain ⟨o, ch, r, w1, hfirst⟩ := h.taken d hd
  obtain ⟨o', ch', r', w2, hsecond⟩ := h.taken d' hd'
  have hbefore := hrun.op_lt_ret hfirst hret
  have hafter := hrun.call_lt_op hcall hsecond
  omega

/-- The effects of a run, each with the operation it was taken with. -/
structure Taken (abs : World → A) (spec : Spec A Req Resp) (covered : Req → Prop)
    (effect : Req → (o : Op) → Res o → World → Option Resp) (init : World)
    (c : Config Op Res World Choice Env Req Resp) (order : List (Effect Req Resp)) : Prop where
  legal : Legal spec (abs init) order (abs c.world)
  sorted : order.Pairwise fun d d' => d.instant < d'.instant
  once : (order.map Effect.call).Nodup
  mem_iff : ∀ d, d ∈ order ↔ covered d.req ∧ Made c d.call d.req ∧
    ∃ (o : Op) (ch : Choice) (r : Res o) (w : World),
      c.log[d.instant]? = some ⟨.op d.call o ch r, w⟩ ∧ effect d.req o r w = some d.resp

theorem Made.unique {t : Nat} {req req' : Req} (h : Made c t req) (hrun : Run S init ok c)
    (h' : Made c t req') : req = req' := by
  obtain ⟨w, hw⟩ := h
  obtain ⟨w', hw'⟩ := h'
  exact hrun.call_unique hw hw'

/-- What has been made stays made. -/
theorem Made.step {t : Nat} {req : Req} (h : Made c t req) (hstep : Step S c e c') :
    Made c' t req := by
  obtain ⟨w, hw⟩ := h
  refine ⟨w, ?_⟩
  rw [hstep.log_eq]
  exact List.mem_append_left _ hw

/-- A call is made by its own step only. -/
theorem Made.before {t : Nat} {req : Req} (h : Made c' t req) (hstep : Step S c e c')
    (hne : e ≠ .call t req) : Made c t req := by
  obtain ⟨w, hw⟩ := h
  rw [hstep.log_eq] at hw
  rcases List.mem_append.mp hw with hw | hw
  · exact ⟨w, hw⟩
  · cases List.mem_singleton.mp hw
    exact absurd rfl hne

/-- A call that executes an operation is not one that starts. -/
theorem Run.ne_call_of_op (hrun : Run S init ok c) {t i : Nat} {o : Op} {ch : Choice} {r : Res o}
    {w : World} (hi : c.log[i]? = some ⟨.op t o ch r, w⟩) (hstep : Step S c e c') (req : Req) :
    e ≠ .call t req := by
  rintro rfl
  cases hstep
  have hmem := mem_own hi
  rw [hrun.own_eq_nil (Nat.le_refl _)] at hmem
  cases hmem

/-- A step that is the effect of no covered call adds none. -/
theorem Taken.skip (h : Taken abs spec covered effect init c order) (hrun : Run S init ok c)
    (hstep : Step S c e c') (habs : abs c'.world = abs c.world)
    (hnone : ∀ t o ch r req, e = .op t o ch r → Made c t req → covered req →
      effect req o r c.world = none) : Taken abs spec covered effect init c' order := by
  refine ⟨habs ▸ h.legal, h.sorted, h.once, fun d => ?_⟩
  rw [h.mem_iff]
  constructor
  · rintro ⟨hcovered, hmade, o, ch, r, w, hi, heffect⟩
    exact ⟨hcovered, hmade.step hstep, o, ch, r, w, hstep.getElem?_log.mpr (.inl hi), heffect⟩
  · rintro ⟨hcovered, hmade, o, ch, r, w, hi, heffect⟩
    rcases hstep.getElem?_log.mp hi with hi | ⟨-, heq⟩
    · exact ⟨hcovered, hmade.before hstep (hrun.ne_call_of_op hi hstep _), o, ch, r, w, hi, heffect⟩
    · -- the new entry would be an effect
      cases heq
      have hmade' := hmade.before hstep (by simp)
      rw [hnone _ o ch r _ rfl hmade' hcovered] at heffect
      cases heffect

/-- A step that is the effect of a covered call is the last one. -/
theorem Taken.take (h : Taken abs spec covered effect init c order)
    (hpoints : EffectPoints S init ok abs spec covered effect) (hrun : Run S init ok c) {t : Nat}
    {o : Op} {ch : Choice} {r : Res o} {req : Req} {resp : Resp}
    (hstep : Step S c (.op t o ch r) c') (hok : ok c (.op t o ch r)) (hmade : Made c t req)
    (hcovered : covered req) (heffect : effect req o r c.world = some resp) :
    Taken abs spec covered effect init c' (order ++ [⟨c.log.length, t, req, resp⟩]) := by
  obtain ⟨hspec, hnone⟩ := hpoints.takes hrun hstep hok hmade hcovered heffect
  have hother : ∀ d ∈ order, d.call ≠ t := by
    rintro d hd rfl
    obtain ⟨-, hmade', o', ch', r', w', hi, heffect'⟩ := (h.mem_iff d).mp hd
    rw [hmade'.unique hrun hmade, hnone _ _ _ _ _ hi] at heffect'
    cases heffect'
  refine ⟨h.legal.snoc hspec, ?_, ?_, fun d => ?_⟩
  · refine List.pairwise_append.mpr ⟨h.sorted, List.pairwise_singleton _ _, ?_⟩
    intro d hd d' hd'
    rw [List.mem_singleton.mp hd']
    obtain ⟨-, -, _, _, _, _, hi, -⟩ := (h.mem_iff d).mp hd
    exact (List.getElem?_eq_some_iff.mp hi).1
  · rw [List.map_append]
    refine List.nodup_append.mpr ⟨h.once, List.nodup_singleton _, ?_⟩
    rintro u hu v hv rfl
    obtain ⟨d, hd, rfl⟩ := List.mem_map.mp hu
    exact hother d hd (List.mem_singleton.mp hv)
  · rw [List.mem_append, List.mem_singleton, h.mem_iff]
    constructor
    · rintro (⟨hd, hmade', o', ch', r', w', hi, heffect'⟩ | rfl)
      · exact ⟨hd, hmade'.step hstep, o', ch', r', w', hstep.getElem?_log.mpr (.inl hi), heffect'⟩
      · exact ⟨hcovered, hmade.step hstep, o, ch, r, c.world,
          hstep.getElem?_log.mpr (.inr ⟨rfl, rfl⟩), heffect⟩
    · rintro ⟨hd, hmade', o', ch', r', w', hi, heffect'⟩
      have hmade' := hmade'.before hstep (by simp)
      rcases hstep.getElem?_log.mp hi with hi | ⟨hlast, heq⟩
      · exact .inl ⟨hd, hmade', o', ch', r', w', hi, heffect'⟩
      · obtain ⟨n, u, req', resp'⟩ := d
        cases heq
        cases hmade'.unique hrun hmade
        cases heffect.symm.trans heffect'
        exact .inr (congrArg (Effect.mk · _ _ _) hlast)

/-- The effects of every run. -/
theorem Run.taken (hpoints : EffectPoints S init ok abs spec covered effect)
    (hrun : Run S init ok c) : ∃ order, Taken abs spec covered effect init c order := by
  induction hrun with
  | start =>
      refine ⟨[], .nil, .nil, List.nodup_nil, fun d => ⟨fun hd => (List.not_mem_nil hd).elim, ?_⟩⟩
      rintro ⟨-, -, o, ch, r, w, hi, -⟩
      simp [Config.initial] at hi
  | @step c e c' hrun hstep hok ih =>
      obtain ⟨order, htaken⟩ := ih
      by_cases heffect : ∃ t o ch r req resp, e = .op t o ch r ∧ Made c t req ∧
          covered req ∧ effect req o r c.world = some resp
      · obtain ⟨t, o, ch, r, req, resp, rfl, hmade, hcovered, heffect⟩ := heffect
        exact ⟨_, htaken.take hpoints hrun hstep hok hmade hcovered heffect⟩
      · have hnone : ∀ t o ch r req, e = .op t o ch r → Made c t req → covered req →
            effect req o r c.world = none := by
          intro t o ch r req he hmade hcovered
          rw [Option.eq_none_iff_forall_ne_some]
          intro resp hresp
          exact heffect ⟨t, o, ch, r, req, resp, he, hmade, hcovered, hresp⟩
        exact ⟨order, htaken.skip hrun hstep (hpoints.silent hrun hstep hok hnone) hnone⟩

/-- Every run is linearizable. -/
theorem Run.linearizes (hpoints : EffectPoints S init ok abs spec covered effect)
    (hrun : Run S init ok c) :
    ∃ order, Linearizes spec (abs init) (abs c.world) covered c order := by
  obtain ⟨order, htaken⟩ := hrun.taken hpoints
  refine ⟨order, htaken.legal, htaken.sorted, htaken.once, fun d hd => ?_, fun d hd => ?_, ?_⟩
  · obtain ⟨hcovered, hmade, -⟩ := (htaken.mem_iff d).mp hd
    exact ⟨hcovered, hmade⟩
  · obtain ⟨-, -, o, ch, r, w, hi, -⟩ := (htaken.mem_iff d).mp hd
    exact ⟨o, ch, r, w, hi⟩
  · intro i t req resp w hmade hcovered hret
    obtain ⟨c1, c2, hrun1, hlog, -, hstep, -⟩ := hrun.at hret
    have hprefix : c1.log <+: c.log := hlog ▸ List.take_prefix i c.log
    have hmade1 : Made c1 t req := by
      cases hstep with
      | @ret _ th _ hthread hprog hlive =>
          -- the thread of the call has the request that the call was made with
          obtain ⟨w1, hmem⟩ := hrun1.thread_called hthread
          have hsame : th.req = req :=
            Made.unique ⟨w1, hprefix.subset hmem⟩ hrun hmade
          exact ⟨w1, hsame ▸ hmem⟩
    obtain ⟨n, o, ch, r, wn, hn, heffect⟩ := hpoints.returns hrun1 hstep hmade1 hcovered
    have hni : n < i := by
      have := (List.getElem?_eq_some_iff.mp hn).1
      rw [hlog, List.length_take] at this
      omega
    rw [hlog, List.getElem?_take_of_lt hni] at hn
    exact ⟨n, hni, (htaken.mem_iff _).mpr ⟨hcovered, hmade, o, ch, r, wn, hn, heffect⟩⟩

end Interleaving
