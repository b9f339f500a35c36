import HttpServerDemo.Library.Program
import Mathlib.Logic.Relation

/-!
# Concurrent calls over a shared world

A `System` gives every operation its effect on a shared world, the environment its own moves,
and every request its program. A `Config` holds the world, one thread for each call made so far
and the log of everything that happened, each entry with the world it happened in. Any number of
calls may be in progress; one step starts a call, executes one operation of one thread, lets a
thread return, or is a move of the environment.

`Run` collects the configurations reached by steps that all satisfy a condition. Two facts carry
the reasoning about runs. `Run.at` cuts a run at any entry of its log, so that what holds of
every run holds at every instant. `Run.thread_after` says that a thread is where its own history
leads its program.
-/

namespace Interleaving

/-- The effect of operations and of environment moves on a shared world, and the program of each
request. A choice resolves what an operation leaves open; `none` means that the operation cannot
execute with that choice. -/
structure System (Op : Type) (Res : Op → Type) (World Choice Env Req Resp : Type) where
  exec : (o : Op) → Choice → World → Option (Res o × World)
  drift : Env → World → Option World
  code : Req → Program Op Res Resp

/-- What can happen. Calls are numbered in the order in which they start. -/
inductive Event (Op : Type) (Res : Op → Type) (Choice Env Req Resp : Type) where
  | call (t : Nat) (req : Req)
  | op (t : Nat) (o : Op) (choice : Choice) (r : Res o)
  | ret (t : Nat) (resp : Resp)
  | env (e : Env)

/-- An event with the world it happened in. -/
structure Entry (Op : Type) (Res : Op → Type) (World Choice Env Req Resp : Type) where
  event : Event Op Res Choice Env Req Resp
  before : World

/-- A call: its request, what is left of its program, and whether it has returned. -/
structure Thread (Op : Type) (Res : Op → Type) (Req Resp : Type) where
  req : Req
  prog : Program Op Res Resp
  returned : Bool

/-- The shared world, the calls made so far, and the log of the run. -/
structure Config (Op : Type) (Res : Op → Type) (World Choice Env Req Resp : Type) where
  world : World
  threads : List (Thread Op Res Req Resp)
  log : List (Entry Op Res World Choice Env Req Resp)

variable {Op : Type} {Res : Op → Type} {World Choice Env Req Resp : Type}

/-- Nothing has happened yet. -/
def Config.initial (w : World) : Config Op Res World Choice Env Req Resp :=
  ⟨w, [], []⟩

/-- The log with an event that happens now. -/
def Config.record (c : Config Op Res World Choice Env Req Resp)
    (e : Event Op Res Choice Env Req Resp) : List (Entry Op Res World Choice Env Req Resp) :=
  c.log ++ [⟨e, c.world⟩]

/-- No call is in progress. -/
def Config.Quiescent (c : Config Op Res World Choice Env Req Resp) : Prop :=
  ∀ th ∈ c.threads, th.returned = true

instance (c : Config Op Res World Choice Env Req Resp) : Decidable c.Quiescent :=
  inferInstanceAs (Decidable (∀ th ∈ c.threads, th.returned = true))

/-- The answers that thread `t` has received. -/
def own (t : Nat) (log : List (Entry Op Res World Choice Env Req Resp)) :
    List (Answer Op Res) :=
  log.filterMap fun entry =>
    match entry.event with
    | .op u o _ r => if u = t then some ⟨o, r⟩ else none
    | _ => none

@[simp] theorem own_nil (t : Nat) :
    own t ([] : List (Entry Op Res World Choice Env Req Resp)) = [] :=
  rfl

theorem own_append (t : Nat) (l1 l2 : List (Entry Op Res World Choice Env Req Resp)) :
    own t (l1 ++ l2) = own t l1 ++ own t l2 :=
  List.filterMap_append

@[simp] theorem own_op_self (t : Nat) (o : Op) (ch : Choice) (r : Res o) (w : World) :
    own t [(⟨.op t o ch r, w⟩ : Entry Op Res World Choice Env Req Resp)] = [⟨o, r⟩] := by
  simp [own]

theorem own_op_ne {t u : Nat} (h : u ≠ t) (o : Op) (ch : Choice) (r : Res o) (w : World) :
    own t [(⟨.op u o ch r, w⟩ : Entry Op Res World Choice Env Req Resp)] = [] := by
  simp [own, h]

@[simp] theorem own_call (t u : Nat) (req : Req) (w : World) :
    own t [(⟨.call u req, w⟩ : Entry Op Res World Choice Env Req Resp)] = [] :=
  rfl

@[simp] theorem own_ret (t u : Nat) (resp : Resp) (w : World) :
    own t [(⟨.ret u resp, w⟩ : Entry Op Res World Choice Env Req Resp)] = [] :=
  rfl

@[simp] theorem own_env (t : Nat) (e : Env) (w : World) :
    own t [(⟨.env e, w⟩ : Entry Op Res World Choice Env Req Resp)] = [] :=
  rfl

/-- An operation in the log is in the history of its thread. -/
theorem mem_own {t i : Nat} {log : List (Entry Op Res World Choice Env Req Resp)} {o : Op}
    {ch : Choice} {r : Res o} {w : World} (h : log[i]? = some ⟨.op t o ch r, w⟩) :
    (⟨o, r⟩ : Answer Op Res) ∈ own t log := by
  refine List.mem_filterMap.mpr ⟨_, List.mem_of_getElem? h, ?_⟩
  simp

/-- A history only grows. -/
theorem own_mono (t : Nat) {l1 l2 : List (Entry Op Res World Choice Env Req Resp)}
    (h : l1 <+: l2) : own t l1 <+: own t l2 := by
  obtain ⟨l, rfl⟩ := h
  rw [own_append]
  exact List.prefix_append _ _

/-- The place of an answer in the log, and the history before it. -/
theorem own_at {t i : Nat} {log : List (Entry Op Res World Choice Env Req Resp)} {o : Op}
    {r : Res o} {h1 h2 : List (Answer Op Res)} (h : own t (log.take i) = h1 ++ ⟨o, r⟩ :: h2) :
    ∃ j ch w, j < i ∧ log[j]? = some ⟨.op t o ch r, w⟩ ∧ own t (log.take j) = h1 := by
  obtain ⟨l1, l2, htake, rfl, hl2⟩ := List.filterMap_eq_append_iff.mp h
  obtain ⟨l3, entry, l4, rfl, hl3, hentry, -⟩ := List.filterMap_eq_cons_iff.mp hl2
  -- the entry stands behind those of the earlier answers and the entries of other threads
  have hlt : (l1 ++ l3).length < i := by
    have := congrArg List.length htake
    simp only [List.length_take, List.length_append, List.length_cons] at this ⊢
    omega
  have htake' : log.take (l1 ++ l3).length = l1 ++ l3 := by
    have := congrArg (List.take (l1 ++ l3).length) htake
    rwa [List.take_take, Nat.min_eq_left (Nat.le_of_lt hlt), ← List.append_assoc,
      List.take_left'] at this
    rfl
  have hget : log[(l1 ++ l3).length]? = some entry := by
    rw [← List.getElem?_take_of_lt hlt, htake, ← List.append_assoc, List.getElem?_append_right]
    · simp
    · exact Nat.le_refl _
  obtain ⟨event, w⟩ := entry
  cases event with
  | op u o' ch r' =>
      dsimp only at hentry
      split at hentry
      · rename_i hu
        subst hu
        cases hentry
        refine ⟨_, ch, w, hlt, hget, ?_⟩
        rw [htake', own_append]
        show own u l1 ++ List.filterMap _ l3 = own u l1
        rw [List.filterMap_eq_nil_iff.mpr hl3, List.append_nil]
      · cases hentry
  | call | ret | env => cases hentry

section
variable (S : System Op Res World Choice Env Req Resp)

/-- One step of the whole system. -/
inductive Step : Config Op Res World Choice Env Req Resp → Event Op Res Choice Env Req Resp →
    Config Op Res World Choice Env Req Resp → Prop where
  | call (c) (req : Req) :
      Step c (.call c.threads.length req)
        ⟨c.world, c.threads ++ [⟨req, S.code req, false⟩],
          c.record (.call c.threads.length req)⟩
  | op {c t th o k ch r w} (hthread : c.threads[t]? = some th) (hprog : th.prog = .op o k)
      (hexec : S.exec o ch c.world = some (r, w)) :
      Step c (.op t o ch r)
        ⟨w, c.threads.set t { th with prog := k r }, c.record (.op t o ch r)⟩
  | ret {c t th resp} (hthread : c.threads[t]? = some th) (hprog : th.prog = .pure resp)
      (hlive : th.returned = false) :
      Step c (.ret t resp)
        ⟨c.world, c.threads.set t { th with returned := true }, c.record (.ret t resp)⟩
  | env {c e w} (hdrift : S.drift e c.world = some w) :
      Step c (.env e) ⟨w, c.threads, c.record (.env e)⟩

/-- The configurations reached from `w` by steps that satisfy `ok`. -/
inductive Run (w : World)
    (ok : Config Op Res World Choice Env Req Resp → Event Op Res Choice Env Req Resp → Prop) :
    Config Op Res World Choice Env Req Resp → Prop where
  | start : Run w ok (.initial w)
  | step {c e c'} : Run w ok c → Step S c e c' → ok c e → Run w ok c'

/-- The second configuration is reached from the first by steps that satisfy `ok`. -/
def Later (ok : Config Op Res World Choice Env Req Resp → Event Op Res Choice Env Req Resp → Prop) :
    Config Op Res World Choice Env Req Resp → Config Op Res World Choice Env Req Resp → Prop :=
  Relation.ReflTransGen fun c c' => ∃ e, Step S c e c' ∧ ok c e
end

variable {S : System Op Res World Choice Env Req Resp} {init : World}
  {ok ok' : Config Op Res World Choice Env Req Resp → Event Op Res Choice Env Req Resp → Prop}
  {c c' : Config Op Res World Choice Env Req Resp} {e : Event Op Res Choice Env Req Resp}

/-- A step appends its event to the log. -/
theorem Step.log_eq (h : Step S c e c') : c'.log = c.log ++ [⟨e, c.world⟩] := by
  cases h <;> rfl

/-- The entry that a step appends. -/
theorem Step.getElem?_log (h : Step S c e c') {i : Nat}
    {entry : Entry Op Res World Choice Env Req Resp} :
    c'.log[i]? = some entry ↔
      c.log[i]? = some entry ∨ (i = c.log.length ∧ entry = ⟨e, c.world⟩) := by
  rw [h.log_eq]
  rcases Nat.lt_trichotomy i c.log.length with hlt | heq | hgt
  · rw [List.getElem?_append_left hlt]
    exact ⟨.inl, fun h => h.elim id fun h => absurd h.1 (Nat.ne_of_lt hlt)⟩
  · subst heq
    simp [eq_comm]
  · have hnone : (c.log ++ [(⟨e, c.world⟩ : Entry Op Res World Choice Env Req Resp)])[i]? = none :=
      List.getElem?_eq_none (by simpa [Nat.succ_le_iff] using hgt)
    have hnone' : c.log[i]? = none := List.getElem?_eq_none (Nat.le_of_lt hgt)
    rw [hnone, hnone']
    simp [Nat.ne_of_gt hgt]

/-- A step extends the history of the thread that executes an operation. -/
theorem Step.mem_own (h : Step S c e c') {t : Nat} {o : Op} {r : Res o} :
    (⟨o, r⟩ : Answer Op Res) ∈ own t c'.log ↔
      (⟨o, r⟩ : Answer Op Res) ∈ own t c.log ∨ ∃ ch, e = .op t o ch r := by
  rw [h.log_eq, own_append, List.mem_append]
  refine or_congr_right ?_
  cases e with
  | op u o' ch r' =>
      by_cases hu : u = t
      · subst hu
        rw [own_op_self, List.mem_singleton]
        constructor
        · intro heq
          cases heq
          exact ⟨ch, rfl⟩
        · rintro ⟨ch', heq⟩
          cases heq
          rfl
      · rw [own_op_ne hu]
        simp [hu]
  | call | ret | env => simp

/-- A run whose steps satisfy a condition satisfies every one that its steps imply. -/
theorem Run.mono (h : Run S init ok c)
    (himp : ∀ c e c', Run S init ok c → Step S c e c' → ok c e → ok' c e) :
    Run S init ok' c := by
  induction h with
  | start => exact .start
  | step hrun hstep hok ih => exact .step ih hstep (himp _ _ _ hrun hstep hok)

/-- Whatever every step respects is respected from any configuration to a later one. -/
theorem Later.rel {R : Config Op Res World Choice Env Req Resp →
      Config Op Res World Choice Env Req Resp → Prop}
    (hrefl : ∀ c, R c c) (htrans : ∀ {a b d}, R a b → R b d → R a d)
    (hstep : ∀ {c e c'}, Step S c e c' → R c c') (h : Later S ok c c') : R c c' := by
  induction h with
  | refl => exact hrefl _
  | tail _ hs ih =>
      obtain ⟨e, hs, _⟩ := hs
      exact htrans ih (hstep hs)

/-- Every entry of the log of a run is a step of it, taken in a configuration of the run. -/
theorem Run.at (h : Run S init ok c) {i : Nat} {e : Event Op Res Choice Env Req Resp} {w : World}
    (hi : c.log[i]? = some ⟨e, w⟩) :
    ∃ c1 c2, Run S init ok c1 ∧ c1.log = c.log.take i ∧ c1.world = w ∧ Step S c1 e c2 ∧
      ok c1 e ∧ Later S ok c2 c := by
  induction h with
  | start => simp [Config.initial] at hi
  | @step c e' c' hrun hstep hok ih =>
      rw [hstep.log_eq] at hi ⊢
      rcases Nat.lt_or_ge i c.log.length with hlt | hge
      · rw [List.getElem?_append_left hlt] at hi
        obtain ⟨c1, c2, hc1, hlog, hw, hstep1, hok1, hlater⟩ := ih hi
        rw [List.take_append_of_le_length (Nat.le_of_lt hlt)]
        exact ⟨c1, c2, hc1, hlog, hw, hstep1, hok1, hlater.tail ⟨e', hstep, hok⟩⟩
      · rw [List.getElem?_append_right hge] at hi
        obtain ⟨hi0, rfl, rfl⟩ : i - c.log.length = 0 ∧ e' = e ∧ c.world = w := by
          simpa [List.getElem?_singleton] using hi
        have hlen : i = c.log.length := by omega
        refine ⟨c, c', hrun, ?_, rfl, hstep, hok, .refl⟩
        rw [hlen, List.take_left]

/-- What a step can have done to thread `t`: nothing, started it, executed its next operation, or
let it return. -/
theorem Step.thread_cases (h : Step S c e c') {t : Nat} {th' : Thread Op Res Req Resp}
    (hth : c'.threads[t]? = some th') :
    (c.threads[t]? = some th' ∧
      own t [(⟨e, c.world⟩ : Entry Op Res World Choice Env Req Resp)] = [] ∧
      (∀ req, e ≠ .call t req) ∧ ∀ resp, e ≠ .ret t resp) ∨
    (∃ req, e = .call t req ∧ t = c.threads.length ∧ th' = ⟨req, S.code req, false⟩) ∨
    (∃ th o k ch r, c.threads[t]? = some th ∧ e = .op t o ch r ∧ th.prog = .op o k ∧
      th' = { th with prog := k r }) ∨
    ∃ th resp, c.threads[t]? = some th ∧ e = .ret t resp ∧ th.prog = .pure resp ∧
      th' = { th with returned := true } := by
  cases h with
  | call req =>
      -- a call starts the thread behind the last one
      rcases Nat.lt_trichotomy t c.threads.length with hlt | rfl | hgt
      · rw [List.getElem?_append_left hlt] at hth
        refine .inl ⟨hth, rfl, fun req' he => ?_, by simp⟩
        cases he
        exact Nat.lt_irrefl _ hlt
      · rw [List.getElem?_concat_length] at hth
        exact .inr (.inl ⟨req, rfl, rfl, (Option.some.inj hth).symm⟩)
      · have hnone : (c.threads ++ [⟨req, S.code req, false⟩])[t]? = none :=
          List.getElem?_eq_none (by simpa [Nat.succ_le_iff] using hgt)
        simp [hnone] at hth
  | @op u th o k ch r w hthread hprog hexec =>
      by_cases hu : u = t
      · subst hu
        have hlt : u < c.threads.length := (List.getElem?_eq_some_iff.mp hthread).1
        simp only [List.getElem?_set_self hlt, Option.some.injEq] at hth
        exact .inr (.inr (.inl ⟨th, o, k, ch, r, hthread, rfl, hprog, hth.symm⟩))
      · simp only [List.getElem?_set_ne hu] at hth
        exact .inl ⟨hth, own_op_ne hu o ch r c.world, by simp, by simp⟩
  | @ret u th resp hthread hprog hlive =>
      by_cases hu : u = t
      · subst hu
        have hlt : u < c.threads.length := (List.getElem?_eq_some_iff.mp hthread).1
        simp only [List.getElem?_set_self hlt, Option.some.injEq] at hth
        exact .inr (.inr (.inr ⟨th, resp, hthread, rfl, hprog, hth.symm⟩))
      · simp only [List.getElem?_set_ne hu] at hth
        refine .inl ⟨hth, rfl, by simp, fun resp' he => ?_⟩
        cases he
        exact hu rfl
  | env => exact .inl ⟨hth, rfl, by simp, by simp⟩

/-- No step removes a thread. -/
theorem Step.length_le (h : Step S c e c') : c.threads.length ≤ c'.threads.length := by
  cases h <;> simp

/-- A thread keeps its request, and a step that is not its own leaves it alone. -/
theorem Step.thread_mono (h : Step S c e c') {t : Nat} {th : Thread Op Res Req Resp}
    (hth : c.threads[t]? = some th) :
    ∃ th', c'.threads[t]? = some th' ∧ th'.req = th.req := by
  have hlt : t < c'.threads.length :=
    Nat.lt_of_lt_of_le (List.getElem?_eq_some_iff.mp hth).1 h.length_le
  refine ⟨c'.threads[t], List.getElem?_eq_getElem hlt, ?_⟩
  rcases h.thread_cases (List.getElem?_eq_getElem hlt) with
    ⟨hsame, _⟩ | ⟨req, _, rfl, _⟩ | ⟨th0, o, k, ch, r, h0, _, _, hnew⟩ | ⟨th0, resp, h0, _, _, hnew⟩
  · rw [Option.some.inj (hsame.symm.trans hth)]
  · simp at hth
  · rw [hnew, Option.some.inj (h0.symm.trans hth)]
  · rw [hnew, Option.some.inj (h0.symm.trans hth)]

/-- A call that has not been made has no history. -/
theorem Run.own_eq_nil (h : Run S init ok c) {t : Nat} (ht : c.threads.length ≤ t) :
    own t c.log = [] := by
  induction h generalizing t with
  | start => rfl
  | @step c e c' _ hstep _ ih =>
      rw [hstep.log_eq, own_append, ih (Nat.le_trans hstep.length_le ht)]
      cases hstep with
      | call | ret | env => rfl
      | @op u th o k ch r w hthread hprog hexec =>
          have hu : u ≠ t := by
            rintro rfl
            have := (List.getElem?_eq_some_iff.mp hthread).1
            simp only [List.length_set] at ht
            omega
          exact own_op_ne hu o ch r c.world

/-- Every thread is where its own history leads the program of its request. -/
theorem Run.thread_after (h : Run S init ok c) {t : Nat} {th : Thread Op Res Req Resp}
    (hth : c.threads[t]? = some th) : After (S.code th.req) (own t c.log) th.prog := by
  induction h generalizing t th with
  | start => simp [Config.initial] at hth
  | @step c e c' hrun hstep hok ih =>
      rw [hstep.log_eq, own_append]
      rcases hstep.thread_cases hth with
        ⟨hsame, hown, _⟩ | ⟨req, rfl, rfl, rfl⟩ | ⟨th0, o, k, ch, r, h0, rfl, hprog, rfl⟩ |
        ⟨th0, resp, h0, rfl, hprog, rfl⟩
      · rw [hown, List.append_nil]
        exact ih hsame
      · rw [hrun.own_eq_nil (Nat.le_refl _), own_call]
        exact .refl _
      · rw [own_op_self]
        exact (hprog ▸ ih h0).snoc r
      · rw [own_ret, List.append_nil]
        have hafter := ih h0
        exact hafter

/-- Every thread was called with its request. -/
theorem Run.thread_called (h : Run S init ok c) {t : Nat} {th : Thread Op Res Req Resp}
    (hth : c.threads[t]? = some th) : ∃ w, ⟨.call t th.req, w⟩ ∈ c.log := by
  induction h generalizing t th with
  | start => simp [Config.initial] at hth
  | @step c e c' hrun hstep hok ih =>
      rw [hstep.log_eq]
      have hold : ∀ {th0}, c.threads[t]? = some th0 → th0.req = th.req →
          ∃ w, ⟨.call t th.req, w⟩ ∈ c.log ++ [⟨e, c.world⟩] := by
        intro th0 h0 hreq
        obtain ⟨w, hw⟩ := ih h0
        exact ⟨w, List.mem_append_left _ (hreq ▸ hw)⟩
      rcases hstep.thread_cases hth with
        ⟨hsame, _⟩ | ⟨req, rfl, _, rfl⟩ | ⟨th0, o, k, ch, r, h0, _, _, rfl⟩ |
        ⟨th0, resp, h0, _, _, rfl⟩
      · exact hold hsame rfl
      · exact ⟨c.world, by simp⟩
      · exact hold h0 rfl
      · exact hold h0 rfl

/-- Every call made has a thread with its request. -/
theorem Run.called_thread (h : Run S init ok c) {t : Nat} {req : Req} {w : World}
    (hmem : ⟨.call t req, w⟩ ∈ c.log) :
    ∃ th, c.threads[t]? = some th ∧ th.req = req := by
  induction h generalizing t req w with
  | start => simp [Config.initial] at hmem
  | @step c e c' hrun hstep hok ih =>
      rw [hstep.log_eq] at hmem
      rcases List.mem_append.mp hmem with hmem | hmem
      · obtain ⟨th, hth, rfl⟩ := ih hmem
        exact hstep.thread_mono hth
      · cases List.mem_singleton.mp hmem
        cases hstep
        exact ⟨_, List.getElem?_concat_length, rfl⟩

/-- A call is made with one request. -/
theorem Run.call_unique (h : Run S init ok c) {t : Nat} {req req' : Req} {w w' : World}
    (h1 : ⟨.call t req, w⟩ ∈ c.log) (h2 : ⟨.call t req', w'⟩ ∈ c.log) : req = req' := by
  obtain ⟨th, hth, rfl⟩ := h.called_thread h1
  obtain ⟨th', hth', rfl⟩ := h.called_thread h2
  rw [Option.some.inj (hth.symm.trans hth')]

/-- A call comes before its operations. -/
theorem Run.call_lt_op (h : Run S init ok c) {j k t : Nat} {req : Req} {w w' : World} {o : Op}
    {ch : Choice} {r : Res o} (hj : c.log[j]? = some ⟨.call t req, w⟩)
    (hk : c.log[k]? = some ⟨.op t o ch r, w'⟩) : j < k := by
  rcases Nat.lt_trichotomy j k with hlt | rfl | hgt
  · exact hlt
  · rw [hj] at hk
    cases hk
  · obtain ⟨c1, c2, hrun, hlog, -, hstep, -⟩ := h.at hj
    cases hstep
    have hnil := hrun.own_eq_nil (Nat.le_refl _)
    rw [← List.getElem?_take_of_lt hgt, ← hlog] at hk
    have := mem_own hk
    rw [hnil] at this
    cases this

/-- An operation belongs to a call that has been made, at the program point it was issued at. -/
theorem Run.op_after (h : Run S init ok c) {t : Nat} {o : Op} {ch : Choice} {r : Res o}
    (hstep : Step S c (.op t o ch r) c') :
    ∃ th k, c.threads[t]? = some th ∧ th.prog = .op o k ∧
      c'.threads[t]? = some { th with prog := k r } ∧
      After (S.code th.req) (own t c.log) (.op o k) ∧ S.exec o ch c.world = some (r, c'.world) := by
  cases hstep with
  | @op _ th _ k _ _ w hthread hprog hexec =>
      have hlt : t < c.threads.length := (List.getElem?_eq_some_iff.mp hthread).1
      exact ⟨th, k, hthread, hprog, List.getElem?_set_self hlt, hprog ▸ h.thread_after hthread,
        hexec⟩

/-- Thread `t` issues `o` next. -/
def Awaits (c : Config Op Res World Choice Env Req Resp) (t : Nat) (o : Op) : Prop :=
  ∃ th, c.threads[t]? = some th ∧ th.prog.head = .issue o

/-- Where a thread stands can be looked up. -/
instance [DecidableEq Op] (c : Config Op Res World Choice Env Req Resp) (t : Nat) (o : Op) :
    Decidable (Awaits c t o) :=
  match hth : c.threads[t]? with
  | none => isFalse fun ⟨_, h, _⟩ => by rw [hth] at h; cases h
  | some th =>
      match hhead : th.prog.head with
      | .done _ => isFalse fun ⟨_, h, h'⟩ => by
          rw [hth] at h; cases h; rw [hhead] at h'; cases h'
      | .issue o' =>
          if ho : o' = o then isTrue ⟨th, hth, ho ▸ hhead⟩
          else isFalse fun ⟨_, h, h'⟩ => by
            rw [hth] at h; cases h; rw [hhead] at h'; cases h'; exact ho rfl

/-- A thread stays at its next operation until it executes it. -/
theorem Step.awaits (h : Step S c e c') {t : Nat} {o : Op} (ha : Awaits c t o) :
    Awaits c' t o ∨ ∃ ch r, e = .op t o ch r := by
  obtain ⟨th, hth, hhead⟩ := ha
  cases h with
  | call req =>
      refine .inl ⟨th, ?_, hhead⟩
      rw [List.getElem?_append_left (List.getElem?_eq_some_iff.mp hth).1, hth]
  | @op u thu o' k ch r w hthread hprog hexec =>
      by_cases hu : u = t
      · subst hu
        cases hth.symm.trans hthread
        rw [hprog] at hhead
        cases hhead
        exact .inr ⟨ch, r, rfl⟩
      · refine .inl ⟨th, ?_, hhead⟩
        rw [List.getElem?_set_ne hu, hth]
  | @ret u thu resp hthread hprog hlive =>
      by_cases hu : u = t
      · subst hu
        cases hth.symm.trans hthread
        rw [hprog] at hhead
        cases hhead
      · refine .inl ⟨th, ?_, hhead⟩
        rw [List.getElem?_set_ne hu, hth]
  | env => exact .inl ⟨th, hth, hhead⟩

/-- A thread that has returned has nothing left to do. -/
theorem Run.prog_of_returned (h : Run S init ok c) {t : Nat} {th : Thread Op Res Req Resp}
    (hth : c.threads[t]? = some th) (hret : th.returned = true) :
    ∃ resp, th.prog = .pure resp := by
  induction h generalizing t th with
  | start => simp [Config.initial] at hth
  | @step c e c' hrun hstep hok ih =>
      rcases hstep.thread_cases hth with
        ⟨hsame, -⟩ | ⟨req, -, -, rfl⟩ | ⟨th0, o, k, ch, r, h0, -, hprog, rfl⟩ |
        ⟨th0, resp, -, -, hprog, rfl⟩
      · exact ih hsame hret
      · cases hret
      · obtain ⟨resp, hpure⟩ := ih h0 hret
        rw [hprog] at hpure
        cases hpure
      · exact ⟨resp, hprog⟩

/-- A call whose return is in the log has returned. -/
theorem Run.returned_of_ret (h : Run S init ok c) {t : Nat} {resp : Resp} {w : World}
    (hmem : ⟨.ret t resp, w⟩ ∈ c.log) : ∃ th, c.threads[t]? = some th ∧ th.returned = true := by
  induction h with
  | start => simp [Config.initial] at hmem
  | @step c e c' hrun hstep hok ih =>
      rw [hstep.log_eq] at hmem
      rcases List.mem_append.mp hmem with hmem | hmem
      · obtain ⟨th, hth, hret⟩ := ih hmem
        obtain ⟨th', hth', -⟩ := hstep.thread_mono hth
        refine ⟨th', hth', ?_⟩
        rcases hstep.thread_cases hth' with
          ⟨hsame, -⟩ | ⟨req, -, rfl, -⟩ | ⟨th0, o, k, ch, r, h0, -, -, rfl⟩ |
          ⟨th0, resp', -, -, -, rfl⟩
        · rwa [← Option.some.inj (hth.symm.trans hsame)]
        · simp at hth
        · rwa [← Option.some.inj (hth.symm.trans h0)]
        · rfl
      · cases List.mem_singleton.mp hmem
        cases hstep with
        | @ret _ th _ hthread hprog hlive =>
            have hlt := (List.getElem?_eq_some_iff.mp hthread).1
            exact ⟨_, List.getElem?_set_self hlt, rfl⟩

/-- A call executes nothing after its return. -/
theorem Run.op_lt_ret (h : Run S init ok c) {i n t : Nat} {resp : Resp} {w w' : World} {o : Op}
    {ch : Choice} {r : Res o} (hn : c.log[n]? = some ⟨.op t o ch r, w⟩)
    (hi : c.log[i]? = some ⟨.ret t resp, w'⟩) : n < i := by
  rcases Nat.lt_trichotomy n i with hlt | rfl | hgt
  · exact hlt
  · rw [hi] at hn
    cases hn
  · obtain ⟨c1, c2, hrun, hlog, -, hstep, -⟩ := h.at hn
    rw [← List.getElem?_take_of_lt hgt, ← hlog] at hi
    obtain ⟨th, hth, hret⟩ := hrun.returned_of_ret (List.mem_of_getElem? hi)
    obtain ⟨resp', hpure⟩ := hrun.prog_of_returned hth hret
    obtain ⟨th0, k, hth0, hprog, -⟩ := hrun.op_after hstep
    cases hth.symm.trans hth0
    rw [hprog] at hpure
    cases hpure

/-- Where no call is in progress, no operation is about to be issued. -/
theorem Run.not_awaits (h : Run S init ok c) (hq : c.Quiescent) (t : Nat) (o : Op) :
    ¬ Awaits c t o := by
  rintro ⟨th, hth, hhead⟩
  obtain ⟨resp, hprog⟩ := h.prog_of_returned hth (hq th (List.mem_of_getElem? hth))
  rw [hprog] at hhead
  cases hhead

/-! ## One call at a time -/

/-- Call `t` has started and not returned. -/
def Live (c : Config Op Res World Choice Env Req Resp) (t : Nat) : Prop :=
  ∃ th, c.threads[t]? = some th ∧ th.returned = false

/-- Calls start only where no call is in progress. -/
def OneAtATime (c : Config Op Res World Choice Env Req Resp)
    (e : Event Op Res Choice Env Req Resp) : Prop :=
  ∀ t req, e = .call t req → c.Quiescent

instance (c : Config Op Res World Choice Env Req Resp) (e : Event Op Res Choice Env Req Resp) :
    Decidable (OneAtATime c e) :=
  match e with
  | .call _ _ => decidable_of_iff c.Quiescent ⟨fun h _ _ _ => h, fun h => h _ _ rfl⟩
  | .op _ _ _ _ | .ret _ _ | .env _ => isTrue fun _ _ he => nomatch he

/-- A live call was live before, or has just started. -/
theorem Step.live (h : Step S c e c') {t : Nat} (hlive : Live c' t) :
    Live c t ∨ ∃ req, e = .call t req := by
  obtain ⟨th, hth, hret⟩ := hlive
  rcases h.thread_cases hth with
    ⟨hsame, -⟩ | ⟨req, he, -⟩ | ⟨th0, o, k, ch, r, h0, -, -, rfl⟩ | ⟨th0, resp, -, -, -, rfl⟩
  · exact .inl ⟨th, hsame, hret⟩
  · exact .inr ⟨req, he⟩
  · exact .inl ⟨th0, h0, hret⟩
  · cases hret

/-- A call that executes an operation is live. -/
theorem Run.live_of_op (h : Run S init ok c) {t : Nat} {o : Op} {ch : Choice} {r : Res o}
    (hstep : Step S c (.op t o ch r) c') : Live c t := by
  obtain ⟨th, k, hth, hprog, -⟩ := h.op_after hstep
  refine ⟨th, hth, ?_⟩
  by_contra hret
  obtain ⟨resp, hpure⟩ := h.prog_of_returned hth (by simpa using hret)
  rw [hprog] at hpure
  cases hpure

/-- It is still live after the operation. -/
theorem Run.live_after_op (h : Run S init ok c) {t : Nat} {o : Op} {ch : Choice} {r : Res o}
    (hstep : Step S c (.op t o ch r) c') : Live c' t := by
  obtain ⟨th, k, hth, -, hth', -⟩ := h.op_after hstep
  obtain ⟨th0, hth0, hret⟩ := h.live_of_op hstep
  cases hth.symm.trans hth0
  exact ⟨_, hth', hret⟩

/-- A call that is about to issue an operation is live. -/
theorem Run.live_of_awaits (h : Run S init ok c) {t : Nat} {o : Op} (ha : Awaits c t o) :
    Live c t := by
  obtain ⟨th, hth, hhead⟩ := ha
  refine ⟨th, hth, ?_⟩
  by_contra hret
  obtain ⟨resp, hpure⟩ := h.prog_of_returned hth (by simpa using hret)
  rw [hpure] at hhead
  cases hhead

/-- One call at a time: at most one call is live. -/
theorem Run.live_unique (h : Run S init ok c) (hone : ∀ c e, ok c e → OneAtATime c e) {t u : Nat}
    (ht : Live c t) (hu : Live c u) : t = u := by
  induction h with
  | start =>
      obtain ⟨th, hth, -⟩ := ht
      simp [Config.initial] at hth
  | @step c e c' hrun hstep hok ih =>
      have hquiet : ∀ {v v' req}, e = .call v req → Live c v' → False := by
        intro v v' req he hlive
        obtain ⟨th, hth, hret⟩ := hlive
        rw [hone c e hok v req he th (List.mem_of_getElem? hth)] at hret
        cases hret
      rcases hstep.live ht with ht | ⟨req, he⟩ <;> rcases hstep.live hu with hu | ⟨req', he'⟩
      · exact ih ht hu
      · exact (hquiet he' ht).elim
      · exact (hquiet he hu).elim
      · rw [he] at he'
        cases he'
        rfl

/-- No run removes a thread. -/
theorem Later.length_le (h : Later S ok c c') : c.threads.length ≤ c'.threads.length :=
  Later.rel (R := fun c c' => c.threads.length ≤ c'.threads.length) (fun _ => Nat.le_refl _)
    Nat.le_trans Step.length_le h

/-- A call that has been made and is live was live at every instant since. -/
theorem Later.live (h : Later S ok c c') {t : Nat} (hcalled : t < c.threads.length)
    (hlive : Live c' t) : Live c t := by
  induction h with
  | refl => exact hlive
  | @tail c1 c2 hl hs ih =>
      obtain ⟨e, hstep, -⟩ := hs
      rcases hstep.live hlive with hlive | ⟨req, he⟩
      · exact ih hlive
      · subst he
        cases hstep
        exact absurd hcalled (Nat.not_lt.mpr (Later.length_le hl))

/-- One call at a time: while a call is live, no other call executes an operation. -/
theorem Run.alone (h : Run S init ok c) (hone : ∀ c e, ok c e → OneAtATime c e) {t u i n : Nat}
    (hlive : Live c t) {req : Req} {w w' : World} {o : Op} {ch : Choice} {r : Res o}
    (hi : c.log[i]? = some ⟨.call t req, w⟩) (hn : c.log[n]? = some ⟨.op u o ch r, w'⟩)
    (hin : i < n) : u = t := by
  obtain ⟨c1, c2, hrun1, hlog, -, hstep, hok, hlater⟩ := h.at hn
  have hmem : (⟨.call t req, w⟩ : Entry Op Res World Choice Env Req Resp) ∈ c1.log := by
    rw [hlog]
    exact List.mem_of_getElem? (List.getElem?_take_of_lt hin ▸ hi)
  obtain ⟨th, hth, -⟩ := hrun1.called_thread hmem
  have hlater1 : Later S ok c1 c := .head ⟨_, hstep, hok⟩ hlater
  exact hrun1.live_unique hone (hrun1.live_of_op hstep)
    (hlater1.live (List.getElem?_eq_some_iff.mp hth).1 hlive)

/-! ## Executing a schedule -/

/-- A scheduler's decision: start a call, let a thread execute its next operation or return, or let
the environment move. -/
inductive Action (Choice Env Req : Type) where
  | call (req : Req)
  | op (t : Nat) (choice : Choice)
  | ret (t : Nat)
  | env (e : Env)

section
variable (S)

/-- The event of a decision and the configuration after it, if the decision can be taken. -/
def step (c : Config Op Res World Choice Env Req Resp) :
    Action Choice Env Req →
      Option (Event Op Res Choice Env Req Resp × Config Op Res World Choice Env Req Resp)
  | .call req =>
      let e := .call c.threads.length req
      some (e, ⟨c.world, c.threads ++ [⟨req, S.code req, false⟩], c.record e⟩)
  | .op t choice =>
      match c.threads[t]? with
      | none => none
      | some th =>
          match th.prog with
          | .pure _ => none
          | .op o k =>
              match S.exec o choice c.world with
              | none => none
              | some (r, w) =>
                  let e := .op t o choice r
                  some (e, ⟨w, c.threads.set t { th with prog := k r }, c.record e⟩)
  | .ret t =>
      match c.threads[t]? with
      | none => none
      | some th =>
          match th.prog, th.returned with
          | .pure resp, false =>
              let e := .ret t resp
              some (e, ⟨c.world, c.threads.set t { th with returned := true }, c.record e⟩)
          | _, _ => none
  | .env e =>
      match S.drift e c.world with
      | none => none
      | some w => some (.env e, ⟨w, c.threads, c.record (.env e)⟩)

/-- The configuration after a schedule whose steps all pass a check. -/
def execute
    (check : Config Op Res World Choice Env Req Resp → Event Op Res Choice Env Req Resp → Bool)
    (c : Config Op Res World Choice Env Req Resp) :
    List (Action Choice Env Req) → Option (Config Op Res World Choice Env Req Resp)
  | [] => some c
  | a :: rest =>
      match step S c a with
      | none => none
      | some (e, c') => if check c e then execute check c' rest else none
end

/-- An executed decision is a step. -/
theorem step_sound {a : Action Choice Env Req} (h : step S c a = some (e, c')) : Step S c e c' := by
  cases a with
  | call req =>
      cases h
      exact .call c req
  | op t choice =>
      simp only [step] at h
      split at h
      · cases h
      · rename_i th hth
        split at h
        · cases h
        · rename_i o k hprog
          split at h
          · cases h
          · rename_i r w hexec
            cases h
            exact .op hth hprog hexec
  | ret t =>
      simp only [step] at h
      split at h
      · cases h
      · rename_i th hth
        split at h
        · rename_i resp hprog hlive
          cases h
          exact .ret hth hprog hlive
        · cases h
  | env e =>
      simp only [step] at h
      split at h
      · cases h
      · rename_i w hdrift
        cases h
        exact .env hdrift

/-- An executed schedule is a run, under every condition that the check implies. -/
theorem execute_run
    {check : Config Op Res World Choice Env Req Resp → Event Op Res Choice Env Req Resp → Bool}
    (hcheck : ∀ c e, check c e = true → ok c e) {actions : List (Action Choice Env Req)}
    (hrun : Run S init ok c) (h : execute S check c actions = some c') : Run S init ok c' := by
  induction actions generalizing c with
  | nil =>
      cases h
      exact hrun
  | cons a rest ih =>
      simp only [execute] at h
      split at h
      · cases h
      · rename_i e c1 hstep
        split at h
        · rename_i hpass
          exact ih (.step hrun (step_sound hstep) (hcheck c e hpass)) h
        · cases h

/-- A schedule that can be executed is a run, and what is computed of its end holds there. -/
theorem exists_run
    (check : Config Op Res World Choice Env Req Resp → Event Op Res Choice Env Req Resp → Bool)
    (schedule : List (Action Choice Env Req)) (hcheck : ∀ c e, check c e = true → ok c e)
    {p : Config Op Res World Choice Env Req Resp → Prop} [DecidablePred p]
    (h : ((execute S check (.initial init) schedule).any fun c => decide (p c)) = true) :
    ∃ c, Run S init ok c ∧ p c := by
  obtain ⟨c, hc, hp⟩ := (Option.any_eq_true _ _).mp h
  exact ⟨c, execute_run hcheck .start hc, of_decide_eq_true hp⟩

end Interleaving
