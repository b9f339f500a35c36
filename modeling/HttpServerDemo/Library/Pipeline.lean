import HttpServerDemo.Library.Machine

/-!
# Commands over one FIFO connection

A blocking command appends itself to the output stream of a connection and then reads the next
reply from its input stream. The peer serves the commands in the order of the stream. Nothing ties
the two halves of a command together when several callers share the connection: the n-th reply that
is read answers the n-th command that was sent (`nth_received`), whoever reads it. It answers the
reader's own command where commands do not overlap (`own_reply`).
-/

namespace Pipeline

open Interleaving

variable {Cmd Rep Env σ : Type}

/-- The two halves of a blocking command. -/
inductive LineOp (Cmd : Type) where
  | append (cmd : Cmd)
  | getReply

/-- What they return. -/
abbrev LineOp.Res (Rep : Type) : LineOp Cmd → Type
  | .append _ => Unit
  | .getReply => Rep

/-- The state of the peer, the commands it has not served, and the replies that nobody has read. -/
structure Line (Cmd Rep σ : Type) where
  peer : σ
  output : List Cmd
  input : List Rep

/-- How the peer answers a command, and how its state changes by itself. -/
structure Server (Cmd Rep Env σ : Type) where
  run : Cmd → σ → Rep × σ
  drift : Env → σ → Option σ

/-- The moves of the peer. -/
inductive PeerMove (Env : Type) where
  | serve
  | drift (e : Env)

/-- A blocking command: append it, then read the next reply. -/
def command (cmd : Cmd) : Program (LineOp Cmd) (LineOp.Res Rep) Rep := do
  let _ ← Program.call (LineOp.append cmd)
  Program.call LineOp.getReply

/-- Any number of callers that share one connection. -/
def pipeline (S : Server Cmd Rep Env σ) :
    System (LineOp Cmd) (LineOp.Res Rep) (Line Cmd Rep σ) Unit (PeerMove Env) Cmd Rep where
  exec
    | .append cmd, _, line => some ((), { line with output := line.output ++ [cmd] })
    | .getReply, _, line =>
        match line.input with
        | r :: rest => some (r, { line with input := rest })
        | [] => none
  drift
    | .serve, line =>
        match line.output with
        | cmd :: rest =>
            let (r, peer) := S.run cmd line.peer
            some ⟨peer, rest, line.input ++ [r]⟩
        | [] => none
    | .drift e, line => (S.drift e line.peer).map fun peer => { line with peer }
  code := command

/-- What is logged of the callers of a connection. -/
abbrev LineEntry (Cmd Rep Env σ : Type) : Type :=
  Entry (LineOp Cmd) (LineOp.Res Rep) (Line Cmd Rep σ) Unit (PeerMove Env) Cmd Rep

/-- What happens on a connection. -/
abbrev LineEvent (Cmd Rep Env : Type) : Type :=
  Event (LineOp Cmd) (LineOp.Res Rep) Unit (PeerMove Env) Cmd Rep

/-- A configuration of the callers of a connection. -/
abbrev LineConfig (Cmd Rep Env σ : Type) : Type :=
  Config (LineOp Cmd) (LineOp.Res Rep) (Line Cmd Rep σ) Unit (PeerMove Env) Cmd Rep

/-- The commands in the order in which they were sent, with the calls that sent them. -/
def sent (log : List (LineEntry Cmd Rep Env σ)) : List (Nat × Cmd) :=
  log.filterMap fun entry =>
    match entry.event with
    | .op t (.append cmd) _ _ => some (t, cmd)
    | _ => none

/-- The replies in the order in which they were read, with the calls that read them. -/
def received (log : List (LineEntry Cmd Rep Env σ)) : List (Nat × Rep) :=
  log.filterMap fun entry =>
    match entry.event with
    | .op t .getReply _ r => some (t, r)
    | _ => none

/-- The commands in the order in which they were served, with their replies. -/
def served (S : Server Cmd Rep Env σ) (log : List (LineEntry Cmd Rep Env σ)) : List (Cmd × Rep) :=
  log.filterMap fun entry =>
    match entry.event, entry.before.output with
    | .env .serve, cmd :: _ => some (cmd, (S.run cmd entry.before.peer).1)
    | _, _ => none

variable {S : Server Cmd Rep Env σ} {peer : σ}
  {ok : LineConfig Cmd Rep Env σ → LineEvent Cmd Rep Env → Prop}
  {c c' : LineConfig Cmd Rep Env σ} {e : LineEvent Cmd Rep Env} {n t u : Nat} {cmd : Cmd} {r : Rep}

/-- The configurations reached from a peer in this state and empty streams. -/
abbrev LineRun (S : Server Cmd Rep Env σ) (peer : σ)
    (ok : LineConfig Cmd Rep Env σ → LineEvent Cmd Rep Env → Prop) :
    LineConfig Cmd Rep Env σ → Prop :=
  Run (pipeline S) ⟨peer, [], []⟩ ok

/-- The commands served and those in the output stream are the commands sent; the replies read and
those in the input stream are the replies to the commands served. -/
theorem streams (hrun : LineRun S peer ok c) :
    (sent c.log).map Prod.snd = (served S c.log).map Prod.fst ++ c.world.output ∧
      (served S c.log).map Prod.snd = (received c.log).map Prod.snd ++ c.world.input := by
  induction hrun with
  | start => exact ⟨rfl, rfl⟩
  | @step c e c' hrun hstep hok ih =>
      obtain ⟨hsent, hserved⟩ := ih
      have hlog := hstep.log_eq
      simp only [sent, served, received] at hsent hserved
      simp only [sent, served, received, hlog, List.filterMap_append, List.map_append, hsent,
        hserved]
      cases hstep with
      | call | ret => exact ⟨by simp, by simp⟩
      | @op t th o k ch r w hthread hprog hexec =>
          cases o with
          -- a command that is sent joins the output stream
          | append cmd =>
              cases hexec
              exact ⟨by simp, by simp⟩
          -- a reply that is read leaves the input stream
          | getReply =>
              simp only [pipeline] at hexec
              split at hexec
              · rename_i r' rest hinput
                cases hexec
                exact ⟨by simp, by simp [hinput]⟩
              · cases hexec
      | @env e w hdrift =>
          cases e with
          -- the peer moves one command from the output stream to its reply in the input stream
          | serve =>
              simp only [pipeline] at hdrift
              split at hdrift
              · rename_i cmd rest houtput
                cases hdrift
                exact ⟨by simp [houtput], by simp [houtput]⟩
              · cases hdrift
          | drift e =>
              obtain ⟨peer', -, rfl⟩ := Option.map_eq_some_iff.mp hdrift
              exact ⟨by simp, by simp⟩

/-- The n-th reply that is read answers the n-th command that was sent. -/
theorem nth_received (hrun : LineRun S peer ok c) (h : (received c.log)[n]? = some (u, r)) :
    ∃ t cmd, (sent c.log)[n]? = some (t, cmd) ∧ (served S c.log)[n]? = some (cmd, r) := by
  obtain ⟨hsent, hserved⟩ := streams hrun
  have hlt := (List.getElem?_eq_some_iff.mp h).1
  have hreply : ((served S c.log).map Prod.snd)[n]? = some r := by
    rw [hserved, List.getElem?_append_left (by simpa using hlt), List.getElem?_map, h]
    rfl
  rw [List.getElem?_map] at hreply
  obtain ⟨⟨cmd, r'⟩, hn, rfl⟩ := Option.map_eq_some_iff.mp hreply
  have hltServed := (List.getElem?_eq_some_iff.mp hn).1
  have hcommand : ((sent c.log).map Prod.snd)[n]? = some cmd := by
    rw [hsent, List.getElem?_append_left (by simpa using hltServed), List.getElem?_map, hn]
    rfl
  rw [List.getElem?_map] at hcommand
  obtain ⟨⟨t, cmd'⟩, hm, rfl⟩ := Option.map_eq_some_iff.mp hcommand
  exact ⟨t, cmd', hm, hn⟩

/-! ## Where a call is -/

/-- The points of a blocking command. -/
inductive CommandPoint (cmd : Cmd) :
    List (Answer (LineOp Cmd) (LineOp.Res Rep)) → Head (LineOp Cmd) Rep → Prop where
  | append : CommandPoint cmd [] (.issue (.append cmd))
  | getReply : CommandPoint cmd [⟨.append cmd, ()⟩] (.issue .getReply)
  | done (r : Rep) : CommandPoint cmd [⟨.append cmd, ()⟩, ⟨.getReply, r⟩] (.done r)

/-- A call is at one of them. -/
theorem thread_command (hrun : LineRun S peer ok c)
    {th : Thread (LineOp Cmd) (LineOp.Res Rep) Cmd Rep} (hth : c.threads[t]? = some th) :
    CommandPoint th.req (own t c.log) th.prog.head := by
  have hafter : After (command th.req) (own t c.log) th.prog := hrun.thread_after hth
  rcases after_op.mp hafter with ⟨hown, hprog⟩ | ⟨_, h1, hown, hafter⟩
  · rw [hown, hprog]
    exact .append
  · rcases after_op.mp hafter with ⟨hnil, hprog⟩ | ⟨r, h2, hreply, hdone⟩
    · rw [hown, hnil, hprog]
      exact .getReply
    · obtain ⟨hnil, hprog⟩ := after_pure.mp hdone
      rw [hown, hreply, hnil, hprog]
      exact .done r

/-- A call that is about to read its reply has only sent its command. -/
theorem own_of_awaits_reply (hrun : LineRun S peer ok c) (h : Awaits c t .getReply) :
    ∃ cmd, own t c.log = [⟨.append cmd, ()⟩] := by
  obtain ⟨th, hth, hhead⟩ := h
  have hpoint := thread_command hrun hth
  rw [hhead] at hpoint
  generalize own t c.log = h at hpoint
  cases hpoint
  exact ⟨_, rfl⟩

/-- A call that is about to read its reply was so before, or has just sent its command. -/
theorem awaits_reply_step (hrun' : LineRun S peer ok c') (hstep : Step (pipeline S) c e c')
    (h : Awaits c' t .getReply) :
    Awaits c t .getReply ∨ ∃ cmd ch r, e = .op t (.append cmd) ch r := by
  obtain ⟨cmd, hown⟩ := own_of_awaits_reply hrun' h
  obtain ⟨th, hth, hhead⟩ := h
  rcases hstep.thread_cases hth with
    ⟨hsame, -⟩ | ⟨req, -, -, rfl⟩ | ⟨th0, o, k, ch, r, h0, rfl, hprog, rfl⟩ |
    ⟨th0, resp, h0, -, hprog, rfl⟩
  · exact .inl ⟨th, hsame, hhead⟩
  · cases hhead
  · -- its only answer so far is the one to this step
    rw [hstep.log_eq, own_append, own_op_self] at hown
    rcases List.append_eq_singleton_iff.mp hown with ⟨-, hlast⟩ | ⟨-, hnil⟩
    · obtain rfl : o = .append cmd := congrArg Sigma.fst (List.singleton_inj.mp hlast)
      exact .inr ⟨cmd, ch, r, rfl⟩
    · cases hnil
  · rw [hprog] at hhead
    cases hhead

/-- The command that a call sends is the one it was made with. -/
theorem called_of_sent (hrun : LineRun S peer ok c) (h : (sent c.log)[n]? = some (t, cmd)) :
    ∃ w, ⟨.call t cmd, w⟩ ∈ c.log := by
  obtain ⟨⟨event, w⟩, hmem, hentry⟩ := List.mem_filterMap.mp (List.mem_of_getElem? h)
  cases event with
  | call | ret | env => cases hentry
  | op u o ch r =>
      cases o with
      | getReply => cases hentry
      | append cmd' =>
          cases hentry
          obtain ⟨i, hi⟩ := List.mem_iff_getElem?.mp hmem
          obtain ⟨c1, c2, hrun1, hlog, -, hstep, -⟩ := hrun.at hi
          obtain ⟨th, k, hth, hprog, -⟩ := hrun1.op_after hstep
          have hpoint := thread_command hrun1 hth
          rw [hprog] at hpoint
          generalize own t c1.log = h at hpoint
          cases hpoint
          obtain ⟨w', hcall⟩ := hrun1.thread_called hth
          rw [hlog] at hcall
          exact ⟨w', List.mem_of_mem_take hcall⟩

/-- A call returns the reply that it has read. -/
theorem received_of_ret (hrun : LineRun S peer ok c) {w : Line Cmd Rep σ}
    (h : ⟨.ret t r, w⟩ ∈ c.log) : ∃ n : Nat, (received c.log)[n]? = some (t, r) := by
  obtain ⟨i, hi⟩ := List.mem_iff_getElem?.mp h
  obtain ⟨c1, c2, hrun1, hlog, -, hstep, -⟩ := hrun.at hi
  cases hstep with
  | @ret _ th _ hthread hprog hlive =>
      have hpoint := thread_command hrun1 hthread
      rw [hprog, hlog] at hpoint
      generalize hown : own t (c.log.take i) = h at hpoint
      cases hpoint
      have hreply : own t (c.log.take i) = [⟨.append th.req, ()⟩] ++ ⟨.getReply, r⟩ :: [] := hown
      obtain ⟨j, ch, wj, -, hj, -⟩ := own_at hreply
      exact List.mem_iff_getElem?.mp
        (List.mem_filterMap.mpr ⟨_, List.mem_of_getElem? hj, rfl⟩)

/-- The calls that have read a reply, in order, are the calls that have sent a command, but for one
that is about to read its reply. -/
def InTurn (c : LineConfig Cmd Rep Env σ) : Prop :=
  (sent c.log).map Prod.fst = (received c.log).map Prod.fst ∧ (∀ t, ¬ Awaits c t .getReply) ∨
    ∃ t, (sent c.log).map Prod.fst = (received c.log).map Prod.fst ++ [t] ∧ Awaits c t .getReply

/-- A step of no call leaves the turn as it is. -/
theorem InTurn.frame (h : InTurn c) (hrun' : LineRun S peer ok c')
    (hstep : Step (pipeline S) c e c') (hop : ∀ t o ch r, e ≠ .op t o ch r) : InTurn c' := by
  have hsent : sent c'.log = sent c.log := by
    rw [hstep.log_eq, sent, List.filterMap_append]
    cases e with
    | op t o ch r => exact absurd rfl (hop t o ch r)
    | call | ret | env => simp [sent]
  have hreceived : received c'.log = received c.log := by
    rw [hstep.log_eq, received, List.filterMap_append]
    cases e with
    | op t o ch r => exact absurd rfl (hop t o ch r)
    | call | ret | env => simp [received]
  rw [InTurn, hsent, hreceived]
  rcases h with ⟨hids, hnone⟩ | ⟨t, hids, hawaits⟩
  · refine .inl ⟨hids, ?_⟩
    intro t hawaits
    rcases awaits_reply_step hrun' hstep hawaits with hawaits | ⟨cmd, ch, r, he⟩
    · exact hnone t hawaits
    · exact hop _ _ _ _ he
  · refine .inr ⟨t, hids, ?_⟩
    rcases hstep.awaits hawaits with hawaits | ⟨ch, r, he⟩
    · exact hawaits
    · exact absurd he (hop _ _ _ _)

/-- Sending a command where no reply is due makes its reply due. -/
theorem in_turn_append (hrun' : LineRun S peer ok c') {ch : Unit}
    {r : LineOp.Res Rep (.append cmd)} (hrun : LineRun S peer ok c)
    (hstep : Step (pipeline S) c (.op t (.append cmd) ch r) c')
    (hids : (sent c.log).map Prod.fst = (received c.log).map Prod.fst) : InTurn c' := by
  obtain ⟨th, k, hth, hprog, hth', -⟩ := hrun.op_after hstep
  refine .inr ⟨t, ?_, _, hth', ?_⟩
  · simp only [sent, received] at hids
    simp [hstep.log_eq, sent, received, hids]
  · have hpoint := thread_command hrun' hth'
    rw [hstep.log_eq, own_append, own_op_self] at hpoint
    have hbefore := thread_command hrun hth
    rw [hprog] at hbefore
    generalize own t c.log = h at hpoint hbefore
    cases hbefore
    generalize (k r).head = head at hpoint ⊢
    cases hpoint
    rfl

/-- One call at a time: replies are read in turn. -/
theorem in_turn (hrun : LineRun S peer ok c) (hone : ∀ c e, ok c e → OneAtATime c e) :
    InTurn c := by
  induction hrun with
  | start =>
      refine .inl ⟨rfl, ?_⟩
      rintro t ⟨th, hth, -⟩
      simp [Config.initial] at hth
  | @step c e c' hrun hstep hok ih =>
      have hrun' : LineRun S peer ok c' := .step hrun hstep hok
      cases e with
      | call | ret | env => exact ih.frame hrun' hstep (by simp)
      | op u o ch r =>
          have hlive := hrun.live_of_op hstep
          obtain ⟨th, k, hth, hprog, -⟩ := hrun.op_after hstep
          have hissues : Awaits c u o := ⟨th, hth, by rw [hprog]; rfl⟩
          rcases ih with ⟨hids, hnone⟩ | ⟨t, hids, hawaits⟩
          · cases o with
            | append cmd => exact in_turn_append hrun' hrun hstep hids
            | getReply => exact absurd hissues (hnone u)
          · -- the call whose reply is due is the only live one
            have hsame := hrun.live_unique hone hlive (hrun.live_of_awaits hawaits)
            subst hsame
            obtain ⟨th', hth', hhead⟩ := hawaits
            cases hth.symm.trans hth'
            rw [hprog] at hhead
            cases hhead
            refine .inl ⟨?_, ?_⟩
            · simp only [sent, received] at hids
              simp [hstep.log_eq, sent, received, hids]
            · intro v hawaits
              rcases awaits_reply_step hrun' hstep hawaits with hbefore | ⟨cmd, ch', r', he⟩
              · have hv := hrun.live_unique hone (hrun.live_of_awaits hbefore) hlive
                subst hv
                obtain ⟨cmd, hown⟩ := own_of_awaits_reply hrun' hawaits
                rw [hstep.log_eq, own_append, own_op_self] at hown
                rcases List.append_eq_singleton_iff.mp hown with ⟨-, hlast⟩ | ⟨-, hnil⟩
                · cases hlast
                · cases hnil
              · cases he

/-- One call at a time: every reply that is read answers the reader's own command. -/
theorem own_reply (hrun : LineRun S peer ok c) (hone : ∀ c e, ok c e → OneAtATime c e)
    (h : (received c.log)[n]? = some (t, r)) :
    ∃ cmd, (sent c.log)[n]? = some (t, cmd) ∧ (served S c.log)[n]? = some (cmd, r) := by
  obtain ⟨u, cmd, hsent, hserved⟩ := nth_received hrun h
  have hids : (received c.log).map Prod.fst <+: (sent c.log).map Prod.fst := by
    rcases in_turn hrun hone with ⟨hids, -⟩ | ⟨v, hids, -⟩
    · exact ⟨[], by rw [List.append_nil, hids]⟩
    · rw [hids]
      exact List.prefix_append _ _
  have hlt := (List.getElem?_eq_some_iff.mp h).1
  have hsame := List.prefix_iff_getElem?.mp hids n (by simpa using hlt)
  rw [List.getElem?_map, hsent, ← List.getElem?_eq_getElem, List.getElem?_map, h] at hsame
  cases hsame
  exact ⟨cmd, hsent, hserved⟩

end Pipeline
