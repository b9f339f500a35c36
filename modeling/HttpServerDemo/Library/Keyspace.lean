import HttpServerDemo.Library.Decimal
import Mathlib.Data.List.Perm.Basic
import Mathlib.Logic.Function.Iterate

/-!
# A key-value server with expiring keys

The keyspace maps keys to strings and sets, each with an optional deadline, under one clock in
seconds. `Command.run` executes one command atomically and gives its reply. Besides commands, time
passes (`tick`), a key with a deadline may be dropped early (`expire`), and a set, which has no
order of its own, may be enumerated differently (`reorder`).

`slots_run` lists everything a command can leave under a key, `Timely` is the invariant that no key
outlives its deadline, and `run_answered` says where a command is not answered with an error.
-/

namespace Keyspace

/-- What a key holds. -/
inductive Value where
  | string (s : Octets)
  | set (members : List Octets)
  deriving DecidableEq

/-- A value with the time from which it is gone. -/
structure Slot where
  value : Value
  deadline : Option Nat
  deriving DecidableEq

/-- The commands of the server. The time to live of `set` is in seconds. -/
inductive Command where
  | set (key value : Octets) (ttl : Option Nat)
  | get (key : Octets)
  | del (key : Octets)
  | incr (key : Octets)
  | sadd (key member : Octets)
  | smembers (key : Octets)
  deriving DecidableEq

/-- A reply of the server. -/
inductive Reply where
  | status
  | string (s : Octets)
  | integer (n : Int64)
  | array (elements : List Reply)
  | nil
  | error

end Keyspace

open Keyspace in
/-- The contents of the server and its clock. -/
structure Keyspace where
  clock : Nat
  slots : Octets → Option Slot

namespace Keyspace

/-- Nothing is stored. -/
def empty : Keyspace :=
  ⟨0, fun _ => none⟩

/-- Store a slot under a key. -/
def put (ks : Keyspace) (key : Octets) (slot : Slot) : Keyspace :=
  { ks with slots := fun k => if k = key then some slot else ks.slots k }

/-- Remove a key. -/
def drop (ks : Keyspace) (key : Octets) : Keyspace :=
  { ks with slots := fun k => if k = key then none else ks.slots k }

@[simp] theorem clock_put (ks : Keyspace) (key : Octets) (slot : Slot) :
    (ks.put key slot).clock = ks.clock :=
  rfl

@[simp] theorem clock_drop (ks : Keyspace) (key : Octets) : (ks.drop key).clock = ks.clock :=
  rfl

@[simp] theorem slots_put_self (ks : Keyspace) (key : Octets) (slot : Slot) :
    (ks.put key slot).slots key = some slot := by
  simp [put]

theorem slots_put_ne (ks : Keyspace) {key k : Octets} (h : k ≠ key) (slot : Slot) :
    (ks.put key slot).slots k = ks.slots k := by
  simp [put, h]

@[simp] theorem slots_drop_self (ks : Keyspace) (key : Octets) :
    (ks.drop key).slots key = none := by
  simp [drop]

theorem slots_drop_ne (ks : Keyspace) {key k : Octets} (h : k ≠ key) :
    (ks.drop key).slots k = ks.slots k := by
  simp [drop, h]

/-- The integer that a string is the numeral of. -/
def integer? (s : Octets) : Option Int64 :=
  let n := Decimal.strtoll s
  if Decimal.ofInt n.toInt = s then some n else none

/-- Execute a command. -/
def Command.run : Command → Keyspace → Reply × Keyspace
  | .set _ _ (some 0), ks => (.error, ks)
  | .set key value ttl, ks => (.status, ks.put key ⟨.string value, ttl.map (ks.clock + ·)⟩)
  | .get key, ks =>
      match ks.slots key with
      | none => (.nil, ks)
      | some ⟨.string s, _⟩ => (.string s, ks)
      | some ⟨.set _, _⟩ => (.error, ks)
  | .del key, ks =>
      match ks.slots key with
      | none => (.integer 0, ks)
      | some _ => (.integer 1, ks.drop key)
  | .incr key, ks =>
      match ks.slots key with
      | none => (.integer 1, ks.put key ⟨.string (Decimal.ofInt 1), none⟩)
      | some ⟨.string s, deadline⟩ =>
          match integer? s with
          | some n =>
              if n = Int64.maxValue then (.error, ks)
              else (.integer (n + 1), ks.put key ⟨.string (Decimal.ofInt (n + 1).toInt), deadline⟩)
          | none => (.error, ks)
      | some ⟨.set _, _⟩ => (.error, ks)
  | .sadd key member, ks =>
      match ks.slots key with
      | none => (.integer 1, ks.put key ⟨.set [member], none⟩)
      | some ⟨.set members, deadline⟩ =>
          if member ∈ members then (.integer 0, ks)
          else (.integer 1, ks.put key ⟨.set (members ++ [member]), deadline⟩)
      | some ⟨.string _, _⟩ => (.error, ks)
  | .smembers key, ks =>
      match ks.slots key with
      | none => (.array [], ks)
      | some ⟨.set members, _⟩ => (.array (members.map .string), ks)
      | some ⟨.string _, _⟩ => (.error, ks)

/-- A second passes, and every key whose deadline has come is gone. -/
def tick (ks : Keyspace) : Keyspace where
  clock := ks.clock + 1
  slots k := (ks.slots k).filter fun slot => slot.deadline.all fun d => decide (ks.clock + 1 < d)

/-- Drop a key that has a deadline. -/
def expire (key : Octets) (ks : Keyspace) : Option Keyspace :=
  match ks.slots key with
  | some ⟨_, some _⟩ => some (ks.drop key)
  | _ => none

/-- Enumerate the members of a set in another order. -/
def reorder (key : Octets) (members : List Octets) (ks : Keyspace) : Option Keyspace :=
  match ks.slots key with
  | some ⟨.set old, deadline⟩ =>
      if members.Perm old then some (ks.put key ⟨.set members, deadline⟩) else none
  | _ => none

/-- The members of the set under a key; a missing key is the empty set. -/
def members (ks : Keyspace) (key : Octets) : List Octets :=
  match ks.slots key with
  | some ⟨.set members, _⟩ => members
  | _ => []

/-- `SADD` adds its member to the set. -/
theorem mem_members_sadd {ks : Keyspace} {key m x : Octets}
    (h : ∀ slot, ks.slots key = some slot → ∃ ms, slot.value = .set ms) :
    x ∈ ((Command.sadd key m).run ks).2.members key ↔ x ∈ ks.members key ∨ x = m := by
  cases hs : ks.slots key with
  | none => simp [Command.run, members, hs]
  | some slot =>
      obtain ⟨ms, hms⟩ := h slot hs
      obtain ⟨value, d⟩ := slot
      dsimp only at hms
      subst hms
      by_cases hm : m ∈ ms
      · have : x = m → x ∈ ms := fun hx => hx ▸ hm
        simp only [Command.run, hs, hm, if_true, members]
        exact ⟨.inl, fun h => h.elim id this⟩
      · simp [Command.run, members, hs, hm]

/-- Commands do not change the clock. -/
@[simp] theorem clock_run (cmd : Command) (ks : Keyspace) : (cmd.run ks).2.clock = ks.clock := by
  unfold Command.run
  split <;> try rfl
  all_goals split <;> try rfl
  all_goals split <;> try rfl
  split <;> rfl

/-- The key a command is about. -/
def Command.key : Command → Octets
  | .set key _ _ => key
  | .get key => key
  | .del key => key
  | .incr key => key
  | .sadd key _ => key
  | .smembers key => key

/-- A command leaves every other key alone. -/
theorem slots_run_ne {cmd : Command} {k : Octets} (h : k ≠ cmd.key) (ks : Keyspace) :
    (cmd.run ks).2.slots k = ks.slots k := by
  unfold Command.run
  split <;> simp only [Command.key] at h
  · rfl
  · exact slots_put_ne _ h _
  · split <;> rfl
  · split
    · rfl
    · exact slots_drop_ne _ h
  · split
    · exact slots_put_ne _ h _
    · split
      · split
        · rfl
        · exact slots_put_ne _ h _
      · rfl
    · rfl
  · split
    · exact slots_put_ne _ h _
    · split
      · rfl
      · exact slots_put_ne _ h _
    · rfl
  · split <;> rfl

/-- Reading commands leave the server as it is. -/
theorem run_get (key : Octets) (ks : Keyspace) : ((Command.get key).run ks).2 = ks := by
  simp only [Command.run]
  split <;> rfl

theorem run_smembers (key : Octets) (ks : Keyspace) : ((Command.smembers key).run ks).2 = ks := by
  simp only [Command.run]
  split <;> rfl

/-- A `SET` with a proper time to live stores its value. -/
theorem run_set (key value : Octets) {ttl : Option Nat} (h : ttl ≠ some 0) (ks : Keyspace) :
    (Command.set key value ttl).run ks =
      (.status, ks.put key ⟨.string value, ttl.map (ks.clock + ·)⟩) := by
  unfold Command.run
  split <;> simp_all

/-- A `SET` that succeeds had a proper time to live. -/
theorem ne_zero_of_run_set {key value : Octets} {ttl : Option Nat} {ks : Keyspace}
    (h : ((Command.set key value ttl).run ks).1 = .status) : ttl ≠ some 0 := by
  rintro rfl
  cases h

/-- After `DEL` the key is gone. -/
theorem slots_del_self (key : Octets) (ks : Keyspace) :
    ((Command.del key).run ks).2.slots key = none := by
  simp only [Command.run]
  split
  · assumption
  · exact slots_drop_self _ _

/-- Everything a command can leave under a key: what was there, the string it stores, the number it
counts up to, or the set it extends. -/
theorem slots_run {cmd : Command} {ks : Keyspace} {k : Octets} {slot : Slot}
    (h : (cmd.run ks).2.slots k = some slot) :
    ks.slots k = some slot ∨
    (∃ v ttl, cmd = .set k v ttl ∧ ttl ≠ some 0 ∧
      slot = ⟨.string v, ttl.map (ks.clock + ·)⟩) ∨
    (∃ (n : Int64) (d : Option Nat), cmd = .incr k ∧ slot = ⟨.string (Decimal.ofInt n.toInt), d⟩ ∧
      (d = none ∨ ∃ v, ks.slots k = some ⟨v, d⟩)) ∨
    ∃ m d, cmd = .sadd k m ∧ slot = ⟨.set (ks.members k ++ [m]), d⟩ ∧
      (d = none ∨ ∃ ms, ks.slots k = some ⟨.set ms, d⟩) := by
  by_cases hk : k = cmd.key
  -- no command touches another key than its own
  swap
  · exact .inl (slots_run_ne hk ks ▸ h)
  subst hk
  unfold Command.run at h
  split at h <;> simp only [Command.key] at h
  · exact .inl h
  · rename_i key value ttl hne
    rw [slots_put_self] at h
    exact .inr (.inl ⟨value, ttl, rfl, fun he => hne he, (Option.some.inj h).symm⟩)
  · split at h <;> exact .inl h
  · split at h
    · exact .inl h
    · simp at h
  · split at h
    · rw [slots_put_self] at h
      exact .inr (.inr (.inl ⟨1, none, rfl, (Option.some.inj h).symm, .inl rfl⟩))
    · rename_i s d hs
      split at h
      · rename_i n _
        split at h
        · exact .inl h
        · rw [slots_put_self] at h
          exact .inr (.inr (.inl ⟨n + 1, d, rfl, (Option.some.inj h).symm, .inr ⟨_, hs⟩⟩))
      · exact .inl h
    · exact .inl h
  · rename_i key member
    split at h
    · rename_i hs
      rw [slots_put_self] at h
      have hmembers : ks.members key = [] := by simp [members, hs]
      exact .inr (.inr (.inr ⟨member, none, rfl,
        (Option.some.inj h).symm.trans (by rw [Command.key, hmembers]; rfl), .inl rfl⟩))
    · rename_i ms d hs
      split at h
      · exact .inl h
      · rw [slots_put_self] at h
        have hmembers : ks.members key = ms := by simp [members, hs]
        exact .inr (.inr (.inr ⟨member, d, rfl,
          (Option.some.inj h).symm.trans (by rw [Command.key, hmembers]), .inr ⟨_, hs⟩⟩))
    · exact .inl h
  · split at h <;> exact .inl h

/-- What is left of a key after a second: the slot it had, with its deadline still to come. -/
theorem slots_tick {ks : Keyspace} {k : Octets} {slot : Slot} (h : ks.tick.slots k = some slot) :
    ks.slots k = some slot ∧ ∀ d, slot.deadline = some d → ks.clock + 1 < d := by
  simp only [tick, Option.filter_eq_some_iff] at h
  refine ⟨h.1, fun d hd => ?_⟩
  have hall := h.2
  rw [hd] at hall
  simpa using hall

/-- A key without deadline survives. -/
theorem slots_tick_persistent {ks : Keyspace} {k : Octets} {value : Value}
    (h : ks.slots k = some ⟨value, none⟩) : ks.tick.slots k = some ⟨value, none⟩ := by
  simp [tick, h]

/-- A key whose deadline is more than `n` seconds ahead survives them. -/
theorem slots_ticks_of_lt {ks : Keyspace} {k : Octets} {slot : Slot} {n : Nat}
    (h : ks.slots k = some slot) (hd : ∀ d, slot.deadline = some d → ks.clock + n < d) :
    (tick^[n] ks).slots k = some slot := by
  induction n generalizing ks with
  | zero => exact h
  | succ n ih =>
      rw [Function.iterate_succ_apply]
      refine ih ?_ fun d hslot => ?_
      · rw [tick]
        refine Option.filter_eq_some_iff.mpr ⟨h, ?_⟩
        cases hdeadline : slot.deadline with
        | none => rfl
        | some d =>
            have := hd d hdeadline
            simp only [Option.all_some, decide_eq_true_eq]
            omega
      · have := hd d hslot
        simp only [tick]
        omega

/-- What the passing of time leaves of a key depends on that key alone. -/
theorem slots_ticks_congr {ks ks' : Keyspace} {k : Octets} (hclock : ks'.clock = ks.clock)
    (h : ks'.slots k = ks.slots k) (n : Nat) : (tick^[n] ks').slots k = (tick^[n] ks).slots k := by
  induction n generalizing ks ks' with
  | zero => exact h
  | succ n ih =>
      simp only [Function.iterate_succ_apply]
      exact ih (by simp only [tick, hclock]) (by simp only [tick, hclock, h])

/-- An early expiry removes one key and leaves the others. -/
theorem expire_eq {ks ks' : Keyspace} {key : Octets} (h : ks.expire key = some ks') :
    ks' = ks.drop key ∧ ∃ v d, ks.slots key = some ⟨v, some d⟩ := by
  unfold expire at h
  split at h
  · rename_i v d hs
    exact ⟨(Option.some.inj h).symm, v, d, hs⟩
  · cases h

/-- Another order of enumeration changes no membership. -/
theorem reorder_eq {ks ks' : Keyspace} {key : Octets} {ms : List Octets}
    (h : ks.reorder key ms = some ks') :
    ∃ old d, ks.slots key = some ⟨.set old, d⟩ ∧ ms.Perm old ∧
      ks' = ks.put key ⟨.set ms, d⟩ := by
  unfold reorder at h
  split at h
  · rename_i old d hs
    split at h
    · rename_i hperm
      exact ⟨old, d, hs, hperm, (Option.some.inj h).symm⟩
    · cases h
  · cases h

/-- No key outlives its deadline. -/
def Timely (ks : Keyspace) : Prop :=
  ∀ k slot d, ks.slots k = some slot → slot.deadline = some d → ks.clock < d

theorem timely_empty : Timely empty := by
  intro k slot d h
  cases h

theorem Timely.run {ks : Keyspace} (h : Timely ks) (cmd : Command) : Timely (cmd.run ks).2 := by
  intro k slot d hslot hd
  rw [clock_run]
  have hkept : ∀ {v}, ks.slots k = some ⟨v, slot.deadline⟩ → ks.clock < d :=
    fun hv => h k _ d hv hd
  rcases slots_run hslot with hold | ⟨v, ttl, _, hpos, rfl⟩ | ⟨n, d', _, rfl, hd' | ⟨v, hv⟩⟩ |
    ⟨m, d', _, rfl, hd' | ⟨v, hv⟩⟩
  · exact h k slot d hold hd
  · obtain ⟨t, ht, rfl⟩ := Option.map_eq_some_iff.mp hd
    have : t ≠ 0 := fun hz => hpos (hz ▸ ht)
    omega
  · simp [hd'] at hd
  · exact hkept hv
  · simp [hd'] at hd
  · exact hkept hv

theorem Timely.tick {ks : Keyspace} : Timely ks.tick :=
  fun _ _ d hslot hd => (slots_tick hslot).2 d hd

theorem Timely.drop {ks : Keyspace} (h : Timely ks) (key : Octets) : Timely (ks.drop key) := by
  intro k slot d hslot hd
  by_cases hk : k = key
  · subst hk
    simp at hslot
  · exact h k slot d (slots_drop_ne ks hk ▸ hslot) hd

theorem Timely.put {ks : Keyspace} (h : Timely ks) {key : Octets} {slot : Slot}
    (hslot : ∀ d, slot.deadline = some d → ks.clock < d) : Timely (ks.put key slot) := by
  intro k slot' d hs hd
  by_cases hk : k = key
  · subst hk
    rw [slots_put_self] at hs
    exact hslot d (Option.some.inj hs ▸ hd)
  · exact h k slot' d (slots_put_ne ks hk slot ▸ hs) hd

/-- What is left of a key after any number of seconds has its deadline still to come. -/
theorem slots_ticks {ks : Keyspace} (h : Timely ks) {k : Octets} {slot : Slot} {n : Nat}
    (hslot : (tick^[n] ks).slots k = some slot) :
    ks.slots k = some slot ∧ ∀ d, slot.deadline = some d → ks.clock + n < d := by
  induction n generalizing ks with
  | zero => exact ⟨hslot, fun d hd => h k slot d hslot hd⟩
  | succ n ih =>
      rw [Function.iterate_succ_apply] at hslot
      obtain ⟨hafter, hdeadline⟩ := ih Timely.tick hslot
      refine ⟨(slots_tick hafter).1, fun d hd => ?_⟩
      have := hdeadline d hd
      simp only [tick] at this
      omega

/-! ## Types -/

/-- The command works on a value of this type. Only the numeral of a number below the greatest can
be counted up. -/
def Command.Suits : Command → Value → Prop
  | .set _ _ _, _ => True
  | .get _, .string _ => True
  | .del _, _ => True
  | .incr _, .string s => ∃ n, integer? s = some n ∧ n ≠ Int64.maxValue
  | .sadd _ _, .set _ => True
  | .smembers _, .set _ => True
  | _, _ => False

/-- The replies that a command is answered with where nothing is wrong. -/
inductive Command.Answered : Command → Reply → Prop where
  | set {key value ttl} : Answered (.set key value ttl) .status
  | missing {key} : Answered (.get key) .nil
  | get {key s} : Answered (.get key) (.string s)
  | del {key n} : Answered (.del key) (.integer n)
  | incr {key n} : Answered (.incr key) (.integer n)
  | sadd {key member n} : Answered (.sadd key member) (.integer n)
  | smembers {key} (members : List Octets) :
      Answered (.smembers key) (.array (members.map .string))

/-- A command that finds nothing, or a value of a type it works on, is not answered with an
error. -/
theorem run_answered {cmd : Command} {ks : Keyspace}
    (httl : ∀ key value, cmd ≠ .set key value (some 0))
    (h : ∀ slot, ks.slots cmd.key = some slot → cmd.Suits slot.value) :
    cmd.Answered (cmd.run ks).1 := by
  cases cmd with
  | set key value ttl =>
      have hpos : ttl ≠ some 0 := fun hz => httl key value (hz ▸ rfl)
      rw [run_set key value hpos]
      exact .set
  | get key =>
      cases hslot : ks.slots key with
      | none => simpa only [Command.run, hslot] using .missing
      | some slot =>
          obtain ⟨value, d⟩ := slot
          cases value with
          | string s => simpa only [Command.run, hslot] using .get
          | set ms => exact (h _ hslot).elim
  | del key =>
      cases hslot : ks.slots key with
      | none => simpa only [Command.run, hslot] using .del
      | some slot => simpa only [Command.run, hslot] using .del
  | incr key =>
      cases hslot : ks.slots key with
      | none => simpa only [Command.run, hslot] using .incr
      | some slot =>
          obtain ⟨value, d⟩ := slot
          cases value with
          | string s =>
              obtain ⟨n, hn, hmax⟩ := h _ hslot
              simpa only [Command.run, hslot, hn, hmax, if_false] using .incr
          | set ms => exact (h _ hslot).elim
  | sadd key member =>
      cases hslot : ks.slots key with
      | none => simpa only [Command.run, hslot] using .sadd
      | some slot =>
          obtain ⟨value, d⟩ := slot
          cases value with
          | string s => exact (h _ hslot).elim
          | set ms =>
              by_cases hm : member ∈ ms
              · simpa only [Command.run, hslot, hm, if_true] using .sadd
              · simpa only [Command.run, hslot, hm, if_false] using .sadd
  | smembers key =>
      cases hslot : ks.slots key with
      | none => simpa only [Command.run, hslot] using .smembers []
      | some slot =>
          obtain ⟨value, d⟩ := slot
          cases value with
          | string s => exact (h _ hslot).elim
          | set ms => simpa only [Command.run, hslot] using .smembers ms

end Keyspace
