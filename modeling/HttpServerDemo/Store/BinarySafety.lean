import HttpServerDemo.Library.Sequential
import HttpServerDemo.Store.RedisClient

/-!
# How far `RedisClient` is binary safe

Replies are read by length, but arguments are sent as C strings. So a value or a member comes back
as it was sent up to its first NUL, and two keys that agree up to their first NUL are the same key.
`binary_safe_iff` says for which arguments nothing of this shows.
-/

namespace HttpServerDemo

open Interleaving Keyspace

variable {mysql : NumericPrefix}

/-- The world some seconds later, with nothing done in between. -/
def World.elapse (seconds : Nat) (w : World) : World :=
  { w with keyspace := Keyspace.tick^[seconds] w.keyspace }

/-- What `RedisClient::get` returns when its command is answered. -/
def readString (mysql : NumericPrefix) (key : Octets) (w : World) : Option (Option Octets) :=
  ((RedisClient.get key).alone (exec mysql) [.ok] w).map Prod.fst

/-- What `RedisClient::smembers` returns when its command is answered. -/
def readMembers (mysql : NumericPrefix) (key : Octets) (w : World) :
    Option (Option (List Octets)) :=
  ((RedisClient.smembers key).alone (exec mysql) [.ok] w).map Prod.fst

/-- A key stored with this time to live has not expired after so many seconds. -/
def BeforeExpiry (ttlSec : Int) (seconds : Nat) : Prop :=
  0 < ttlSec → (seconds : Int) < ttlSec

/-- The string that a slot holds. -/
def slotString : Option Slot → Option Octets
  | some ⟨.string s, _⟩ => some s
  | _ => none

/-- A single command that is executed with a choice. -/
theorem alone_command {cmd : Command} {chs : List Choice} {w w' : World} {r : Option Reply} :
    (RedisClient.command cmd).alone (exec mysql) chs w = some (r, w') ↔
      ∃ ch, chs = [ch] ∧ execCommand cmd ch w = some (r, w') :=
  alone_call

/-- As long as the connection works, `get` returns the string under the C string of its key. -/
theorem read_string_eq {w : World} (h : w.contextError = false) (key : Octets) :
    readString mysql key w = some (slotString (w.keyspace.slots (Octets.cStr key))) := by
  have hrun : (RedisClient.get key).alone (exec mysql) [.ok] w =
      some (RedisClient.stringReply (some ((Command.get (Octets.cStr key)).run w.keyspace).1),
        { w with keyspace := ((Command.get (Octets.cStr key)).run w.keyspace).2 }) := by
    refine alone_map.mpr ⟨_, alone_command.mpr ⟨.ok, rfl, ?_⟩, rfl⟩
    simp [execCommand, h]
  rw [readString, hrun]
  simp only [Command.run]
  split <;> rename_i hslot <;> simp [hslot, slotString, RedisClient.stringReply]

/-- A command that `ok` accepts was applied and answered. -/
theorem exec_command_ok {cmd : Command} {ch : Choice} {w w' : World} {r : Option Reply}
    (h : execCommand cmd ch w = some (r, w')) (hok : RedisClient.ok r = true) :
    w.contextError = false ∧ r = some (cmd.run w.keyspace).1 ∧
      w' = { w with keyspace := (cmd.run w.keyspace).2 } := by
  have hexec : exec NumericPrefix.standard (.command cmd) ch w = some (r, w') := h
  rcases exec_command hexec with
    ⟨herror, -, hr, hw⟩ | ⟨rfl | rfl, -⟩
  · exact ⟨herror, hr, hw⟩
  · cases hok
  · cases hok

/-! ## Strings -/

/-- A `set` that returns true has stored what C sees of the value under what C sees of the key. -/
theorem set_alone {key value : Octets} {ttlSec : Int} {chs : List Choice} {w w' : World}
    (h : (RedisClient.set key value ttlSec).alone (exec mysql) chs w = some (true, w')) :
    w.contextError = false ∧
      ∃ deadline, (∀ d, deadline = some d → 0 < ttlSec ∧ d = w.keyspace.clock + ttlSec.toNat) ∧
        w' = { w with
          keyspace := w.keyspace.put (Octets.cStr key)
            ⟨.string (Octets.cStr value), deadline⟩ } := by
  obtain ⟨r, hcommand, hok⟩ := alone_map.mp h
  obtain ⟨ch, -, hexec⟩ := alone_command.mp hcommand
  obtain ⟨herror, -, rfl⟩ := exec_command_ok hexec hok
  refine ⟨herror, _, ?_, by rw [run_set]; split <;> simp; omega⟩
  intro d hd
  split at hd
  · rename_i hpos
    exact ⟨hpos, (Option.some.inj hd).symm⟩
  · cases hd

/-- Before expiry, what C sees of the value is under what C sees of the key. -/
theorem slot_of_set {key value : Octets} {ttlSec : Int} {chs : List Choice} {w w' : World}
    (h : (RedisClient.set key value ttlSec).alone (exec mysql) chs w = some (true, w'))
    {seconds : Nat} (hexpiry : BeforeExpiry ttlSec seconds) :
    (w'.elapse seconds).contextError = false ∧
      ∃ deadline, (w'.elapse seconds).keyspace.slots (Octets.cStr key) =
        some ⟨.string (Octets.cStr value), deadline⟩ := by
  obtain ⟨herror, deadline, hdeadline, rfl⟩ := set_alone h
  refine ⟨herror, deadline, slots_ticks_of_lt (slots_put_self _ _ _) fun d hd => ?_⟩
  obtain ⟨hpos, rfl⟩ := hdeadline d hd
  have := hexpiry hpos
  simp only [clock_put]
  omega

/-- Before expiry, `get` returns the stored value up to its first NUL. -/
theorem read_string_set {key value : Octets} {ttlSec : Int} {chs : List Choice} {w w' : World}
    (h : (RedisClient.set key value ttlSec).alone (exec mysql) chs w = some (true, w'))
    {seconds : Nat} (hexpiry : BeforeExpiry ttlSec seconds) :
    readString mysql key (w'.elapse seconds) = some (some (Octets.cStr value)) := by
  obtain ⟨herror, deadline, hslot⟩ := slot_of_set h hexpiry
  rw [read_string_eq herror, hslot]
  rfl

/-- A key that C tells from the one stored reads as if nothing had been stored. -/
theorem read_string_set_ne {key key' value : Octets} {ttlSec : Int} {chs : List Choice}
    {w w' : World}
    (h : (RedisClient.set key value ttlSec).alone (exec mysql) chs w = some (true, w'))
    (hne : Octets.cStr key' ≠ Octets.cStr key) (seconds : Nat) :
    readString mysql key' (w'.elapse seconds) = readString mysql key' (w.elapse seconds) := by
  obtain ⟨herror, deadline, -, rfl⟩ := set_alone h
  rw [read_string_eq (by exact herror), read_string_eq (by exact herror)]
  simp only [World.elapse]
  rw [slots_ticks_congr (clock_put _ _ _) (slots_put_ne _ hne _)]

/-- Two keys that C sees the same read the same. -/
theorem read_string_congr {key key' : Octets} (h : Octets.cStr key' = Octets.cStr key)
    (w : World) : readString mysql key' w = readString mysql key w := by
  rw [readString, readString, RedisClient.get, RedisClient.get, h]

/-- After a `set`, its key reads as the value and another key as before exactly when the value has
no NUL and the keys differ before their first NUL, or the key read as the value anyway. -/
theorem set_get_iff {key key' value : Octets} {ttlSec : Int} {chs : List Choice} {w w' : World}
    (h : (RedisClient.set key value ttlSec).alone (exec mysql) chs w = some (true, w'))
    {seconds : Nat} (hexpiry : BeforeExpiry ttlSec seconds) :
    (readString mysql key (w'.elapse seconds) = some (some value) ∧
      readString mysql key' (w'.elapse seconds) = readString mysql key' (w.elapse seconds)) ↔
    0 ∉ value ∧ (Octets.cStr key' ≠ Octets.cStr key ∨
      readString mysql key (w.elapse seconds) = some (some value)) := by
  rw [read_string_set h hexpiry]
  simp only [Option.some.injEq, Octets.cStr_eq_self_iff]
  refine and_congr_right fun hnul => ?_
  by_cases hkey : Octets.cStr key' = Octets.cStr key
  · rw [read_string_congr hkey, read_string_congr hkey, read_string_set h hexpiry,
      Octets.cStr_eq_self hnul]
    simp [hkey, eq_comm]
  · simp [hkey, read_string_set_ne h hkey seconds]

/-! ## Sets -/

/-- What the key holds, if anything, is a set. -/
def HoldsSet (key : Octets) (ks : Keyspace) : Prop :=
  ∀ slot, ks.slots key = some slot → ∃ ms, slot.value = .set ms

/-- `SADD` leaves a set. -/
theorem HoldsSet.sadd {key member : Octets} {ks : Keyspace} (h : HoldsSet key ks) :
    HoldsSet key ((Command.sadd key member).run ks).2 := by
  intro slot hslot
  rcases slots_run hslot with hold | ⟨v, ttl, hcmd, -⟩ | ⟨n, d, hcmd, -⟩ | ⟨m, d, -, rfl, -⟩
  · exact h slot hold
  · cases hcmd
  · cases hcmd
  · exact ⟨_, rfl⟩

/-- A `sadd` that returns true has found a set, or no key, and has added what C sees of the
member. -/
theorem sadd_alone {key member : Octets} {chs : List Choice} {w w' : World}
    (h : (RedisClient.sadd key member).alone (exec mysql) chs w = some (true, w')) :
    w.contextError = false ∧ w'.contextError = false ∧
      HoldsSet (Octets.cStr key) w.keyspace ∧
      w'.keyspace = ((Command.sadd (Octets.cStr key) (Octets.cStr member)).run w.keyspace).2 := by
  obtain ⟨r, hcommand, hok⟩ := alone_map.mp h
  obtain ⟨ch, -, hexec⟩ := alone_command.mp hcommand
  obtain ⟨herror, rfl, rfl⟩ := exec_command_ok hexec hok
  refine ⟨herror, herror, ?_, rfl⟩
  rintro ⟨value, d⟩ hslot
  cases value with
  | set ms => exact ⟨ms, rfl⟩
  | string s =>
      simp [Command.run, hslot, RedisClient.ok] at hok

/-- `smembers` returns the members of a set, and none where there is no key. -/
theorem read_members_eq (mysql : NumericPrefix) {w : World} (h : w.contextError = false)
    {key : Octets} (hset : HoldsSet (Octets.cStr key) w.keyspace) :
    readMembers mysql key w = some (some (w.keyspace.members (Octets.cStr key))) := by
  have hrun : (RedisClient.smembers key).alone (exec mysql) [.ok] w =
      some (RedisClient.arrayReply
          (some ((Command.smembers (Octets.cStr key)).run w.keyspace).1),
        { w with keyspace := ((Command.smembers (Octets.cStr key)).run w.keyspace).2 }) := by
    refine alone_map.mpr ⟨_, alone_command.mpr ⟨.ok, rfl, ?_⟩, rfl⟩
    simp [execCommand, h]
  rw [readMembers, hrun]
  cases hslot : w.keyspace.slots (Octets.cStr key) with
  | none => simp [Command.run, hslot, members, RedisClient.arrayReply]
  | some slot =>
      obtain ⟨ms, hms⟩ := hset slot hslot
      obtain ⟨value, d⟩ := slot
      dsimp only at hms
      subst hms
      simp [Command.run, hslot, members, RedisClient.arrayReply, List.filterMap_map]

/-- The set under the key has gained exactly this member. -/
def GainsMember (mysql : NumericPrefix) (key member : Octets) (w w' : World) : Prop :=
  ∃ before after, readMembers mysql key w = some (some before) ∧
    readMembers mysql key w' = some (some after) ∧ ∀ x, x ∈ after ↔ x ∈ before ∨ x = member

/-- After a `sadd`, the set has gained exactly the member exactly when the member has no NUL, or it
and what C sees of it were members before. -/
theorem sadd_smembers_iff {key member : Octets} {chs : List Choice} {w w' : World}
    (h : (RedisClient.sadd key member).alone (exec mysql) chs w = some (true, w')) :
    GainsMember mysql key member w w' ↔
      0 ∉ member ∨ (member ∈ w.keyspace.members (Octets.cStr key) ∧
        Octets.cStr member ∈ w.keyspace.members (Octets.cStr key)) := by
  obtain ⟨herror, herror', hset, hkeyspace⟩ := sadd_alone h
  have hbefore := read_members_eq mysql herror hset
  have hafter := read_members_eq mysql herror' (hkeyspace ▸ hset.sadd)
  have hmem : ∀ x, x ∈ w'.keyspace.members (Octets.cStr key) ↔
      x ∈ w.keyspace.members (Octets.cStr key) ∨ x = Octets.cStr member := fun x => by
    rw [hkeyspace]
    exact mem_members_sadd hset
  constructor
  · rintro ⟨before, after, hb, ha, hgain⟩
    cases hbefore.symm.trans hb
    cases hafter.symm.trans ha
    by_cases hnul : 0 ∈ member
    · right
      have hne : Octets.cStr member ≠ member := fun he => Octets.cStr_eq_self_iff.mp he hnul
      exact ⟨((hmem member).mp ((hgain member).mpr (.inr rfl))).resolve_right hne.symm,
        ((hgain _).mp ((hmem _).mpr (.inr rfl))).resolve_right hne⟩
    · exact .inl hnul
  · intro hcond
    refine ⟨_, _, hbefore, hafter, fun x => ?_⟩
    rw [hmem]
    rcases hcond with hnul | ⟨hmember, hseen⟩
    · rw [Octets.cStr_eq_self hnul]
    · constructor
      · rintro (hx | rfl)
        · exact .inl hx
        · exact .inl hseen
      · rintro (hx | rfl)
        · exact .inl hx
        · exact .inl hmember

/-- `RedisClient` gives back what it is given exactly when no value and no member is cut at a NUL
and no other key is the same up to its first NUL, or nothing of it shows because it was there
before. -/
theorem binary_safe_iff (mysql : NumericPrefix) (w : World) (key key' value member : Octets)
    (ttlSec : Int) :
    (∀ chs w', (RedisClient.set key value ttlSec).alone (exec mysql) chs w = some (true, w') →
      ∀ seconds, BeforeExpiry ttlSec seconds →
        ((readString mysql key (w'.elapse seconds) = some (some value) ∧
          readString mysql key' (w'.elapse seconds) = readString mysql key' (w.elapse seconds)) ↔
        0 ∉ value ∧ (Octets.cStr key' ≠ Octets.cStr key ∨
          readString mysql key (w.elapse seconds) = some (some value)))) ∧
    ∀ chs w', (RedisClient.sadd key member).alone (exec mysql) chs w = some (true, w') →
      (GainsMember mysql key member w w' ↔
        0 ∉ member ∨ (member ∈ w.keyspace.members (Octets.cStr key) ∧
          Octets.cStr member ∈ w.keyspace.members (Octets.cStr key))) :=
  ⟨fun _ _ h _ hexpiry => set_get_iff h hexpiry, fun _ _ h => sadd_smembers_iff h⟩

/-- Keys, values and members without NUL come back, and a minute's entry is there after 59
seconds. -/
theorem binary_safe_iff_ascii :
    ∃ w1 w2,
      (RedisClient.set (Octets.ascii "user:1") (Octets.ascii "Ann") 60).alone
        (exec NumericPrefix.standard) [.ok] (World.initial 1) = some (true, w1) ∧
      readString NumericPrefix.standard (Octets.ascii "user:1") (w1.elapse 59) =
        some (some (Octets.ascii "Ann")) ∧
      (RedisClient.sadd (Octets.ascii "index") (Octets.ascii "page")).alone
        (exec NumericPrefix.standard) [.ok] (World.initial 1) = some (true, w2) ∧
      GainsMember NumericPrefix.standard (Octets.ascii "index") (Octets.ascii "page")
        (World.initial 1) w2 := by
  have h := binary_safe_iff NumericPrefix.standard (World.initial 1) (Octets.ascii "user:1")
    (Octets.ascii "user:2") (Octets.ascii "Ann") (Octets.ascii "page") 60
  have h' := binary_safe_iff NumericPrefix.standard (World.initial 1) (Octets.ascii "index")
    (Octets.ascii "user:2") (Octets.ascii "Ann") (Octets.ascii "page") 60
  have hget := (h.1 [.ok] _ rfl 59 fun _ => by decide).mpr ⟨by decide, .inl (by decide)⟩
  exact ⟨_, _, rfl, hget.1, rfl, (h'.2 [.ok] _ rfl).mpr (.inl (by decide))⟩

/-- The ids `1` and `1` followed by a NUL share their cache entry. -/
theorem key_cut_at_nul :
    Octets.ascii "user:1" ≠ Octets.ascii "user:1" ++ [0] ∧
    ∃ w, (RedisClient.set (Octets.ascii "user:1" ++ [0]) (Octets.ascii "Ann") 60).alone
        (exec NumericPrefix.standard) [.ok] (World.initial 1) = some (true, w) ∧
      readString NumericPrefix.standard (Octets.ascii "user:1") (World.initial 1) = some none ∧
      readString NumericPrefix.standard (Octets.ascii "user:1") w =
        some (some (Octets.ascii "Ann")) :=
  ⟨by decide, _, rfl, rfl, rfl⟩

end HttpServerDemo
