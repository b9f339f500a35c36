import HttpServerDemo.Library.Ownership
import HttpServerDemo.Library.Refinement
import HttpServerDemo.Native.ClientLibraries

/-!
# The rules of the client libraries

What a thread needs to own for a call, what it owns after it, and which operation of the model of
the repository a call stands for. A connection is owned from `acquire` to `release`, together with
the state of its protocol, and an object from its allocation until it is freed. `simulation` says
that calls which follow these rules are legal and have the effect of what they stand for, whatever
the other threads do.
-/

namespace HttpServerDemo.Native

open Interleaving Ownership Sql

/-- The connections that a thread has borrowed, with their states, and the objects that have been
allocated for it. -/
structure Owned where
  conns : Nat → Option Status
  heap : Nat → Option Obj

namespace Owned

/-- A thread between two requests. -/
def nothing : Owned :=
  ⟨fun _ => none, fun _ => none⟩

/-- Borrow a connection, change its state, or give it back. -/
def setConn (owned : Owned) (conn : Nat) (status : Option Status) : Owned :=
  { owned with conns := Function.update owned.conns conn status }

/-- Allocate, change or free an object. -/
def setObj (owned : Owned) (a : Nat) (obj : Option Obj) : Owned :=
  { owned with heap := Function.update owned.heap a obj }

variable {owned : Owned} {conn a b : Nat} {status status' : Option Status} {obj obj' : Option Obj}

@[simp] theorem heap_setConn : (owned.setConn conn status).heap = owned.heap :=
  rfl

@[simp] theorem conns_setObj : (owned.setObj a obj).conns = owned.conns :=
  rfl

end Owned

/-- How a call that stands for nothing is answered, and what is owned then. -/
inductive Answered (client : MysqlClient) (owned : Owned) : (o : Call) → o.Res → Owned → Prop where
  | mysqlRealEscapeString {conn s size} :
      Answered client owned (.mysqlRealEscapeString conn s size) (client.realEscapeString s) owned
  | mysqlError {conn} : Answered client owned (.mysqlError conn) () owned
  | storeFailed {conn} (hconn : owned.conns conn = some (.unread none)) :
      Answered client owned (.mysqlStoreResult conn) none (owned.setConn conn (some .ready))
  | stored {conn rows a} (hconn : owned.conns conn = some (.unread (some rows)))
      (hfree : owned.heap a = none) :
      Answered client owned (.mysqlStoreResult conn) (some a)
        ((owned.setConn conn (some .ready)).setObj a (some (.result rows 0)))
  | mysqlFieldCount {conn n} : Answered client owned (.mysqlFieldCount conn) n owned
  | fetched {res rows next} (hobj : owned.heap res = some (.result rows next))
      (hlt : next < rows.length) :
      Answered client owned (.mysqlFetchRow res) (some ⟨res, next⟩)
        (owned.setObj res (some (.result rows (next + 1))))
  | fetchedAll {res rows next} (hobj : owned.heap res = some (.result rows next))
      (hend : rows.length ≤ next) : Answered client owned (.mysqlFetchRow res) none owned
  | cells {row rows next cells} (hobj : owned.heap row.res = some (.result rows next))
      (hcells : rows[row.index]? = some cells) : Answered client owned (.cells row) cells owned
  | mysqlFreeResult {res} :
      Answered client owned (.mysqlFreeResult res) () (owned.setObj res none)
  | fields {reply r} (hobj : owned.heap reply = some (.reply r)) :
      Answered client owned (.fields reply) r owned
  | freeReplyObject {reply} :
      Answered client owned (.freeReplyObject reply) () (owned.setObj reply none)

/-- The states of the connections that are lent. -/
def Clients.lent (poolSize : Nat) (w : Clients) (conn : Nat) : Option Status :=
  if conn < poolSize ∧ conn ∉ w.stores.idle then some (w.status conn) else none

/-- The threads own the connections that are lent and the objects that are allocated, and an idle
connection has no result set waiting on it. -/
structure Coherent (poolSize : Nat) (owners : Nat → Owned) (w : Clients) : Prop where
  heap : Partition w.heap fun t => (owners t).heap
  conns : Partition (w.lent poolSize) fun t => (owners t).conns
  nodup : w.stores.idle.Nodup
  bounded : ∀ conn ∈ w.stores.idle, conn < poolSize
  ready : ∀ conn ∈ w.stores.idle, w.status conn = .ready
  room : ∃ n, ∀ a, n ≤ a → w.heap a = none

variable {client : MysqlClient} {mysql : NumericPrefix} {poolSize : Nat} {owners : Nat → Owned}
  {w w' : Clients} {t conn a : Nat}

/-- At first the threads own nothing. -/
theorem Coherent.initial (poolSize : Nat) :
    Coherent poolSize (fun _ => .nothing) (.initial poolSize) where
  heap := .empty
  conns := by
    have hlent : (Clients.initial poolSize).lent poolSize = fun _ => none := by
      funext conn
      refine if_neg fun h => h.2 ?_
      exact List.mem_range.mpr h.1
    rw [hlent]
    exact .empty
  nodup := List.nodup_range
  bounded := fun conn hconn => List.mem_range.mp hconn
  ready := fun _ _ => rfl
  room := ⟨0, fun _ _ => rfl⟩

/-- A connection that a thread owns is lent, and in the state that the thread knows. -/
theorem Coherent.status_eq (h : Coherent poolSize owners w) {status : Status}
    (hconn : (owners t).conns conn = some status) :
    w.status conn = status ∧ conn < poolSize ∧ conn ∉ w.stores.idle := by
  have hlent := h.conns.whole_of_part t conn status hconn
  unfold Clients.lent at hlent
  split at hlent
  · rename_i hcond
    cases hlent
    exact ⟨rfl, hcond⟩
  · cases hlent

theorem heap_update (owners : Nat → Owned) (t : Nat) (owned : Owned) :
    (fun u => (Function.update owners t owned u).heap) =
      Function.update (fun u => (owners u).heap) t owned.heap :=
  funext fun u => Function.apply_update (fun _ => Owned.heap) owners t owned u

theorem conns_update (owners : Nat → Owned) (t : Nat) (owned : Owned) :
    (fun u => (Function.update owners t owned u).conns) =
      Function.update (fun u => (owners u).conns) t owned.conns :=
  funext fun u => Function.apply_update (fun _ => Owned.conns) owners t owned u

/-- A thread sets an object that it owns, or that nobody owns. -/
theorem Coherent.setObj (h : Coherent poolSize owners w) (hown : (owners t).heap a = w.heap a)
    (obj : Option Obj) :
    Coherent poolSize (Function.update owners t ((owners t).setObj a obj)) (w.setObj a obj) where
  heap := by
    rw [heap_update]
    exact h.heap.set hown obj
  conns := by
    rw [conns_update, Owned.conns_setObj,
      Function.update_eq_self t fun u => (owners u).conns]
    exact h.conns
  nodup := h.nodup
  bounded := h.bounded
  ready := h.ready
  room := by
    obtain ⟨n, hn⟩ := h.room
    refine ⟨max n (a + 1), fun b hb => ?_⟩
    rw [show (w.setObj a obj).heap b = w.heap b from
      Function.update_of_ne (by omega) ..]
    exact hn b (by omega)

/-- A thread changes the state of a connection that it owns. -/
theorem Coherent.setStatus (h : Coherent poolSize owners w) {old : Status}
    (hconn : (owners t).conns conn = some old) (status : Status) :
    Coherent poolSize (Function.update owners t ((owners t).setConn conn (some status)))
      (w.setStatus conn status) where
  heap := by
    rw [heap_update, Owned.heap_setConn, Function.update_eq_self t fun u => (owners u).heap]
    exact h.heap
  conns := by
    obtain ⟨-, hlt, hlent⟩ := h.status_eq hconn
    have hwhole : (w.setStatus conn status).lent poolSize =
        Function.update (w.lent poolSize) conn (some status) := by
      funext other
      by_cases hother : other = conn
      · subst hother
        rw [Function.update_self]
        unfold Clients.lent
        rw [if_pos ⟨hlt, hlent⟩]
        exact congrArg some (Function.update_self ..)
      · rw [Function.update_of_ne hother]
        unfold Clients.lent
        rw [show (w.setStatus conn status).status other = w.status other from
          Function.update_of_ne hother ..]
        rfl
    rw [hwhole, conns_update]
    exact h.conns.set (hconn.trans (h.conns.whole_of_part t conn old hconn).symm) (some status)
  nodup := h.nodup
  bounded := h.bounded
  ready := by
    intro other hidle
    have hne : other ≠ conn := by
      rintro rfl
      exact (h.status_eq hconn).2.2 hidle
    exact (Function.update_of_ne hne ..).trans (h.ready other hidle)
  room := h.room

/-- The stores may change as long as the pool does not. -/
theorem Coherent.onStores (h : Coherent poolSize owners w) {stores : World}
    (hidle : stores.idle = w.stores.idle) : Coherent poolSize owners { w with stores } where
  heap := h.heap
  conns := by
    have hwhole : Clients.lent poolSize { w with stores } = w.lent poolSize := by
      funext conn
      unfold Clients.lent
      rw [hidle]
    rw [hwhole]
    exact h.conns
  nodup := by
    rw [hidle]
    exact h.nodup
  bounded := by
    intro conn hconn
    rw [hidle] at hconn
    exact h.bounded conn hconn
  ready := by
    intro conn hconn
    rw [hidle] at hconn
    exact h.ready conn hconn
  room := h.room

/-- A thread borrows the connection on top of the stack. -/
theorem Coherent.acquire (h : Coherent poolSize owners w) {stores : World}
    (hidle : w.stores.idle = stores.idle ++ [conn]) :
    (owners t).conns conn = none ∧
      Coherent poolSize (Function.update owners t ((owners t).setConn conn (some .ready)))
        { w with stores } := by
  have hmem : conn ∈ w.stores.idle := by
    rw [hidle]
    exact List.mem_append_right _ List.mem_cons_self
  have hnodup := h.nodup
  rw [hidle, List.nodup_append] at hnodup
  obtain ⟨hnodup, -, hfresh⟩ := hnodup
  have hnotIdle : conn ∉ stores.idle := fun hidle =>
    hfresh conn hidle conn List.mem_cons_self rfl
  have hfree : w.lent poolSize conn = none := if_neg fun hlent => hlent.2 hmem
  have hwhole : Clients.lent poolSize { w with stores } =
      Function.update (w.lent poolSize) conn (some .ready) := by
    funext other
    by_cases hother : other = conn
    · subst hother
      rw [Function.update_self]
      unfold Clients.lent
      rw [if_pos ⟨h.bounded other hmem, hnotIdle⟩, h.ready other hmem]
    · rw [Function.update_of_ne hother]
      unfold Clients.lent
      rw [hidle]
      simp only [List.mem_append, List.mem_singleton, hother, or_false]
  refine ⟨h.conns.part_eq_none hfree t, ?_, ?_, hnodup, ?_, ?_, h.room⟩
  · rw [heap_update, Owned.heap_setConn, Function.update_eq_self t fun u => (owners u).heap]
    exact h.heap
  · rw [hwhole, conns_update]
    exact h.conns.set ((h.conns.part_eq_none hfree t).trans hfree.symm) (some .ready)
  · intro other hother
    refine h.bounded other ?_
    rw [hidle]
    exact List.mem_append_left _ hother
  · intro other hother
    refine h.ready other ?_
    rw [hidle]
    exact List.mem_append_left _ hother

/-- A thread gives back a connection that it owns. -/
theorem Coherent.release (h : Coherent poolSize owners w)
    (hready : (owners t).conns conn = some .ready) :
    Coherent poolSize (Function.update owners t ((owners t).setConn conn none))
      { w with stores := { w.stores with idle := w.stores.idle ++ [conn] } } := by
  obtain ⟨hstatus, hlt, hlent⟩ := h.status_eq hready
  have hwhole : Clients.lent poolSize
        { w with stores := { w.stores with idle := w.stores.idle ++ [conn] } } =
      Function.update (w.lent poolSize) conn none := by
    funext other
    unfold Clients.lent
    by_cases hother : other = conn
    · subst hother
      rw [Function.update_self]
      exact if_neg fun hcond => hcond.2 (List.mem_append_right _ List.mem_cons_self)
    · rw [Function.update_of_ne hother]
      simp only [List.mem_append, List.mem_singleton, hother, or_false]
  refine ⟨?_, ?_, ?_, ?_, ?_, h.room⟩
  · rw [heap_update, Owned.heap_setConn, Function.update_eq_self t fun u => (owners u).heap]
    exact h.heap
  · rw [hwhole, conns_update]
    exact h.conns.set (hready.trans (h.conns.whole_of_part t conn _ hready).symm) none
  · refine List.nodup_append.mpr ⟨h.nodup, List.nodup_singleton _, ?_⟩
    intro other hother last hlast heq
    rw [List.mem_singleton.mp hlast] at heq
    exact hlent (heq ▸ hother)
  · intro other hother
    rcases List.mem_append.mp hother with hother | hother
    · exact h.bounded other hother
    · exact (List.mem_singleton.mp hother) ▸ hlt
  · intro other hother
    rcases List.mem_append.mp hother with hother | hother
    · exact h.ready other hother
    · exact (List.mem_singleton.mp hother) ▸ hstatus

end HttpServerDemo.Native
