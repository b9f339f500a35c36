import HttpServerDemo.Cache.Replies

/-!
# Walking through the pages

A client asks for one page after the other until it gets a short one. Every page is a slice of the
table at some instant, possibly an old one that was cached by another call. Rows are only ever
appended, so a full page stays the slice of its limit and offset for good: the pages of different
instants fit together, and `walk_is_prefix` says that a walk reads the first rows of the table.
-/

namespace HttpServerDemo

open Interleaving Keyspace

variable {lib : Libraries} {poolSize : Nat} {ok : Server → ServerEvent → Prop} {c : Server}
  {limit : Int32}

/-- Between instants `i` and `j` a client asks for page `n` of pages of `limit` users, and gets
it. -/
structure PageAsked (c : Server) (limit : Int32) (n : Nat) (page : List User) (i j : Nat) :
    Prop where
  asked : ∃ (t m : Nat) (offset : Int32) (total : Int64), i ≤ m ∧ m < j ∧
    offset.toInt = n * limit.toInt ∧ callAt c m = some (t, .listUsers limit offset) ∧
    replyAt c j = some (t, .page page total)

/-- Up to instant `j` a client has read `n` full pages, with these users, one after the other. -/
inductive FullPages (c : Server) (limit : Int32) : List User → (n j : Nat) → Prop where
  | start (j : Nat) : FullPages c limit [] 0 j
  | next {users page : List User} {n i j : Nat} (before : FullPages c limit users n i)
      (hasked : PageAsked c limit n page i j) (hfull : limit.toInt ≤ page.length) :
      FullPages c limit (users ++ page) (n + 1) j

/-- A walk that ends at instant `j`: full pages and then the first page shorter than the limit. -/
def Walk (c : Server) (limit : Int32) (users : List User) (j : Nat) : Prop :=
  ∃ full n i page, FullPages c limit full n i ∧ PageAsked c limit n page i j ∧
    page.length < limit.toInt ∧ users = full ++ page

/-- These users are the first rows of the table at instant `j`: their ids are the ids of those rows
in increasing order, none twice and none left out. -/
def FirstRows (c : Server) (users : List User) (j : Nat) : Prop :=
  ∃ n ≤ (rowsAt c j).length,
    users.map User.id = ((rowsAt c j).take n).map (fun row => Decimal.text row.id) ∧
    ((rowsAt c j).take n).Pairwise (fun a b => a.id < b.id) ∧ (users.map User.id).Nodup

/-- The service passes a proper limit and offset on as they are. -/
theorem page_limit_of_pos (h : 0 < limit) : UserServiceImpl.pageLimit limit = limit :=
  if_pos h

theorem page_offset_of_nonneg (h : 0 ≤ offset.toInt) :
    UserServiceImpl.pageOffset offset = offset := by
  unfold UserServiceImpl.pageOffset
  split
  · rfl
  · rename_i hneg
    rw [Int32.lt_iff_toInt_lt] at hneg
    refine (Int32.toInt_inj.mp ?_).symm
    have hzero : (0 : Int32).toInt = 0 := rfl
    omega

variable {users page : List User} {i j n : Nat}

/-- The page that a client gets is the beginning of its page of the rows at the reply. -/
theorem PageAsked.prefix_page (hrun : ServerRun lib poolSize ok c) (hlimit : 0 < limit)
    (h : PageAsked c limit n page i j) :
    i ≤ j ∧ page.length ≤ limit.toInt.toNat ∧ ∃ rows,
      rows <+: (rowsAt c j).drop (n * limit.toInt.toNat) ∧ page = rows.map readBack := by
  obtain ⟨t, m, offset, total, him, hmj, hoffset, hcall, hret⟩ := h.asked
  have hpos : 0 < limit.toInt := Int32.lt_iff_toInt_lt.mp hlimit
  have hnat : (limit.toInt.toNat : Int) = limit.toInt := Int.toNat_of_nonneg (Int.le_of_lt hpos)
  have hprod : offset.toInt = (n * limit.toInt.toNat : Nat) := by
    rw [hoffset, Nat.cast_mul, hnat]
  obtain ⟨u, k, s, hread, hsj, -⟩ := list_reply_source hrun ⟨m, hcall⟩ hret
  have hpage : page =
      (((rowsAt c s).drop (n * limit.toInt.toNat)).take limit.toInt.toNat).map readBack := by
    rw [hread.users_eq, page_limit_of_pos hlimit, page_offset_of_nonneg (by omega), pageUsers,
      slice, hprod, Int.toNat_natCast]
  refine ⟨by omega, ?_, _, ?_, hpage⟩
  · rw [hpage, List.length_map, List.length_take]
    exact Nat.min_le_left _ _
  · -- the page may be old, but rows are only appended
    have hrows := rowsAt_mono hrun (Nat.le_of_lt hsj)
    exact (List.take_prefix _ _).trans (hrows.drop _)

/-- What a client has read, with a page that continues it. -/
theorem read_on {rows rows' part : List Row} {m : Nat} (hrows : rows <+: rows')
    (hm : m ≤ rows.length) (hpart : part <+: rows'.drop m) :
    rows.take m ++ part = rows'.take (m + part.length) ∧ m + part.length ≤ rows'.length := by
  have hle := hrows.length_le
  have hlen := hpart.length_le
  rw [List.length_drop] at hlen
  refine ⟨?_, by omega⟩
  rw [List.take_add, ← List.prefix_iff_eq_take.mp hpart]
  congr 1
  obtain ⟨rest, rfl⟩ := hrows
  exact (List.take_append_of_le_length hm).symm

/-- After `n` full pages a client has read the first `n * limit` rows. -/
theorem FullPages.eq_take (hrun : ServerRun lib poolSize ok c) (hlimit : 0 < limit)
    (h : FullPages c limit users n j) :
    n * limit.toInt.toNat ≤ (rowsAt c j).length ∧
      users = ((rowsAt c j).take (n * limit.toInt.toNat)).map readBack := by
  induction h with
  | start j => simp
  | @next users page n i j before hasked hfull ih =>
      obtain ⟨hle, rfl⟩ := ih
      obtain ⟨hij, hlength, part, hpart, rfl⟩ := hasked.prefix_page hrun hlimit
      obtain ⟨htake, hbound⟩ := read_on (rowsAt_mono hrun hij) hle hpart
      have hfull : part.length = limit.toInt.toNat := by
        rw [List.length_map] at hlength hfull
        omega
      rw [hfull, ← Nat.succ_mul] at htake hbound
      exact ⟨hbound, by rw [← htake, List.map_append]⟩

/-- A walk reads the first rows of the table at its end, each once and in order. -/
theorem walk_is_prefix (hrun : ServerRun lib poolSize ok c) (hlimit : 0 < limit)
    (h : Walk c limit users j) : FirstRows c users j := by
  obtain ⟨full, n, i, page, hfull, hasked, -, rfl⟩ := h
  obtain ⟨hle, rfl⟩ := hfull.eq_take hrun hlimit
  obtain ⟨hij, -, part, hpart, rfl⟩ := hasked.prefix_page hrun hlimit
  obtain ⟨htake, hbound⟩ := read_on (rowsAt_mono hrun hij) hle hpart
  have hsorted : (rowsAt c j).Pairwise fun a b => a.id < b.id := by
    obtain ⟨rest, hrows⟩ := rowsAt_now hrun j
    exact (List.pairwise_append.mp (hrows ▸ c.world.table.sorted)).1
  have hids : (((rowsAt c i).take (n * limit.toInt.toNat)).map readBack ++
      part.map readBack).map User.id =
        ((rowsAt c j).take (n * limit.toInt.toNat + part.length)).map
          (fun row => Decimal.text row.id) := by
    rw [← List.map_append, htake, List.map_map]
    exact List.map_congr_left fun row _ => id_readBack row
  refine ⟨_, hbound, hids, hsorted.sublist (List.take_sublist _ _), ?_⟩
  rw [hids]
  refine List.pairwise_map.mpr ((hsorted.sublist (List.take_sublist _ _)).imp ?_)
  intro a b hlt heq
  have := Decimal.text_injective heq
  omega

/-- With pages of two users, the first read before the third user was created and the second
after it. -/
theorem walk_is_prefix_growing :
    ∃ c, ServerRun .standard 1 (fun _ _ => True) c ∧
      (callAt c 24 = some (2, .listUsers 2 0) ∧
        replyAt c 33 = some (2, .page [⟨.ascii "1", .ascii "Ann", .ascii "ann@example.com", 7⟩,
          ⟨.ascii "2", .ascii "Bob", .ascii "bob@example.com", 8⟩] 2) ∧
        callAt c 47 = some (4, .listUsers 2 2) ∧
        replyAt c 56 =
          some (4, .page [⟨.ascii "3", .ascii "Cid", .ascii "cid@example.com", 9⟩] 3)) ∧
      FirstRows c [⟨.ascii "1", .ascii "Ann", .ascii "ann@example.com", 7⟩,
        ⟨.ascii "2", .ascii "Bob", .ascii "bob@example.com", 8⟩,
        ⟨.ascii "3", .ascii "Cid", .ascii "cid@example.com", 9⟩] 56 := by
  refine exists_run_with (fun _ _ => true)
    (whole 0 (.createUser (.ascii "Ann") (.ascii "ann@example.com")) (creates 7 0) ++
      whole 1 (.createUser (.ascii "Bob") (.ascii "bob@example.com")) (creates 8 0) ++
      whole 2 (.listUsers 2 0) (List.replicate 8 .ok) ++
      whole 3 (.createUser (.ascii "Cid") (.ascii "cid@example.com")) (creates 9 1) ++
      whole 4 (.listUsers 2 2) (List.replicate 8 .ok))
    (fun _ _ _ => trivial) (by decide +kernel) ?_
  rintro c hrun ⟨hcall, hret, hcall', hret'⟩
  have hfirst : FullPages c 2 _ 1 33 :=
    .next (.start 24) ⟨2, 24, 0, 2, by decide, by decide, by decide, hcall, hret⟩ (by decide)
  exact walk_is_prefix hrun (by decide) ⟨_, 1, 33, _, hfirst,
    ⟨4, 47, 2, 3, by decide, by decide, by decide, hcall', hret'⟩, by decide, rfl⟩

end HttpServerDemo
