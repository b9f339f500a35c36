import HttpServerDemo.Store.UserRepository

/-!
# The keys of the cache

User entries, list pages, the two counters and the index of the pages live under different keys,
and a page's key determines its limit and offset. All keys but those of users are free of NUL, so
they are sent as they are; of a user key, everything up to the first NUL of the id is sent.
-/

namespace HttpServerDemo

/-- The keys that hold users. -/
def IsUserKey (key : Octets) : Prop :=
  Octets.ascii "user:" <+: key

/-- The keys that hold list pages. -/
def IsListKey (key : Octets) : Prop :=
  Octets.ascii "users:list:" <+: key

theorem cStr_user_key (id : Text) :
    Octets.cStr (userKey id) = Octets.ascii "user:" ++ Octets.cStr id.bytes :=
  Octets.cStr_append (by decide) _

/-- The key of a numeral id is sent as it is. -/
theorem cStr_user_key_text (i : Int) :
    Octets.cStr (userKey (Decimal.text i)) = userKey (Decimal.text i) := by
  rw [cStr_user_key, Octets.cStr_eq_self (Decimal.nulFree_text i)]
  rfl

theorem isUserKey_user_key (id : Text) : IsUserKey (Octets.cStr (userKey id)) := by
  rw [cStr_user_key]
  exact List.prefix_append _ _

@[simp] theorem cStr_list_cache_key (limit offset : Int32) :
    Octets.cStr (listCacheKey limit offset) = listCacheKey limit offset := by
  refine Octets.cStr_eq_self ?_
  simp only [listCacheKey, List.mem_append, not_or]
  exact ⟨⟨⟨by decide, Decimal.nul_not_mem_ofInt _⟩, by decide⟩, Decimal.nul_not_mem_ofInt _⟩

theorem isListKey_list_cache_key (limit offset : Int32) :
    IsListKey (listCacheKey limit offset) := by
  simp only [listCacheKey, List.append_assoc]
  exact List.prefix_append _ _

@[simp] theorem cStr_list_cache_index : Octets.cStr kListCacheIndex = kListCacheIndex :=
  rfl

@[simp] theorem cStr_total_users_key : Octets.cStr totalUsersKey = totalUsersKey :=
  rfl

@[simp] theorem cStr_request_count_key : Octets.cStr requestCountKey = requestCountKey :=
  rfl

/-- No user entry is a list page. -/
theorem IsUserKey.not_isListKey {key : Octets} (h : IsUserKey key) : ¬ IsListKey key := by
  rintro ⟨s, rfl⟩
  obtain ⟨t, ht⟩ := h
  exact absurd ht (by simp [Octets.ascii])

/-- No user entry is at a fixed key. -/
theorem IsUserKey.ne {key : Octets} (h : IsUserKey key) :
    key ≠ totalUsersKey ∧ key ≠ requestCountKey ∧ key ≠ kListCacheIndex := by
  obtain ⟨t, rfl⟩ := h
  exact ⟨by simp [Octets.ascii, totalUsersKey], by simp [Octets.ascii, requestCountKey],
    by simp [Octets.ascii, kListCacheIndex]⟩

/-- No list page is at a fixed key. -/
theorem IsListKey.ne {key : Octets} (h : IsListKey key) :
    key ≠ totalUsersKey ∧ key ≠ requestCountKey ∧ key ≠ kListCacheIndex := by
  obtain ⟨t, rfl⟩ := h
  exact ⟨by simp [Octets.ascii, totalUsersKey], by simp [Octets.ascii, requestCountKey],
    by simp [Octets.ascii, kListCacheIndex]⟩

/-- What is sent of a page's key is the key of a page. -/
theorem IsListKey.cStr {key : Octets} (h : IsListKey key) : IsListKey (Octets.cStr key) := by
  obtain ⟨s, rfl⟩ := h
  rw [Octets.cStr_append (by decide)]
  exact List.prefix_append _ _

theorem total_users_key_ne : totalUsersKey ≠ requestCountKey ∧ totalUsersKey ≠ kListCacheIndex := by
  decide

theorem list_cache_index_ne : kListCacheIndex ≠ requestCountKey := by
  decide

/-- The key of a page determines its limit and its offset. -/
theorem list_cache_key_inj {limit offset limit' offset' : Int32}
    (h : listCacheKey limit offset = listCacheKey limit' offset') :
    limit = limit' ∧ offset = offset' := by
  -- the first colon after the prefix ends the limit
  have hcut : ∀ (i : Int) (b : Octets),
      (Decimal.ofInt i ++ 58 :: b).takeWhile (· != 58) = Decimal.ofInt i := by
    intro i b
    rw [List.takeWhile_append_of_pos]
    · simp
    · intro c hc
      have hne : c ≠ 58 := by
        rintro rfl
        rcases Decimal.isDigit_or_minus_of_mem_ofInt hc with h | h <;> revert h <;> decide
      simpa using hne
  simp only [listCacheKey, List.append_assoc, List.append_cancel_left_eq] at h
  have hlimit := congrArg (List.takeWhile (· != 58)) h
  have hcolon : Octets.ascii ":" = [58] := rfl
  rw [hcolon] at h hlimit
  simp only [List.singleton_append, hcut] at h hlimit
  rw [hlimit] at h
  simp only [List.append_cancel_left_eq, List.cons.injEq, true_and] at h
  exact ⟨Int32.toInt_inj.mp (Decimal.ofInt_injective hlimit),
    Int32.toInt_inj.mp (Decimal.ofInt_injective h)⟩

/-- For every id, also as it is sent, and for every limit and offset: a user's key is the key of no
page and no fixed key, a page's key is no fixed key, and different pages have different keys. -/
theorem cache_keys_distinct (id : Text) (limit offset limit' offset' : Int32) :
    (∀ key ∈ [userKey id, Octets.cStr (userKey id)], key ≠ listCacheKey limit offset ∧
      key ≠ kListCacheIndex ∧ key ≠ totalUsersKey ∧ key ≠ requestCountKey) ∧
    (listCacheKey limit offset ≠ kListCacheIndex ∧ listCacheKey limit offset ≠ totalUsersKey ∧
      listCacheKey limit offset ≠ requestCountKey) ∧
    (listCacheKey limit offset = listCacheKey limit' offset' ↔
      limit = limit' ∧ offset = offset') := by
  have huser : ∀ {key}, IsUserKey key → key ≠ listCacheKey limit offset ∧
      key ≠ kListCacheIndex ∧ key ≠ totalUsersKey ∧ key ≠ requestCountKey := by
    intro key hkey
    obtain ⟨htotal, hcount, hindex⟩ := hkey.ne
    refine ⟨?_, hindex, htotal, hcount⟩
    rintro rfl
    exact hkey.not_isListKey (isListKey_list_cache_key limit offset)
  obtain ⟨htotal, hcount, hindex⟩ := (isListKey_list_cache_key limit offset).ne
  refine ⟨fun key hkey => ?_, ⟨hindex, htotal, hcount⟩, list_cache_key_inj, ?_⟩
  · simp only [List.mem_cons, List.not_mem_nil, or_false] at hkey
    rcases hkey with rfl | rfl
    · exact huser (List.prefix_append _ _)
    · exact huser (isUserKey_user_key id)
  · rintro ⟨rfl, rfl⟩
    rfl

end HttpServerDemo
