import Drawing.Analysis.Cache
import Drawing.Analysis.Measures
import Drawing.Number.Exact
import Drawing.Proofs.Fallible
import Drawing.Proofs.Table
import Mathlib.Data.List.Nodup
import Mathlib.Data.Rat.Floor

/-!
# `Drawing/Proofs/Analysis/Recency.lean` — what a cache remembers

A cache is asked, filled and cleared in any order, and what it holds then depends on all of it. Said of the calls
alone, it is simple:

> **a cache of room `n` holds the `n` keys used last** — a use is a `put`, or a `get` that found something, and
> only the uses since the last `clear` count — each with the value that was last put for it.

The calls are looked back on from the latest one, so a history is a list of calls with the latest first.
-/

namespace Drawing

/-- A call of a cache. -/
inductive CacheCall (β : Type) where
  | get (key : String)
  | put (key : String) (value : β)
  | clear

/-! ## Looking back -/

/-- The `n` most recent different keys among some uses, the latest first. -/
def recentKeys (n : Nat) (uses : List String) : List String := (distinct uses).take n

namespace CacheCall

variable {β : Type}

/-- The keys used since the last `clear`, the latest first. A `get` uses its key if it is one of the `n` most
recent. -/
def uses (n : Nat) : List (CacheCall β) → List String
  | [] => []
  | get key :: past => if key ∈ recentKeys n (uses n past) then key :: uses n past else uses n past
  | put key _ :: past => key :: uses n past
  | clear :: _ => []

/-- The keys that are stored after some calls, the latest first. -/
def stored (n : Nat) (past : List (CacheCall β)) : List String := recentKeys n (uses n past)

/-- The value that was last put for a key. -/
def lastPut? (key : String) : List (CacheCall β) → Option β
  | [] => none
  | get _ :: past => lastPut? key past
  | put k value :: past => if k = key then some value else lastPut? key past
  | clear :: past => lastPut? key past

/-- How many calls since the last `clear` were a `get`. -/
def gets : List (CacheCall β) → Nat
  | [] => 0
  | get _ :: past => gets past + 1
  | put _ _ :: past => gets past
  | clear :: _ => 0

/-- How many calls since the last `clear` were a `get` whose key was stored. -/
def hits (n : Nat) : List (CacheCall β) → Nat
  | [] => 0
  | get key :: past => if key ∈ stored n past then hits n past + 1 else hits n past
  | put _ _ :: past => hits n past
  | clear :: _ => 0

end CacheCall

namespace Cache

variable {β : Type}

/-- The cache after a call. -/
def call (c : Cache β) : CacheCall β → Cache β
  | .get key => (c.get key).2
  | .put key value => c.put key value
  | .clear => c.clear

/-- The cache after some calls, the first of them made first. -/
def run (c : Cache β) (calls : List (CacheCall β)) : Cache β := calls.foldl call c

/-- The keys that a cache holds, the one used last first. -/
def keys (c : Cache β) : List String := (c.entries.map Prod.fst).reverse

end Cache

/-! ## Different keys -/

/-- Taking a key out of the first few of some keys costs one of them at most. -/
theorem take_filter_take {key : String} {ks : List String} (h : ks.Nodup) (n : Nat) :
    ((ks.take (n + 1)).filter (· != key)).take n = (ks.filter (· != key)).take n := by
  induction ks generalizing n with
  | nil => simp
  | cons k ks ih =>
    obtain ⟨hk, hks⟩ := List.nodup_cons.mp h
    by_cases heq : k = key
    · -- the key is the first one, so it is none of the others
      subst heq
      have hothers : ∀ x ∈ ks, (x != k) = true := by
        intro x hx
        exact bne_iff_ne.mpr fun hxk => hk (hxk ▸ hx)
      have htake : ∀ x ∈ ks.take n, (x != k) = true := fun x hx => hothers x (List.mem_of_mem_take hx)
      simp [List.filter_eq_self.mpr hothers, List.filter_eq_self.mpr htake]
    · cases n with
      | zero => simp
      | succ n => simp [heq, ih hks n]

/-- The most recent keys after a use depend on those before it only. -/
theorem recentKeys_cons {n : Nat} (hn : 0 < n) (key : String) (uses : List String) :
    (key :: (recentKeys n uses).filter (· != key)).take n = recentKeys n (key :: uses) := by
  obtain ⟨n, rfl⟩ := Nat.exists_eq_succ_of_ne_zero (Nat.ne_of_gt hn)
  unfold recentKeys
  rw [distinct, List.take_succ_cons, List.take_succ_cons]
  exact congrArg _ (take_filter_take (nodup_distinct uses) n)

theorem CacheCall.length_stored_le {β : Type} (n : Nat) (past : List (CacheCall β)) :
    (stored n past).length ≤ n := by
  simp [stored, recentKeys]

/-! ## One call -/

namespace Cache

variable {β : Type}

theorem keys_touch (key : String) (value : β) (entries : List (String × β)) :
    ((touch key value entries).map Prod.fst).reverse =
      key :: (entries.map Prod.fst).reverse.filter (· != key) := by
  unfold touch
  rw [List.map_append, List.reverse_append, List.filter_reverse, List.filter_map]
  rfl

theorem keys_put (c : Cache β) (key : String) (value : β) :
    (c.put key value).keys = (key :: c.keys.filter (· != key)).take c.capacity := by
  have htake (ks : List String) : (ks.drop (ks.length - c.capacity)).reverse = ks.reverse.take c.capacity := by
    rw [List.reverse_drop, List.take_eq_take_iff, List.length_reverse]
    omega
  unfold keys put
  dsimp only
  rw [← keys_touch key value, ← htake, List.map_drop, List.length_map]

theorem mem_touch {key : String} {value : β} {entries : List (String × β)} {e : String × β}
    (h : e ∈ touch key value entries) : e = (key, value) ∨ e.1 ≠ key ∧ e ∈ entries := by
  unfold touch at h
  rcases List.mem_append.mp h with h | h
  · obtain ⟨he, hne⟩ := List.mem_filter.mp h
    exact .inr ⟨bne_iff_ne.mp hne, he⟩
  · exact .inl (List.mem_singleton.mp h)

theorem isSome_lookup_iff {c : Cache β} {key : String} :
    (c.entries.lookup key).isSome = true ↔ key ∈ c.keys := by
  unfold keys
  rw [List.mem_reverse]
  exact Table.isSome_get?_iff

/-- A cache that holds what some calls, the latest first, have left in it. -/
structure Remembers (c : Cache β) (n : Nat) (past : List (CacheCall β)) : Prop where
  capacity : c.capacity = n
  keys : c.keys = CacheCall.stored n past
  values : ∀ e ∈ c.entries, CacheCall.lastPut? e.1 past = some e.2
  hits : c.hits = CacheCall.hits n past
  gets : c.hits + c.misses = CacheCall.gets past

theorem remembers_ofCapacity {n : Nat} (h : 0 < n) : (ofCapacity n h : Cache β).Remembers n [] := by
  constructor <;> simp [ofCapacity, Cache.keys, CacheCall.stored, CacheCall.uses, recentKeys, distinct,
    CacheCall.hits, CacheCall.gets]

namespace Remembers

variable {c : Cache β} {n : Nat} {past : List (CacheCall β)}

theorem pos (h : c.Remembers n past) : 0 < n := by
  rw [← h.capacity]
  exact c.capacity_pos

theorem put (h : c.Remembers n past) (key : String) (value : β) :
    (c.put key value).Remembers n (.put key value :: past) := by
  refine ⟨h.capacity, ?_, ?_, h.hits, h.gets⟩
  · rw [keys_put, h.keys, h.capacity]
    exact recentKeys_cons h.pos key _
  · intro e he
    rcases mem_touch (List.mem_of_mem_drop he) with rfl | ⟨hne, he⟩
    · simp [CacheCall.lastPut?]
    · simp [CacheCall.lastPut?, Ne.symm hne, h.values e he]

/-- A `get` that finds nothing changes no entry. -/
theorem get_miss (h : c.Remembers n past) {key : String} (hkey : c.entries.lookup key = none) :
    (c.get key).2.Remembers n (.get key :: past) := by
  have hnot : key ∉ CacheCall.stored n past := by
    rw [← h.keys, ← isSome_lookup_iff]
    simp [hkey]
  have huses : CacheCall.uses n (.get key :: past) = CacheCall.uses n past := if_neg hnot
  have hhits : CacheCall.hits n (.get key :: past) = CacheCall.hits n past := if_neg hnot
  have hcache : (c.get key).2 = { c with misses := c.misses + 1 } := by simp [Cache.get, hkey]
  rw [hcache]
  refine ⟨h.capacity, ?_, h.values, hhits ▸ h.hits, ?_⟩
  · unfold CacheCall.stored
    rw [huses]
    exact h.keys
  · rw [CacheCall.gets, ← h.gets]
    rfl

/-- A `get` that finds something makes it the entry used last. -/
theorem get_hit (h : c.Remembers n past) {key : String} {value : β}
    (hkey : c.entries.lookup key = some value) : (c.get key).2.Remembers n (.get key :: past) := by
  have hmem : key ∈ c.keys := isSome_lookup_iff.mp (by simp [hkey])
  have hstored : key ∈ CacheCall.stored n past := h.keys ▸ hmem
  have huses : CacheCall.uses n (.get key :: past) = key :: CacheCall.uses n past := if_pos hstored
  have hhits : CacheCall.hits n (.get key :: past) = CacheCall.hits n past + 1 := if_pos hstored
  have hcache : (c.get key).2 =
      { c with entries := touch key value c.entries, hits := c.hits + 1 } := by simp [Cache.get, hkey]
  rw [hcache]
  refine ⟨h.capacity, ?_, ?_, ?_, ?_⟩
  · -- the key was there, so no other one has to go
    have hlength : (key :: (CacheCall.stored n past).filter (· != key)).length ≤ n := by
      have hle := CacheCall.length_stored_le n past
      have hlt : ((CacheCall.stored n past).filter (· != key)).length < (CacheCall.stored n past).length :=
        List.length_filter_lt_length_iff_exists.mpr ⟨key, hstored, by simp⟩
      rw [List.length_cons]
      omega
    have hkeys : Cache.keys { c with entries := touch key value c.entries, hits := c.hits + 1 } =
        key :: c.keys.filter (· != key) := keys_touch key value c.entries
    rw [hkeys, h.keys, ← List.take_of_length_le hlength]
    unfold CacheCall.stored
    rw [huses]
    exact recentKeys_cons h.pos key _
  · intro e he
    rcases mem_touch he with rfl | ⟨-, he⟩
    · exact h.values _ (Table.mem_of_get? hkey)
    · exact h.values e he
  · rw [hhits, ← h.hits]
  · rw [CacheCall.gets, ← h.gets]
    exact Nat.add_right_comm _ _ _

/-- **One call** keeps a cache in step with the history of its calls. -/
theorem call (h : c.Remembers n past) (a : CacheCall β) : (c.call a).Remembers n (a :: past) := by
  cases a with
  | get key =>
    cases hkey : c.entries.lookup key with
    | none => exact h.get_miss hkey
    | some value => exact h.get_hit hkey
  | put key value => exact h.put key value
  | clear =>
    constructor <;> simp [Cache.call, Cache.clear, Cache.keys, CacheCall.stored, CacheCall.uses, recentKeys,
      distinct, CacheCall.hits, CacheCall.gets, h.capacity]

/-- **A run** of calls does so too. -/
theorem run (h : c.Remembers n past) (calls : List (CacheCall β)) :
    (c.run calls).Remembers n (calls.reverse ++ past) := by
  induction calls generalizing c past with
  | nil => exact h
  | cons a rest ih =>
    have hrest := ih (h.call a)
    rw [List.reverse_cons, List.append_assoc]
    exact hrest

/-- What is answered for a key is the value last put for it, if it is stored. -/
theorem get_eq (h : c.Remembers n past) (key : String) :
    (key ∈ CacheCall.stored n past →
        ∃ value, CacheCall.lastPut? key past = some value ∧ (c.get key).1 = some value) ∧
      (key ∉ CacheCall.stored n past → (c.get key).1 = none) := by
  rw [← h.keys, ← isSome_lookup_iff]
  cases hkey : c.entries.lookup key with
  | none => simp [Cache.get, hkey]
  | some value =>
    have hvalue := h.values _ (Table.mem_of_get? hkey)
    simp [Cache.get, hkey, hvalue]

end Remembers

/-- A cache of room for one or more is made without results. -/
theorem create_whole {α : Type} [Scalar α] {n : Int} (hn : 1 ≤ n) :
    ∃ h : 0 < n.toNat, create (.whole n : Numeral α) = .ok (ofCapacity n.toNat h : Cache β) := by
  have hbelow : (Numeral.whole n : Numeral α).isBelow (.whole 1) = false := by
    have hle : ¬ ((n : Rat) < ((1 : Int) : Rat)) := by
      rw [Int.cast_lt]
      omega
    simpa [Numeral.isBelow, Numeral.isOrdered, Numeral.toRat?] using hle
  have hroom : roomOf (.whole n : Numeral α) = n.toNat := by
    unfold roomOf
    rw [hbelow]
    simp [Numeral.toRat?]
  have hpos : 0 < n.toNat := by omega
  refine ⟨hpos, ?_⟩
  unfold create
  simp only [hroom, hpos, dif_pos]

end Cache

/-- **What a cache remembers.** A new cache of room `n` has held, after any calls, the `n` keys used last since it
was cleared, in the order of their use, and nothing else. It answers for those with the value last put for them and
for no other key; it is never larger than its room; and it has counted every `get` since then, as a hit just if the
key was stored. -/
theorem cache_recency {α β : Type} [Scalar α] {n : Int} (hn : 1 ≤ n) :
    ∃ c : Cache β, Cache.create (.whole n : Numeral α) = .ok c ∧ ∀ calls : List (CacheCall β),
      (c.run calls).keys = CacheCall.stored n.toNat calls.reverse ∧
      (∀ key ∈ CacheCall.stored n.toNat calls.reverse, (c.run calls).contains key = true ∧
        ∃ value, CacheCall.lastPut? key calls.reverse = some value ∧
          ((c.run calls).get key).1 = some value) ∧
      (∀ key ∉ CacheCall.stored n.toNat calls.reverse, (c.run calls).contains key = false ∧
        ((c.run calls).get key).1 = none) ∧
      (c.run calls).size ≤ n ∧
      (c.run calls).hits + (c.run calls).misses = CacheCall.gets calls.reverse ∧
      (c.run calls).hits = CacheCall.hits n.toNat calls.reverse := by
  obtain ⟨hpos, hcreate⟩ := Cache.create_whole (α := α) (β := β) hn
  refine ⟨_, hcreate, fun calls => ?_⟩
  have hrun := (Cache.remembers_ofCapacity (β := β) hpos).run calls
  rw [List.append_nil] at hrun
  have hcontains (key : String) : (((Cache.ofCapacity n.toNat hpos).run calls).contains key = true) ↔
      key ∈ CacheCall.stored n.toNat calls.reverse := by
    rw [← hrun.keys]
    exact Cache.isSome_lookup_iff
  refine ⟨hrun.keys, ?_, ?_, ?_, hrun.gets, hrun.hits⟩
  · intro key hkey
    exact ⟨(hcontains key).mpr hkey, (hrun.get_eq key).1 hkey⟩
  · intro key hkey
    exact ⟨by simpa using mt (hcontains key).mp hkey, (hrun.get_eq key).2 hkey⟩
  · have hsize : ((Cache.ofCapacity n.toNat hpos).run calls).size =
        (CacheCall.stored n.toNat calls.reverse).length := by
      rw [← hrun.keys]
      simp [Cache.size, Cache.keys]
    have hle := CacheCall.length_stored_le n.toNat calls.reverse
    omega

/-- Calls of which the last asks for a key that had to go. -/
def evictingCalls : List (CacheCall Nat) :=
  [.put "a" 1, .put "b" 2, .get "a", .put "a" 4, .put "c" 3, .get "b"]

theorem cache_recency_evicting :
    (1 : Int) ≤ 2 ∧ ∃ c : Cache Nat, Cache.create (.whole 2 : Numeral Rat) = .ok c ∧
      (c.run evictingCalls).keys = ["c", "a"] ∧ ((c.run evictingCalls).get "a").1 = some 4 ∧
      ((c.run evictingCalls).get "b").1 = none ∧ (c.run evictingCalls).size ≤ 2 ∧
      (c.run evictingCalls).hits + (c.run evictingCalls).misses = 2 ∧ (c.run evictingCalls).hits = 1 := by
  obtain ⟨c, hc, h⟩ := cache_recency (α := Rat) (β := Nat) (n := 2) (by decide)
  obtain ⟨hkeys, hstored, hother, hsize, hgets, hhits⟩ := h evictingCalls
  have hlast : CacheCall.stored 2 evictingCalls.reverse = ["c", "a"] := by decide
  refine ⟨by decide, c, hc, hkeys.trans hlast, ?_, (hother "b" (by decide)).2, by omega, hgets, hhits⟩
  obtain ⟨-, value, hvalue, hget⟩ := hstored "a" (by decide)
  exact hget.trans (hvalue.symm.trans (by decide))

end Drawing
