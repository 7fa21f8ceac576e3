/-
The bounded caches of the gateway: entries in the order of their last use, each with the time at
which it expires. An operation reads the clock once.
-/
import Mesa.Foundation.Table

namespace Mesa.Gateway

open Mesa.Foundation

structure CacheEntry (K V : Type) where
  key : K
  value : V
  expiresAt : Option ℚ

instance {K V : Type} : Keyed (CacheEntry K V) K := ⟨CacheEntry.key⟩

/-- `BoundedLRUCache`; the entry that was used last comes last. -/
structure BoundedLRUCache (K V : Type) where
  maxSize : Nat
  defaultTtl : Option ℚ
  cache : Table (CacheEntry K V)

variable {K V : Type} [DecidableEq K]

def BoundedLRUCache.new (K V : Type) (maxSize : Nat) (defaultTtl : Option ℚ) : BoundedLRUCache K V :=
  ⟨maxSize, defaultTtl, .empty⟩

def CacheEntry.expired (e : CacheEntry K V) (now : ℚ) : Bool := e.expiresAt.any fun expiresAt => expiresAt ≤ now

/-- `_prune_expired`. -/
def BoundedLRUCache.pruneExpired (c : BoundedLRUCache K V) (now : ℚ) : BoundedLRUCache K V :=
  { c with cache := c.cache.delete fun e => e.expired now }

/-- `move_to_end`, or the entry of a new key. -/
def BoundedLRUCache.moveToEnd (c : BoundedLRUCache K V) (e : CacheEntry K V) : BoundedLRUCache K V :=
  { c with cache := (c.cache.delete fun x => decide (x.key = e.key)).insertOrIgnore e }

/-- `get`. The entries that are left after pruning have not expired at the same reading. -/
def BoundedLRUCache.get (c : BoundedLRUCache K V) (key : K) (now : ℚ) : BoundedLRUCache K V × Option V :=
  let c := c.pruneExpired now
  match c.cache.lookup key with
  | none => (c, none)
  | some e => (c.moveToEnd e, some e.value)

/-- The first entries go while there are too many. -/
def BoundedLRUCache.evict (c : BoundedLRUCache K V) : BoundedLRUCache K V :=
  { c with
    cache := ⟨c.cache.rows.drop (c.cache.rows.length - c.maxSize),
      (List.Sublist.map _ (List.drop_sublist ..)).nodup c.cache.unique⟩ }

def BoundedLRUCache.put (c : BoundedLRUCache K V) (key : K) (value : V) (ttlSeconds : Option ℚ) (now : ℚ) :
    BoundedLRUCache K V :=
  ((c.pruneExpired now).moveToEnd ⟨key, value, (ttlSeconds.or c.defaultTtl).map (now + ·)⟩).evict

def BoundedLRUCache.pop (c : BoundedLRUCache K V) (key : K) : BoundedLRUCache K V :=
  { c with cache := c.cache.delete fun e => decide (e.key = key) }

def BoundedLRUCache.clear (c : BoundedLRUCache K V) : BoundedLRUCache K V := { c with cache := .empty }

/-! ## Entries -/

variable {c : BoundedLRUCache K V} {e : CacheEntry K V} {key : K} {now : ℚ}

omit [DecidableEq K] in
theorem mem_pruneExpired : e ∈ (c.pruneExpired now).cache.rows ↔ e ∈ c.cache.rows ∧ e.expired now = false :=
  Table.mem_delete

theorem mem_moveToEnd {x : CacheEntry K V} :
    x ∈ (c.moveToEnd e).cache.rows ↔ x = e ∨ x ∈ c.cache.rows ∧ x.key ≠ e.key := by
  have hnone : (c.cache.delete fun y => decide (y.key = e.key)).lookup (Keyed.key e) = none :=
    Table.lookup_eq_none.2 fun y hy => of_decide_eq_false (Table.mem_delete.1 hy).2
  rw [BoundedLRUCache.moveToEnd, Table.mem_insertOrIgnore, Table.mem_delete, and_iff_left hnone, decide_eq_false_iff_not,
    or_comm]

/-- What is found is an entry that has not expired. -/
theorem get_eq_some {v : V} : (c.get key now).2 = some v ↔
    ∃ e ∈ c.cache.rows, e.key = key ∧ e.value = v ∧ e.expired now = false := by
  unfold BoundedLRUCache.get
  constructor
  · intro h
    dsimp only at h
    split at h
    · cases h
    · next e he =>
      obtain ⟨hmem, hlive⟩ := mem_pruneExpired.1 (Table.lookup_mem he)
      exact ⟨e, hmem, Table.lookup_key he, Option.some.inj h, hlive⟩
  · rintro ⟨e, he, rfl, rfl, hlive⟩
    have hlookup : (c.pruneExpired now).cache.lookup e.key = some e :=
      Table.lookup_of_mem (mem_pruneExpired.2 ⟨he, hlive⟩)
    simp only [hlookup]

/-- A lookup leaves the entries that have not expired. -/
theorem mem_get : e ∈ (c.get key now).1.cache.rows ↔ e ∈ c.cache.rows ∧ e.expired now = false := by
  unfold BoundedLRUCache.get
  rw [← mem_pruneExpired]
  dsimp only
  split
  · exact Iff.rfl
  · next found hfound =>
    rw [mem_moveToEnd]
    constructor
    · rintro (rfl | ⟨he, -⟩)
      · exact Table.lookup_mem hfound
      · exact he
    · intro he
      by_cases hkey : e.key = found.key
      · exact .inl (Table.eq_of_key_eq he (Table.lookup_mem hfound) hkey)
      · exact .inr ⟨he, hkey⟩

/-- An entry after a `put` is the new one, or was there under another key. -/
theorem mem_put {value : V} {ttl : Option ℚ} (h : e ∈ (c.put key value ttl now).cache.rows) :
    e = ⟨key, value, (ttl.or c.defaultTtl).map (now + ·)⟩ ∨ e ∈ c.cache.rows ∧ e.key ≠ key := by
  rcases mem_moveToEnd.1 (List.mem_of_mem_drop h) with rfl | ⟨he, hkey⟩
  · exact .inl rfl
  · exact .inr ⟨(mem_pruneExpired.1 he).1, hkey⟩

theorem mem_pop : e ∈ (c.pop key).cache.rows ↔ e ∈ c.cache.rows ∧ e.key ≠ key := by
  rw [BoundedLRUCache.pop, Table.mem_delete, decide_eq_false_iff_not]

omit [DecidableEq K] in
theorem not_mem_clear : e ∉ c.clear.cache.rows := by simp [BoundedLRUCache.clear]

end Mesa.Gateway
