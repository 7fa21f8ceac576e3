/-
Keyed relational tables. A table is a list of rows in insertion order whose keys are pairwise
distinct; the distinctness is a field, so no statement below can build a table that breaks its
primary key. Statements are read back through `lookup`, the partial map from keys to rows.
-/
import Mathlib.Data.List.Nodup
import Mathlib.Tactic

namespace Mesa.Foundation

/-- Rows of type `ρ` have a primary key of type `κ`. -/
class Keyed (ρ : Type) (κ : outParam Type) where
  key : ρ → κ

/-- An assignment to other columns keeps the key of a row. -/
theorem Keyed.kept {ρ κ : Type} [Keyed ρ κ] (r : ρ) : Keyed.key r = Keyed.key r := rfl

/-- The same for an assignment that has to be unfolded. -/
theorem Keyed.keptBy {ρ κ : Type} [Keyed ρ κ] {r s : ρ} (h : Keyed.key s = Keyed.key r) :
    Keyed.key s = Keyed.key r := h

/-- A relational table: rows in insertion order, no two with the same primary key. -/
structure Table (ρ : Type) {κ : Type} [Keyed ρ κ] where
  rows : List ρ
  unique : (rows.map Keyed.key).Nodup

namespace Table

variable {ρ κ : Type} [Keyed ρ κ]

@[ext] theorem ext {t u : Table ρ} (h : t.rows = u.rows) : t = u := by
  cases t; cases u; cases h; rfl

/-! ## Statements -/

def empty : Table ρ := ⟨[], List.nodup_nil⟩

instance : Inhabited (Table ρ) := ⟨empty⟩

/-- `SELECT * FROM t WHERE p`, in insertion order. -/
def select (t : Table ρ) (p : ρ → Bool) : List ρ := t.rows.filter p

/-- `SELECT EXISTS (SELECT 1 FROM t WHERE p)`. -/
def anyWhere (t : Table ρ) (p : ρ → Bool) : Bool := t.rows.any p

theorem nodup_map_update {l : List ρ} (f : ρ → ρ) (hf : ∀ r, Keyed.key (f r) = Keyed.key r)
    (h : (l.map Keyed.key).Nodup) : ((l.map f).map Keyed.key).Nodup := by
  rw [List.map_map]
  have he : (Keyed.key ∘ f : ρ → κ) = Keyed.key := funext hf
  rw [he]; exact h

theorem keepsKey_ite (p : ρ → Bool) (f : ρ → ρ) (hf : ∀ r, Keyed.key (f r) = Keyed.key r) (r : ρ) :
    Keyed.key (if p r then f r else r) = Keyed.key r := by
  by_cases h : p r <;> simp [h, hf]

/-- `UPDATE t SET f WHERE p`; the assignment never touches the primary key. -/
def update (t : Table ρ) (p : ρ → Bool) (f : ρ → ρ)
    (hf : ∀ r, Keyed.key (f r) = Keyed.key r := by
      intro r
      first
      | with_reducible_and_instances exact Mesa.Foundation.Keyed.kept r
      | exact Mesa.Foundation.Keyed.keptBy rfl) : Table ρ :=
  ⟨t.rows.map fun r => if p r then f r else r, nodup_map_update _ (keepsKey_ite p f hf) t.unique⟩

/-- `DELETE FROM t WHERE p`. -/
def delete (t : Table ρ) (p : ρ → Bool) : Table ρ :=
  ⟨t.rows.filter fun r => !p r, (List.Sublist.map _ List.filter_sublist).nodup t.unique⟩

section Keys

variable [DecidableEq κ]

/-- The row with primary key `k`. -/
def lookup (t : Table ρ) (k : κ) : Option ρ := t.rows.find? fun r => decide (Keyed.key r = k)

def hasKey (t : Table ρ) (k : κ) : Bool := t.rows.any fun r => decide (Keyed.key r = k)

theorem nodup_append_fresh {t : Table ρ} {r : ρ} (h : ¬ t.hasKey (Keyed.key r)) :
    ((t.rows ++ [r]).map Keyed.key).Nodup := by
  rw [List.map_append, List.nodup_append]
  refine ⟨t.unique, by simp, ?_⟩
  rintro k hk k' hk' rfl
  obtain ⟨x, hx, hkey⟩ := List.mem_map.1 hk
  have hk'' : k = Keyed.key r := by simpa using hk'
  exact h (List.any_eq_true.2 ⟨x, hx, by simp [hkey, hk'']⟩)

/-- `INSERT OR IGNORE INTO t VALUES (r)`. -/
def insertOrIgnore (t : Table ρ) (r : ρ) : Table ρ :=
  if h : t.hasKey (Keyed.key r) then t else ⟨t.rows ++ [r], nodup_append_fresh h⟩

/-- `INSERT INTO t VALUES (r) ON CONFLICT DO UPDATE SET f`. -/
def upsert (t : Table ρ) (r : ρ) (f : ρ → ρ)
    (hf : ∀ r, Keyed.key (f r) = Keyed.key r := by
      intro r
      first
      | with_reducible_and_instances exact Mesa.Foundation.Keyed.kept r
      | exact Mesa.Foundation.Keyed.keptBy rfl) : Table ρ :=
  if t.hasKey (Keyed.key r) then t.update (fun x => decide (Keyed.key x = Keyed.key r)) f hf
  else t.insertOrIgnore r

end Keys

/-! ## Membership -/

theorem mem_update {t : Table ρ} {p : ρ → Bool} {f : ρ → ρ} {hf} {x : ρ} :
    x ∈ (t.update p f hf).rows ↔ ∃ r ∈ t.rows, (if p r then f r else r) = x := by
  simp [update]

/-- The same over the rows, for a table that only unfolds to an update. -/
theorem mem_updated {l : List ρ} {p : ρ → Bool} {f : ρ → ρ} {x : ρ} :
    x ∈ (l.map fun r => if p r then f r else r) ↔ ∃ r ∈ l, (if p r then f r else r) = x := by
  simp

theorem mem_delete {t : Table ρ} {p : ρ → Bool} {x : ρ} :
    x ∈ (t.delete p).rows ↔ x ∈ t.rows ∧ p x = false := by
  simp [delete]

theorem mem_select {t : Table ρ} {p : ρ → Bool} {x : ρ} : x ∈ t.select p ↔ x ∈ t.rows ∧ p x = true := by
  simp [select]

theorem anyWhere_iff {t : Table ρ} {p : ρ → Bool} : t.anyWhere p = true ↔ ∃ r ∈ t.rows, p r = true := by
  simp [anyWhere]

theorem anyWhere_eq_false {t : Table ρ} {p : ρ → Bool} :
    t.anyWhere p = false ↔ ∀ r ∈ t.rows, p r = false := by
  simp [anyWhere]

@[simp] theorem rows_empty : (empty : Table ρ).rows = [] := rfl

/-- Two rows of one table with the same key are the same row. -/
theorem eq_of_key_eq {t : Table ρ} {x y : ρ} (hx : x ∈ t.rows) (hy : y ∈ t.rows)
    (h : Keyed.key x = Keyed.key y) : x = y :=
  List.inj_on_of_nodup_map t.unique hx hy h

/-- An update that keeps what `q` reads commutes with selecting by `q`. -/
theorem select_update {t : Table ρ} {p q : ρ → Bool} {f : ρ → ρ} {hf} (hq : ∀ r, q (f r) = q r) :
    (t.update p f hf).select q = (t.select q).map fun r => if p r then f r else r := by
  unfold select update
  rw [List.filter_map]
  congr 1
  refine List.filter_congr fun r _ => ?_
  by_cases hp : p r <;> simp [hp, hq]

/-- An update whose predicate no row satisfies changes nothing. -/
theorem update_eq_self {t : Table ρ} {p : ρ → Bool} {f : ρ → ρ} {hf} (h : ∀ r ∈ t.rows, p r = false) :
    t.update p f hf = t := by
  apply ext
  show t.rows.map _ = t.rows
  conv_rhs => rw [← List.map_id t.rows]
  exact List.map_congr_left fun r hr => by simp [h r hr]

theorem delete_eq_self {t : Table ρ} {p : ρ → Bool} (h : ∀ r ∈ t.rows, p r = false) : t.delete p = t := by
  apply ext
  show t.rows.filter _ = t.rows
  exact List.filter_eq_self.2 fun r hr => by simp [h r hr]

theorem select_congr {t : Table ρ} {p q : ρ → Bool} (h : ∀ r ∈ t.rows, p r = q r) : t.select p = t.select q :=
  List.filter_congr h

/-! ## Rowwise relations -/

/-- The rows of two tables correspond one to one, in order, each pair related by `P`. -/
def Rel (P : ρ → ρ → Prop) (t u : Table ρ) : Prop := List.Forall₂ P t.rows u.rows

theorem Rel.refl {P : ρ → ρ → Prop} (h : ∀ r, P r r) (t : Table ρ) : t.Rel P t :=
  List.forall₂_same.2 fun r _ => h r

/-- The rows of an update are related when each updated row is. -/
theorem Rel.of_update {P : ρ → ρ → Prop} {t u : Table ρ} {p : ρ → Bool} {f : ρ → ρ}
    (hu : u.rows = t.rows.map fun r => if p r then f r else r) (hrefl : ∀ r, P r r)
    (h : ∀ r ∈ t.rows, p r = true → P r (f r)) : t.Rel P u := by
  unfold Rel
  rw [hu, List.forall₂_map_right_iff]
  refine List.forall₂_same.2 fun r hr => ?_
  by_cases hp : p r = true
  · rw [if_pos hp]; exact h r hr hp
  · rw [if_neg hp]; exact hrefl r

theorem rel_update {P : ρ → ρ → Prop} (hrefl : ∀ r, P r r) {t : Table ρ} {p : ρ → Bool} {f : ρ → ρ} {hf}
    (h : ∀ r ∈ t.rows, p r = true → P r (f r)) : t.Rel P (t.update p f hf) :=
  Rel.of_update rfl hrefl h

/-- Each row has a related row in the other table. -/
theorem Rel.forward {P : ρ → ρ → Prop} {t u : Table ρ} (h : t.Rel P u) {r : ρ} (hr : r ∈ t.rows) :
    ∃ s ∈ u.rows, P r s := by
  unfold Rel at h
  generalize t.rows = ts, u.rows = us at h hr ⊢
  induction h with
  | nil => cases hr
  | @cons a b _ _ hab _ ih =>
    rcases List.mem_cons.1 hr with rfl | hr
    · exact ⟨b, List.mem_cons_self, hab⟩
    · obtain ⟨s, hs, hP⟩ := ih hr
      exact ⟨s, List.mem_cons_of_mem _ hs, hP⟩

theorem Rel.backward {P : ρ → ρ → Prop} {t u : Table ρ} (h : t.Rel P u) {s : ρ} (hs : s ∈ u.rows) :
    ∃ r ∈ t.rows, P r s := by
  have h' : u.Rel (fun a b => P b a) t := List.Forall₂.flip h
  exact h'.forward hs

/-- A selection by a property that related rows share selects related rows. -/
theorem Rel.select {P : ρ → ρ → Prop} {q : ρ → Bool} (hq : ∀ r s, P r s → q r = q s) {t u : Table ρ}
    (h : t.Rel P u) : List.Forall₂ P (t.select q) (u.select q) := by
  unfold Rel at h
  unfold Table.select
  generalize t.rows = ts, u.rows = us at h ⊢
  induction h with
  | nil => exact .nil
  | @cons a b _ _ hab _ ih =>
    rw [List.filter_cons, List.filter_cons, hq a b hab]
    split
    · exact .cons hab ih
    · exact ih

theorem Rel.anyWhere {P : ρ → ρ → Prop} {q : ρ → Bool} (hq : ∀ r s, P r s → q r = q s) {t u : Table ρ}
    (h : t.Rel P u) : t.anyWhere q = u.anyWhere q := by
  rw [Bool.eq_iff_iff, anyWhere_iff, anyWhere_iff]
  constructor
  · rintro ⟨r, hr, hqr⟩
    obtain ⟨s, hs, hP⟩ := h.forward hr
    exact ⟨s, hs, (hq r s hP).symm.trans hqr⟩
  · rintro ⟨s, hs, hqs⟩
    obtain ⟨r, hr, hP⟩ := h.backward hs
    exact ⟨r, hr, (hq r s hP).trans hqs⟩

/-! ## Lookup -/

section Lookup

variable [DecidableEq κ]

theorem lookup_eq_some {t : Table ρ} {k : κ} {r : ρ} :
    t.lookup k = some r ↔ r ∈ t.rows ∧ Keyed.key r = k := by
  constructor
  · intro h
    exact ⟨List.mem_of_find?_eq_some h, by simpa using List.find?_some h⟩
  · rintro ⟨hr, rfl⟩
    cases h : t.lookup (Keyed.key r) with
    | none =>
      have := List.find?_eq_none.1 h r hr
      simp at this
    | some y =>
      have hy : y ∈ t.rows ∧ Keyed.key y = Keyed.key r :=
        ⟨List.mem_of_find?_eq_some h, by simpa using List.find?_some h⟩
      rw [eq_of_key_eq hy.1 hr hy.2]

theorem lookup_mem {t : Table ρ} {k : κ} {r : ρ} (h : t.lookup k = some r) : r ∈ t.rows :=
  (lookup_eq_some.1 h).1

theorem lookup_key {t : Table ρ} {k : κ} {r : ρ} (h : t.lookup k = some r) : Keyed.key r = k :=
  (lookup_eq_some.1 h).2

theorem lookup_of_mem {t : Table ρ} {r : ρ} (h : r ∈ t.rows) : t.lookup (Keyed.key r) = some r :=
  lookup_eq_some.2 ⟨h, rfl⟩

theorem lookup_eq_none {t : Table ρ} {k : κ} : t.lookup k = none ↔ ∀ r ∈ t.rows, Keyed.key r ≠ k := by
  simp [lookup, List.find?_eq_none]

@[simp] theorem lookup_empty (k : κ) : (empty : Table ρ).lookup k = none := rfl

theorem hasKey_iff {t : Table ρ} {k : κ} : t.hasKey k = true ↔ (t.lookup k).isSome := by
  rw [Option.isSome_iff_exists]
  simp only [hasKey, List.any_eq_true, decide_eq_true_eq]
  exact ⟨fun ⟨r, hr, hk⟩ => ⟨r, lookup_eq_some.2 ⟨hr, hk⟩⟩, fun ⟨r, h⟩ => ⟨r, lookup_eq_some.1 h⟩⟩

theorem hasKey_eq_false {t : Table ρ} {k : κ} : t.hasKey k = false ↔ t.lookup k = none := by
  rw [← Bool.not_eq_true, hasKey_iff, Bool.not_eq_true, Option.isSome_eq_false_iff, Option.isNone_iff_eq_none]

/-- An update acts on the row of each key separately. -/
theorem lookup_update (t : Table ρ) (p : ρ → Bool) (f : ρ → ρ) (hf : ∀ r, Keyed.key (f r) = Keyed.key r)
    (k : κ) : (t.update p f hf).lookup k = (t.lookup k).map fun r => if p r then f r else r := by
  cases h : t.lookup k with
  | none =>
    rw [Option.map_none, lookup_eq_none]
    intro x hx
    obtain ⟨r, hr, rfl⟩ := mem_update.1 hx
    rw [keepsKey_ite p f hf]
    exact lookup_eq_none.1 h r hr
  | some r =>
    rw [Option.map_some, lookup_eq_some, mem_update]
    exact ⟨⟨r, lookup_mem h, rfl⟩, by rw [keepsKey_ite p f hf, lookup_key h]⟩

theorem lookup_delete (t : Table ρ) (p : ρ → Bool) (k : κ) :
    (t.delete p).lookup k = (t.lookup k).filter fun r => !p r := by
  cases h : t.lookup k with
  | none =>
    rw [Option.filter_none, lookup_eq_none]
    intro x hx
    exact lookup_eq_none.1 h x (mem_delete.1 hx).1
  | some r =>
    cases hp : p r with
    | true =>
      have : (some r).filter (fun r => !p r) = none := by simp [hp]
      rw [this, lookup_eq_none]
      intro x hx hk
      have hx' := mem_delete.1 hx
      have : x = r := eq_of_key_eq hx'.1 (lookup_mem h) (hk.trans (lookup_key h).symm)
      rw [this, hp] at hx'
      cases hx'.2
    | false =>
      have : (some r).filter (fun r => !p r) = some r := by simp [hp]
      rw [this, lookup_eq_some, mem_delete]
      exact ⟨⟨lookup_mem h, hp⟩, lookup_key h⟩

/-- Deleting the row of one key. -/
theorem lookup_delete_key {t : Table ρ} {p : ρ → Bool} {k : κ} (k₀ : κ) (h : ∀ r, p r = decide (Keyed.key r = k₀)) :
    (t.delete p).lookup k = if k₀ = k then none else t.lookup k := by
  rw [lookup_delete]
  cases hrow : t.lookup k with
  | none => simp
  | some r =>
    have hkey := lookup_key hrow
    rw [Option.filter_some, h, hkey]
    by_cases hk : k₀ = k
    · simp [hk]
    · simp [hk, Ne.symm hk]

theorem insertOrIgnore_of_hasKey {t : Table ρ} {r : ρ} (h : t.hasKey (Keyed.key r) = true) :
    t.insertOrIgnore r = t := by
  simp [insertOrIgnore, h]

theorem rows_insertOrIgnore_fresh {t : Table ρ} {r : ρ} (h : t.lookup (Keyed.key r) = none) :
    (t.insertOrIgnore r).rows = t.rows ++ [r] := by
  have h' : ¬ t.hasKey (Keyed.key r) = true := by rw [hasKey_eq_false.2 h]; simp
  simp [insertOrIgnore, h']

/-- `INSERT OR IGNORE` leaves every other key alone and keeps a row that is already there. -/
theorem lookup_insertOrIgnore (t : Table ρ) (r : ρ) (k : κ) :
    (t.insertOrIgnore r).lookup k = (t.lookup k).or (if Keyed.key r = k then some r else none) := by
  by_cases h : t.hasKey (Keyed.key r) = true
  · rw [insertOrIgnore_of_hasKey h]
    split
    · next hk =>
      subst hk
      obtain ⟨x, hx⟩ := Option.isSome_iff_exists.1 (hasKey_iff.1 h)
      rw [hx]; rfl
    · rw [Option.or_none]
  · have hn : t.lookup (Keyed.key r) = none := hasKey_eq_false.1 (by simpa using h)
    rw [lookup, rows_insertOrIgnore_fresh hn, List.find?_append]
    congr 1
    by_cases hk : Keyed.key r = k <;> simp [hk]

theorem hasKey_insertOrIgnore (t : Table ρ) (r : ρ) (k : κ) :
    (t.insertOrIgnore r).hasKey k = (t.hasKey k || decide (Keyed.key r = k)) := by
  rw [Bool.eq_iff_iff, Bool.or_eq_true, hasKey_iff, hasKey_iff, lookup_insertOrIgnore]
  by_cases hk : Keyed.key r = k <;> simp [hk]

/-- A row that one table has after all rows of another is new in it. -/
theorem lookup_before_appended {t u : Table ρ} {r : ρ} (h : u.rows = t.rows ++ [r]) :
    t.lookup (Keyed.key r) = none := by
  refine lookup_eq_none.2 fun x hx hkey => ?_
  have hunique := u.unique
  rw [h, List.map_append, List.nodup_append] at hunique
  exact hunique.2.2 _ (List.mem_map_of_mem hx) _ (by simp) hkey

theorem lookup_appended {t u : Table ρ} {r : ρ} (h : u.rows = t.rows ++ [r]) : u.lookup (Keyed.key r) = some r :=
  lookup_of_mem (by rw [h]; simp)

theorem lookup_insertOrIgnore_ne_none {t : Table ρ} {r : ρ} {k : κ} :
    (t.insertOrIgnore r).lookup k ≠ none ↔ t.lookup k ≠ none ∨ Keyed.key r = k := by
  rw [lookup_insertOrIgnore]
  cases t.lookup k <;> by_cases hk : Keyed.key r = k <;> simp [hk]

theorem lookup_insertOrIgnore_of_ne {t : Table ρ} {r : ρ} {k : κ} (h : Keyed.key r ≠ k) :
    (t.insertOrIgnore r).lookup k = t.lookup k := by
  rw [lookup_insertOrIgnore, if_neg h, Option.or_none]

theorem mem_insertOrIgnore {t : Table ρ} {r x : ρ} :
    x ∈ (t.insertOrIgnore r).rows ↔ x ∈ t.rows ∨ (x = r ∧ t.lookup (Keyed.key r) = none) := by
  cases h : t.lookup (Keyed.key r) with
  | none => rw [rows_insertOrIgnore_fresh h]; simp
  | some y =>
    have hk : t.hasKey (Keyed.key r) = true := hasKey_iff.2 (by rw [h]; rfl)
    rw [insertOrIgnore_of_hasKey hk]; simp

/-- A row that a loop of `INSERT OR IGNORE` leaves was there or is one of those inserted. -/
theorem mem_foldl_insertOrIgnore {ι : Type} {g : ι → ρ} {x : ρ} : ∀ {l : List ι} {t : Table ρ},
    x ∈ (l.foldl (fun u i => u.insertOrIgnore (g i)) t).rows → x ∈ t.rows ∨ ∃ i ∈ l, x = g i
  | [], _, h => Or.inl h
  | i :: l, t, h => by
    rcases mem_foldl_insertOrIgnore (l := l) h with h | ⟨j, hj, rfl⟩
    · rcases mem_insertOrIgnore.1 h with h | ⟨rfl, -⟩
      · exact Or.inl h
      · exact Or.inr ⟨i, List.mem_cons_self, rfl⟩
    · exact Or.inr ⟨j, List.mem_cons_of_mem _ hj, rfl⟩

/-- The loop keeps the rows it finds, and the first row it inserts under a key is the one that stays. -/
theorem lookup_foldl_insertOrIgnore {ι : Type} {g : ι → ρ} : ∀ (l : List ι) (t : Table ρ) (k : κ),
    (l.foldl (fun u i => u.insertOrIgnore (g i)) t).lookup k =
      (t.lookup k).or ((l.find? fun i => decide (Keyed.key (g i) = k)).map g)
  | [], t, k => by simp
  | i :: l, t, k => by
    rw [List.foldl_cons, lookup_foldl_insertOrIgnore l, lookup_insertOrIgnore, Option.or_assoc, List.find?_cons]
    by_cases hk : Keyed.key (g i) = k <;> simp [hk]

/-- Deleting the selected rows and inserting them again with other columns is an update. -/
theorem lookup_reinsert (t : Table ρ) (p : ρ → Bool) (g : ρ → ρ) (hg : ∀ r, Keyed.key (g r) = Keyed.key r) (k : κ) :
    ((t.select p).foldl (fun u r => u.insertOrIgnore (g r)) (t.delete p)).lookup k =
      (t.lookup k).map fun r => if p r then g r else r := by
  rw [lookup_foldl_insertOrIgnore, lookup_delete]
  have hfind : (t.select p).find? (fun r => decide (Keyed.key (g r) = k)) = (t.lookup k).filter p := by
    cases h : t.lookup k with
    | none =>
      refine List.find?_eq_none.2 fun r hr => ?_
      simpa [hg] using lookup_eq_none.1 h r (mem_select.1 hr).1
    | some x =>
      have huniq : ∀ r ∈ t.rows, Keyed.key r = k → r = x := fun r hr hk =>
        eq_of_key_eq hr (lookup_mem h) (hk.trans (lookup_key h).symm)
      cases hp : p x with
      | false =>
        rw [show (some x).filter p = none by simp [hp]]
        refine List.find?_eq_none.2 fun r hr => ?_
        obtain ⟨hmem, hpr⟩ := mem_select.1 hr
        simp only [hg, decide_eq_true_eq]
        intro hk
        rw [huniq r hmem hk, hp] at hpr; cases hpr
      | true =>
        rw [show (some x).filter p = some x by simp [hp]]
        cases hf : (t.select p).find? (fun r => decide (Keyed.key (g r) = k)) with
        | none =>
          have := List.find?_eq_none.1 hf x (mem_select.2 ⟨lookup_mem h, hp⟩)
          simp [hg, lookup_key h] at this
        | some y =>
          have hy := List.find?_some hf
          rw [hg] at hy
          rw [huniq y (mem_select.1 (List.mem_of_find?_eq_some hf)).1 (of_decide_eq_true hy)]
  rw [hfind]
  cases t.lookup k with
  | none => rfl
  | some x => cases hp : p x <;> simp [hp]

theorem lookup_upsert (t : Table ρ) (r : ρ) (f : ρ → ρ) (hf : ∀ r, Keyed.key (f r) = Keyed.key r) (k : κ) :
    (t.upsert r f hf).lookup k =
      if Keyed.key r = k then some (((t.lookup k).map f).getD r) else t.lookup k := by
  unfold upsert
  by_cases h : t.hasKey (Keyed.key r) = true
  · rw [if_pos h, lookup_update]
    obtain ⟨x, hx⟩ := Option.isSome_iff_exists.1 (hasKey_iff.1 h)
    split
    · next hk => subst hk; rw [hx]; simp [lookup_key hx]
    · next hk =>
      cases hy : t.lookup k with
      | none => rfl
      | some y =>
        have : Keyed.key y ≠ Keyed.key r := by rw [lookup_key hy]; exact Ne.symm hk
        simp [this]
  · rw [if_neg h, lookup_insertOrIgnore]
    have hn : t.lookup (Keyed.key r) = none := hasKey_eq_false.1 (by simpa using h)
    split
    · next hk => subst hk; rw [hn]; rfl
    · rw [Option.or_none]

/-- A row is ignored exactly when its key is there. -/
theorem insertOrIgnore_eq_self_iff {t : Table ρ} {r : ρ} :
    t.insertOrIgnore r = t ↔ t.hasKey (Keyed.key r) = true := by
  refine ⟨fun h => ?_, insertOrIgnore_of_hasKey⟩
  rw [← h, hasKey_insertOrIgnore]
  simp

/-- An upsert changes nothing exactly when the row is there and the update leaves it. -/
theorem upsert_eq_self_iff {t : Table ρ} {r : ρ} {f : ρ → ρ} {hf : ∀ r, Keyed.key (f r) = Keyed.key r} :
    t.upsert r f hf = t ↔ ∃ x, t.lookup (Keyed.key r) = some x ∧ f x = x := by
  constructor
  · intro h
    have hlookup := lookup_upsert t r f hf (Keyed.key r)
    rw [if_pos rfl, h] at hlookup
    refine ⟨_, hlookup, ?_⟩
    rw [hlookup, Option.map_some, Option.getD_some] at hlookup
    exact (Option.some.inj hlookup).symm
  · rintro ⟨x, hx, hfx⟩
    unfold upsert
    rw [if_pos (hasKey_iff.2 (by rw [hx]; rfl))]
    refine ext ((List.map_congr_left fun y hy => ?_).trans (List.map_id t.rows))
    by_cases hkey : Keyed.key y = Keyed.key r
    · have hyx := lookup_of_mem hy
      rw [hkey, hx] at hyx
      obtain rfl := Option.some.inj hyx
      simp [hkey, hfx]
    · simp [hkey]

/-- Rows related by a key-preserving relation are found under the same keys. -/
theorem Rel.lookup {P : ρ → ρ → Prop} (hk : ∀ r s, P r s → Keyed.key s = Keyed.key r) {t u : Table ρ}
    (h : t.Rel P u) {k : κ} {r : ρ} (hr : t.lookup k = some r) : ∃ s, u.lookup k = some s ∧ P r s := by
  obtain ⟨s, hs, hP⟩ := h.forward (lookup_mem hr)
  exact ⟨s, lookup_eq_some.2 ⟨hs, (hk r s hP).trans (lookup_key hr)⟩, hP⟩

theorem Rel.lookup_back {P : ρ → ρ → Prop} (hk : ∀ r s, P r s → Keyed.key s = Keyed.key r) {t u : Table ρ}
    (h : t.Rel P u) {k : κ} {s : ρ} (hs : u.lookup k = some s) : ∃ r, t.lookup k = some r ∧ P r s := by
  obtain ⟨r, hr, hP⟩ := h.backward (lookup_mem hs)
  exact ⟨r, lookup_eq_some.2 ⟨hr, (hk r s hP).symm.trans (lookup_key hs)⟩, hP⟩

theorem Rel.lookup_none {P : ρ → ρ → Prop} (hk : ∀ r s, P r s → Keyed.key s = Keyed.key r) {t u : Table ρ}
    (h : t.Rel P u) {k : κ} : u.lookup k = none ↔ t.lookup k = none := by
  constructor
  · intro hu
    cases ht : t.lookup k with
    | none => rfl
    | some r =>
      obtain ⟨s, hs, _⟩ := h.lookup hk ht
      rw [hu] at hs; cases hs
  · intro ht
    cases hu : u.lookup k with
    | none => rfl
    | some s =>
      obtain ⟨r, hr, _⟩ := h.lookup_back hk hu
      rw [ht] at hr; cases hr

end Lookup

end Table

/-- Related lists have the same image under a function that related entries agree on. -/
theorem forall₂_map_eq {α β γ : Type} {P : α → β → Prop} {f : α → γ} {g : β → γ} {l : List α} {m : List β}
    (h : List.Forall₂ P l m) (hfg : ∀ a b, P a b → f a = g b) : l.map f = m.map g := by
  induction h with
  | nil => rfl
  | cons hab _ ih => rw [List.map_cons, List.map_cons, hfg _ _ hab, ih]

end Mesa.Foundation
