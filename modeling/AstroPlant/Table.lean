import Mathlib.Data.List.Nodup

/-!
# Tables with a primary key

A table carries its own well-formedness: no two rows have the same key, and in
a `SerialTable` every key was drawn from the table's sequence, which only ever
moves forward. A table in which a key is duplicated or a future key is already
taken cannot be built, so "the key is unique" and "ids are never reused" are
properties of the type, not invariants to carry along.

Every operation comes with the membership lemma that the proofs over it use.

An update may not change the key, and an insertion must make its row with the key
that it is given: both are arguments of the operation and not conditions checked
in it. In a serial table deletion does not give a key back, so a key that was
seen once belongs to the same row in every later state, or to none
(`SerialTable.Extends` is the case without deletions).
-/

namespace AstroPlant

/-- A table whose rows have pairwise distinct keys. -/
structure Table (ρ : Type) {κ : Type} (key : ρ → κ) where
  rows : List ρ
  nodup : (rows.map key).Nodup

namespace Table

variable {ρ κ : Type} {key : ρ → κ}

instance : Membership ρ (Table ρ key) := ⟨fun t r => r ∈ t.rows⟩

theorem mem_def {t : Table ρ key} {r : ρ} : r ∈ t ↔ r ∈ t.rows := Iff.rfl

def empty : Table ρ key := ⟨[], List.nodup_nil⟩

theorem eq_of_key_eq {t : Table ρ key} {r r' : ρ} (hr : r ∈ t) (hr' : r' ∈ t)
    (h : key r = key r') : r = r' :=
  List.inj_on_of_nodup_map t.nodup hr hr' h

/-- `SELECT ... WHERE p`. -/
def select (t : Table ρ key) (p : ρ → Bool) : List ρ := t.rows.filter p

@[simp] theorem mem_select {t : Table ρ key} {p : ρ → Bool} {r : ρ} :
    r ∈ t.select p ↔ r ∈ t ∧ p r = true := List.mem_filter

/-- The row with a key. -/
def find? [DecidableEq κ] (t : Table ρ key) (k : κ) : Option ρ :=
  t.rows.find? fun r => key r = k

theorem find?_eq_some [DecidableEq κ] {t : Table ρ key} {k : κ} {r : ρ} :
    t.find? k = some r ↔ r ∈ t ∧ key r = k := by
  constructor
  · intro h
    exact ⟨List.mem_of_find?_eq_some h, by simpa using List.find?_some h⟩
  · rintro ⟨hr, rfl⟩
    cases hf : t.find? (key r) with
    | none => simpa using List.find?_eq_none.mp hf r hr
    | some r' =>
        have hk : key r' = key r := by simpa using List.find?_some hf
        rw [eq_of_key_eq (List.mem_of_find?_eq_some hf) hr hk]

theorem find?_eq_none [DecidableEq κ] {t : Table ρ key} {k : κ} :
    t.find? k = none ↔ ∀ r ∈ t, key r ≠ k := by
  simp [find?, mem_def]

/-- `INSERT`, refused when the key is taken. -/
def insert? [DecidableEq κ] (t : Table ρ key) (r : ρ) : Option (Table ρ key) :=
  if h : key r ∈ t.rows.map key then none
  else some ⟨t.rows ++ [r], by
    rw [List.map_append]
    exact t.nodup.append (List.nodup_singleton _)
      (by simpa [List.Disjoint] using h)⟩

theorem insert?_rows [DecidableEq κ] {t t' : Table ρ key} {r : ρ}
    (h : t.insert? r = some t') : t'.rows = t.rows ++ [r] := by
  unfold insert? at h
  split at h
  · cases h
  · cases h
    rfl

theorem mem_insert? [DecidableEq κ] {t t' : Table ρ key} {r r' : ρ}
    (h : t.insert? r = some t') : r' ∈ t' ↔ r' ∈ t ∨ r' = r := by
  simp [mem_def, insert?_rows h]

theorem insert?_eq_none [DecidableEq κ] {t : Table ρ key} {r : ρ} :
    t.insert? r = none ↔ ∃ r' ∈ t, key r' = key r := by
  simp [insert?, mem_def]

/-- `UPDATE ... SET f WHERE p`; the key column is not among those set. -/
def update (t : Table ρ key) (p : ρ → Bool) (f : ρ → ρ) (hf : ∀ r, key (f r) = key r) :
    Table ρ key where
  rows := t.rows.map fun r => if p r then f r else r
  nodup := by
    have : (key ∘ fun r => if p r then f r else r) = key := by
      funext r
      simp only [Function.comp]
      split
      · exact hf r
      · rfl
    rw [List.map_map, this]
    exact t.nodup

@[simp] theorem mem_update {t : Table ρ key} {p : ρ → Bool} {f : ρ → ρ}
    {hf : ∀ r, key (f r) = key r} {r : ρ} :
    r ∈ t.update p f hf ↔ ∃ r₀ ∈ t, (if p r₀ then f r₀ else r₀) = r := by
  simp [mem_def, update]

/-- `DELETE ... WHERE p`. -/
def delete (t : Table ρ key) (p : ρ → Bool) : Table ρ key where
  rows := t.rows.filter fun r => !p r
  nodup := (List.filter_sublist.map key).nodup t.nodup

@[simp] theorem mem_delete {t : Table ρ key} {p : ρ → Bool} {r : ρ} :
    r ∈ t.delete p ↔ r ∈ t ∧ p r = false := by
  simp [mem_def, delete]

end Table

/-- A table whose key is drawn from a sequence: every row's key is below the
sequence's next value. -/
structure SerialTable (ρ : Type) (key : ρ → Int) extends Table ρ key where
  next : Int
  fresh : ∀ r ∈ rows, key r < next

namespace SerialTable

variable {ρ : Type} {key : ρ → Int}

instance : Membership ρ (SerialTable ρ key) := ⟨fun t r => r ∈ t.rows⟩

theorem mem_def {t : SerialTable ρ key} {r : ρ} : r ∈ t ↔ r ∈ t.rows := Iff.rfl

/-- The empty table; a sequence starts at one. -/
def empty : SerialTable ρ key := { Table.empty with next := 1, fresh := by simp [Table.empty] }

theorem eq_of_key_eq {t : SerialTable ρ key} {r r' : ρ} (hr : r ∈ t) (hr' : r' ∈ t)
    (h : key r = key r') : r = r' :=
  Table.eq_of_key_eq (t := t.toTable) hr hr' h

theorem key_lt_next {t : SerialTable ρ key} {r : ρ} (hr : r ∈ t) : key r < t.next :=
  t.fresh r hr

theorem forall_key_of_mem {β : Type} (f : ρ → β) {t : SerialTable ρ key} {r : ρ} (hr : r ∈ t) :
    key r < t.next ∧ ∀ r' ∈ t, key r' = key r → f r' = f r :=
  ⟨key_lt_next hr, fun r' hr' hk => by rw [eq_of_key_eq hr' hr hk]⟩

theorem find?_eq_some {t : SerialTable ρ key} {k : Int} {r : ρ} :
    t.find? k = some r ↔ r ∈ t ∧ key r = k :=
  Table.find?_eq_some (t := t.toTable)

theorem mem_select {t : SerialTable ρ key} {p : ρ → Bool} {r : ρ} :
    r ∈ t.select p ↔ r ∈ t ∧ p r = true :=
  Table.mem_select (t := t.toTable)

/-- `INSERT` of a row built from the sequence's next value. -/
def insert (t : SerialTable ρ key) (mk : Int → ρ) (hk : ∀ i, key (mk i) = i) :
    SerialTable ρ key where
  rows := t.rows ++ [mk t.next]
  nodup := by
    rw [List.map_append]
    refine t.nodup.append (List.nodup_singleton _) ?_
    simp only [List.Disjoint, List.mem_map, List.map_cons, List.map_nil,
      List.mem_singleton, hk]
    rintro _ ⟨r, hr, rfl⟩ heq
    exact absurd (t.fresh r hr) (by omega)
  next := t.next + 1
  fresh := by
    intro r hr
    rcases List.mem_append.mp hr with hr | hr
    · exact Int.lt_trans (t.fresh r hr) (by omega)
    · rw [List.mem_singleton.mp hr, hk]; omega

@[simp] theorem mem_insert {t : SerialTable ρ key} {mk : Int → ρ}
    {hk : ∀ i, key (mk i) = i} {r : ρ} :
    r ∈ t.insert mk hk ↔ r ∈ t ∨ r = mk t.next := by
  simp [mem_def, insert]

theorem mem_insert_of_mem {t : SerialTable ρ key} {mk : Int → ρ}
    (hk : ∀ i, key (mk i) = i) {r : ρ} (h : r ∈ t) : r ∈ t.insert mk hk :=
  mem_insert.mpr (Or.inl h)

theorem mem_insert_self (t : SerialTable ρ key) (mk : Int → ρ)
    (hk : ∀ i, key (mk i) = i) : mk t.next ∈ t.insert mk hk :=
  mem_insert.mpr (Or.inr rfl)

def update (t : SerialTable ρ key) (p : ρ → Bool) (f : ρ → ρ)
    (hf : ∀ r, key (f r) = key r) : SerialTable ρ key where
  toTable := t.toTable.update p f hf
  next := t.next
  fresh := by
    intro r hr
    obtain ⟨r₀, hr₀, rfl⟩ := Table.mem_update.mp hr
    split
    · rw [hf]
      exact t.fresh r₀ hr₀
    · exact t.fresh r₀ hr₀

@[simp] theorem mem_update {t : SerialTable ρ key} {p : ρ → Bool} {f : ρ → ρ}
    {hf : ∀ r, key (f r) = key r} {r : ρ} :
    r ∈ t.update p f hf ↔ ∃ r₀ ∈ t, (if p r₀ then f r₀ else r₀) = r := by
  simp [mem_def, update, Table.update]

theorem update_eq_self {t : SerialTable ρ key} {p : ρ → Bool} {f : ρ → ρ}
    {hf : ∀ r, key (f r) = key r} (h : ∀ r ∈ t, p r = true → f r = r) : t.update p f hf = t := by
  obtain ⟨⟨rows, nodup⟩, next, fresh⟩ := t
  have hrows : (rows.map fun r => if p r then f r else r) = rows := by
    conv_rhs => rw [← List.map_id rows]
    refine List.map_congr_left fun r hr => ?_
    split
    · exact h r hr ‹_›
    · rfl
  simp only [update, Table.update, hrows]

def delete (t : SerialTable ρ key) (p : ρ → Bool) : SerialTable ρ key where
  toTable := t.toTable.delete p
  next := t.next
  fresh := fun r hr => t.fresh r (Table.mem_delete.mp hr).1

@[simp] theorem mem_delete {t : SerialTable ρ key} {p : ρ → Bool} {r : ρ} :
    r ∈ t.delete p ↔ r ∈ t ∧ p r = false :=
  Table.mem_delete (t := t.toTable)

@[simp] theorem next_insert {t : SerialTable ρ key} {mk : Int → ρ}
    {hk : ∀ i, key (mk i) = i} : (t.insert mk hk).next = t.next + 1 := rfl

/-- `INSERT ... SELECT`: one row for each element of a query result. -/
def insertAll {α : Type} (t : SerialTable ρ key) (xs : List α) (mk : α → Int → ρ)
    (hk : ∀ a i, key (mk a i) = i) : SerialTable ρ key :=
  xs.foldl (fun t a => t.insert (mk a) (hk a)) t

theorem mem_insertAll {α : Type} {t : SerialTable ρ key} {xs : List α} {mk : α → Int → ρ}
    {hk : ∀ a i, key (mk a i) = i} {r : ρ} (h : r ∈ t.insertAll xs mk hk) :
    r ∈ t ∨ ∃ a ∈ xs, ∃ i, t.next ≤ i ∧ r = mk a i := by
  induction xs generalizing t with
  | nil => exact Or.inl h
  | cons a xs ih =>
      rcases ih h with h | ⟨a', ha', i, hi, rfl⟩
      · rcases mem_insert.mp h with h | rfl
        · exact Or.inl h
        · exact Or.inr ⟨a, by simp, t.next, Int.le_refl _, rfl⟩
      · rw [next_insert] at hi
        exact Or.inr ⟨a', List.mem_cons_of_mem _ ha', i, by omega, rfl⟩

theorem mem_insertAll_of_mem {α : Type} {t : SerialTable ρ key} {xs : List α}
    {mk : α → Int → ρ} {hk : ∀ a i, key (mk a i) = i} {r : ρ} (h : r ∈ t) :
    r ∈ t.insertAll xs mk hk := by
  induction xs generalizing t with
  | nil => exact h
  | cons a xs ih => exact ih (mem_insert_of_mem (hk a) h)

theorem exists_mem_insertAll {α : Type} {t : SerialTable ρ key} {xs : List α}
    {mk : α → Int → ρ} {hk : ∀ a i, key (mk a i) = i} {a : α} (ha : a ∈ xs) :
    ∃ i, mk a i ∈ t.insertAll xs mk hk := by
  induction xs generalizing t with
  | nil => cases ha
  | cons b xs ih =>
      rcases List.mem_cons.mp ha with rfl | ha
      · have hall : mk a t.next ∈ (t.insert (mk a) (hk a)).insertAll xs mk hk :=
          mem_insertAll_of_mem (mem_insert_self t _ _)
        exact ⟨t.next, hall⟩
      · exact ih ha

/-- `INSERT ... SELECT` adds its rows at the end, under the next ids. -/
theorem rows_insertAll {α : Type} {t : SerialTable ρ key} {xs : List α} {mk : α → Int → ρ}
    {hk : ∀ a i, key (mk a i) = i} :
    (t.insertAll xs mk hk).rows = t.rows ++ xs.mapIdx fun n a => mk a (t.next + n) := by
  induction xs generalizing t with
  | nil => exact (List.append_nil _).symm
  | cons a xs ih =>
      have hshift : ∀ (n : Nat) (b : α), mk b ((t.insert (mk a) (hk a)).next + n)
          = mk b (t.next + ((n + 1 : Nat) : Int)) := by
        intro n b
        rw [next_insert]
        congr 1
        omega
      calc (((t.insert (mk a) (hk a)).insertAll xs mk hk)).rows
          = (t.rows ++ [mk a t.next])
              ++ xs.mapIdx fun n b => mk b ((t.insert (mk a) (hk a)).next + n) := ih
        _ = t.rows ++ (a :: xs).mapIdx fun n b => mk b (t.next + n) := by
          simp only [hshift, List.mapIdx_cons, List.append_assoc, List.singleton_append,
            Int.natCast_zero, Int.add_zero]

/-! ## Replacing a row -/

/-- The table with another row in the place of one with its key. -/
structure Replaced (t t' : SerialTable ρ key) (r r' : ρ) : Prop where
  rows : t'.rows = t.rows.map fun r₀ => if key r₀ = key r then r' else r₀
  next : t'.next = t.next

theorem replaced_update {t : SerialTable ρ key} {r : ρ} {f : ρ → ρ} (hr : r ∈ t)
    (hf : ∀ r, key (f r) = key r) : t.Replaced (t.update (key · = key r) f hf) r (f r) := by
  refine ⟨List.map_congr_left fun r₀ hr₀ => ?_, rfl⟩
  simp only [decide_eq_true_eq]
  split
  · rw [eq_of_key_eq hr₀ hr ‹_›]
  · rfl

namespace Replaced

variable {t t' : SerialTable ρ key} {r r' : ρ}

theorem mem (h : t.Replaced t' r r') (hr : r ∈ t) : r' ∈ t' := by
  rw [mem_def, h.rows]
  exact List.mem_map.mpr ⟨r, hr, if_pos rfl⟩

/-- Where the row is the first with a property, the new one is. -/
theorem find? (h : t.Replaced t' r r') {p : ρ → Bool} (hr : t.rows.find? p = some r)
    (hr' : p r' = true) : t'.rows.find? p = some r' := by
  obtain ⟨hp, before, after, hrows, hbefore⟩ := List.find?_eq_some_iff_append.mp hr
  have hsame : before.map (fun r₀ => if key r₀ = key r then r' else r₀) = before := by
    conv_rhs => rw [← List.map_id before]
    refine List.map_congr_left fun r₀ hr₀ => if_neg fun hkey => ?_
    have hmem : ∀ r₁ ∈ before ++ r :: after, r₁ ∈ t := fun r₁ hr₁ => by
      rw [mem_def, hrows]
      exact hr₁
    have heq : r₀ = r := eq_of_key_eq (hmem r₀ (List.mem_append_left _ hr₀))
      (hmem r (by simp)) hkey
    have hnot := hbefore r₀ hr₀
    rw [heq, hp] at hnot
    cases hnot
  refine List.find?_eq_some_iff_append.mpr ⟨hr', before,
    after.map fun r₀ => if key r₀ = key r then r' else r₀, ?_, hbefore⟩
  rw [h.rows, hrows, List.map_append, List.map_cons, hsame, if_pos rfl]

end Replaced

/-! ## What a table keeps

Keys are never reused, so a row with an old key is an old row. `Keeps R` says
that every such row is related by `R` to the row it was; for a reflexive and
transitive `R` it is kept by runs if each statement keeps it. -/

structure Keeps (R : ρ → ρ → Prop) (t t' : SerialTable ρ key) : Prop where
  next_le : t.next ≤ t'.next
  old : ∀ r' ∈ t', key r' < t.next → ∃ r ∈ t, key r = key r' ∧ R r r'

namespace Keeps

variable {R : ρ → ρ → Prop} {t t' t'' : SerialTable ρ key}

theorem refl (hR : ∀ r, R r r) : Keeps R t t :=
  ⟨Int.le_refl _, fun r hr _ => ⟨r, hr, rfl, hR r⟩⟩

theorem trans (hR : ∀ {a b c}, R a b → R b c → R a c) (h : Keeps R t t')
    (h' : Keeps R t' t'') : Keeps R t t'' := by
  refine ⟨Int.le_trans h.next_le h'.next_le, fun r'' hr'' hlt => ?_⟩
  obtain ⟨r', hr', hk', hR'⟩ := h'.old r'' hr'' (Int.lt_of_lt_of_le hlt h.next_le)
  obtain ⟨r, hr, hk, hR₀⟩ := h.old r' hr' (by omega)
  exact ⟨r, hr, hk.trans hk', hR hR₀ hR'⟩

theorem mono {R' : ρ → ρ → Prop} (hR : ∀ {a b}, R a b → R' a b) (h : Keeps R t t') :
    Keeps R' t t' :=
  ⟨h.next_le, fun r' hr' hlt =>
    let ⟨r, hr, hk, hrr⟩ := h.old r' hr' hlt
    ⟨r, hr, hk, hR hrr⟩⟩

theorem insert {mk : Int → ρ} (hk : ∀ i, key (mk i) = i) (hR : ∀ r, R r r) :
    Keeps R t (t.insert mk hk) := by
  refine ⟨by rw [next_insert]; omega, fun r' hr' hlt => ?_⟩
  rcases mem_insert.mp hr' with hr' | rfl
  · exact ⟨r', hr', rfl, hR r'⟩
  · rw [hk] at hlt
    exact absurd hlt (Int.lt_irrefl _)

theorem insertAll {α : Type} {xs : List α} {mk : α → Int → ρ}
    (hk : ∀ a i, key (mk a i) = i) (hR : ∀ r, R r r) : Keeps R t (t.insertAll xs mk hk) := by
  refine ⟨?_, fun r' hr' hlt => ?_⟩
  · induction xs generalizing t with
    | nil => exact Int.le_refl _
    | cons a xs ih =>
        have : (t.insert (mk a) (hk a)).next ≤ ((t.insert (mk a) (hk a)).insertAll xs mk hk).next :=
          ih
        rw [next_insert] at this
        exact Int.le_trans (by omega) this
  · rcases mem_insertAll hr' with hr' | ⟨a, -, i, hi, rfl⟩
    · exact ⟨r', hr', rfl, hR r'⟩
    · rw [hk] at hlt
      omega

theorem update {p : ρ → Bool} {f : ρ → ρ} (hf : ∀ r, key (f r) = key r)
    (hR : ∀ r, R r r) (hRf : ∀ r ∈ t, p r = true → R r (f r)) :
    Keeps R t (t.update p f hf) := by
  refine ⟨Int.le_refl _, fun r' hr' _ => ?_⟩
  obtain ⟨r, hr, rfl⟩ := mem_update.mp hr'
  split
  · rename_i hp
    exact ⟨r, hr, (hf r).symm, hRf r hr hp⟩
  · exact ⟨r, hr, rfl, hR r⟩

theorem delete {p : ρ → Bool} (hR : ∀ r, R r r) : Keeps R t (t.delete p) :=
  ⟨Int.le_refl _, fun r hr _ => ⟨r, (mem_delete.mp hr).1, rfl, hR r⟩⟩

/-- What is known of the row with an old key stays known. -/
theorem forall_key {β : Type} {f : ρ → β} {i : Int} {b : β}
    (h : Keeps (fun r r' => f r = f r') t t')
    (hi : i < t.next ∧ ∀ r ∈ t, key r = i → f r = b) :
    i < t'.next ∧ ∀ r ∈ t', key r = i → f r = b := by
  refine ⟨Int.lt_of_lt_of_le hi.1 h.next_le, fun r' hr' hk => ?_⟩
  have hlt : key r' < t.next := by
    rw [hk]
    exact hi.1
  obtain ⟨r, hr, hkr, hf⟩ := h.old r' hr' hlt
  rw [← hf]
  exact hi.2 r hr (hkr.trans hk)

end Keeps

/-! ## Growing tables -/

/-- No key is lost, and the new ones are drawn from the sequence. -/
structure Extends (t t' : SerialTable ρ key) : Prop where
  next_le : t.next ≤ t'.next
  kept : ∀ r ∈ t, ∃ r' ∈ t', key r' = key r
  added : ∀ r' ∈ t', (∃ r ∈ t, key r = key r') ∨ t.next ≤ key r'

namespace Extends

variable {t t' t'' : SerialTable ρ key}

theorem refl (t : SerialTable ρ key) : t.Extends t :=
  ⟨Int.le_refl _, fun r hr => ⟨r, hr, rfl⟩, fun r hr => Or.inl ⟨r, hr, rfl⟩⟩

theorem trans (h : t.Extends t') (h' : t'.Extends t'') : t.Extends t'' := by
  refine ⟨Int.le_trans h.next_le h'.next_le, fun r hr => ?_, fun r'' hr'' => ?_⟩
  · obtain ⟨r', hr', hk⟩ := h.kept r hr
    obtain ⟨r'', hr'', hk'⟩ := h'.kept r' hr'
    exact ⟨r'', hr'', hk'.trans hk⟩
  · rcases h'.added r'' hr'' with ⟨r', hr', hk'⟩ | hnew
    · rw [← hk']
      exact h.added r' hr'
    · exact Or.inr (Int.le_trans h.next_le hnew)

theorem insert {mk : Int → ρ} (hk : ∀ i, key (mk i) = i) : t.Extends (t.insert mk hk) := by
  refine ⟨by rw [next_insert]; omega, fun r hr => ⟨r, mem_insert_of_mem hk hr, rfl⟩,
    fun r' hr' => ?_⟩
  rcases mem_insert.mp hr' with hr' | rfl
  · exact Or.inl ⟨r', hr', rfl⟩
  · rw [hk]
    exact Or.inr (Int.le_refl _)

theorem update {p : ρ → Bool} {f : ρ → ρ} (hf : ∀ r, key (f r) = key r) :
    t.Extends (t.update p f hf) := by
  have hkey : ∀ r, key (if p r then f r else r) = key r := by
    intro r
    split
    · exact hf r
    · rfl
  refine ⟨Int.le_refl _, fun r hr => ⟨_, mem_update.mpr ⟨r, hr, rfl⟩, hkey r⟩, fun r' hr' => ?_⟩
  obtain ⟨r, hr, rfl⟩ := mem_update.mp hr'
  exact Or.inl ⟨r, hr, (hkey r).symm⟩

end Extends

end SerialTable

/-- Queries without an order return their rows in any. -/
structure ScanOrder where
  scan : {α : Type} → List α → List α
  perm : ∀ {α : Type} (rows : List α), (scan rows).Perm rows

def ScanOrder.fromStart : ScanOrder where
  scan := id
  perm _ := .refl _

end AstroPlant
