import AstroPlant.KitModel

/-!
# Media and the queue of media to delete: the statements

Media rows are never simply deleted: the handlers first copy their id, time and
size into `queue_media_pending_deletion`.

The queue keeps what is needed to remove the object later and nothing else; that
the object is still needed by nobody is for the handlers to ensure. Both halves
select by the same condition on rows (`queueMedia`), so where they see the same
rows, those that go are those that are queued (`queueMedia_ok`). As two
statements with others in between they need not see the same.
-/

namespace AstroPlant

namespace Media

def byId (id : Uuid) (s : Store) : Option Media := s.media.find? id

end Media

structure NewMedia where
  id : Uuid
  peripheralId : Int
  kitId : Int
  kitConfigurationId : Int
  datetime : Timestamp
  name : String
  type : String
  metadata : Json
  size : Int

namespace NewMedia

/-- The bounds that the struct declares. -/
def errors (new : NewMedia) : ValidationErrors :=
  [("name", validateLength (some 1) (some 255) new.name),
   ("type_", validateLength (some 1) (some 255) new.type)]

def row (new : NewMedia) : Media where
  id := new.id
  peripheralId := new.peripheralId
  kitId := new.kitId
  kitConfigurationId := new.kitConfigurationId
  datetime := new.datetime
  name := new.name
  type := new.type
  metadata := new.metadata
  size := new.size

/-- The rows that the new row refers to. -/
def references (new : NewMedia) (s : Store) : Bool :=
  (s.peripherals.find? new.peripheralId).isSome && (s.kits.find? new.kitId).isSome
    && (s.kitConfigurations.find? new.kitConfigurationId).isSome

/-- `INSERT ... ON CONFLICT DO NOTHING RETURNING`: a taken id returns no row. -/
def create (new : NewMedia) : Tx Store DieselError Media :=
  Tx.write fun s =>
    if new.size < 0 then .error .databaseError
    else
      match s.media.insert? new.row with
      | none => .error .notFound
      | some media =>
          if new.references s then .ok (new.row, { s with media })
          else .error .databaseError

theorem create_ok {new : NewMedia} {s s' : Store} {m : Media}
    (h : new.create.run s = .ok (m, s')) :
    0 ≤ new.size ∧ m = new.row ∧ new.references s = true
      ∧ ∃ media, s.media.insert? new.row = some media ∧ s' = { s with media } := by
  rw [create, Tx.run_write_ok] at h
  split at h
  · cases h
  · rename_i hsize
    split at h
    · cases h
    · rename_i media hins
      split at h
      · rename_i href
        cases h
        exact ⟨by omega, rfl, href, media, hins, rfl⟩
      · cases h

theorem create_error {new : NewMedia} {s : Store} {e : DieselError}
    (h : new.create.run s = .error e) :
    new.size < 0 ∨ (s.media.find? new.id).isSome = true ∨ new.references s = false := by
  rw [create, Tx.write, StateT.run] at h
  split at h
  · exact Or.inl ‹_›
  · split at h
    · rename_i hins
      obtain ⟨m, hm, hid⟩ := Table.insert?_eq_none.mp hins
      have hfound : s.media.find? new.id = some m := Table.find?_eq_some.mpr ⟨hm, hid⟩
      refine Or.inr (Or.inl ?_)
      rw [hfound]
      rfl
    · split at h
      · cases h
      · rename_i href
        exact Or.inr (Or.inr (by simpa using href))

end NewMedia

/-! ## The queue -/

namespace QueueMediaPendingDeletion

def row (now : Timestamp) (m : Media) (id : Int) : QueueMediaPendingDeletion where
  id
  createdAt := now
  mediaId := m.id
  mediaDatetime := m.datetime
  mediaSize := m.size

theorem row_id (now : Timestamp) (m : Media) (id : Int) : (row now m id).id = id := rfl

def insertAll (now : Timestamp) (ms : List Media) (s : Store) : Store :=
  { s with queueMediaPendingDeletion :=
      s.queueMediaPendingDeletion.insertAll ms (row now) (row_id now) }

/-- `INSERT INTO queue_media_pending_deletion SELECT ... FROM media WHERE p`;
`media_id` is unique. -/
def insertSelected (now : Timestamp) (p : Media → Bool) : Tx Store DieselError Unit :=
  Tx.write fun s =>
    let selected := s.media.select p
    if selected.any fun m => s.queueMediaPendingDeletion.rows.any (·.mediaId = m.id) then
      .error .databaseError
    else .ok ((), insertAll now selected s)

end QueueMediaPendingDeletion

/-- `DELETE FROM media WHERE p`. -/
def Media.deleteSelected (p : Media → Bool) : Tx Store DieselError Unit :=
  Tx.write fun s => .ok ((), { s with media := s.media.delete p })

/-- The two statements by which every deletion takes its media away. -/
def queueMedia (now : Timestamp) (p : Media → Bool) : Tx Store DieselError Unit := do
  QueueMediaPendingDeletion.insertSelected now p
  Media.deleteSelected p

theorem QueueMediaPendingDeletion.insertSelected_ok {now : Timestamp} {p : Media → Bool}
    {s s' : Store} {u : Unit} (h : (insertSelected now p).run s = .ok (u, s')) :
    (∀ m ∈ s.media, p m = true → ∀ q ∈ s.queueMediaPendingDeletion, q.mediaId ≠ m.id)
      ∧ s' = insertAll now (s.media.select p) s := by
  rw [insertSelected, Tx.run_write_ok] at h
  dsimp only at h
  split at h
  · cases h
  · rename_i hfree
    cases h
    refine ⟨fun m hm hp q hq => ?_, rfl⟩
    simp only [List.any_eq_true, Table.mem_select, decide_eq_true_eq, not_exists, not_and] at hfree
    exact hfree m ⟨hm, hp⟩ q hq

/-- Taken together, the two statements only touch the two tables. -/
theorem queueMedia_ok {now : Timestamp} {p : Media → Bool} {s s' : Store} {u : Unit}
    (h : (queueMedia now p).run s = .ok (u, s')) :
    s' = { QueueMediaPendingDeletion.insertAll now (s.media.select p) s with
      media := s.media.delete p } := by
  obtain ⟨_, s₁, h₁, h₂⟩ := Tx.run_bind_ok.mp h
  obtain ⟨-, rfl⟩ := QueueMediaPendingDeletion.insertSelected_ok h₁
  rw [Media.deleteSelected, Tx.run_write_ok] at h₂
  cases h₂
  rfl

end AstroPlant
