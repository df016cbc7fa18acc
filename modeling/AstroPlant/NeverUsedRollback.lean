import AstroPlant.Migrations

/-!
# Rolling the generated column back

The table of configurations as a thing that statements are put to: each is
refused, or it leaves new rows. The migration drops the column `never_used`, and
with it the column's default and the check that mentions it; the rollback only
makes the new column an ordinary one. So afterwards a row that does not name
`never_used` is refused, and a row that is both active and never used is not.

A statement is any function from the rows it is put to, to the rows it writes,
with a cell for each column that may be left to its default. What a table answers
is whether it accepts the written rows and what it then holds. `kept` is the
table with those constraints only which the migration leaves alone; the old table
refuses more than it does, and so does the table after the rollback, each for a
reason of its own (`exec_created`, `exec_rolledBack`). So the two answer alike
exactly if a statement is refused by `kept`, or gives both of them a reason, or
neither (`exec_eq_iff`).
-/

namespace AstroPlant

namespace NeverUsedRollback

/-! ## The table -/

/-- A row before the migration: the flag is stored beside the timestamp. -/
abbrev Row := AddActivationTimestamp.KitConfiguration

inductive Column where
  | id
  | kitId
  | description
  | controllerSymbolLocation
  | controllerSymbol
  | controlRules
  | active
  | neverUsed
  | firstActivatedAt
deriving DecidableEq

/-- A `CHECK`, with the columns that it mentions. -/
structure Check where
  columns : List Column
  holds : Row → Bool

def activeAndNeverUsed : Check where
  columns := [.active, .neverUsed]
  holds := fun r => !(r.active && r.neverUsed)

/-- The table while `never_used` is an ordinary column. -/
structure KitConfigurations where
  neverUsedDefault : Option Bool
  checks : List Check
  rows : List Row

/-- The table while `never_used` is generated. -/
structure GeneratedKitConfigurations where
  checks : List Check
  rows : List Row
  generated : ∀ r ∈ rows, r.neverUsed = r.firstActivatedAt.isNone

def generate (r : Row) : Row := { r with neverUsed := r.firstActivatedAt.isNone }

/-- Dropping a column drops the checks that mention it. -/
def up (t : KitConfigurations) : GeneratedKitConfigurations where
  checks := t.checks.filter fun check => !check.columns.contains .neverUsed
  rows := t.rows.map generate
  generated := by
    intro r hr
    obtain ⟨r₀, -, rfl⟩ := List.mem_map.mp hr
    rfl

/-- `DROP EXPRESSION`: the values stay, and the column gets no default. -/
def down (t : GeneratedKitConfigurations) : KitConfigurations where
  neverUsedDefault := none
  checks := t.checks
  rows := t.rows

/-- The table as it was created. -/
def created (rows : List Row) : KitConfigurations where
  neverUsedDefault := some true
  checks := [activeAndNeverUsed]
  rows := rows

/-- What a state of the table owes to its constraints. -/
structure Valid (kits : List Int) (rows : List Row) : Prop where
  primaryKey : (rows.map (·.id)).Nodup
  foreignKey : ∀ r ∈ rows, r.kitId ∈ kits
  check : ∀ r ∈ rows, activeAndNeverUsed.holds r = true

/-! ## Statements -/

/-- What a statement says of a flag. -/
inductive Cell where
  | default
  | null
  | value (b : Bool)

def Cell.get (default : Option Bool) : Cell → Option Bool
  | .default => default
  | .null => none
  | .value b => some b

/-- A row that a statement writes; `none` is `NULL`. An id that is not named has
been drawn from its sequence. -/
structure NewRow where
  id : Option Int
  kitId : Option Int
  description : Option String
  controllerSymbolLocation : Option String
  controllerSymbol : Option String
  controlRules : Option Json
  active : Cell
  neverUsed : Cell
  firstActivatedAt : Option Timestamp

namespace NewRow

/-- The trigger before an update. -/
def setFirstActivatedAt (now : Timestamp) (n : NewRow) : NewRow :=
  { n with
    firstActivatedAt :=
      if n.active.get (some false) = some true ∧ n.firstActivatedAt = none then some now
      else n.firstActivatedAt }

/-- The defaults, and `NOT NULL`. -/
def complete (neverUsedDefault : Option Bool) (n : NewRow) : Option Row := do
  let id ← n.id
  let kitId ← n.kitId
  let controllerSymbolLocation ← n.controllerSymbolLocation
  let controllerSymbol ← n.controllerSymbol
  let controlRules ← n.controlRules
  let active ← n.active.get (some false)
  let neverUsed ← n.neverUsed.get neverUsedDefault
  return { id, kitId, description := n.description, controllerSymbolLocation, controllerSymbol,
           controlRules, active, neverUsed, firstActivatedAt := n.firstActivatedAt }

end NewRow

/-- A row of the table under a statement: left alone, or written in place of an
old one or as a new one. -/
inductive Write where
  | keep (r : Row)
  | write (old : Option Row) (n : NewRow)

namespace Write

def complete (t : KitConfigurations) : Write → Option Row
  | keep r => some r
  | write _ n => (n.complete t.neverUsedDefault).filter fun r => t.checks.all (·.holds r)

/-- The id under which the row is there before it is written. -/
def presentId : Write → Option Int
  | keep r => some r.id
  | write old _ => old.map (·.id)

/-- The foreign key, which is checked where it is new. -/
def references (kits : List Int) : Write → Bool
  | keep _ => true
  | write old n => n.kitId.any fun id => old.any (·.kitId = id) || kits.contains id

/-- The primary key, checked for one row after the other. -/
def unique : List (Option Int) → List Write → Bool
  | _, [] => true
  | done, keep r :: rest => unique (done ++ [some r.id]) rest
  | done, write _ n :: rest =>
      !(done ++ rest.map presentId).contains n.id && unique (done ++ [n.id]) rest

end Write

/-- What is there besides the table. -/
structure Session where
  now : Timestamp
  kits : List Int

/-- The rows of an insert, and which rows an update writes, may depend on all that
is in the table. -/
inductive Statement where
  | insert (values : List Row → List NewRow)
  | update (set : List Row → Row → Option NewRow)

def Statement.writes (now : Timestamp) (rows : List Row) : Statement → List Write
  | insert values => rows.map .keep ++ (values rows).map (.write none)
  | update set => rows.map fun r =>
      match set rows r with
      | none => .keep r
      | some n => .write (some r) (n.setFirstActivatedAt now)

namespace KitConfigurations

/-- A statement is refused as a whole, or it leaves new rows. In which order the
constraints are checked does not show. -/
def exec (t : KitConfigurations) (session : Session) (statement : Statement) :
    Option (List Row) :=
  let writes := statement.writes session.now t.rows
  if Write.unique [] writes && writes.all (Write.references session.kits) then
    writes.mapM (Write.complete t)
  else none

/-- The outcomes of the statements, in turn. -/
def run (t : KitConfigurations) : List (Session × Statement) → List (Option (List Row))
  | [] => []
  | (session, statement) :: rest =>
      let outcome := t.exec session statement
      outcome :: run { t with rows := outcome.getD t.rows } rest

end KitConfigurations

/-! ## What the migration takes away -/

/-- The constraints that are left; a missing `never_used` is as good as the old
default. -/
def kept (rows : List Row) : KitConfigurations where
  neverUsedDefault := some true
  checks := []
  rows := rows

/-- The table after the migration and its rollback. -/
def rolledBack (rows : List Row) : KitConfigurations where
  neverUsedDefault := none
  checks := []
  rows := rows

theorem down_up_created (rows : List Row) :
    down (up (created rows)) = rolledBack (rows.map generate) := rfl

/-- The row that is written names the flag. -/
def Write.names : Write → Bool
  | .keep _ => true
  | .write _ n => match n.neverUsed with
    | .default => false
    | _ => true

/-- The row that is written is not both active and never used. -/
def Write.separates : Write → Bool
  | .keep _ => true
  | .write _ n =>
      !(n.active.get (some false) = some true && n.neverUsed.get (some true) = some true)

theorem NewRow.flags_of_complete {neverUsedDefault : Option Bool} {n : NewRow} {r : Row}
    (h : n.complete neverUsedDefault = some r) :
    n.active.get (some false) = some r.active
      ∧ n.neverUsed.get neverUsedDefault = some r.neverUsed := by
  simp only [complete, Option.bind_eq_bind, Option.bind_eq_some_iff, Option.pure_def,
    Option.some.injEq] at h
  obtain ⟨_, -, _, -, _, -, _, -, _, -, active, hactive, neverUsed, hneverUsed, rfl⟩ := h
  exact ⟨hactive, hneverUsed⟩

/-- The check that was created with the table refuses the rows that are both. -/
theorem Write.complete_created (rows : List Row) (w : Write) :
    w.complete (created rows) = if w.separates then w.complete (kept rows) else none := by
  cases w with
  | keep r => rfl
  | write old n =>
      show (n.complete (some true)).filter (fun r => [activeAndNeverUsed].all (·.holds r))
        = if Write.separates (.write old n) then (n.complete (some true)).filter (fun _ => true)
          else none
      cases hr : n.complete (some true) with
      | none => simp
      | some r =>
          obtain ⟨hactive, hneverUsed⟩ := NewRow.flags_of_complete hr
          cases ha : r.active <;> cases hn : r.neverUsed <;>
            simp [Option.filter, Write.separates, activeAndNeverUsed, hactive, hneverUsed, ha, hn]

/-- Without a default, a row that does not name the flag is refused. -/
theorem Write.complete_rolledBack (rows : List Row) (w : Write) :
    w.complete (rolledBack rows) = if w.names then w.complete (kept rows) else none := by
  cases w with
  | keep r => rfl
  | write old n =>
      show (n.complete none).filter (fun _ => true)
        = if Write.names (.write old n) then (n.complete (some true)).filter (fun _ => true)
          else none
      cases hcell : n.neverUsed <;>
        simp [Write.names, NewRow.complete, Cell.get, hcell]

/-- Refusing some rows refuses the statements with such a row. -/
theorem mapM_ite {α β : Type} (p : α → Bool) (f : α → Option β) (xs : List α) :
    (xs.mapM fun x => if p x then f x else none) = if xs.all p then xs.mapM f else none := by
  induction xs with
  | nil => rfl
  | cons x xs ih =>
      rw [List.mapM_cons, List.mapM_cons, ih, List.all_cons]
      cases p x with
      | false => rfl
      | true => cases f x <;> cases xs.all p <;> rfl

namespace Statement

variable (session : Session) (rows : List Row) (statement : Statement)

/-- Every row that the statement writes names the flag. -/
def names : Bool := (statement.writes session.now rows).all Write.names

/-- No row that the statement writes is both active and never used. -/
def separates : Bool := (statement.writes session.now rows).all Write.separates

/-- A table that refuses some of the rows that the constraints left would allow. -/
theorem exec_eq_ite {t : KitConfigurations} {p : Write → Bool}
    (hcomplete : ∀ w : Write, w.complete t = if p w then w.complete (kept t.rows) else none) :
    t.exec session statement
      = if (statement.writes session.now t.rows).all p then (kept t.rows).exec session statement
        else none := by
  unfold KitConfigurations.exec
  rw [funext hcomplete]
  simp only [kept, mapM_ite]
  cases (statement.writes session.now t.rows).all p with
  | false => simp
  | true => rfl

theorem exec_created : (created rows).exec session statement
    = if statement.separates session rows then (kept rows).exec session statement else none :=
  exec_eq_ite session statement (Write.complete_created rows)

theorem exec_rolledBack : (rolledBack rows).exec session statement
    = if statement.names session rows then (kept rows).exec session statement else none :=
  exec_eq_ite session statement (Write.complete_rolledBack rows)

/-- The statement breaks a constraint that is left, or it names the flag in every
row exactly when it makes no row both active and never used. -/
def Untroubled : Prop :=
  (kept rows).exec session statement = none
    ∨ (statement.names session rows = true ↔ statement.separates session rows = true)

/-- Both tables answer a statement alike exactly when the statement does not get to
what the migration took away. -/
theorem exec_eq_iff : (rolledBack rows).exec session statement
      = (created rows).exec session statement ↔ statement.Untroubled session rows := by
  rw [exec_created, exec_rolledBack, Untroubled]
  cases (kept rows).exec session statement <;> cases statement.names session rows <;>
    cases statement.separates session rows <;> simp

end Statement

/-- Each statement, in the state that the statements before it have left. -/
def Untroubled : List Row → List (Session × Statement) → Prop
  | _, [] => True
  | rows, (session, statement) :: rest =>
      statement.Untroubled session rows
        ∧ Untroubled (((created rows).exec session statement).getD rows) rest

theorem run_eq_iff {rows : List Row} {statements : List (Session × Statement)} :
    (rolledBack rows).run statements = (created rows).run statements
      ↔ Untroubled rows statements := by
  induction statements generalizing rows with
  | nil => simp [KitConfigurations.run, Untroubled]
  | cons head rest ih =>
      obtain ⟨session, statement⟩ := head
      rw [KitConfigurations.run, KitConfigurations.run, List.cons.injEq, Untroubled,
        ← Statement.exec_eq_iff]
      refine and_congr_right fun houtcome => ?_
      rw [← ih, houtcome]
      rfl

/-! ## The rollback -/

/-- The rollback restores the table for these statements: its rows, and the outcome
of each statement. -/
structure Restored (rows : List Row) (statements : List (Session × Statement)) : Prop where
  sameRows : (down (up (created rows))).rows = rows
  sameRun : (down (up (created rows))).run statements = (created rows).run statements

theorem generate_eq_self {r : Row} :
    generate r = r ↔ r.neverUsed = r.firstActivatedAt.isNone := by
  constructor
  · exact fun h => (congrArg (·.neverUsed) h).symm
  · intro h
    rw [generate, ← h]

theorem map_generate_eq_self {rows : List Row} :
    rows.map generate = rows ↔ ∀ r ∈ rows, r.neverUsed = r.firstActivatedAt.isNone := by
  calc rows.map generate = rows
      ↔ rows.map generate = rows.map id := by rw [List.map_id]
    _ ↔ ∀ r ∈ rows, generate r = r := List.map_inj_left
    _ ↔ ∀ r ∈ rows, r.neverUsed = r.firstActivatedAt.isNone :=
        forall₂_congr fun _ _ => generate_eq_self

end NeverUsedRollback

/-- **When the rollback restores the table**: the stored flags are what the
generated column makes of them, and no statement gets to the default and the
check that are gone. -/
theorem rollback_restores_iff (rows : List NeverUsedRollback.Row)
    (statements : List (NeverUsedRollback.Session × NeverUsedRollback.Statement)) :
    NeverUsedRollback.Restored rows statements
      ↔ (∀ r ∈ rows, r.neverUsed = r.firstActivatedAt.isNone)
        ∧ NeverUsedRollback.Untroubled rows statements := by
  rw [← NeverUsedRollback.map_generate_eq_self, ← NeverUsedRollback.run_eq_iff]
  constructor
  · rintro ⟨hrows, hrun⟩
    have hsame : rows.map NeverUsedRollback.generate = rows := hrows
    rw [NeverUsedRollback.down_up_created, hsame] at hrun
    exact ⟨hsame, hrun⟩
  · rintro ⟨hsame, hrun⟩
    refine ⟨hsame, ?_⟩
    rw [NeverUsedRollback.down_up_created, hsame]
    exact hrun

/-- An insert that leaves `never_used` to its default. -/
def insertWithoutNeverUsed : NeverUsedRollback.Statement :=
  .insert fun _ => [{
    id := some 1
    kitId := some 1
    description := none
    controllerSymbolLocation := some "astroplant_kit.controller"
    controllerSymbol := some "AstroplantControllerV1"
    controlRules := some (.object [])
    active := .default
    neverUsed := .default
    firstActivatedAt := none }]

/-- The table before accepts the insert, the table after the rollback refuses it. -/
theorem rollback_not_restores :
    NeverUsedRollback.Valid [1] []
      ∧ ¬NeverUsedRollback.Restored [] [(⟨0, [1]⟩, insertWithoutNeverUsed)] := by
  refine ⟨⟨by simp, by simp, by simp⟩, fun hrestored => ?_⟩
  have hhead := congrArg List.head? hrestored.sameRun
  cases hhead

end AstroPlant
