import AstroPlant.ArchiveText
import AstroPlant.Pipe
import AstroPlant.SentConfiguration

/-!
# What ends up in an archive

`write_zip` appends two members, one after the other. Each is written into a
pipe, while the archive reads from it until it is closed. What went wrong on
either side is discarded, and so is an error of the database in the middle of
the rows: it ends the loop over them. The archive is finalised in any case.

So an archive is whole if nothing fails (`archive_whole`), but it is finalised
even if the reason that a member ends is that something has failed.

The rows come out of the database one at a time and the archive is a reader at
its own pace, so the writer of a member, the pipe and the archive are three
parties of one program. What is written is not lost between them (`Pipe.sent`),
and the only way for a finalised archive to be short is that one of them has
failed.
-/

namespace AstroPlant

/-! ## Rows, one at a time -/

/-- The line of a row, if its values can be converted. -/
def AggregateMeasurement.toLine? (keys : List String) (m : AggregateMeasurement) :
    Option AggregateLine :=
  (valuesFromJson m.values).map fun values =>
    ⟨m.datetimeStart, m.datetimeEnd, m.peripheralId, m.kitConfigurationId, m.quantityTypeId,
      keys.map values.lookup⟩

theorem writeRows_cons (keys : List String) (m : AggregateMeasurement)
    (ms : List AggregateMeasurement) :
    writeRows keys (m :: ms)
      = match m.toLine? keys with
        | none => ([], false)
        | some l => (l :: (writeRows keys ms).1, (writeRows keys ms).2) := by
  rw [writeRows, AggregateMeasurement.toLine?]
  cases valuesFromJson m.values <;> rfl

theorem writeRows_mapM {keys : List String} {rows : List AggregateMeasurement}
    (h : (writeRows keys rows).2 = true) :
    rows.mapM (·.toLine? keys) = some (writeRows keys rows).1 := by
  induction rows with
  | nil => rfl
  | cons m ms ih =>
      rw [writeRows_cons] at h ⊢
      rw [List.mapM_cons]
      cases hm : m.toLine? keys with
      | none =>
          rw [hm] at h
          cases h
      | some l =>
          rw [hm] at h
          rw [ih h]
          rfl

namespace Archive

def utf8 (text : String) : List UInt8 := text.toUTF8.data.toList

theorem utf8_append (s t : String) : utf8 (s ++ t) = utf8 s ++ utf8 t := by
  simp [utf8]

/-! ## The members -/

inductive Member where
  | configurations
  | aggregateMeasurements
deriving DecidableEq

def Member.name : Member → String
  | .configurations => "configurations.json"
  | .aggregateMeasurements => "aggregate_measurements.csv"

/-- What an archive is made for, and what its queries see. -/
structure Source where
  kit : Kit
  filter : ArchiveQuery
  order : ScanOrder
  rfc3339 : Rfc3339
  /-- `serde_json::to_string_pretty`. -/
  toStringPretty : List (Views.KitConfigurationWithPeripherals Peripheral) → Option String
  atConfigurations : Store
  atPeripherals : Store
  atKeys : Store
  atRows : Store

namespace Source

variable (a : Source)

/-- The configurations of the kit with their peripherals. -/
def configurations : List (Views.KitConfigurationWithPeripherals Peripheral) :=
  configurationsWithPeripherals
    (a.order.scan (a.atConfigurations.kitConfigurations.select (·.kitId = a.kit.id)))
    (a.order.scan (a.atPeripherals.peripherals.select (·.kitId = a.kit.id)))

def keys : Option (List String) :=
  (aggregateKeys (archived a.kit.id a.filter a.atKeys)).map a.order.scan

def rows : List AggregateMeasurement := a.order.scan (archived a.kit.id a.filter a.atRows)

end Source

/-- What is left to do for a member. -/
inductive Work where
  /-- A connection for the configurations. -/
  | connect
  | configurations
  | keys
  | rows (aggregateKeys : List String) (rows : List AggregateMeasurement)
  | write (chunk : List UInt8) (next : Work)
  | done

def Member.work : Member → Work
  | .configurations => .connect
  | .aggregateMeasurements => .keys

variable (a : Source)

/-- A step that does not write: a query, or a row and its conversion. `none` is an
error, for which nothing more is done. -/
def Work.advance : Work → Option Work
  | .connect => some .configurations
  | .configurations =>
      (a.toStringPretty a.configurations).map fun config => .write (utf8 config) .done
  | .keys =>
      a.keys.map fun aggregateKeys =>
        .write (utf8 (aggregatesHeader aggregateKeys)) (.rows aggregateKeys a.rows)
  | .rows _ [] => some .done
  | .rows aggregateKeys (m :: ms) =>
      (m.toLine? aggregateKeys).map fun l =>
        .write (utf8 (l.text a.rfc3339)) (.rows aggregateKeys ms)
  | .write _ _ | .done => none

/-- What was queried can be converted. -/
def Work.succeeds : Work → Bool
  | .write _ _ => true
  | work => (work.advance a).isSome

/-- `tokio::io::duplex(1024)`. -/
abbrev Duplex := Pipe UInt8 1024

/-- One step of the writer. The database or the stream may fail at any. -/
def Work.produce (ok : Bool) (pipe : Duplex) : Work → Option (Work × Duplex)
  | .done => none
  | .write chunk next =>
      if ok then
        (pipe.write chunk).map fun p => (if p.2 = [] then next else .write p.2 next, p.1)
      else some (.done, pipe)
  | work => some (if ok then (work.advance a).getD .done else .done, pipe)

/-! ## The archive -/

inductive Progress where
  /-- The archive reads a member, or has stopped to. -/
  | appending (member : Member) (work : Work) (pipe : Duplex) (reading : Bool)
  | finalize
  | ended (ok : Bool)

def Member.next : Member → Progress
  | .configurations => .appending .aggregateMeasurements .keys .empty true
  | .aggregateMeasurements => .finalize

/-- A member is in the archive once it was appended. -/
structure Zip where
  members : List (String × List UInt8)
  progress : Progress

def Zip.start : Zip := ⟨[], .appending .configurations .connect .empty true⟩

def Zip.finalized (z : Zip) : Bool :=
  match z.progress with
  | .ended ok => ok
  | _ => false

inductive Label where
  | produce (ok : Bool)
  | read (n : Nat)
  /-- The pipe is empty and closed. -/
  | append
  | appendFails
  | join
  | finalize (ok : Bool)
deriving DecidableEq

/-- A reader that has failed leaves the pipe as it is: its end is not dropped. -/
def step (z : Zip) (l : Label) : Option Zip :=
  match z.progress, l with
  | .appending member work pipe reading, .produce ok =>
      (work.produce a ok pipe).map fun p =>
        { z with progress := .appending member p.1 p.2 reading }
  | .appending member work pipe true, .read n =>
      (pipe.read n).map fun pipe => { z with progress := .appending member work pipe true }
  | .appending member .done pipe true, .append =>
      if pipe.buffer = [] then
        some { members := z.members ++ [(member.name, pipe.received)],
               progress := .appending member .done pipe false }
      else none
  | .appending member work pipe true, .appendFails =>
      some { z with progress := .appending member work pipe false }
  | .appending member .done _ false, .join => some { z with progress := member.next }
  | .finalize, .finalize ok => some { z with progress := .ended ok }
  | _, _ => none

/-- Nothing fails in this step. -/
def Faultless (z : Zip) (l : Label) : Bool :=
  match z.progress, l with
  | .appending _ work _ _, .produce ok => ok && work.succeeds a
  | _, .appendFails => false
  | _, _ => true

/-! ## What a member holds -/

/-- What is still to be written, if nothing fails. -/
def Work.output : Work → Option (List UInt8)
  | .connect | .configurations => (a.toStringPretty a.configurations).map utf8
  | .keys =>
      match writeAggregatesIn a.order a.kit.id a.filter a.atKeys a.atRows with
      | some file => if file.complete then some (utf8 (file.text a.rfc3339)) else none
      | none => none
  | .rows aggregateKeys ms =>
      let lines := writeRows aggregateKeys ms
      if lines.2 then some (utf8 (String.join (lines.1.map (·.text a.rfc3339)))) else none
  | .write chunk next => next.output.map (chunk ++ ·)
  | .done => some []

variable {a : Source}

/-- A step of the loop over the rows, and each before it, leaves the rest to do. -/
theorem output_advance {work work' : Work} (h : work.advance a = some work') :
    work.output a = work'.output a := by
  cases work with
  | connect =>
      obtain rfl := Option.some.inj h
      rfl
  | configurations =>
      obtain ⟨config, hconfig, rfl⟩ := Option.map_eq_some_iff.mp h
      simp [Work.output, hconfig]
  | keys =>
      obtain ⟨keys, hkeys, rfl⟩ := Option.map_eq_some_iff.mp h
      obtain ⟨distinct, hdistinct, rfl⟩ := Option.map_eq_some_iff.mp hkeys
      have hfile : writeAggregatesIn a.order a.kit.id a.filter a.atKeys a.atRows
          = some ⟨a.order.scan distinct, (writeRows (a.order.scan distinct) a.rows).1,
            (writeRows (a.order.scan distinct) a.rows).2⟩ := by
        rw [writeAggregatesIn, hdistinct]
        rfl
      simp only [Work.output, hfile]
      split
      · rw [AggregatesFile.text, utf8_append]
        rfl
      · rfl
  | rows keys rows =>
      cases rows with
      | nil =>
          obtain rfl := Option.some.inj h
          rfl
      | cons m ms =>
          obtain ⟨l, hl, rfl⟩ := Option.map_eq_some_iff.mp h
          simp only [Work.output, writeRows_cons, hl]
          split
          · rw [List.map_cons, String.join_cons, utf8_append]
            rfl
          · rfl
  | write chunk next => cases h
  | done => cases h

theorem output_produce {work work' : Work} {pipe pipe' : Duplex} {ok : Bool}
    (hok : ok = true ∧ work.succeeds a = true)
    (h : work.produce a ok pipe = some (work', pipe')) :
    (work.output a).map (pipe.sent ++ ·) = (work'.output a).map (pipe'.sent ++ ·) := by
  obtain ⟨rfl, hsucceeds⟩ := hok
  have hadvance : (work.advance a).isSome = true →
      some ((work.advance a).getD .done, pipe) = some (work', pipe') →
      (work.output a).map (pipe.sent ++ ·) = (work'.output a).map (pipe'.sent ++ ·) := by
    intro hsome h
    obtain ⟨next, hnext⟩ := Option.isSome_iff_exists.mp hsome
    rw [hnext] at h
    obtain ⟨rfl, rfl⟩ := Prod.mk.inj (Option.some.inj h)
    rw [output_advance hnext]
    rfl
  cases work with
  | connect | configurations | keys | rows _ _ => exact hadvance hsucceeds h
  | done => cases h
  | write chunk next =>
      obtain ⟨⟨pipe'', rest⟩, hwrite, h⟩ := Option.map_eq_some_iff.mp h
      obtain ⟨rfl, rfl⟩ := Prod.mk.inj h
      have hsent := Pipe.sent_write hwrite
      have hrest : (next.output a).map ((pipe.sent ++ chunk) ++ ·)
          = ((if rest = [] then next else .write rest next).output a).map (pipe''.sent ++ ·) := by
        rw [← hsent]
        split
        · rename_i hnil
          rw [hnil, List.append_nil]
        · rw [Work.output, Option.map_map]
          simp [Function.comp_def]
      rw [Work.output, Option.map_map, ← hrest]
      simp [Function.comp_def]

/-! ## Steps -/

theorem step_cases {z z' : Zip} {l : Label} (h : step a z l = some z') :
    (∃ member work pipe reading ok work' pipe',
        z.progress = .appending member work pipe reading ∧ l = .produce ok
        ∧ work.produce a ok pipe = some (work', pipe')
        ∧ z' = { z with progress := .appending member work' pipe' reading })
    ∨ (∃ member work pipe n pipe', z.progress = .appending member work pipe true ∧ l = .read n
        ∧ pipe.read n = some pipe'
        ∧ z' = { z with progress := .appending member work pipe' true })
    ∨ (∃ member pipe, z.progress = .appending member .done pipe true ∧ l = .append
        ∧ pipe.buffer = []
        ∧ z' = { members := z.members ++ [(member.name, pipe.received)],
                 progress := .appending member .done pipe false })
    ∨ (∃ member work pipe, z.progress = .appending member work pipe true ∧ l = .appendFails
        ∧ z' = { z with progress := .appending member work pipe false })
    ∨ (∃ member pipe, z.progress = .appending member .done pipe false ∧ l = .join
        ∧ z' = { z with progress := member.next })
    ∨ ∃ ok, z.progress = .finalize ∧ l = .finalize ok ∧ z' = { z with progress := .ended ok } := by
  unfold step at h
  split at h
  · rename_i member work pipe reading ok hz
    obtain ⟨⟨work', pipe'⟩, hproduce, rfl⟩ := Option.map_eq_some_iff.mp h
    exact Or.inl ⟨member, work, pipe, reading, ok, work', pipe', hz, rfl, hproduce, rfl⟩
  · rename_i member work pipe n hz
    obtain ⟨pipe', hread, rfl⟩ := Option.map_eq_some_iff.mp h
    exact Or.inr (Or.inl ⟨member, work, pipe, n, pipe', hz, rfl, hread, rfl⟩)
  · rename_i member pipe hz
    split at h
    · rename_i hempty
      obtain rfl := Option.some.inj h
      exact Or.inr (Or.inr (Or.inl ⟨member, pipe, hz, rfl, hempty, rfl⟩))
    · cases h
  · rename_i member work pipe hz
    obtain rfl := Option.some.inj h
    exact Or.inr (Or.inr (Or.inr (Or.inl ⟨member, work, pipe, hz, rfl, rfl⟩)))
  · rename_i member pipe hz
    obtain rfl := Option.some.inj h
    exact Or.inr (Or.inr (Or.inr (Or.inr (Or.inl ⟨member, pipe, hz, rfl, rfl⟩))))
  · rename_i ok hz
    obtain rfl := Option.some.inj h
    exact Or.inr (Or.inr (Or.inr (Or.inr (Or.inr ⟨ok, hz, rfl, rfl⟩))))
  · cases h

/-- The members appended so far. -/
def Progress.appended : Progress → List Member
  | .appending .configurations _ _ true => []
  | .appending .configurations _ _ false | .appending .aggregateMeasurements _ _ true =>
      [.configurations]
  | .appending .aggregateMeasurements _ _ false | .finalize | .ended _ =>
      [.configurations, .aggregateMeasurements]

/-- A member is in the archive under its name with all that it should hold. -/
def IsMember (a : Source) (member : Member) (entry : String × List UInt8) : Prop :=
  entry.1 = member.name ∧ member.work.output a = some entry.2

/-- While nothing fails, the members are whole, and what was sent of the next is
the beginning of it. -/
structure Inv (a : Source) (z : Zip) : Prop where
  members : List.Forall₂ (IsMember a) z.progress.appended z.members
  sent : ∀ member work pipe, z.progress = .appending member work pipe true →
    member.work.output a = (work.output a).map (pipe.sent ++ ·)

theorem inv_start (a : Source) : Inv a .start where
  members := .nil
  sent member work pipe h := by
    cases h
    simp [Member.work]

theorem appended_appending (member : Member) (work work' : Work) (pipe pipe' : Duplex)
    (reading : Bool) :
    (Progress.appending member work pipe reading).appended
      = (Progress.appending member work' pipe' reading).appended := by
  cases member <;> cases reading <;> rfl

theorem appended_false (member : Member) (work : Work) (pipe : Duplex) :
    (Progress.appending member work pipe false).appended
      = (Progress.appending member work pipe true).appended ++ [member] := by
  cases member <;> rfl

/-- **One step** in which nothing fails. -/
theorem inv_step {z z' : Zip} {l : Label} (hz : Inv a z) (hok : Faultless a z l = true)
    (h : step a z l = some z') : Inv a z' := by
  have hmembers := hz.members
  rcases step_cases h with ⟨member, work, pipe, reading, ok, work', pipe', hp, rfl, hproduce, rfl⟩
    | ⟨member, work, pipe, n, pipe', hp, rfl, hread, rfl⟩ | ⟨member, pipe, hp, rfl, hempty, rfl⟩
    | ⟨member, work, pipe, hp, rfl, rfl⟩ | ⟨member, pipe, hp, rfl, rfl⟩ | ⟨ok, hp, rfl, rfl⟩
  · rw [hp] at hmembers
    simp only [Faultless, hp, Bool.and_eq_true] at hok
    refine ⟨?_, ?_⟩
    · rw [← appended_appending member work work' pipe pipe' reading]
      exact hmembers
    · intro _ _ _ hp'
      cases hp'
      rw [hz.sent _ _ _ hp]
      exact output_produce hok hproduce
  · rw [hp] at hmembers
    refine ⟨?_, ?_⟩
    · rw [← appended_appending member work work pipe pipe' true]
      exact hmembers
    · intro _ _ _ hp'
      cases hp'
      rw [Pipe.sent_read hread]
      exact hz.sent _ _ _ hp
  · rw [hp] at hmembers
    refine ⟨?_, fun _ _ _ hp' => by cases hp'⟩
    have hsent := hz.sent _ _ _ hp
    rw [appended_false]
    refine List.rel_append hmembers (.cons ⟨rfl, ?_⟩ .nil)
    rw [hsent, Work.output, Option.map_some, List.append_nil, Pipe.sent, hempty, List.append_nil]
  · simp only [Faultless, hp] at hok
    cases hok
  · rw [hp] at hmembers
    cases member with
    | configurations =>
        refine ⟨hmembers, ?_⟩
        intro _ _ _ hp'
        cases hp'
        simp [Member.work]
    | aggregateMeasurements =>
        exact ⟨hmembers, fun _ _ _ hp' => by cases hp'⟩
  · rw [hp] at hmembers
    exact ⟨hmembers, fun _ _ _ hp' => by cases hp'⟩

/-! ## Archives -/

/-- The archive has a file with each configuration of the kit, and one with a line
for each of its rows that matches the filter. -/
structure Whole (a : Source) (z : Zip) : Prop where
  configurations : ∃ (listed : List (Views.KitConfigurationWithPeripherals Peripheral))
      (config : String), (listed.map (·.kitConfiguration)).Perm
        ((a.atConfigurations.kitConfigurations.select (·.kitId = a.kit.id)).map .ofModel)
      ∧ a.toStringPretty listed = some config ∧ ("configurations.json", utf8 config) ∈ z.members
  aggregates : ∃ (keys : List String) (rows : List AggregateMeasurement)
      (lines : List AggregateLine), a.keys = some keys
    ∧ rows.Perm (archived a.kit.id a.filter a.atRows) ∧ rows.mapM (·.toLine? keys) = some lines
    ∧ ("aggregate_measurements.csv", utf8 (AggregatesFile.text a.rfc3339 ⟨keys, lines, true⟩))
        ∈ z.members

theorem configurations_perm (a : Source) :
    (a.configurations.map (·.kitConfiguration)).Perm
      ((a.atConfigurations.kitConfigurations.select (·.kitId = a.kit.id)).map .ofModel) := by
  have hscan := a.order.perm (a.atConfigurations.kitConfigurations.select (·.kitId = a.kit.id))
  have hnodup : ((a.order.scan
      (a.atConfigurations.kitConfigurations.select (·.kitId = a.kit.id))).map (·.id)).Nodup := by
    rw [(hscan.map _).nodup_iff]
    exact (List.filter_sublist.map _).nodup a.atConfigurations.kitConfigurations.nodup
  rw [Source.configurations, configurationsWithPeripherals_eq hnodup, List.map_map]
  exact hscan.map _

theorem whole_of_members {z : Zip}
    (h : List.Forall₂ (IsMember a) [.configurations, .aggregateMeasurements] z.members) :
    Whole a z := by
  obtain ⟨hmembers₁, hmembers₂⟩ : (∃ e ∈ z.members, IsMember a .configurations e)
      ∧ ∃ e ∈ z.members, IsMember a .aggregateMeasurements e := by
    cases hz : z.members with
    | nil =>
        rw [hz] at h
        cases h
    | cons e es =>
        rw [hz] at h
        obtain ⟨he, hes⟩ := List.forall₂_cons.mp h
        cases es with
        | nil => cases hes
        | cons e' es =>
            obtain ⟨he', -⟩ := List.forall₂_cons.mp hes
            exact ⟨⟨e, List.mem_cons_self, he⟩,
              ⟨e', List.mem_cons_of_mem _ List.mem_cons_self, he'⟩⟩
  constructor
  · obtain ⟨⟨name, content⟩, hmem, hname, houtput⟩ := hmembers₁
    obtain ⟨config, hconfig, rfl⟩ := Option.map_eq_some_iff.mp houtput
    obtain rfl : name = "configurations.json" := hname
    exact ⟨_, config, configurations_perm a, hconfig, hmem⟩
  · obtain ⟨⟨name, content⟩, hmem, hname, houtput⟩ := hmembers₂
    obtain rfl : name = "aggregate_measurements.csv" := hname
    simp only [Member.work, Work.output] at houtput
    split at houtput
    · rename_i file hfile
      split at houtput
      · rename_i hcomplete
        obtain rfl := Option.some.inj houtput
        obtain ⟨distinct, hdistinct, rfl⟩ := Option.map_eq_some_iff.mp hfile
        have hkeys : a.keys = some (a.order.scan distinct) := by
          rw [Source.keys, hdistinct]
          rfl
        exact ⟨_, a.rows, _, hkeys, a.order.perm _, writeRows_mapM hcomplete, hmem⟩
      · cases houtput
    · cases houtput

/-- A member that has ended is read to its end, unless the reader has failed. -/
theorem exists_joined (a : Source) {z : Zip} {member : Member} {pipe : Duplex} {reading : Bool}
    (hz : z.progress = .appending member .done pipe reading) :
    ∃ ls z', Run.exec (step a) z ls = some z' ∧ z'.progress = member.next := by
  have hjoin : ∀ z : Zip, ∀ pipe, z.progress = .appending member .done pipe false →
      ∃ ls z', Run.exec (step a) z ls = some z' ∧ z'.progress = member.next := by
    intro z pipe hz
    refine ⟨[.join], { z with progress := member.next }, ?_, rfl⟩
    simp [Run.exec, step, hz]
  have happend : ∀ z : Zip, ∀ pipe : Duplex, pipe.buffer = [] →
      z.progress = .appending member .done pipe true →
      ∃ ls z', Run.exec (step a) z ls = some z' ∧ z'.progress = member.next := by
    intro z pipe hpipe hz
    obtain ⟨ls, z', hrun, hz'⟩ := hjoin
      ⟨z.members ++ [(member.name, pipe.received)], .appending member .done pipe false⟩ pipe rfl
    refine ⟨.append :: ls, z', Run.exec_cons.mpr ⟨_, ?_, hrun⟩, hz'⟩
    simp [step, hz, hpipe]
  cases reading with
  | false => exact hjoin z pipe hz
  | true =>
      by_cases hpipe : pipe.buffer = []
      · exact happend z pipe hpipe hz
      · obtain ⟨pipe', hread, hpipe'⟩ := pipe.exists_read hpipe
        obtain ⟨ls, z', hrun, hz'⟩ := happend
          { z with progress := .appending member .done pipe' true } pipe' hpipe' rfl
        refine ⟨.read pipe.buffer.length :: ls, z', Run.exec_cons.mpr ⟨_, ?_, hrun⟩, hz'⟩
        simp [step, hz, hread]

/-- Whatever the reason that a member ends, the archive can be finalised. -/
theorem exists_finalized (a : Source) {z : Zip} {member : Member} {pipe : Duplex} {reading : Bool}
    (hz : z.progress = .appending member .done pipe reading) :
    ∃ ls z', Run.exec (step a) z ls = some z' ∧ z'.finalized = true := by
  have hfinalize : ∀ z : Zip, z.progress = .finalize →
      ∃ ls z', Run.exec (step a) z ls = some z' ∧ z'.finalized = true := by
    intro z hz
    refine ⟨[.finalize true], { z with progress := .ended true }, ?_, rfl⟩
    simp [Run.exec, step, hz]
  obtain ⟨ls₁, z₁, hrun₁, hz₁⟩ := exists_joined a hz
  cases member with
  | aggregateMeasurements =>
      obtain ⟨ls₂, z₂, hrun₂, hz₂⟩ := hfinalize z₁ hz₁
      exact ⟨ls₁ ++ ls₂, z₂, Run.exec_append.mpr ⟨z₁, hrun₁, hrun₂⟩, hz₂⟩
  | configurations =>
      -- the other member may end at once
      let z₂ : Zip := { z₁ with progress := .appending .aggregateMeasurements .done .empty true }
      obtain ⟨ls₃, z₃, hrun₃, hz₃⟩ := exists_joined a (z := z₂) rfl
      obtain ⟨ls₄, z₄, hrun₄, hz₄⟩ := hfinalize z₃ hz₃
      have hfail : step a z₁ (.produce false) = some z₂ := by
        simp [step, hz₁, Member.next, Work.produce, z₂]
      refine ⟨ls₁ ++ .produce false :: (ls₃ ++ ls₄), z₄, ?_, hz₄⟩
      exact Run.exec_append.mpr ⟨z₁, hrun₁, Run.exec_cons.mpr ⟨z₂, hfail,
        Run.exec_append.mpr ⟨z₃, hrun₃, hrun₄⟩⟩⟩

theorem produce_fault {work work' : Work} {pipe pipe' : Duplex} {ok : Bool}
    (hfault : (ok && work.succeeds a) = false)
    (h : work.produce a ok pipe = some (work', pipe')) : work' = .done := by
  have hadvance : (ok && (work.advance a).isSome) = false →
      some (if ok then (work.advance a).getD .done else .done, pipe) = some (work', pipe') →
      work' = .done := by
    intro hnone h
    obtain ⟨rfl, -⟩ := Prod.mk.inj (Option.some.inj h)
    cases ok with
    | false => rfl
    | true =>
        rw [Bool.true_and, Option.isSome_eq_false_iff, Option.isNone_iff_eq_none] at hnone
        rw [hnone]
        rfl
  cases work with
  | connect | configurations | keys | rows _ _ => exact hadvance hfault h
  | done => cases h
  | write chunk next =>
      obtain rfl : ok = false := by simpa [Work.succeeds] using hfault
      obtain ⟨rfl, -⟩ := Prod.mk.inj (Option.some.inj h)
      rfl

/-- **Archives are whole** if nothing fails: when one is finalised after a run in
which nothing has failed, it has all configurations and all rows. But a failure
on the side that writes a member never keeps the archive from being finalised. -/
theorem archive_whole (a : Source) :
    (∀ ls z, Run.exec (step a) .start ls = some z →
        Run.Guarded (step a) (fun z l => Faultless a z l = true) .start ls →
        z.finalized = true → Whole a z)
      ∧ ∀ z ok z', step a z (.produce ok) = some z' → Faultless a z (.produce ok) = false →
          ∃ ls z'', Run.exec (step a) z' ls = some z'' ∧ z''.finalized = true := by
  constructor
  · intro ls z hrun hok hended
    have hinv := Run.exec_invariant_guarded (fun _ _ _ hz hl hstep => inv_step hz hl hstep)
      (inv_start a) hok hrun
    have hmembers := hinv.members
    have hz : ∃ ok, z.progress = .ended ok := by
      unfold Zip.finalized at hended
      split at hended
      · exact ⟨_, ‹_›⟩
      · cases hended
    obtain ⟨ok, hz⟩ := hz
    rw [hz] at hmembers
    exact whole_of_members hmembers
  · intro z ok z' hstep hfault
    rcases step_cases hstep with ⟨member, work, pipe, reading, ok', work', pipe', hp, hl, hproduce,
      rfl⟩ | ⟨_, _, _, _, _, -, hl, -⟩ | ⟨_, _, -, hl, -⟩ | ⟨_, _, _, -, hl, -⟩ | ⟨_, _, -, hl, -⟩
      | ⟨_, -, hl, -⟩ <;> cases hl
    simp only [Faultless, hp] at hfault
    obtain rfl := produce_fault hfault hproduce
    exact exists_finalized a rfl

/-- The first kit with an average of its first minute. -/
def minuteOfAverage : Store :=
  (twoKits.insertAggregateMeasurement (aggregateRow (firstMinute "average") ⟨1, 1⟩)).getD twoKits

/-- Its archive, with the text of its configuration. -/
def oneRow : Source where
  kit := ⟨1, "k1", "", none, none, none, none, true, true, 0, 0⟩
  filter := ⟨none, none, none⟩
  order := .fromStart
  rfc3339 := .firstMinutes
  toStringPretty _ := some ("\n".intercalate [
    "[", "  \x7b", "    \"id\": 1,", "    \"kitId\": 1,", "    \"description\": null,",
    "    \"controllerSymbolLocation\": \"\",", "    \"controllerSymbol\": \"\",",
    "    \"controlRules\": null,", "    \"active\": true,", "    \"neverUsed\": false,",
    "    \"peripherals\": [", "      \x7b", "        \"id\": 1,", "        \"kitId\": 1,",
    "        \"kitConfigurationId\": 1,", "        \"peripheralDefinitionId\": 1,",
    "        \"name\": \"thermometer\",", "        \"configuration\": null", "      \x7d",
    "    ]", "  \x7d", "]"])
  atConfigurations := twoKits
  atPeripherals := twoKits
  atKeys := minuteOfAverage
  atRows := minuteOfAverage

/-- Both members are written, read and appended. -/
def nothingFails : List Label :=
  [.produce true, .produce true, .produce true, .read 410, .append, .join,
    .produce true, .produce true, .produce true, .produce true, .produce true, .read 127,
    .append, .join, .finalize true]

theorem archive_whole_oneRow :
    ∃ z, Run.exec (step oneRow) .start nothingFails = some z
      ∧ z.finalized = true ∧ Whole oneRow z := by
  have hrun : ((Run.exec (step oneRow) .start nothingFails).map (·.finalized)) = some true := by
    decide +kernel
  obtain ⟨z, hz, hfinalized⟩ := Option.map_eq_some_iff.mp hrun
  have hfaultless : Run.Guarded (step oneRow) (fun z l => Faultless oneRow z l = true) .start
      nothingFails := by
    decide +kernel
  exact ⟨z, hz, hfinalized, (archive_whole oneRow).1 nothingFails z hz hfaultless hfinalized⟩

/-- The database fails before the first row. -/
def rowsFail : List Label :=
  [.produce true, .produce true, .produce true, .read 410, .append, .join,
    .produce true, .produce true, .produce false, .read 75, .append, .join, .finalize true]

/-- The archive is finalised with a header and no rows. -/
theorem rowsFail_not_whole :
    ∃ z, Run.exec (step oneRow) .start rowsFail = some z ∧ z.finalized = true
      ∧ ¬ Whole oneRow z := by
  have hrun : (Run.exec (step oneRow) .start rowsFail).map
      (fun z => (z.finalized, z.members.map fun e => (e.1, e.2.length)))
      = some (true, [("configurations.json", 410), ("aggregate_measurements.csv", 75)]) := by
    decide +kernel
  obtain ⟨z, hz, hshape⟩ := Option.map_eq_some_iff.mp hrun
  obtain ⟨hfinalized, hmembers⟩ := Prod.mk.inj hshape
  refine ⟨z, hz, hfinalized, fun hwhole => ?_⟩
  obtain ⟨keys, rows, lines, hkeys, hrows, hlines, hmem⟩ := hwhole.aggregates
  have hlength : (utf8 (AggregatesFile.text oneRow.rfc3339 ⟨keys, lines, true⟩)).length = 75 := by
    have := List.mem_map_of_mem (f := fun e : String × List UInt8 => (e.1, e.2.length)) hmem
    rw [hmembers] at this
    simpa using this
  obtain ⟨m, hm⟩ : ∃ m, archived oneRow.kit.id oneRow.filter oneRow.atRows = [m] := by
    refine List.length_eq_one_iff.mp ?_
    decide +kernel
  have hheader : oneRow.keys.map (fun keys => (utf8 (aggregatesHeader keys)).length) = some 75 := by
    decide +kernel
  rw [hkeys] at hheader
  rw [hm] at hrows
  obtain rfl := List.perm_singleton.mp hrows
  obtain ⟨l, rfl⟩ : ∃ l, lines = [l] := by
    rw [List.mapM_cons, List.mapM_nil] at hlines
    cases hl : m.toLine? keys with
    | none =>
        rw [hl] at hlines
        cases hlines
    | some l =>
        rw [hl] at hlines
        exact ⟨l, (Option.some.inj hlines).symm⟩
  -- the text of a line has at least its line break
  have hline : 1 ≤ (utf8 (l.text oneRow.rfc3339)).length := by
    rw [AggregateLine.text, utf8_append, List.length_append]
    exact Nat.le_add_left _ _
  have htext : AggregatesFile.text oneRow.rfc3339 ⟨keys, [l], true⟩
      = aggregatesHeader keys ++ l.text oneRow.rfc3339 := by
    simp [AggregatesFile.text]
  rw [htext, utf8_append, List.length_append] at hlength
  have hseventyFive : (utf8 (aggregatesHeader keys)).length = 75 := Option.some.inj hheader
  omega

end Archive

end AstroPlant
