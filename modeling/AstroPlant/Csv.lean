import Mathlib.Algebra.BigOperators.Group.List.Basic
import Mathlib.Algebra.Order.BigOperators.Group.List
import Mathlib.Algebra.Order.Ring.Nat

/-!
# Reading comma-separated values

A reader for the format of RFC 4180, one character at a time. A field is plain
or in quotes; a plain one has no comma, quote or line break in it, and in one in
quotes a quote is doubled. A record ends with its line break, which may be a line
feed alone, and the last one may do without.

Two facts are enough for most purposes. Lines of plain fields are read back as
they are (`read_lines`). And a field that is not plain takes more quotes in the
text than it has (`recordsWeight_le`), so that fields written as they are can only
be read back if they are plain (`plain_of_weight_le`).

The reader never fails. Where the format says nothing (text after a closing
quote, a quote that is never closed) it goes on as common readers do; neither of
the two facts is about such a text alone.
-/

namespace AstroPlant

namespace Csv

/-- What a plain field cannot have in it. -/
def isSpecial (c : Char) : Bool := c = ',' || c = '"' || c = '\n' || c = '\r'

def isPlain (field : List Char) : Bool := field.all fun c => !isSpecial c

theorem isPlain_of_forall {field : List Char} {p : Char → Bool} (hp : ∀ c ∈ field, p c = true)
    (hspecial : p ',' = false ∧ p '"' = false ∧ p '\n' = false ∧ p '\r' = false) :
    isPlain field = true := by
  obtain ⟨hcomma, hquote, hlf, hcr⟩ := hspecial
  refine List.all_eq_true.mpr fun c hc => ?_
  have hpc := hp c hc
  have hne : ∀ d, p d = false → c ≠ d := by
    rintro d hd rfl
    rw [hd] at hpc
    cases hpc
  simp [isSpecial, hne _ hcomma, hne _ hquote, hne _ hlf, hne _ hcr]

/-! ## The reader -/

/-- Where the reader is in a field: at its start, in a plain one, in one in
quotes, after a quote in there, or after a carriage return. -/
inductive Mode where
  | start
  | plain
  | quoted
  | closed
  | cr
deriving DecidableEq

structure State where
  records : List (List (List Char))
  fields : List (List Char)
  field : List Char
  mode : Mode

def State.begin : State := ⟨[], [], [], .start⟩

namespace State

variable (s : State)

def push (c : Char) (mode : Mode) : State := { s with field := s.field ++ [c], mode }

def endField : State := { s with fields := s.fields ++ [s.field], field := [], mode := .start }

def endRecord : State :=
  { records := s.records ++ [s.fields ++ [s.field]], fields := [], field := [], mode := .start }

/-- What may follow a field. -/
def separate (c : Char) : Option State :=
  if c = ',' then some s.endField
  else if c = '\n' then some s.endRecord
  else if c = '\r' then some { s with mode := .cr }
  else none

def step (c : Char) : Option State :=
  match s.mode with
  | .start =>
      if c = '"' then some { s with mode := .quoted }
      else if isSpecial c then s.separate c
      else some (s.push c .plain)
  | .plain => if isSpecial c then s.separate c else some (s.push c .plain)
  | .quoted => if c = '"' then some { s with mode := .closed } else some (s.push c .quoted)
  | .closed => if c = '"' then some (s.push c .quoted) else s.separate c
  | .cr => if c = '\n' then some s.endRecord else none

/-- The records at the end of the text. -/
def finish : Option (List (List (List Char))) :=
  match s.mode with
  | .start => if s.fields = [] then some s.records else some s.endRecord.records
  | .plain | .closed => some s.endRecord.records
  | .quoted | .cr => none

end State

def readChars (text : List Char) : Option (List (List (List Char))) :=
  (text.foldlM State.step .begin).bind State.finish

/-- The records of a text, each a list of fields. -/
def read (text : String) : Option (List (List String)) :=
  (readChars text.toList).map fun records => records.map fun fields => fields.map String.ofList

/-! ## Plain text is read back -/

theorem step_special {s : State} (hmode : s.mode = .start ∨ s.mode = .plain) {c : Char}
    (hc : c = ',' ∨ c = '\n') : s.step c = s.separate c := by
  rcases hmode with hmode | hmode <;> rcases hc with rfl | rfl <;>
    simp [State.step, hmode, isSpecial]

theorem foldlM_plain {s : State} (hmode : s.mode = .start ∨ s.mode = .plain) {field : List Char}
    (hfield : isPlain field = true) :
    ∃ mode, (mode = .start ∨ mode = .plain)
      ∧ field.foldlM State.step s = some { s with field := s.field ++ field, mode } := by
  induction field generalizing s with
  | nil =>
      refine ⟨s.mode, hmode, ?_⟩
      rw [List.append_nil]
      rfl
  | cons c field ih =>
      obtain ⟨hc, hfield⟩ := Bool.and_eq_true_iff.mp hfield
      have hc : isSpecial c = false := by simpa using hc
      have hquote : c ≠ '"' := by
        rintro rfl
        cases hc
      have hstep : s.step c = some (s.push c .plain) := by
        rcases hmode with hmode | hmode <;> simp [State.step, hmode, hc, hquote]
      obtain ⟨mode, hmode, h⟩ := ih (s := s.push c .plain) (Or.inr rfl) hfield
      refine ⟨mode, hmode, ?_⟩
      rw [List.foldlM_cons, hstep]
      show List.foldlM State.step (s.push c .plain) field = _
      rw [h]
      simp [State.push]

/-- The text of a line. -/
def line : List (List Char) → List Char
  | [] => ['\n']
  | [field] => field ++ ['\n']
  | field :: fields => field ++ ',' :: line fields

theorem foldlM_line {s : State} (hmode : s.mode = .start) (hfield : s.field = [])
    {fields : List (List Char)} (hne : fields ≠ [])
    (hfields : ∀ field ∈ fields, isPlain field = true) :
    (line fields).foldlM State.step s
      = some { records := s.records ++ [s.fields ++ fields], fields := [], field := [],
               mode := .start } := by
  induction fields generalizing s with
  | nil => exact absurd rfl hne
  | cons field fields ih =>
      obtain ⟨mode, hmode', hplain⟩ :=
        foldlM_plain (Or.inl hmode) (hfields field List.mem_cons_self)
      rw [hfield, List.nil_append] at hplain
      cases fields with
      | nil =>
          rw [line, List.foldlM_append, hplain]
          show (State.step ⟨s.records, s.fields, field, mode⟩ '\n' >>= pure) = _
          rw [step_special hmode' (Or.inr rfl)]
          rfl
      | cons next fields =>
          rw [line, List.foldlM_append, hplain]
          · show (State.step ⟨s.records, s.fields, field, mode⟩ ',' >>=
              fun s => (line (next :: fields)).foldlM State.step s) = _
            rw [step_special hmode' (Or.inl rfl)]
            show (line (next :: fields)).foldlM State.step
              ⟨s.records, s.fields ++ [field], [], .start⟩ = _
            rw [ih rfl rfl (List.cons_ne_nil _ _)
              fun field hmem => hfields field (List.mem_cons_of_mem _ hmem)]
            simp
          · simp

/-- **Lines of plain fields are read back as they are.** -/
theorem readChars_lines {lines : List (List (List Char))}
    (hlines : ∀ fields ∈ lines, fields ≠ [] ∧ ∀ field ∈ fields, isPlain field = true) :
    readChars (lines.flatMap line) = some lines := by
  suffices h : ∀ records, (lines.flatMap line).foldlM State.step ⟨records, [], [], .start⟩
      = some ⟨records ++ lines, [], [], .start⟩ by
    rw [readChars, State.begin, h []]
    rfl
  induction lines with
  | nil =>
      intro records
      rw [List.append_nil]
      rfl
  | cons fields lines ih =>
      intro records
      obtain ⟨hne, hplain⟩ := hlines fields List.mem_cons_self
      rw [List.flatMap_cons, List.foldlM_append, foldlM_line rfl rfl hne hplain]
      show (lines.flatMap line).foldlM State.step ⟨records ++ [fields], [], [], .start⟩ = _
      rw [ih fun fields hmem => hlines fields (List.mem_cons_of_mem _ hmem)]
      simp

theorem read_lines {text : String} {records : List (List String)}
    (htext : text.toList = (records.map (·.map String.toList)).flatMap line)
    (hrecords : ∀ fields ∈ records, fields ≠ [] ∧ ∀ field ∈ fields, isPlain field.toList = true) :
    read text = some records := by
  have hlines : ∀ fields ∈ records.map (·.map String.toList),
      fields ≠ [] ∧ ∀ field ∈ fields, isPlain field = true := by
    intro fields hfields
    obtain ⟨fields', hmem, rfl⟩ := List.mem_map.mp hfields
    obtain ⟨hne, hplain⟩ := hrecords fields' hmem
    refine ⟨fun h => hne (List.map_eq_nil_iff.mp h), fun field hfield => ?_⟩
    obtain ⟨field', hmem', rfl⟩ := List.mem_map.mp hfield
    exact hplain field' hmem'
  rw [read, htext, readChars_lines hlines]
  simp [Function.comp_def]

theorem line_cons (field : List Char) (fields : List (List Char)) :
    line (field :: fields) = field ++ fields.flatMap (',' :: ·) ++ ['\n'] := by
  induction fields generalizing field with
  | nil => simp [line]
  | cons next fields ih =>
      rw [line, ih next]
      · simp
      · simp

/-! ## Quotes -/

/-- How many quotes a text with the field must have for it. -/
def weight (field : List Char) : Nat := if isPlain field then 0 else 2 + 2 * field.count '"'

def fieldsWeight (fields : List (List Char)) : Nat := (fields.map weight).sum

def recordsWeight (records : List (List (List Char))) : Nat := (records.map fieldsWeight).sum

theorem weight_of_plain {field : List Char} (h : isPlain field = true) : weight field = 0 :=
  if_pos h

theorem count_of_plain {field : List Char} (h : isPlain field = true) : field.count '"' = 0 :=
  List.count_eq_zero.mpr fun hmem => by cases List.all_eq_true.mp h _ hmem

theorem weight_le (field : List Char) : weight field ≤ 2 + 2 * field.count '"' := by
  unfold weight
  split <;> omega

namespace State

/-- How many quotes the field has taken. -/
def cost (s : State) : Nat :=
  match s.mode with
  | .start | .plain | .cr => weight s.field
  | .quoted => 1 + 2 * s.field.count '"'
  | .closed => 2 + 2 * s.field.count '"'

def total (s : State) : Nat := recordsWeight s.records + fieldsWeight s.fields + s.cost

def Sound (s : State) : Prop := s.mode = .start ∨ s.mode = .plain → isPlain s.field = true

variable {s s' : State} {c : Char}

theorem total_endField (s : State) :
    s.endField.Sound ∧ s.endField.total
      = recordsWeight s.records + fieldsWeight s.fields + weight s.field := by
  refine ⟨fun _ => rfl, ?_⟩
  simp [total, endField, cost, fieldsWeight, @weight_of_plain [] rfl]
  omega

theorem total_endRecord (s : State) :
    s.endRecord.Sound ∧ s.endRecord.total
      = recordsWeight s.records + fieldsWeight s.fields + weight s.field := by
  refine ⟨fun _ => rfl, ?_⟩
  simp [total, endRecord, cost, recordsWeight, fieldsWeight, @weight_of_plain [] rfl]
  omega

theorem Sound.of_mode (h : s.mode = .quoted ∨ s.mode = .closed ∨ s.mode = .cr) : s.Sound := by
  intro hmode
  rcases h with h | h | h <;> rw [h] at hmode <;> rcases hmode with hmode | hmode <;> cases hmode

theorem total_separate (h : s.separate c = some s') (hcost : weight s.field ≤ s.cost) :
    s'.Sound ∧ s'.total ≤ s.total + [c].count '"' := by
  have hle : recordsWeight s.records + fieldsWeight s.fields + weight s.field
      ≤ s.total + [c].count '"' := by
    unfold total
    omega
  unfold separate at h
  split at h
  · obtain rfl := Option.some.inj h
    exact ⟨s.total_endField.1, s.total_endField.2 ▸ hle⟩
  · split at h
    · obtain rfl := Option.some.inj h
      exact ⟨s.total_endRecord.1, s.total_endRecord.2 ▸ hle⟩
    · split at h
      · obtain rfl := Option.some.inj h
        exact ⟨.of_mode (Or.inr (Or.inr rfl)), hle⟩
      · cases h

/-- A character that ends no field only counts for what it adds to the cost. -/
theorem total_of_cost (hrecords : s'.records = s.records) (hfields : s'.fields = s.fields)
    (hsound : s'.Sound) (hcost : s'.cost ≤ s.cost + [c].count '"') :
    s'.Sound ∧ s'.total ≤ s.total + [c].count '"' := by
  refine ⟨hsound, ?_⟩
  rw [total, hrecords, hfields, total]
  omega

theorem total_push_plain (hfield : isPlain s.field = true) (hc : isSpecial c = false) :
    (s.push c .plain).Sound ∧ (s.push c .plain).total ≤ s.total + [c].count '"' := by
  have hpush : isPlain (s.field ++ [c]) = true := by
    simp only [isPlain, List.all_append, List.all_cons, List.all_nil] at hfield ⊢
    simp [hfield, hc]
  refine total_of_cost rfl rfl (fun _ => hpush) ?_
  show weight (s.field ++ [c]) ≤ _
  rw [weight_of_plain hpush]
  exact Nat.zero_le _

/-- **One character** takes a quote for each that it adds to the account. -/
theorem total_step (hs : s.Sound) (h : s.step c = some s') :
    s'.Sound ∧ s'.total ≤ s.total + [c].count '"' := by
  unfold step at h
  cases hmode : s.mode with
  | start =>
      have hfield : isPlain s.field = true := hs (Or.inl hmode)
      have hcost : s.cost = weight s.field := by simp only [cost, hmode]
      simp only [hmode] at h
      split at h
      · rename_i hquote
        obtain rfl := Option.some.inj h
        subst hquote
        refine total_of_cost rfl rfl (.of_mode (Or.inl rfl)) ?_
        show 1 + 2 * s.field.count '"' ≤ s.cost + 1
        rw [count_of_plain hfield]
        omega
      · split at h
        · exact total_separate h hcost.ge
        · rename_i hc
          obtain rfl := Option.some.inj h
          exact total_push_plain hfield (by simpa using hc)
  | plain =>
      have hcost : s.cost = weight s.field := by simp only [cost, hmode]
      simp only [hmode] at h
      split at h
      · exact total_separate h hcost.ge
      · rename_i hc
        obtain rfl := Option.some.inj h
        exact total_push_plain (hs (Or.inr hmode)) (by simpa using hc)
  | quoted =>
      have hcost : s.cost = 1 + 2 * s.field.count '"' := by simp only [cost, hmode]
      simp only [hmode] at h
      split at h
      · rename_i hquote
        obtain rfl := Option.some.inj h
        subst hquote
        refine total_of_cost rfl rfl (.of_mode (Or.inr (Or.inl rfl))) ?_
        show 2 + 2 * s.field.count '"' ≤ s.cost + 1
        omega
      · rename_i hquote
        obtain rfl := Option.some.inj h
        refine total_of_cost rfl rfl (.of_mode (Or.inl rfl)) ?_
        show 1 + 2 * (s.field ++ [c]).count '"' ≤ _
        rw [List.count_append, List.count_singleton, hcost]
        simp [hquote]
  | closed =>
      have hcost : s.cost = 2 + 2 * s.field.count '"' := by simp only [cost, hmode]
      simp only [hmode] at h
      split at h
      · rename_i hquote
        obtain rfl := Option.some.inj h
        subst hquote
        refine total_of_cost rfl rfl (.of_mode (Or.inl rfl)) ?_
        show 1 + 2 * (s.field ++ ['"']).count '"' ≤ s.cost + 1
        rw [List.count_append, List.count_singleton_self]
        omega
      · exact total_separate h (hcost.symm ▸ weight_le s.field)
  | cr =>
      have hcost : s.cost = weight s.field := by simp only [cost, hmode]
      simp only [hmode] at h
      split at h
      · obtain rfl := Option.some.inj h
        obtain ⟨hsound, htotal⟩ := s.total_endRecord
        refine ⟨hsound, ?_⟩
        rw [htotal, total]
        omega
      · cases h

theorem total_foldlM {text : List Char} (hs : s.Sound) (h : text.foldlM step s = some s') :
    s'.Sound ∧ s'.total ≤ s.total + text.count '"' := by
  induction text generalizing s with
  | nil =>
      obtain rfl := Option.some.inj h
      exact ⟨hs, le_rfl⟩
  | cons c text ih =>
      rw [List.foldlM_cons] at h
      obtain ⟨s₁, hstep, h⟩ := Option.bind_eq_some_iff.mp h
      obtain ⟨hs₁, hle₁⟩ := total_step hs hstep
      obtain ⟨hs', hle⟩ := ih hs₁ h
      refine ⟨hs', ?_⟩
      have hcount : (c :: text).count '"' = [c].count '"' + text.count '"' := by
        rw [← List.count_append, List.singleton_append]
      omega

end State

/-- **Fields that are not plain are seen in the text**: they take more quotes than
they have. -/
theorem recordsWeight_le {text : List Char} {records : List (List (List Char))}
    (h : readChars text = some records) : recordsWeight records ≤ text.count '"' := by
  obtain ⟨s, hs, hfinish⟩ := Option.bind_eq_some_iff.mp h
  obtain ⟨-, hle⟩ := State.total_foldlM (s := .begin) (fun _ => rfl) hs
  have hbegin : State.begin.total = 0 := rfl
  rw [hbegin] at hle
  have hend : recordsWeight s.endRecord.records
      = recordsWeight s.records + fieldsWeight s.fields + weight s.field := by
    simp [State.endRecord, recordsWeight, fieldsWeight]
    omega
  unfold State.total State.cost at hle
  unfold State.finish at hfinish
  cases hmode : s.mode with
  | start =>
      rw [hmode] at hfinish hle
      dsimp only at hfinish hle
      split at hfinish
      · obtain rfl := Option.some.inj hfinish
        omega
      · obtain rfl := Option.some.inj hfinish
        omega
  | plain =>
      rw [hmode] at hfinish hle
      obtain rfl := Option.some.inj hfinish
      dsimp only at hle
      omega
  | closed =>
      rw [hmode] at hfinish hle
      obtain rfl := Option.some.inj hfinish
      have := weight_le s.field
      dsimp only at hle
      omega
  | quoted | cr =>
      rw [hmode] at hfinish
      cases hfinish

theorem fieldsWeight_le {text : String} {fields : List String} {records : List (List String)}
    (h : read text = some records) (hmem : fields ∈ records) :
    fieldsWeight (fields.map String.toList) ≤ text.toList.count '"' := by
  obtain ⟨chars, hchars, rfl⟩ := Option.map_eq_some_iff.mp h
  obtain ⟨fields, hfields, rfl⟩ := List.mem_map.mp hmem
  have hlist : (fields.map String.ofList).map String.toList = fields := by
    simp [Function.comp_def]
  rw [hlist]
  refine le_trans ?_ (recordsWeight_le hchars)
  exact List.single_le_sum (fun _ _ => Nat.zero_le _) _ (List.mem_map_of_mem hfields)

theorem count_line (fields : List (List Char)) :
    (line fields).count '"' = (fields.map (·.count '"')).sum := by
  cases fields with
  | nil => rfl
  | cons field fields =>
      rw [line_cons, List.count_append, List.count_append, List.count_flatMap]
      simp [Function.comp_def]

/-- **Fields are plain** if the text has no more quotes for them than they have. -/
theorem plain_of_weight_le {fields : List (List Char)}
    (h : fieldsWeight fields ≤ (fields.map (·.count '"')).sum) :
    ∀ field ∈ fields, isPlain field = true := by
  have hone : ∀ field, field.count '"' ≤ weight field
      ∧ (weight field ≤ field.count '"' → isPlain field = true) := by
    intro field
    by_cases hplain : isPlain field = true
    · refine ⟨?_, fun _ => hplain⟩
      rw [count_of_plain hplain]
      exact Nat.zero_le _
    · rw [weight, if_neg hplain]
      exact ⟨by omega, fun h => by omega⟩
  have hall : ∀ fields : List (List Char), (fields.map (·.count '"')).sum ≤ fieldsWeight fields :=
    fun fields => List.sum_le_sum fun field _ => (hone field).1
  induction fields with
  | nil => exact fun _ hmem => by cases hmem
  | cons field fields ih =>
      have hsum : fieldsWeight (field :: fields) = weight field + fieldsWeight fields :=
        List.sum_cons
      rw [hsum, List.map_cons, List.sum_cons] at h
      have hrest := hall fields
      have hfirst := (hone field).1
      intro field' hmem
      rcases List.mem_cons.mp hmem with rfl | hmem
      · exact (hone field').2 (by omega)
      · exact ih (by omega) field' hmem

end Csv

end AstroPlant
