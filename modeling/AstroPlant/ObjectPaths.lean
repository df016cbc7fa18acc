import AstroPlant.Hyphenated
import AstroPlant.Path
import AstroPlant.Topic

/-!
# Where the local object store keeps objects

An object of a kit is kept under `root/{serial}/{id}`. The serial is one level of
a topic, which may be any text without a slash: an empty one makes the key an
absolute path, which replaces the root, and the two dots of the parent directory
lead out of it. Every other serial but a single dot names a directory of its own
below the root.

Paths are texts that are resolved from the working directory, level by level
(`Path`), so that "below the root" is said of locations, not of texts. For a
serial that is a name the key is one level below the root and one below that
(`resolve_key`), the directory that `put` creates is the one it writes to
(`put_eq`), and different serials or ids lead to different locations
(`location_injective`). For the other three serials the location is computed, and
it is not below the kit's directory (`not_confined`).
-/

namespace AstroPlant

namespace ObjectStore

open AstroPlant.Path

inductive Error where
  | localOther

/-- What a call asks of the file system, by path. -/
inductive FileAccess where
  | createDirAll (path : String)
  | write (path : String) (data : List UInt8)
  | openFile (path : String)

/-- `put` of a local store: its calls of the file system one after the other. -/
def put (root kitSerial objectName : String) (data : List UInt8) :
    Except Error (List FileAccess) :=
  let key := kitSerial ++ "/" ++ objectName
  let path := join root key
  match parent path with
  | none => .error .localOther
  | some parent => .ok [.createDirAll parent, .write path data]

/-- `get` of a local store. -/
def get (root kitSerial objectName : String) : List FileAccess :=
  let key := kitSerial ++ "/" ++ objectName
  [.openFile (join root key)]

/-! ## Confinement -/

/-- The location of an object. -/
def location (cwd : List String) (root kitSerial : String) (id : Uuid) : List String :=
  resolve cwd (join root (kitSerial ++ "/" ++ hyphenated id))

/-- The path leads into the kit's directory, which is a proper sub-directory of
the root. -/
structure Confined (cwd : List String) (root kitSerial path : String) : Prop where
  below : resolve cwd root <+: resolve cwd (join root kitSerial)
  proper : resolve cwd (join root kitSerial) ≠ resolve cwd root
  inside : resolve cwd (join root kitSerial) <+: resolve cwd path
  within : resolve cwd path ≠ resolve cwd (join root kitSerial)

/-- Both calls stay in the kit's directory, and no other kit or object has the
path of an object of the kit. -/
structure KeepsApart (cwd : List String) (root kitSerial : String) : Prop where
  put : ∀ id data, ∃ dir path,
    put root kitSerial (hyphenated id) data = .ok [.createDirAll dir, .write path data]
      ∧ resolve cwd dir = resolve cwd (join root kitSerial) ∧ Confined cwd root kitSerial path
  get : ∀ id, ∃ path, get root kitSerial (hyphenated id) = [.openFile path]
    ∧ Confined cwd root kitSerial path
  apart : ∀ id kitSerial' id', '/' ∉ kitSerial'.toList → (kitSerial', id') ≠ (kitSerial, id) →
    location cwd root kitSerial' id' ≠ location cwd root kitSerial id

/-- The serial is the name of a directory. -/
def IsName (kitSerial : String) : Prop :=
  kitSerial ≠ "" ∧ kitSerial ≠ "." ∧ kitSerial ≠ ".."

instance (kitSerial : String) : Decidable (IsName kitSerial) :=
  inferInstanceAs (Decidable (_ ∧ _))

variable {cwd : List String} {root kitSerial : String} {id : Uuid}

theorem hyphenated_isName (id : Uuid) : IsName (hyphenated id) := by
  have hlength := length_hyphenated id
  refine ⟨?_, ?_, ?_⟩ <;> intro h <;> rw [h] at hlength <;> cases hlength

theorem not_mem_hyphenated (id : Uuid) : '/' ∉ (hyphenated id).toList := by
  have hdigit : ∀ n < 16, hexDigit n ≠ '/' := by decide
  intro hmem
  have hfiltered : '/' ∈ (hyphenated id).toList.filter (· ≠ '-') :=
    List.mem_filter.mpr ⟨hmem, by decide⟩
  rw [filter_hyphenated] at hfiltered
  obtain ⟨n, hn, hslash⟩ := List.mem_map.mp hfiltered
  obtain ⟨i, -, rfl⟩ := List.mem_map.mp hn
  exact hdigit _ (Nat.mod_lt _ (by omega)) hslash

theorem split_level {level : String} (h : '/' ∉ level.toList) : split level = [level] :=
  (splitOn_eq_iff (List.cons_ne_nil _ _)).mpr ⟨by simp, by simpa using h⟩

theorem split_key {name : String} (hserial : '/' ∉ kitSerial.toList) (hname : '/' ∉ name.toList) :
    split (kitSerial ++ "/" ++ name) = [kitSerial, name] := by
  rw [split_append, split_level hserial, split_level hname]
  rfl

/-- A serial leads one level down from the root; the empty one stays there. -/
theorem resolve_kit (cwd : List String) (root : String) (hserial : '/' ∉ kitSerial.toList) :
    resolve cwd (join root kitSerial) = enter (resolve cwd root) kitSerial := by
  have hrelative : isAbsolute kitSerial = false :=
    decide_eq_false fun hhead => hserial (List.mem_of_head? hhead)
  rw [resolve_join cwd hrelative, split_level hserial]
  rfl

/-- **Where a key leads.** With an empty serial it is absolute. -/
theorem resolve_key (cwd : List String) (root : String) {name : String}
    (hserial : '/' ∉ kitSerial.toList) (hname : IsName name) (hslash : '/' ∉ name.toList) :
    resolve cwd (join root (kitSerial ++ "/" ++ name))
      = (if kitSerial = "" then [] else enter (resolve cwd root) kitSerial) ++ [name] := by
  have hsplit := split_key hserial hslash
  split
  · rename_i hempty
    subst hempty
    have habsolute : isAbsolute ("" ++ "/" ++ name) = true := by
      rw [String.empty_append, isAbsolute_append (by decide)]
      rfl
    rw [join, if_pos habsolute, resolve, hsplit, if_pos habsolute, List.foldl_cons, enter_empty,
      List.foldl_cons, enter_name hname, List.foldl_nil]
  · rename_i hempty
    have hrelative : isAbsolute (kitSerial ++ "/" ++ name) = false := by
      rw [String.append_assoc]
      exact isAbsolute_of_not_mem ⟨hempty, hserial⟩ _
    rw [resolve_join cwd hrelative, hsplit, List.foldl_cons, List.foldl_cons, enter_name hname,
      List.foldl_nil]

theorem location_eq (hserial : '/' ∉ kitSerial.toList) :
    location cwd root kitSerial id
      = (if kitSerial = "" then [] else enter (resolve cwd root) kitSerial) ++ [hyphenated id] :=
  resolve_key cwd root hserial (hyphenated_isName id) (not_mem_hyphenated id)

/-- The directory that `put` creates is the one it writes to. -/
theorem put_eq (hserial : '/' ∉ kitSerial.toList) (hname : IsName kitSerial)
    (data : List UInt8) :
    ∃ dir, put root kitSerial (hyphenated id) data
        = .ok [.createDirAll dir, .write (join root (kitSerial ++ "/" ++ hyphenated id)) data]
      ∧ resolve cwd dir = resolve cwd (join root kitSerial) := by
  obtain ⟨levels, hlevels⟩ := exists_split_join root (kitSerial ++ "/" ++ hyphenated id)
  rw [split_key hserial (not_mem_hyphenated id), ← List.singleton_append,
    ← List.append_assoc] at hlevels
  obtain ⟨dir, hparent, hdir⟩ := exists_parent cwd (hyphenated_isName id)
    (List.append_ne_nil_of_right_ne_nil levels (List.cons_ne_nil kitSerial [])) hlevels
  refine ⟨dir, by rw [put, hparent], ?_⟩
  have hpath := resolve_key cwd root hserial (hyphenated_isName id)
    (not_mem_hyphenated id)
  rw [hdir, if_neg hname.1, ← resolve_kit cwd root hserial] at hpath
  exact List.append_cancel_right hpath

/-- The objects of a kit whose serial is a name have places of their own. -/
theorem location_injective (hname : IsName kitSerial) (hserial : '/' ∉ kitSerial.toList)
    {kitSerial' : String} {id' : Uuid} (hserial' : '/' ∉ kitSerial'.toList)
    (h : location cwd root kitSerial' id' = location cwd root kitSerial id) :
    kitSerial' = kitSerial ∧ id' = id := by
  rw [location_eq hserial, location_eq hserial', if_neg hname.1, enter_name hname] at h
  obtain ⟨hdir, hid⟩ := List.append_inj' h (by rw [List.length_singleton, List.length_singleton])
  refine ⟨?_, hyphenated_injective (List.singleton_inj.mp hid)⟩
  by_cases hname' : IsName kitSerial'
  · rw [if_neg hname'.1, enter_name hname'] at hdir
    exact List.singleton_inj.mp (List.append_cancel_left hdir)
  · -- every other serial leads less far down than a name does
    have hlength := congrArg List.length hdir
    rw [List.length_append, List.length_singleton] at hlength
    split at hlength
    · cases hlength
    · rename_i hempty
      unfold enter at hlength
      split at hlength
      · omega
      · split at hlength
        · rw [List.length_dropLast] at hlength
          omega
        · rename_i hdot hdots
          exact absurd ⟨hempty, fun h => hdot (Or.inr h), hdots⟩ hname'

theorem confined (hname : IsName kitSerial) (hserial : '/' ∉ kitSerial.toList) :
    Confined cwd root kitSerial (join root (kitSerial ++ "/" ++ hyphenated id)) := by
  have hkit := resolve_kit cwd root hserial
  rw [enter_name hname] at hkit
  have hpath := resolve_key cwd root hserial (hyphenated_isName id)
    (not_mem_hyphenated id)
  rw [if_neg hname.1, enter_name hname, ← hkit] at hpath
  constructor
  · rw [hkit]
    exact List.prefix_append _ _
  · rw [hkit]
    simp
  · rw [hpath]
    exact List.prefix_append _ _
  · rw [hpath]
    simp

/-- A serial that is not a name does not lead below the root. -/
theorem not_confined (hname : ¬IsName kitSerial) (hserial : '/' ∉ kitSerial.toList)
    {path : String} : ¬Confined cwd root kitSerial path := by
  rintro ⟨hbelow, hproper, -, -⟩
  rw [resolve_kit cwd root hserial] at hbelow hproper
  unfold enter at hbelow hproper
  split at hbelow
  · rename_i hstays
    exact hproper (if_pos hstays)
  · rename_i hmoves
    have hdots : kitSerial = ".." := by
      by_contra hdots
      exact hname ⟨fun h => hmoves (Or.inl h), fun h => hmoves (Or.inr h), hdots⟩
    rw [if_neg hmoves, if_pos hdots] at hproper
    rw [if_pos hdots] at hbelow
    exact hproper (hbelow.eq_of_length_le (by simp)).symm

end ObjectStore

open ObjectStore in
/-- **Which serials confine a kit.** Of the serials that a topic can have, the
empty one, the single dot and the two dots do not, and all others do. -/
theorem objects_confined_iff {value : String} {t : Topic} (h : Topic.tryFrom value = .ok t)
    (cwd : List String) (root : String) :
    KeepsApart cwd root t.kitSerial
      ↔ t.kitSerial ≠ "" ∧ t.kitSerial ≠ "." ∧ t.kitSerial ≠ ".." := by
  have hserial := (Topic.tryFrom_eq_ok.mp h).2
  constructor
  · intro hkeeps
    by_contra hname
    obtain ⟨path, -, hconfined⟩ := hkeeps.get 0
    exact not_confined hname hserial hconfined
  · intro hname
    refine ⟨fun id data => ?_, fun id => ⟨_, rfl, confined hname hserial⟩, ?_⟩
    · obtain ⟨dir, hput, hdir⟩ := @put_eq cwd root t.kitSerial id hserial hname data
      exact ⟨dir, _, hput, hdir, confined hname hserial⟩
    · intro id kitSerial' id' hserial' hne heq
      obtain ⟨rfl, rfl⟩ := location_injective hname hserial hserial' heq
      exact hne rfl

theorem objects_confined_iff_k1 :
    Topic.tryFrom "kit/k1/media" = .ok ⟨"k1", .media⟩
      ∧ ObjectStore.KeepsApart [] "/srv/media" "k1" := by
  have htopic : Topic.tryFrom "kit/k1/media" = .ok ⟨"k1", .media⟩ := by decide +kernel
  exact ⟨htopic, (objects_confined_iff htopic [] "/srv/media").mpr (by decide)⟩

/-- The topic `kit//media` has the empty serial, whose objects are put into the
root of the file system. -/
theorem emptySerial_not_confined :
    Topic.tryFrom "kit//media" = .ok ⟨"", .media⟩
      ∧ ¬ObjectStore.KeepsApart [] "/srv/media" "" := by
  refine ⟨by decide +kernel, fun hkeeps => ?_⟩
  obtain ⟨path, -, hconfined⟩ := hkeeps.get 0
  exact ObjectStore.not_confined (by decide) (by decide) hconfined

end AstroPlant
