import AstroPlant.SplitOn

/-!
# Paths

Paths of a Unix file system as text, and the locations that they lead to. A
location is the list of the names of directories from the root of the file
system. Two levels of a path are special, the current and the parent directory,
and empty levels count for nothing.

`resolve` is what the operating system does with a path and a current directory,
where no directory on the way is a symbolic link; `join` and `parent` are those
of the standard library, which work on the text. Between the two stand the lemmas
on joining (`resolve_join`) and on the parent (`resolve_parent`): a text that is
joined to a base is walked from the base, if it is not absolute.
-/

namespace AstroPlant

namespace Path

/-- The levels of a path. -/
def split (path : String) : List String := (path.toList.splitOn '/').map String.ofList

def isAbsolute (path : String) : Bool := path.toList.head? = some '/'

/-- An absolute path replaces the base; else there is one separator between the
two. -/
def join (base path : String) : String :=
  if isAbsolute path then path
  else if base = "" ∨ base.toList.getLast? = some '/' then base ++ path
  else base ++ "/" ++ path

/-- The components of a path: no empty level, and the current directory only
where a path begins with it. -/
def components (path : String) : List String :=
  match split path with
  | [] => []
  | first :: rest => [first].filter (· ≠ "") ++ rest.filter fun c => c ≠ "" ∧ c ≠ "."

/-- The path without its last component, if it has one. -/
def parent (path : String) : Option String :=
  if components path = [] then none
  else
    some ((if isAbsolute path then "/" else "") ++ "/".intercalate (components path).dropLast)

/-! ## Locations -/

/-- One level further from a location. -/
def enter (location : List String) (level : String) : List String :=
  if level = "" ∨ level = "." then location
  else if level = ".." then location.dropLast
  else location ++ [level]

/-- Where a path leads from the working directory. -/
def resolve (cwd : List String) (path : String) : List String :=
  (split path).foldl enter (if isAbsolute path then [] else cwd)

theorem enter_empty (location : List String) : enter location "" = location :=
  if_pos (Or.inl rfl)

theorem enter_name {level : String} (h : level ≠ "" ∧ level ≠ "." ∧ level ≠ "..")
    (location : List String) : enter location level = location ++ [level] := by
  rw [enter, if_neg (not_or.mpr ⟨h.1, h.2.1⟩), if_neg h.2.2]

theorem split_append (base path : String) :
    split (base ++ "/" ++ path) = split base ++ split path := by
  simp [split, List.splitOn_append_cons_self]

theorem isAbsolute_append {base : String} (h : base ≠ "") (path : String) :
    isAbsolute (base ++ path) = isAbsolute base := by
  have hne : base.toList ≠ [] := fun hnil => h (String.toList_eq_nil_iff.mp hnil)
  simp [isAbsolute, List.head?_append_of_ne_nil _ hne]

/-- **A relative path goes on from where its base leads.** -/
theorem resolve_join (cwd : List String) {path : String} (h : isAbsolute path = false)
    (base : String) :
    resolve cwd (join base path) = (split path).foldl enter (resolve cwd base) := by
  rw [join, h, if_neg Bool.false_ne_true]
  by_cases hempty : base = ""
  · subst hempty
    rw [if_pos (Or.inl rfl), String.empty_append, resolve, h]
    rfl
  · split
    · rename_i hlast
      have hlast := hlast.resolve_left hempty
      obtain ⟨cs, hcs⟩ := List.getLast?_eq_some_iff.mp hlast
      obtain rfl : base = String.ofList cs ++ "/" := by
        rw [← String.toList_inj, hcs]
        simp
      have hsplit : split (String.ofList cs ++ "/") = split (String.ofList cs) ++ [""] := by
        have h := split_append (String.ofList cs) ""
        rwa [String.append_empty] at h
      rw [resolve, resolve, isAbsolute_append hempty, split_append, hsplit, List.foldl_append,
        List.foldl_append]
      rfl
    · rw [resolve, resolve, String.append_assoc, isAbsolute_append hempty, ← String.append_assoc,
        split_append, List.foldl_append]

/-! ## Components -/

theorem components_eq {path first : String} {rest : List String}
    (h : split path = first :: rest) :
    components path = [first].filter (· ≠ "") ++ rest.filter fun c => c ≠ "" ∧ c ≠ "." := by
  rw [components, h]

theorem not_mem_split {path level : String} (h : level ∈ split path) : '/' ∉ level.toList := by
  obtain ⟨cs, hcs, rfl⟩ := List.mem_map.mp h
  rw [String.toList_ofList]
  exact not_mem_of_mem_splitOn hcs

theorem exists_split (path : String) : ∃ first rest, split path = first :: rest :=
  List.exists_cons_of_ne_nil (by simp [split])

theorem of_mem_components {path c : String} (h : c ∈ components path) :
    c ≠ "" ∧ '/' ∉ c.toList := by
  obtain ⟨first, rest, hsplit⟩ := exists_split path
  rw [components_eq hsplit] at h
  rcases List.mem_append.mp h with h | h
  · obtain ⟨hmem, hne⟩ := List.mem_filter.mp h
    obtain rfl := List.mem_singleton.mp hmem
    exact ⟨of_decide_eq_true hne, not_mem_split (hsplit ▸ List.mem_cons_self)⟩
  · obtain ⟨hmem, hne⟩ := List.mem_filter.mp h
    exact ⟨(of_decide_eq_true hne).1, not_mem_split (hsplit ▸ List.mem_cons_of_mem _ hmem)⟩

theorem foldl_enter_filter {p : String → Bool} (h : ∀ c, p c = false → c = "" ∨ c = ".")
    (cs : List String) (location : List String) :
    (cs.filter p).foldl enter location = cs.foldl enter location := by
  induction cs generalizing location with
  | nil => rfl
  | cons c cs ih =>
      rw [List.filter_cons]
      split
      · exact ih _
      · rename_i hc
        rw [ih, List.foldl_cons, enter, if_pos (h c (Bool.eq_false_iff.mpr hc))]

theorem resolve_eq (cwd : List String) (path : String) :
    resolve cwd path
      = (components path).foldl enter (if isAbsolute path then [] else cwd) := by
  obtain ⟨first, rest, hsplit⟩ := exists_split path
  rw [resolve, components_eq hsplit, hsplit, List.foldl_append,
    foldl_enter_filter (fun c hc => by simpa [or_iff_not_imp_left] using hc),
    foldl_enter_filter (fun c hc => Or.inl (by simpa using hc))]
  rfl

theorem split_intercalate {cs : List String} (hne : cs ≠ []) (h : ∀ c ∈ cs, '/' ∉ c.toList) :
    split ("/".intercalate cs) = cs :=
  (splitOn_eq_iff hne).mpr ⟨rfl, h⟩

theorem isAbsolute_of_not_mem {c : String} (hc : c ≠ "" ∧ '/' ∉ c.toList) (rest : String) :
    isAbsolute (c ++ rest) = false := by
  rw [isAbsolute_append hc.1]
  refine decide_eq_false fun hhead => hc.2 ?_
  exact List.mem_of_head? hhead

theorem exists_intercalate (c : String) (cs : List String) :
    ∃ rest, "/".intercalate (c :: cs) = c ++ rest := by
  cases cs with
  | nil => exact ⟨"", by simp⟩
  | cons c' cs =>
      refine ⟨"/" ++ "/".intercalate (c' :: cs), ?_⟩
      rw [← String.toList_inj]
      simp

/-- **The parent is one component less.** -/
theorem resolve_parent {cwd : List String} {path dir : String} (h : parent path = some dir) :
    resolve cwd dir
      = (components path).dropLast.foldl enter (if isAbsolute path then [] else cwd) := by
  have hcs : ∀ c ∈ (components path).dropLast, c ≠ "" ∧ '/' ∉ c.toList :=
    fun c hc => of_mem_components (List.dropLast_subset _ hc)
  rw [parent] at h
  split at h
  · cases h
  obtain rfl := Option.some.inj h
  generalize (components path).dropLast = cs at hcs
  cases isAbsolute path with
  | true =>
      cases cs with
      | nil => rfl
      | cons c cs =>
          have hsplit : split ("/" ++ "/".intercalate (c :: cs)) = "" :: c :: cs := by
            have h := split_append "" ("/".intercalate (c :: cs))
            rw [String.empty_append, split_intercalate (List.cons_ne_nil _ _)
              fun c hc => (hcs c hc).2] at h
            exact h
          have habsolute : isAbsolute ("/" ++ "/".intercalate (c :: cs)) = true := by
            rw [isAbsolute_append (by decide)]
            rfl
          rw [if_pos rfl, resolve, hsplit, habsolute]
          rfl
  | false =>
      cases cs with
      | nil => rfl
      | cons c cs =>
          have hsplit := split_intercalate (List.cons_ne_nil c cs) fun c hc => (hcs c hc).2
          have habsolute : isAbsolute ("/".intercalate (c :: cs)) = false := by
            obtain ⟨rest, hrest⟩ := exists_intercalate c cs
            rw [hrest, isAbsolute_of_not_mem (hcs c List.mem_cons_self)]
          rw [if_neg Bool.false_ne_true, String.empty_append, resolve, hsplit, habsolute]

/-- A path that ends in a name leads one level below its parent. -/
theorem exists_parent (cwd : List String) {path name : String} {levels : List String}
    (hname : name ≠ "" ∧ name ≠ "." ∧ name ≠ "..") (hne : levels ≠ [])
    (hsplit : split path = levels ++ [name]) :
    ∃ dir, parent path = some dir ∧ resolve cwd path = resolve cwd dir ++ [name] := by
  obtain ⟨first, rest, rfl⟩ := List.exists_cons_of_ne_nil hne
  obtain ⟨cs, hcs⟩ : ∃ cs, components path = cs ++ [name] := by
    rw [List.cons_append] at hsplit
    have hlast : [name].filter (fun c => decide (c ≠ "" ∧ c ≠ ".")) = [name] := by
      simp [hname.1, hname.2.1]
    rw [components_eq hsplit, List.filter_append, hlast, ← List.append_assoc]
    exact ⟨_, rfl⟩
  have hparent : ∃ dir, parent path = some dir := by
    rw [parent, if_neg (by simp [hcs])]
    exact ⟨_, rfl⟩
  obtain ⟨dir, hdir⟩ := hparent
  refine ⟨dir, hdir, ?_⟩
  rw [resolve_parent hdir, resolve_eq, hcs, List.dropLast_concat, List.foldl_append,
    List.foldl_cons, List.foldl_nil, enter_name hname]

theorem exists_split_join (base path : String) :
    ∃ levels, split (join base path) = levels ++ split path := by
  rw [join]
  split
  · exact ⟨[], rfl⟩
  · split
    · rename_i hbase
      rcases hbase with rfl | hlast
      · exact ⟨[], by rw [String.empty_append, List.nil_append]⟩
      · obtain ⟨cs, hcs⟩ := List.getLast?_eq_some_iff.mp hlast
        obtain rfl : base = String.ofList cs ++ "/" := by
          rw [← String.toList_inj, hcs]
          simp
        exact ⟨_, split_append _ _⟩
    · exact ⟨_, split_append _ _⟩

end Path

end AstroPlant
