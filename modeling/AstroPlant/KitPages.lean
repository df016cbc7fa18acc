import AstroPlant.Confidentiality
import AstroPlant.ExactPages
import AstroPlant.Reads

/-!
# Paging through the kits

A page of kits links to the kits after its last one. The link has no other
parameter, so who follows it gets all public kits from there on, those that were
seen since the time of the first query and those that were not. The pages are
what was asked for exactly if no such kit comes after the first page
(`kit_pages_iff`).

A client follows the links over a table of kits that does not change. What the
links lead to after the first page is computed without walking
(`KitsQuery.reached`): all public kits above the last one of that page. So the
pages list what was asked for exactly if no public kit that the filter leaves out
comes after this one (`KitsQuery.Covers`), a condition on the query and the kits.
-/

namespace AstroPlant

/-! ## Links -/

namespace KitsQuery

/-- The pairs of a query that needs no decoding. -/
def pairs (query : List Char) : List (String × String) :=
  (query.splitOn '&').map fun pair =>
    (String.ofList (pair.takeWhile (· ≠ '=')), String.ofList (pair.dropWhile (· ≠ '=')).tail)

def ofPairs (x : Codecs) (pairs : List (String × String)) : Option KitsQuery := do
  let lastSeenSince ← match ← queryField "lastSeenSince" pairs with
    | none => pure none
    | some datetime => (x.datetimeFromStr datetime).map some
  let after ← queryInt "after" pairs
  return { lastSeenSince, after }

/-- The query of a request for a link. -/
def ofUri (x : Codecs) (uri : String) : Option KitsQuery :=
  match uri.toList.splitOn '?' with
  | [path, query] => if path = "/kits".toList then ofPairs x (pairs query) else none
  | _ => none

end KitsQuery

/-- A link leads to the kits after the one it names, and to nothing else. -/
theorem KitsQuery.ofUri_next (x : Codecs) (id : Int) :
    ofUri x ("/kits?after=" ++ i32ToString id) = some ⟨none, some id⟩ := by
  have hfree : ∀ c : Char, c ≠ '-' → c.isDigit = false → c ∉ (i32ToString id).toList := by
    intro c hdash hdigit hmem
    rcases mem_i32ToString hmem with rfl | h
    · exact hdash rfl
    · rw [hdigit] at h
      cases h
  have hsplit : ("/kits?after=" ++ i32ToString id).toList.splitOn '?'
      = ["/kits".toList, "after=".toList ++ (i32ToString id).toList] := by
    have htext : ("/kits?after=" ++ i32ToString id).toList
        = "/kits".toList ++ '?' :: ("after=".toList ++ (i32ToString id).toList) := by
      rw [String.toList_append]
      rfl
    rw [htext, List.splitOn_append_cons_self_of_not_mem (by decide), List.splitOn_eq_singleton]
    rw [List.mem_append]
    exact not_or.mpr ⟨by decide, hfree '?' (by decide) (by decide)⟩
  have hpairs : pairs ("after=".toList ++ (i32ToString id).toList)
      = [("after", i32ToString id)] := by
    have hamp : '&' ∉ "after=".toList ++ (i32ToString id).toList := by
      rw [List.mem_append]
      exact not_or.mpr ⟨by decide, hfree '&' (by decide) (by decide)⟩
    rw [pairs, List.splitOn_eq_singleton hamp]
    simp [List.takeWhile, List.dropWhile]
  rw [ofUri, hsplit]
  dsimp only
  rw [if_pos rfl, hpairs]
  simp [ofPairs, queryInt, queryField, i32FromStr_i32ToString]

/-! ## Pages -/

/-- What a query selects, in the order of the pages. -/
def KitsQuery.selected (query : KitsQuery) (s : Store) : List Kit :=
  (s.kits.select (query.selects s)).insertionSort (·.id ≤ ·.id)

def KitsQuery.page (query : KitsQuery) (s : Store) : List Kit :=
  (query.selected s).take LIMIT

/-- All kits that the links lead to: after the first page the filter is gone. -/
def KitsQuery.reached (query : KitsQuery) (s : Store) : List Kit :=
  query.page s ++
    match (query.page s).getLast? with
    | none => []
    | some last => KitsQuery.selected ⟨none, some last.id⟩ s

section Selected

variable {query : KitsQuery} {s : Store}

theorem mem_selected {kit : Kit} :
    kit ∈ query.selected s ↔ kit ∈ s.kits ∧ query.selects s kit = true :=
  (List.mem_insertionSort _).trans Table.mem_select

theorem pairwise_selected (query : KitsQuery) (s : Store) :
    (query.selected s).Pairwise (·.id < ·.id) := by
  have htotal : Std.Total fun a b : Kit => a.id ≤ b.id := ⟨fun a b => Int.le_total a.id b.id⟩
  have htrans : IsTrans Kit fun a b => a.id ≤ b.id := ⟨fun _ _ _ h h' => Int.le_trans h h'⟩
  have hsorted := List.pairwise_insertionSort (fun a b : Kit => a.id ≤ b.id)
    (s.kits.select (query.selects s))
  have hnodup : ((query.selected s).map (·.id)).Nodup :=
    ((List.perm_insertionSort _ _).map _).nodup_iff.mpr
      ((List.filter_sublist.map _).nodup s.kits.nodup)
  exact hsorted.imp₂ (fun a b hle hne => by omega) (List.pairwise_map.mp hnodup)

theorem eq_of_mem_iff {l l' : List Kit} (hl : l.Pairwise (·.id < ·.id))
    (hl' : l'.Pairwise (·.id < ·.id)) (h : ∀ kit, kit ∈ l ↔ kit ∈ l') : l = l' := by
  have hantisymm : Std.Antisymm fun a b : Kit => a.id < b.id :=
    ⟨fun _ _ h h' => absurd h (Int.lt_asymm h')⟩
  have hirrefl : Std.Irrefl fun a b : Kit => a.id < b.id := ⟨fun a => Int.lt_irrefl a.id⟩
  exact hl.eq_of_mem_iff hl' h

theorem le_last {first : List Kit} {last kit : Kit} (h : first.Pairwise (·.id < ·.id))
    (hlast : first.getLast? = some last) (hkit : kit ∈ first) : kit.id ≤ last.id := by
  obtain ⟨before, rfl⟩ := List.getLast?_eq_some_iff.mp hlast
  rcases List.mem_append.mp hkit with hkit | hkit
  · have := (List.pairwise_append.mp h).2.2 kit hkit last (List.mem_singleton.mpr rfl)
    omega
  · rw [List.mem_singleton.mp hkit]

/-- The last of some first kits tells them from the others. -/
theorem mem_iff_last {first others : List Kit} {last kit : Kit}
    (h : (first ++ others).Pairwise (·.id < ·.id)) (hlast : first.getLast? = some last) :
    (kit ∈ first ↔ kit ∈ first ++ others ∧ kit.id ≤ last.id)
      ∧ (kit ∈ others ↔ kit ∈ first ++ others ∧ last.id < kit.id) := by
  obtain ⟨hfirst, -, hcross⟩ := List.pairwise_append.mp h
  have hle : kit ∈ first → kit.id ≤ last.id := le_last hfirst hlast
  have hlt : kit ∈ others → last.id < kit.id :=
    hcross last (List.mem_of_getLast? hlast) kit
  rw [List.mem_append]
  constructor
  · refine ⟨fun hkit => ⟨Or.inl hkit, hle hkit⟩, fun ⟨hkit, hid⟩ => hkit.resolve_right fun ho => ?_⟩
    have := hlt ho
    omega
  · refine ⟨fun hkit => ⟨Or.inr hkit, hlt hkit⟩, fun ⟨hkit, hid⟩ => hkit.resolve_left fun hf => ?_⟩
    have := hle hf
    omega

theorem reached_none (after : Option Int) (s : Store) :
    KitsQuery.reached ⟨none, after⟩ s = KitsQuery.selected ⟨none, after⟩ s := by
  have hsorted := pairwise_selected ⟨none, after⟩ s
  have hsplit := List.take_append_drop KitsQuery.LIMIT (KitsQuery.selected ⟨none, after⟩ s)
  unfold KitsQuery.reached KitsQuery.page
  cases hlast : ((KitsQuery.selected ⟨none, after⟩ s).take KitsQuery.LIMIT).getLast? with
  | none =>
      have hnil : (KitsQuery.selected ⟨none, after⟩ s).take KitsQuery.LIMIT = [] :=
        List.getLast?_eq_none_iff.mp hlast
      rcases List.take_eq_nil_iff.mp hnil with h | h
      · cases h
      · simp [h]
  | some last =>
      refine Eq.trans (congrArg _ ?_) hsplit
      rw [← hsplit] at hsorted
      refine eq_of_mem_iff (pairwise_selected _ s) (List.pairwise_append.mp hsorted).2.1
        fun kit => ?_
      have hlastMem : last ∈ KitsQuery.selected ⟨none, after⟩ s :=
        List.mem_of_mem_take (List.mem_of_getLast? hlast)
      rw [(mem_iff_last hsorted hlast).2, hsplit, mem_selected, mem_selected, and_assoc]
      have hafter := (mem_selected.mp hlastMem).2
      simp only [KitsQuery.selects, Option.all_none, Option.all_some, Bool.and_true,
        Bool.and_eq_true, decide_eq_true_eq] at hafter ⊢
      refine and_congr_right fun _ => ?_
      constructor
      · rintro ⟨hpublic, hlt⟩
        refine ⟨⟨hpublic, ?_⟩, hlt⟩
        cases after with
        | none => rfl
        | some after =>
            simp only [Option.all_some, decide_eq_true_eq] at hafter ⊢
            omega
      · rintro ⟨⟨hpublic, -⟩, hlt⟩
        exact ⟨hpublic, hlt⟩

end Selected

/-! ## Following the links -/

def kitsRequest (x : Reading) (query : KitsQuery) (s : Store) :
    Except Problem (Keyset.Answer KitView String) :=
  .ok ⟨(kits x query s).body, (kits x query s).next⟩

/-- The answers to a client who follows at most `n` links. -/
def kitPages (x : Reading) (query : KitsQuery) (s : Store) (n : Nat) :
    List (Except Problem (Keyset.Answer KitView String)) :=
  Keyset.follow (kitsRequest x) (KitsQuery.ofUri x.codecs) query (List.replicate n s)

section Follow

variable {x : Reading} {query : KitsQuery} {s : Store}

theorem kits_next (x : Reading) (query : KitsQuery) (s : Store) :
    (kits x query s).next
      = (query.page s).getLast?.map fun last => "/kits?after=" ++ i32ToString last.id := by
  show ((query.page s).map (Kit.view x s)).getLast?.map _ = _
  rw [List.getLast?_map, Option.map_map]
  rfl

theorem kitPages_none (hlast : (query.page s).getLast? = none) (n : Nat) :
    kitPages x query s (n + 1) = [.ok ⟨(query.page s).map (Kit.view x s), none⟩] := by
  have hnext := kits_next x query s
  rw [hlast] at hnext
  rw [kitPages, List.replicate_succ, Keyset.follow, kitsRequest, hnext]
  rfl

theorem kitPages_some {last : Kit} (hlast : (query.page s).getLast? = some last) (n : Nat) :
    ∃ link, kitPages x query s (n + 1)
      = .ok ⟨(query.page s).map (Kit.view x s), some link⟩
        :: kitPages x ⟨none, some last.id⟩ s n := by
  have hnext := kits_next x query s
  rw [hlast] at hnext
  refine ⟨"/kits?after=" ++ i32ToString last.id, ?_⟩
  rw [kitPages, List.replicate_succ, Keyset.follow, kitsRequest, hnext]
  dsimp only [Option.map_some]
  rw [KitsQuery.ofUri_next]
  rfl

theorem reached_of_none (hlast : (query.page s).getLast? = none) : query.reached s = [] := by
  rw [KitsQuery.reached, hlast, List.append_nil]
  exact List.getLast?_eq_none_iff.mp hlast

theorem reached_of_some {last : Kit} (hlast : (query.page s).getLast? = some last) :
    query.reached s = query.page s ++ KitsQuery.reached ⟨none, some last.id⟩ s := by
  rw [reached_none, KitsQuery.reached, hlast]

/-- Once the links have ended, all that they lead to was returned. -/
theorem returned_eq (x : Reading) (query : KitsQuery) (s : Store) (n : Nat)
    (h : Keyset.Finished (kitPages x query s n)) :
    Keyset.returned (kitPages x query s n) = (query.reached s).map (Kit.view x s) := by
  induction n generalizing query with
  | zero =>
      obtain ⟨body, hbody⟩ := h
      cases hbody
  | succ n ih =>
      cases hlast : (query.page s).getLast? with
      | none =>
          rw [kitPages_none hlast, reached_of_none hlast, List.getLast?_eq_none_iff.mp hlast]
          rfl
      | some last =>
          obtain ⟨link, hpages⟩ := kitPages_some (x := x) hlast n
          rw [hpages] at h ⊢
          have hrest : Keyset.Finished (kitPages x ⟨none, some last.id⟩ s n) := by
            obtain ⟨body, hbody⟩ := h
            rw [List.getLast?_cons] at hbody
            cases hrest : (kitPages x ⟨none, some last.id⟩ s n).getLast? with
            | none =>
                rw [hrest] at hbody
                cases hbody
            | some answer =>
                rw [hrest] at hbody
                exact ⟨body, hrest.trans hbody⟩
          rw [Keyset.returned_cons_ok, ih _ hrest, reached_of_some hlast, List.map_append]

/-- **The links end**: each page takes some of the kits that are left. -/
theorem exists_finished (x : Reading) (query : KitsQuery) (s : Store) :
    ∃ n, ∀ m ≥ n, Keyset.Finished (kitPages x query s m) := by
  suffices h : ∀ size, ∀ query : KitsQuery, (query.reached s).length ≤ size →
      ∀ m > size, Keyset.Finished (kitPages x query s m) from
    ⟨(query.reached s).length + 1, h _ query le_rfl⟩
  intro size
  induction size with
  | zero =>
      intro query hsize m hm
      have hlast : (query.page s).getLast? = none := by
        have hnil : query.reached s = [] := List.eq_nil_of_length_eq_zero (by omega)
        rw [List.getLast?_eq_none_iff]
        exact (List.append_eq_nil_iff.mp hnil).1
      obtain ⟨m, rfl⟩ : ∃ m', m = m' + 1 := ⟨m - 1, by omega⟩
      rw [kitPages_none hlast]
      exact ⟨_, rfl⟩
  | succ size ih =>
      intro query hsize m hm
      obtain ⟨m, rfl⟩ : ∃ m', m = m' + 1 := ⟨m - 1, by omega⟩
      cases hlast : (query.page s).getLast? with
      | none =>
          rw [kitPages_none hlast]
          exact ⟨_, rfl⟩
      | some last =>
          have hpos : 0 < (query.page s).length :=
            List.length_pos_of_mem (List.mem_of_getLast? hlast)
          rw [reached_of_some hlast, List.length_append] at hsize
          obtain ⟨body, hbody⟩ := ih ⟨none, some last.id⟩ (by omega) m (by omega)
          obtain ⟨link, hpages⟩ := kitPages_some (x := x) hlast m
          refine ⟨body, ?_⟩
          rw [hpages, List.getLast?_cons, hbody]
          rfl

end Follow

/-! ## What should be listed -/

/-- On the map and with a public dashboard. -/
def Kit.public (kit : Kit) : Prop :=
  kit.privacyShowOnMap = true ∧ kit.privacyPublicDashboard = true

def Kit.SeenSince (since : Timestamp) (kit : Kit) (s : Store) : Prop :=
  ∃ seen, KitLastSeen.ofKit kit.id s = some seen ∧ since ≤ seen

/-- What a query asks for. -/
def KitsQuery.Wants (query : KitsQuery) (s : Store) (kit : Kit) : Prop :=
  kit.public ∧ (∀ after, query.after = some after → after < kit.id)
    ∧ ∀ since, query.lastSeenSince = some since → kit.SeenSince since s

/-- In increasing order, each kit that the query asks for, and nothing else. -/
structure KitsQuery.Lists (x : Reading) (query : KitsQuery) (s : Store)
    (body : List KitView) : Prop where
  increasing : (body.map (·.id)).Pairwise (· < ·)
  exact : ∃ listed : List Kit, body = listed.map (Kit.view x s)
    ∧ ∀ kit, kit ∈ listed ↔ kit ∈ s.kits ∧ query.Wants s kit

/-- No kit is selected, or each public kit that was not seen since comes before
the last kit of the first page: fewer selected ones come before it. -/
def KitsQuery.Covers (query : KitsQuery) (s : Store) : Prop :=
  ∀ since, query.lastSeenSince = some since → query.selected s = [] ∨
    ∀ kit ∈ s.kits, kit.public → ¬ kit.SeenSince since s →
      ((query.selected s).filter (·.id < kit.id)).length < min LIMIT (query.selected s).length

section Wants

variable {query : KitsQuery} {s : Store} {kit : Kit}

theorem seenSince_iff {since : Timestamp} :
    (KitLastSeen.ofKit kit.id s).any (since ≤ ·) = true ↔ kit.SeenSince since s := by
  simp [Option.any_eq_true, Kit.SeenSince]

theorem selects_iff : query.selects s kit = true ↔ query.Wants s kit := by
  obtain ⟨lastSeenSince, after⟩ := query
  rw [KitsQuery.selects, Bool.and_eq_true, Bool.and_eq_true, Bool.and_eq_true]
  cases lastSeenSince <;> cases after <;>
    simp only [KitsQuery.Wants, Kit.public, Option.all_none, Option.all_some, seenSince_iff,
      decide_eq_true_eq, Option.some.injEq, forall_eq', reduceCtorEq, false_implies,
      implies_true] <;>
    tauto

theorem pairwise_reached (query : KitsQuery) (s : Store) :
    (query.reached s).Pairwise (·.id < ·.id) := by
  have hpage : (query.page s).Pairwise (·.id < ·.id) :=
    (pairwise_selected query s).sublist (List.take_sublist _ _)
  cases hlast : (query.page s).getLast? with
  | none => rw [reached_of_none hlast]; exact .nil
  | some last =>
      rw [reached_of_some hlast, reached_none]
      refine List.pairwise_append.mpr ⟨hpage, pairwise_selected _ s, fun kit hkit kit' hkit' => ?_⟩
      have hle := le_last hpage hlast hkit
      have hlt := (selects_iff.mp (mem_selected.mp hkit').2).2.1 last.id rfl
      omega

/-- How many selected kits come before one that is not among them. -/
theorem lt_last_iff {last : Kit} (hlast : (query.page s).getLast? = some last) :
    ((query.selected s).filter (·.id < kit.id)).length
        < min KitsQuery.LIMIT (query.selected s).length ↔ kit.id ≤ last.id := by
  have hsorted := pairwise_selected query s
  have hsplit := List.take_append_drop KitsQuery.LIMIT (query.selected s)
  obtain ⟨before, hbefore⟩ := List.getLast?_eq_some_iff.mp hlast
  have hpage : (query.selected s).take KitsQuery.LIMIT = before ++ [last] := hbefore
  have hlength : before.length + 1 = min KitsQuery.LIMIT (query.selected s).length := by
    have := congrArg List.length hpage
    rw [List.length_take, List.length_append] at this
    exact this.symm
  rw [hpage] at hsplit
  rw [← hlength, ← hsplit]
  rw [← hsplit] at hsorted
  obtain ⟨hfirst, -, hcross⟩ := List.pairwise_append.mp hsorted
  constructor
  · intro hlt
    by_contra hnot
    -- the first page comes before the kit
    have hall : ((before ++ [last]).filter (·.id < kit.id)) = before ++ [last] := by
      refine List.filter_eq_self.mpr fun k hk => ?_
      have := le_last hfirst List.getLast?_concat hk
      rw [decide_eq_true_eq]
      omega
    rw [List.filter_append, hall, List.length_append, List.length_append,
      List.length_singleton] at hlt
    omega
  · intro hle
    have hothers : ((query.selected s).drop KitsQuery.LIMIT).filter (·.id < kit.id) = [] := by
      refine List.filter_eq_nil_iff.mpr fun k hk => ?_
      have := hcross last (by simp) k hk
      rw [decide_eq_true_eq]
      omega
    have hlastOut : [last].filter (·.id < kit.id) = [] := by
      refine List.filter_eq_nil_iff.mpr fun k hk => ?_
      rw [List.mem_singleton.mp hk, decide_eq_true_eq]
      omega
    rw [List.filter_append, List.filter_append, hothers, hlastOut, List.append_nil, List.append_nil]
    have := List.length_filter_le (fun k : Kit => decide (k.id < kit.id)) before
    omega

theorem mem_reached {last : Kit} (hlast : (query.page s).getLast? = some last) :
    kit ∈ query.reached s ↔ kit ∈ s.kits
      ∧ (query.Wants s kit ∧ kit.id ≤ last.id ∨ kit.public ∧ last.id < kit.id) := by
  have hsplit := List.take_append_drop KitsQuery.LIMIT (query.selected s)
  have hsorted := pairwise_selected query s
  rw [← hsplit] at hsorted
  have hpage : kit ∈ query.page s ↔ (kit ∈ s.kits ∧ query.Wants s kit) ∧ kit.id ≤ last.id := by
    rw [← selects_iff, ← mem_selected, ← hsplit]
    exact (mem_iff_last hsorted hlast).1
  have hrest : kit ∈ KitsQuery.selected ⟨none, some last.id⟩ s
      ↔ kit ∈ s.kits ∧ kit.public ∧ last.id < kit.id := by
    rw [mem_selected, selects_iff]
    simp [KitsQuery.Wants]
  rw [reached_of_some hlast, reached_none, List.mem_append, hpage, hrest]
  tauto

theorem mem_reached_kits (query : KitsQuery) (s : Store) :
    ∀ kit ∈ query.reached s, kit ∈ s.kits := by
  intro kit hkit
  cases hlast : (query.page s).getLast? with
  | none =>
      rw [reached_of_none hlast] at hkit
      cases hkit
  | some last => exact ((mem_reached hlast).mp hkit).1

/-- The links lead to what was asked for exactly if no other kit comes after the
first page. -/
theorem mem_reached_iff :
    (∀ kit, kit ∈ query.reached s ↔ kit ∈ s.kits ∧ query.Wants s kit) ↔ query.Covers s := by
  cases hlast : (query.page s).getLast? with
  | none =>
      have hnil : query.selected s = [] := by
        rcases List.take_eq_nil_iff.mp (List.getLast?_eq_none_iff.mp hlast) with h | h
        · cases h
        · exact h
      refine iff_of_true (fun kit => ?_) fun since _ => Or.inl hnil
      rw [reached_of_none hlast, ← selects_iff, ← mem_selected, hnil]
  | some last =>
      have hmem : last ∈ query.selected s := List.mem_of_mem_take (List.mem_of_getLast? hlast)
      have hne : query.selected s ≠ [] := List.ne_nil_of_mem hmem
      have hwants := selects_iff.mp (mem_selected.mp hmem).2
      constructor
      · intro h since hsince
        refine Or.inr fun kit hkit hpublic hseen => (lt_last_iff hlast).mpr ?_
        by_contra hlt
        have hin := (mem_reached hlast).mpr ⟨hkit, Or.inr ⟨hpublic, by omega⟩⟩
        exact hseen (((h kit).mp hin).2.2.2 since hsince)
      · intro h kit
        rw [mem_reached hlast]
        refine and_congr_right fun hkit => ?_
        constructor
        · rintro (⟨hwant, -⟩ | ⟨hpublic, hlt⟩)
          · exact hwant
          · refine ⟨hpublic, fun after hafter => ?_, fun since hsince => ?_⟩
            · have := hwants.2.1 after hafter
              omega
            · by_contra hseen
              have hcount := ((h since hsince).resolve_left hne) kit hkit hpublic hseen
              have := (lt_last_iff hlast).mp hcount
              omega
        · intro hwant
          rcases lt_or_ge last.id kit.id with hlt | hle
          · exact Or.inr ⟨hwant.1, hlt⟩
          · exact Or.inl ⟨hwant, hle⟩

end Wants

/-- **Paging through the kits** ends, and returns what the query asks for exactly
if no public kit that was not seen since comes after the first page. -/
theorem kit_pages_iff (x : Reading) (query : KitsQuery) (s : Store) :
    (∃ n, ∀ m ≥ n, Keyset.Finished (kitPages x query s m)
        ∧ query.Lists x s (Keyset.returned (kitPages x query s m))) ↔ query.Covers s := by
  rw [← mem_reached_iff]
  constructor
  · rintro ⟨n, hn⟩
    obtain ⟨hfinished, -, listed, hbody, hlisted⟩ := hn n le_rfl
    rw [returned_eq x query s n hfinished] at hbody
    have hview : ∀ l l' : List Kit, l.map (Kit.view x s) = l'.map (Kit.view x s) →
        (∀ kit ∈ l, kit ∈ s.kits) → (∀ kit ∈ l', kit ∈ s.kits) → ∀ kit ∈ l, kit ∈ l' := by
      intro l l' heq hl hl' kit hkit
      have hmem : kit.view x s ∈ l'.map (Kit.view x s) := heq ▸ List.mem_map_of_mem hkit
      obtain ⟨kit', hkit', hsame⟩ := List.mem_map.mp hmem
      have hid : kit'.id = kit.id := congrArg KitView.id hsame
      rwa [← Table.eq_of_key_eq (hl' kit' hkit') (hl kit hkit) hid]
    have hreached := mem_reached_kits query s
    have hlistedKits : ∀ kit ∈ listed, kit ∈ s.kits := fun kit hkit => ((hlisted kit).mp hkit).1
    intro kit
    rw [← hlisted kit]
    exact ⟨hview _ _ hbody hreached hlistedKits kit,
      hview _ _ hbody.symm hlistedKits hreached kit⟩
  · intro h
    obtain ⟨n, hn⟩ := exists_finished x query s
    refine ⟨n, fun m hm => ⟨hn m hm, ?_⟩⟩
    rw [returned_eq x query s m (hn m hm)]
    refine ⟨?_, query.reached s, rfl, h⟩
    rw [List.map_map]
    exact List.pairwise_map.mpr (pairwise_reached query s)

/-- The first of two kits was seen. -/
def firstSeen : Store := { twoKits with kitLastSeen := ⟨[⟨1, 60⟩], by decide⟩ }

/-- The link of the first page leads to the other kit. -/
theorem unseen_kit_listed :
    ¬ ∃ n, ∀ m ≥ n, Keyset.Finished (kitPages plainReading ⟨some 0, none⟩ firstSeen m)
      ∧ KitsQuery.Lists plainReading ⟨some 0, none⟩ firstSeen
        (Keyset.returned (kitPages plainReading ⟨some 0, none⟩ firstSeen m)) := by
  rintro ⟨n, hn⟩
  obtain ⟨hfinished, -, listed, hbody, hlisted⟩ := hn n le_rfl
  rw [returned_eq _ _ _ n hfinished] at hbody
  have hreached : ((KitsQuery.reached ⟨some 0, none⟩ firstSeen).map
      (Kit.view plainReading firstSeen)).map (·.id) = [1, 2] := by
    decide
  rw [hbody, List.map_map] at hreached
  obtain ⟨kit, hkit, hid⟩ : ∃ kit ∈ listed, kit.id = 2 :=
    List.mem_map.mp (hreached.symm ▸ by decide : (2 : Int) ∈ listed.map (·.id))
  obtain ⟨seen, hseen, -⟩ := ((hlisted kit).mp hkit).2.2.2 0 rfl
  rw [hid] at hseen
  cases hseen

end AstroPlant
