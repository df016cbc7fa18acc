import AstroPlant.Keyset

/-!
# Pages of a table that only grows

A page holds the first `size` rows above a cursor, lowest key first. Every page
with a row links to what is above its last one, and an empty page is the last.
Rows may be overwritten between the requests, and rows may be added above all
others, but none disappears (`Grown`).

The pages of a client who follows the links are then like one look at the table,
taken with the last request (`returned_keys`), and the links end once no more
rows are added (`ends`).

The walk is that of `Keyset` with the order reversed, and it is simpler: nothing
that was served can disappear, so after each answer the pages so far and what is
above the cursor are the table (`page_append_rest`), and what is left gets
shorter while nothing is added (`length_rest_lt`).
-/

namespace AstroPlant

namespace GrowingPages

open Keyset (Answer follow returned Finished Ended)

variable {ρ κ : Type} [LinearOrder κ] (key : ρ → κ) (size : Nat)

/-! ## Pages -/

def above (cursor : Option κ) (r : ρ) : Bool := cursor.all fun c => decide (c < key r)

/-- All rows above the cursor, in the order of the pages. -/
def rest (cursor : Option κ) (rows : List ρ) : List ρ :=
  (rows.filter (above key cursor)).insertionSort fun a b => key a ≤ key b

def page (cursor : Option κ) (rows : List ρ) : List ρ := (rest key cursor rows).take size

/-- No key disappears, and new keys are above all old ones. -/
structure Grown (rows rows' : List ρ) : Prop where
  kept : ∀ r ∈ rows, ∃ r' ∈ rows', key r' = key r
  added : ∀ r' ∈ rows', (∃ r ∈ rows, key r = key r') ∨ ∀ r ∈ rows, key r < key r'

variable {key size} {cursor : Option κ} {rows rows' : List ρ} {r last : ρ}

theorem above_iff : above key cursor r = true ↔ ∀ c ∈ cursor, c < key r := by
  simp [above, Option.all_eq_true]

theorem above_some {c : κ} : above key (some c) r = true ↔ c < key r := by
  simp [above]

theorem above_of_le {r' : ρ} (hr : above key cursor r = true) (h : key r ≤ key r') :
    above key cursor r' = true := by
  cases cursor with
  | none => rfl
  | some c => exact above_some.mpr (lt_of_lt_of_le (above_some.mp hr) h)

theorem mem_rest : r ∈ rest key cursor rows ↔ r ∈ rows ∧ above key cursor r = true :=
  (List.mem_insertionSort _).trans List.mem_filter

theorem mem_map_rest {k : κ} : k ∈ (rest key cursor rows).map key
    ↔ ∃ r ∈ rows, key r = k ∧ ∀ c ∈ cursor, c < k := by
  rw [List.mem_map]
  constructor
  · rintro ⟨r, hr, rfl⟩
    obtain ⟨hr, habove⟩ := mem_rest.mp hr
    exact ⟨r, hr, rfl, above_iff.mp habove⟩
  · rintro ⟨r, hr, rfl, habove⟩
    exact ⟨r, mem_rest.mpr ⟨hr, above_iff.mpr habove⟩, rfl⟩

theorem mem_of_mem_page (h : r ∈ page key size cursor rows) :
    r ∈ rows ∧ above key cursor r = true :=
  mem_rest.mp (List.mem_of_mem_take h)

theorem pairwise_rest (cursor : Option κ) (hrows : (rows.map key).Nodup) :
    (rest key cursor rows).Pairwise (key · < key ·) := by
  have htotal : Std.Total fun a b : ρ => key a ≤ key b := ⟨fun a b => le_total (key a) (key b)⟩
  have htrans : IsTrans ρ fun a b => key a ≤ key b := ⟨fun _ _ _ h h' => le_trans h h'⟩
  have hsorted := List.pairwise_insertionSort (fun a b : ρ => key a ≤ key b)
    (rows.filter (above key cursor))
  have hnodup : ((rest key cursor rows).map key).Nodup :=
    ((List.perm_insertionSort _ _).map key).nodup_iff.mpr
      ((List.filter_sublist.map key).nodup hrows)
  exact hsorted.imp₂ (fun a b hle hne => lt_of_le_of_ne hle hne) (List.pairwise_map.mp hnodup)

theorem rest_eq_nil (hsize : 0 < size) (h : page key size cursor rows = []) :
    rest key cursor rows = [] :=
  (List.take_eq_nil_iff.mp h).resolve_left (by omega)

theorem mem_page_iff (hrows : (rows.map key).Nodup)
    (hlast : (page key size cursor rows).getLast? = some last) :
    r ∈ page key size cursor rows ↔ r ∈ rest key cursor rows ∧ key r ≤ key last := by
  have hsorted := pairwise_rest cursor hrows
  have hsplit : page key size cursor rows ++ (rest key cursor rows).drop size
      = rest key cursor rows := List.take_append_drop size _
  rw [← hsplit] at hsorted
  obtain ⟨hpage, -, hcross⟩ := List.pairwise_append.mp hsorted
  constructor
  · intro hr
    refine ⟨List.mem_of_mem_take hr, ?_⟩
    obtain ⟨before, hbefore⟩ := List.getLast?_eq_some_iff.mp hlast
    rw [hbefore] at hr hpage
    rcases List.mem_append.mp hr with hr | hr
    · exact le_of_lt ((List.pairwise_append.mp hpage).2.2 r hr last (List.mem_singleton.mpr rfl))
    · rw [List.mem_singleton.mp hr]
  · rintro ⟨hr, hle⟩
    rw [← hsplit] at hr
    refine (List.mem_append.mp hr).resolve_right fun hdrop => ?_
    exact absurd (hcross last (List.mem_of_getLast? hlast) r hdrop) (not_lt.mpr hle)

/-- **What is left after a page**, however the table has grown. -/
theorem page_append_rest (hrows : (rows.map key).Nodup) (hrows' : (rows'.map key).Nodup)
    (hgrown : Grown key rows rows') (hlast : (page key size cursor rows).getLast? = some last) :
    (page key size cursor rows).map key ++ (rest key (some (key last)) rows').map key
      = (rest key cursor rows').map key := by
  have hmem := fun r => mem_page_iff (r := r) hrows hlast
  have habove := (mem_of_mem_page (List.mem_of_getLast? hlast)).2
  have hleft : ((page key size cursor rows).map key
      ++ (rest key (some (key last)) rows').map key).Pairwise (· < ·) := by
    refine List.pairwise_append.mpr ⟨?_, ?_, fun k hk k' hk' => ?_⟩
    · exact List.pairwise_map.mpr ((pairwise_rest cursor hrows).sublist (List.take_sublist _ _))
    · exact List.pairwise_map.mpr (pairwise_rest _ hrows')
    · obtain ⟨r, hr, rfl⟩ := List.mem_map.mp hk
      obtain ⟨r', hr', rfl⟩ := List.mem_map.mp hk'
      exact lt_of_le_of_lt ((hmem r).mp hr).2 (above_some.mp (mem_rest.mp hr').2)
  refine hleft.eq_of_mem_iff (List.pairwise_map.mpr (pairwise_rest cursor hrows')) fun k => ?_
  rw [List.mem_append]
  constructor
  · rintro (hk | hk)
    · obtain ⟨r, hr, rfl⟩ := List.mem_map.mp hk
      obtain ⟨hr, hcursor⟩ := mem_of_mem_page hr
      obtain ⟨r', hr', hkey⟩ := hgrown.kept r hr
      rw [← hkey]
      exact List.mem_map_of_mem (mem_rest.mpr ⟨hr', above_of_le hcursor (le_of_eq hkey.symm)⟩)
    · obtain ⟨r', hr', rfl⟩ := List.mem_map.mp hk
      obtain ⟨hr', hlt⟩ := mem_rest.mp hr'
      exact List.mem_map_of_mem
        (mem_rest.mpr ⟨hr', above_of_le habove (le_of_lt (above_some.mp hlt))⟩)
  · intro hk
    obtain ⟨r', hr', rfl⟩ := List.mem_map.mp hk
    obtain ⟨hr', hcursor⟩ := mem_rest.mp hr'
    rcases lt_or_ge (key last) (key r') with hlt | hle
    · exact Or.inr (List.mem_map_of_mem (mem_rest.mpr ⟨hr', above_some.mpr hlt⟩))
    · -- the row is not above the last one of the page, so it was there
      have hlastMem := (mem_of_mem_page (List.mem_of_getLast? hlast)).1
      rcases hgrown.added r' hr' with ⟨r, hr, hkey⟩ | hnew
      · rw [← hkey] at hle ⊢
        refine Or.inl (List.mem_map_of_mem ((hmem r).mpr ⟨mem_rest.mpr ⟨hr, ?_⟩, hle⟩))
        exact above_of_le hcursor (le_of_eq hkey.symm)
      · exact absurd (hnew last hlastMem) (not_lt.mpr hle)

theorem length_rest_lt (hrows' : (rows'.map key).Nodup)
    (hold : ∀ r' ∈ rows', ∃ r ∈ rows, key r = key r')
    (hlast : (page key size cursor rows).getLast? = some last) :
    (rest key (some (key last)) rows').length < (rest key cursor rows).length := by
  obtain ⟨hlastMem, habove⟩ := mem_of_mem_page (List.mem_of_getLast? hlast)
  have hnodup : (key last :: (rest key (some (key last)) rows').map key).Nodup := by
    refine List.nodup_cons.mpr ⟨fun hmem => ?_, ?_⟩
    · obtain ⟨r, hr, hkey⟩ := List.mem_map.mp hmem
      exact absurd hkey (ne_of_gt (above_some.mp (mem_rest.mp hr).2))
    · exact (List.pairwise_map.mpr (pairwise_rest _ hrows')).imp ne_of_lt
  have hsubset : key last :: (rest key (some (key last)) rows').map key
      ⊆ (rest key cursor rows).map key := by
    intro k hk
    rcases List.mem_cons.mp hk with rfl | hk
    · exact List.mem_map_of_mem (mem_rest.mpr ⟨hlastMem, habove⟩)
    · obtain ⟨r', hr', rfl⟩ := List.mem_map.mp hk
      obtain ⟨hr', hlt⟩ := mem_rest.mp hr'
      obtain ⟨r, hr, hkey⟩ := hold r' hr'
      rw [← hkey]
      refine List.mem_map_of_mem (mem_rest.mpr ⟨hr, above_of_le habove ?_⟩)
      rw [hkey]
      exact le_of_lt (above_some.mp hlt)
  have hlength := (List.subperm_of_subset hnodup hsubset).length_le
  rw [List.length_cons, List.length_map, List.length_map] at hlength
  omega

/-! ## Following the links -/

variable {Q σ ν ε L : Type}

variable (key size) in
/-- An answer shows a page of the query's table. If there is a row on it, it
links to a query for what is above the last one; if there is none, it does not. -/
structure Serves (request : Q → σ → Except ε (Answer ν L)) (decode : L → Option Q)
    (cursor : Q → Option κ) (table : Q → σ → List ρ) (Shows : Q → σ → ρ → ν → Prop) : Prop where
  nodup : ∀ q s, ((table q s).map key).Nodup
  body : ∀ q s a, request q s = .ok a →
    List.Forall₂ (Shows q s) (page key size (cursor q) (table q s)) a.body
  link : ∀ q s a, request q s = .ok a →
    (a.link = none ∧ page key size (cursor q) (table q s) = [])
      ∨ ∃ link q' last, a.link = some link ∧ decode link = some q'
        ∧ (page key size (cursor q) (table q s)).getLast? = some last
        ∧ cursor q' = some (key last) ∧ table q' = table q ∧ Shows q' = Shows q

variable {request : Q → σ → Except ε (Answer ν L)} {decode : L → Option Q}
  {cursor : Q → Option κ} {table : Q → σ → List ρ} {Shows : Q → σ → ρ → ν → Prop}
  {shownKey : ν → κ}

theorem exists_link (rows : List ρ) {link : ρ → L} {query : ρ → Q}
    (hdecode : ∀ r, decode (link r) = some (query r)) :
    (rows.getLast?.map link = none ∧ rows = [])
      ∨ ∃ last, rows.getLast?.map link = some (link last)
        ∧ decode (link last) = some (query last) ∧ rows.getLast? = some last := by
  cases hlast : rows.getLast? with
  | none => exact Or.inl ⟨rfl, List.getLast?_eq_none_iff.mp hlast⟩
  | some last => exact Or.inr ⟨last, rfl, hdecode last, rfl⟩

/-- Everything a request can lead to: the links end with an empty page or a
failure, or they go on after the last row of the page. -/
theorem follow_cons (hserves : Serves key size request decode cursor table Shows) (q : Q)
    (s : σ) :
    (∃ a, (a = .ok ⟨[], none⟩ ∧ page key size (cursor q) (table q s) = [] ∨ ∃ e, a = .error e)
        ∧ ∀ ss, follow request decode q (s :: ss) = [a])
      ∨ ∃ a q' last, request q s = .ok a ∧ a.link.isSome = true
        ∧ (page key size (cursor q) (table q s)).getLast? = some last
        ∧ cursor q' = some (key last) ∧ table q' = table q ∧ Shows q' = Shows q
        ∧ ∀ ss, follow request decode q (s :: ss) = .ok a :: follow request decode q' ss := by
  cases ha : request q s with
  | error e => exact Or.inl ⟨_, Or.inr ⟨e, rfl⟩, fun ss => by simp [follow, ha]⟩
  | ok a =>
      have hbody := hserves.body q s a ha
      rcases hserves.link q s a ha with ⟨hlink, hpage⟩
        | ⟨link, q', last, hlink, hdecode, hlast, hcursor, htable, hshows⟩
      · obtain ⟨body, link⟩ := a
        obtain rfl : link = none := hlink
        rw [hpage] at hbody
        obtain rfl : body = [] := List.forall₂_nil_left_iff.mp hbody
        exact Or.inl ⟨_, Or.inl ⟨rfl, hpage⟩, fun ss => by simp [follow, ha]⟩
      · obtain ⟨body, link'⟩ := a
        obtain rfl : link' = some link := hlink
        exact Or.inr ⟨_, q', last, rfl, rfl, hlast, hcursor, htable, hshows,
          fun ss => by simp [follow, ha, hdecode]⟩

/-- A client who has finished after a page with a link had finished after the rest. -/
theorem finished_of_cons {a : Answer ν L} {answers : List (Except ε (Answer ν L))}
    (hlink : a.link.isSome = true) (h : Finished (.ok a :: answers)) : Finished answers := by
  obtain ⟨body, hlast⟩ := h
  rw [List.getLast?_cons] at hlast
  cases hrest : answers.getLast? with
  | none =>
      rw [hrest] at hlast
      obtain rfl := Except.ok.inj (Option.some.inj hlast)
      cases hlink
  | some last =>
      rw [hrest] at hlast
      exact ⟨body, hrest.trans hlast⟩

theorem length_pos_of_finished {answers : List (Except ε (Answer ν L))}
    (h : Finished answers) : 0 < answers.length := by
  obtain ⟨body, hbody⟩ := h
  exact List.length_pos_of_mem (List.mem_of_getLast? hbody)

/-- **The pages are the table**, as it was at the last request. -/
theorem returned_keys (hsize : 0 < size)
    (hserves : Serves key size request decode cursor table Shows)
    (hshown : ∀ q s r v, Shows q s r v → shownKey v = key r) {q : Q} {ss : List σ}
    (hgrown : ss.Pairwise fun s s' => Grown key (table q s) (table q s'))
    (hfinished : Finished (follow request decode q ss)) {s : σ}
    (hs : ss[(follow request decode q ss).length - 1]? = some s) :
    (returned (follow request decode q ss)).map shownKey
      = (rest key (cursor q) (table q s)).map key := by
  induction ss generalizing q with
  | nil => cases hs
  | cons s₀ ss ih =>
      rcases follow_cons hserves q s₀ with ⟨a, ⟨rfl, hpage⟩ | ⟨e, rfl⟩, hfollow⟩
        | ⟨a, q', last, ha, hlink, hlast, hcursor, htable, -, hfollow⟩
      · rw [hfollow] at hs ⊢
        have heq : s₀ = s := Option.some.inj hs
        rw [← heq, rest_eq_nil hsize hpage]
        rfl
      · obtain ⟨body, hlast⟩ := hfinished
        rw [hfollow] at hlast
        cases hlast
      · rw [hfollow] at hs hfinished ⊢
        have hrest := finished_of_cons hlink hfinished
        have hpos := length_pos_of_finished hrest
        have hs' : ss[(follow request decode q' ss).length - 1]? = some s := by
          rw [List.length_cons, Nat.add_sub_cancel, List.getElem?_cons, if_neg (by omega)] at hs
          exact hs
        obtain ⟨hlater, hgrown⟩ := List.pairwise_cons.mp hgrown
        have hfirst : a.body.map shownKey
            = (page key size (cursor q) (table q s₀)).map key :=
          Keyset.map_key_eq (hshown q s₀) (hserves.body q s₀ a ha)
        rw [Keyset.returned_cons_ok, List.map_append, hfirst,
          ih (by rw [htable]; exact hgrown) hrest hs', hcursor, htable]
        exact page_append_rest (hserves.nodup q s₀) (hserves.nodup q s)
          (hlater s (List.mem_of_getElem? hs')) hlast

variable (shownKey) in
/-- The form for a sequence of states: `m` is the number of the last request. -/
theorem exists_returned_keys (hsize : 0 < size)
    (hserves : Serves key size request decode cursor table Shows)
    (hshown : ∀ q s r v, Shows q s r v → shownKey v = key r) {q : Q} {states : Nat → σ}
    (hgrown : ∀ i j, i < j → Grown key (table q (states i)) (table q (states j))) {n : Nat}
    (hfinished : Finished (follow request decode q ((List.range n).map states))) :
    ∃ m < n, (follow request decode q ((List.range n).map states)).length = m + 1
      ∧ (returned (follow request decode q ((List.range n).map states))).map shownKey
        = (rest key (cursor q) (table q (states m))).map key := by
  have hpos := length_pos_of_finished hfinished
  have hle := Keyset.length_follow_le request decode q ((List.range n).map states)
  rw [List.length_map, List.length_range] at hle
  obtain ⟨m, hm⟩ : ∃ m, (follow request decode q ((List.range n).map states)).length = m + 1 :=
    ⟨_, (Nat.sub_add_cancel hpos).symm⟩
  have hlast : ((List.range n).map states)[(follow request decode q
      ((List.range n).map states)).length - 1]? = some (states m) := by
    rw [hm, Nat.add_sub_cancel, List.getElem?_map, List.getElem?_range (by omega)]
    rfl
  have hpairwise : ((List.range n).map states).Pairwise
      fun s s' => Grown key (table q s) (table q s') :=
    List.pairwise_map.mpr (List.pairwise_lt_range.imp fun hij => hgrown _ _ hij)
  exact ⟨m, by omega, hm, returned_keys hsize hserves hshown hpairwise hfinished hlast⟩

/-- What is shown was in the table when it was read, by one of the requests. -/
theorem returned_sound (hserves : Serves key size request decode cursor table Shows) (q : Q)
    (ss : List σ) : ∀ v ∈ returned (follow request decode q ss),
      ∃ s ∈ ss.take (follow request decode q ss).length, ∃ r ∈ table q s, Shows q s r v := by
  induction ss generalizing q with
  | nil => exact fun v hv => by cases hv
  | cons s ss ih =>
      intro v hv
      rcases follow_cons hserves q s with ⟨a, ⟨rfl, -⟩ | ⟨e, rfl⟩, hfollow⟩
        | ⟨a, q', last, ha, -, -, -, htable, hshows, hfollow⟩
      · rw [hfollow] at hv
        cases hv
      · rw [hfollow] at hv
        cases hv
      · rw [hfollow, Keyset.returned_cons_ok] at hv
        rw [hfollow, List.length_cons, List.take_succ_cons]
        rcases List.mem_append.mp hv with hv | hv
        · obtain ⟨r, hr, hS⟩ := Keyset.exists_left (hserves.body q s a ha) hv
          exact ⟨s, List.mem_cons_self, r, (mem_of_mem_page hr).1, hS⟩
        · obtain ⟨s', hs', r, hr, hS⟩ := ih q' v hv
          rw [htable] at hr
          rw [hshows] at hS
          exact ⟨s', List.mem_cons_of_mem _ hs', r, hr, hS⟩

theorem exists_returned_sound (hserves : Serves key size request decode cursor table Shows) {q : Q}
    {states : Nat → σ} {n : Nat} {v : ν}
    (hv : v ∈ returned (follow request decode q ((List.range n).map states))) :
    ∃ i < n, i < (follow request decode q ((List.range n).map states)).length
      ∧ ∃ r ∈ table q (states i), Shows q (states i) r v := by
  obtain ⟨s, hs, hshows⟩ := returned_sound hserves q _ v hv
  rw [← List.map_take, List.take_range] at hs
  obtain ⟨i, hi, rfl⟩ := List.mem_map.mp hs
  have hlt := List.mem_range.mp hi
  exact ⟨i, by omega, by omega, hshows⟩

/-! ## The links end -/

theorem ends_of_cons {q : Q} {states : Nat → σ} {a : Except ε (Answer ν L)} {p : Prop}
    (ha : a = .ok ⟨[], none⟩ ∧ p ∨ ∃ e, a = .error e)
    (hfollow : ∀ ss, follow request decode q (states 0 :: ss) = [a]) :
    ∃ n, Ended (follow request decode q ((List.range n).map states)) := by
  refine ⟨1, ?_⟩
  rw [Keyset.range_map_succ, hfollow]
  rcases ha with ⟨rfl, -⟩ | ⟨e, rfl⟩
  · exact Or.inl ⟨[], rfl⟩
  · exact Or.inr ⟨e, rfl⟩

theorem ends_of_rest {q q' : Q} {states : Nat → σ} {a : Answer ν L}
    (hfollow : ∀ ss, follow request decode q (states 0 :: ss)
      = .ok a :: follow request decode q' ss)
    (h : ∃ n, Ended (follow request decode q' ((List.range n).map fun i => states (i + 1)))) :
    ∃ n, Ended (follow request decode q ((List.range n).map states)) := by
  obtain ⟨n, hn⟩ := h
  refine ⟨n + 1, ?_⟩
  rw [Keyset.range_map_succ, hfollow]
  exact hn.cons

theorem ends_of_settled (hserves : Serves key size request decode cursor table Shows) (m : Nat)
    (q : Q) (states : Nat → σ)
    (hm : (rest key (cursor q) (table q (states 0))).length ≤ m)
    (hold : ∀ n, ∀ r' ∈ table q (states (n + 1)), ∃ r ∈ table q (states n), key r = key r') :
    ∃ n, Ended (follow request decode q ((List.range n).map states)) := by
  induction m generalizing q states with
  | zero =>
      rcases follow_cons hserves q (states 0) with ⟨a, ha, hfollow⟩ | ⟨-, -, last, -, -, hlast, -⟩
      · exact ends_of_cons ha hfollow
      · have hlt := length_rest_lt (hserves.nodup q (states 1)) (hold 0) hlast
        omega
  | succ m ih =>
      rcases follow_cons hserves q (states 0) with ⟨a, ha, hfollow⟩
        | ⟨a, q', last, -, -, hlast, hcursor, htable, -, hfollow⟩
      · exact ends_of_cons ha hfollow
      · have hlt : (rest key (some (key last)) (table q (states 1))).length
            < (rest key (cursor q) (table q (states 0))).length :=
          length_rest_lt (hserves.nodup q (states 1)) (hold 0) hlast
        have hm' : (rest key (cursor q') (table q' (states 1))).length ≤ m := by
          rw [htable, hcursor]
          omega
        refine ends_of_rest hfollow (ih q' (fun i => states (i + 1)) hm' ?_)
        rw [htable]
        exact fun n => hold (n + 1)

/-- **The links end** some time after the last row is added. -/
theorem ends (hserves : Serves key size request decode cursor table Shows) (q : Q)
    (states : Nat → σ) (n₀ : Nat)
    (hold : ∀ n ≥ n₀, ∀ r' ∈ table q (states (n + 1)), ∃ r ∈ table q (states n), key r = key r') :
    ∃ n, Ended (follow request decode q ((List.range n).map states)) := by
  induction n₀ generalizing q states with
  | zero => exact ends_of_settled hserves _ q states le_rfl fun n => hold n n.zero_le
  | succ n₀ ih =>
      rcases follow_cons hserves q (states 0) with ⟨a, ha, hfollow⟩
        | ⟨a, q', last, -, -, -, -, htable, -, hfollow⟩
      · exact ends_of_cons ha hfollow
      · refine ends_of_rest hfollow (ih q' (fun i => states (i + 1)) fun n hn => ?_)
        rw [htable]
        exact hold (n + 1) (by omega)

theorem exists_finished (hserves : Serves key size request decode cursor table Shows)
    (hok : ∀ q s, ∃ a, request q s = .ok a) (q : Q) (states : Nat → σ) (n₀ : Nat)
    (hold : ∀ n ≥ n₀, ∀ r' ∈ table q (states (n + 1)), ∃ r ∈ table q (states n), key r = key r') :
    ∃ n, Finished (follow request decode q ((List.range n).map states)) := by
  obtain ⟨n, hn⟩ := ends hserves q states n₀ hold
  refine ⟨n, hn.resolve_right fun ⟨e, herror⟩ => ?_⟩
  obtain ⟨q', s, hrequest⟩ := Keyset.exists_of_mem_follow (List.mem_of_getLast? herror)
  obtain ⟨a, ha⟩ := hok q' s
  rw [ha] at hrequest
  cases hrequest

end GrowingPages

end AstroPlant
