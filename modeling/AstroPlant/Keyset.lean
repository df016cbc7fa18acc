import Mathlib.Data.List.Sort

/-!
# Keyset pagination

A page holds the first `size` rows below a cursor, highest key first, and a full
page names its last key as the cursor of the next one. A client follows these
links while rows are inserted and deleted between its requests.

`Serves` says what a request has to do with the pages: it may fail, but an
answer shows a page and links to the next one. From that follows `Exact`: keys
decrease across the pages, a row that is there all the time is shown exactly
once, and the links end once no more rows are inserted. They end with a page, and
not with an error, exactly if none of the `requests` on the way fails
(`finishes_iff`).

Nothing is assumed of what happens to the table between two requests, except that
keys of rows are distinct at each request. The walk is a function of the states
that the requests find (`follow`). Order and soundness are inductions over it;
that no row is missed uses that a row which is above the cursor of a page has
been on one of the pages before (`mem_page_or_lt_next`). Termination needs more:
once rows only go, the number of them below the cursor decreases
(`length_filter_below_lt`).
-/

namespace AstroPlant

namespace Keyset

variable {ρ κ : Type} [LinearOrder κ] (key : ρ → κ) (size : Nat)

/-! ## Pages -/

def below (cursor : Option κ) (r : ρ) : Bool := cursor.all fun c => decide (key r < c)

def page (cursor : Option κ) (rows : List ρ) : List ρ :=
  ((rows.filter (below key cursor)).insertionSort fun a b => key b ≤ key a).take size

/-- There may be a next page if this one is full. -/
def next (page : List ρ) : Option κ :=
  if page.length ≥ size then page.getLast?.map key else none

variable {key size}

theorem below_some {c : κ} {r : ρ} : below key (some c) r = true ↔ key r < c := by
  simp [below]

theorem mem_page {cursor : Option κ} {rows : List ρ} {r : ρ}
    (h : r ∈ page key size cursor rows) : r ∈ rows ∧ below key cursor r = true :=
  List.mem_filter.mp ((List.mem_insertionSort _).mp (List.mem_of_mem_take h))

/-- All that is below the cursor, in the order of the pages. -/
theorem pairwise_sorted (cursor : Option κ) {rows : List ρ} (hrows : (rows.map key).Nodup) :
    ((rows.filter (below key cursor)).insertionSort fun a b => key b ≤ key a).Pairwise
      (key · > key ·) := by
  have htotal : Std.Total fun a b : ρ => key b ≤ key a := ⟨fun a b => le_total (key b) (key a)⟩
  have htrans : IsTrans ρ fun a b => key b ≤ key a := ⟨fun _ _ _ h h' => le_trans h' h⟩
  have hsorted := List.pairwise_insertionSort (fun a b : ρ => key b ≤ key a)
    (rows.filter (below key cursor))
  have hnodup : (((rows.filter (below key cursor)).insertionSort
      fun a b => key b ≤ key a).map key).Nodup :=
    ((List.perm_insertionSort _ _).map key).nodup_iff.mpr
      ((List.filter_sublist.map key).nodup hrows)
  have hne := List.pairwise_map.mp hnodup
  exact hsorted.imp₂ (fun a b hle hne => lt_of_le_of_ne hle (Ne.symm hne)) hne

theorem pairwise_page (size : Nat) (cursor : Option κ) {rows : List ρ}
    (hrows : (rows.map key).Nodup) :
    (page key size cursor rows).Pairwise (key · > key ·) :=
  (pairwise_sorted cursor hrows).sublist (List.take_sublist _ _)

omit [LinearOrder κ] in
theorem next_eq_some {p : List ρ} {c : κ} (h : next key size p = some c) :
    size ≤ p.length ∧ ∃ r, p.getLast? = some r ∧ key r = c := by
  unfold next at h
  split at h
  · rename_i hsize
    obtain ⟨r, hr, rfl⟩ := Option.map_eq_some_iff.mp h
    exact ⟨hsize, r, hr, rfl⟩
  · cases h

theorem next_le {p : List ρ} {c : κ} (hp : p.Pairwise (key · > key ·))
    (h : next key size p = some c) : ∀ r ∈ p, c ≤ key r := by
  obtain ⟨-, last, hlast, rfl⟩ := next_eq_some h
  obtain ⟨p, rfl⟩ := List.getLast?_eq_some_iff.mp hlast
  intro r hr
  rcases List.mem_append.mp hr with hr | hr
  · exact le_of_lt ((List.pairwise_append.mp hp).2.2 r hr last (List.mem_singleton.mpr rfl))
  · rw [List.mem_singleton.mp hr]

theorem below_of_next {cursor : Option κ} {rows : List ρ} {c : κ} {r : ρ}
    (h : next key size (page key size cursor rows) = some c) (hr : key r ≤ c) :
    below key cursor r = true := by
  obtain ⟨-, last, hlast, rfl⟩ := next_eq_some h
  have hbelow := (mem_page (List.mem_of_getLast? hlast)).2
  cases cursor with
  | none => rfl
  | some c => exact below_some.mpr (lt_of_le_of_lt hr (below_some.mp hbelow))

/-- **A row below the cursor** is on the page or below the next cursor. -/
theorem mem_page_or_lt_next {cursor : Option κ} {rows : List ρ} {r : ρ} (hsize : 0 < size)
    (hrows : (rows.map key).Nodup) (hr : r ∈ rows) (hbelow : below key cursor r = true) :
    r ∈ page key size cursor rows
      ∨ ∃ c, next key size (page key size cursor rows) = some c ∧ key r < c := by
  have hsorted := pairwise_sorted cursor hrows
  have hmem : r ∈ (rows.filter (below key cursor)).insertionSort fun a b => key b ≤ key a :=
    (List.mem_insertionSort _).mpr (List.mem_filter.mpr ⟨hr, hbelow⟩)
  unfold page
  generalize (rows.filter (below key cursor)).insertionSort (fun a b => key b ≤ key a) = sorted
    at hsorted hmem
  rw [← List.take_append_drop size sorted] at hsorted hmem
  rcases List.mem_append.mp hmem with hmem | hmem
  · exact Or.inl hmem
  · -- rows are left over, so the page is full
    have hfull : (sorted.take size).length = size := by
      have hpos := List.length_pos_of_mem hmem
      rw [List.length_drop] at hpos
      rw [List.length_take]
      omega
    have hne : sorted.take size ≠ [] := by
      intro hnil
      rw [hnil] at hfull
      simp at hfull
      omega
    refine Or.inr ⟨key ((sorted.take size).getLast hne), ?_, ?_⟩
    · rw [next, if_pos (by omega), List.getLast?_eq_some_getLast hne]
      rfl
    · exact (List.pairwise_append.mp hsorted).2.2 _ (List.getLast_mem hne) r hmem

/-! ## Following the links -/

variable {Q σ ν ε L : Type}

structure Answer (ν L : Type) where
  body : List ν
  link : Option L

/-- The answers to a client who follows the links; one state for each request. -/
def follow (request : Q → σ → Except ε (Answer ν L)) (decode : L → Option Q) :
    Q → List σ → List (Except ε (Answer ν L))
  | _, [] => []
  | q, s :: ss =>
      request q s ::
        match request q s with
        | .ok ⟨_, some link⟩ =>
            match decode link with
            | some q' => follow request decode q' ss
            | none => []
        | _ => []

theorem length_follow_le (request : Q → σ → Except ε (Answer ν L)) (decode : L → Option Q) (q : Q)
    (ss : List σ) : (follow request decode q ss).length ≤ ss.length := by
  induction ss generalizing q with
  | nil => exact Nat.le_refl _
  | cons s ss ih =>
      rw [follow, List.length_cons, List.length_cons]
      split
      · split
        · exact Nat.succ_le_succ (ih _)
        · exact Nat.succ_le_succ (Nat.zero_le _)
      · exact Nat.succ_le_succ (Nat.zero_le _)

theorem exists_of_mem_follow {request : Q → σ → Except ε (Answer ν L)} {decode : L → Option Q}
    {q : Q} {ss : List σ} {a : Except ε (Answer ν L)} (h : a ∈ follow request decode q ss) :
    ∃ q' s, request q' s = a := by
  induction ss generalizing q with
  | nil => cases h
  | cons s ss ih =>
      rw [follow] at h
      rcases List.mem_cons.mp h with rfl | h
      · exact ⟨q, s, rfl⟩
      · split at h
        · split at h
          · exact ih h
          · cases h
        · cases h

/-- What the answers show, in order. -/
def returned (answers : List (Except ε (Answer ν L))) : List ν :=
  answers.flatMap fun
    | .ok a => a.body
    | .error _ => []

/-- The last answer is a page that does not link to a next one. -/
def Finished (answers : List (Except ε (Answer ν L))) : Prop :=
  ∃ body, answers.getLast? = some (.ok ⟨body, none⟩)

/-- The last answer is such a page, or the request for it failed. -/
def Ended (answers : List (Except ε (Answer ν L))) : Prop :=
  Finished answers ∨ ∃ e, answers.getLast? = some (.error e)

variable (key size)

/-- An answer shows a page of the query's table; if it is full, it links to a
query that asks for the next page of the same table. -/
structure Serves (request : Q → σ → Except ε (Answer ν L)) (decode : L → Option Q)
    (cursor : Q → Option κ) (table : Q → σ → List ρ) (Shows : ρ → ν → Prop) : Prop where
  nodup : ∀ q s, ((table q s).map key).Nodup
  body : ∀ q s a, request q s = .ok a →
    List.Forall₂ Shows (page key size (cursor q) (table q s)) a.body
  link : ∀ q s a, request q s = .ok a →
    (a.link = none ∧ next key size (page key size (cursor q) (table q s)) = none)
      ∨ ∃ link q' c, a.link = some link ∧ decode link = some q' ∧ cursor q' = some c
        ∧ next key size (page key size (cursor q) (table q s)) = some c ∧ table q' = table q

/-- What following the links is for. -/
structure Exact (request : Q → σ → Except ε (Answer ν L)) (decode : L → Option Q)
    (cursor : Q → Option κ) (table : Q → σ → List ρ) (Shows : ρ → ν → Prop)
    (shownKey : ν → κ) : Prop where
  /-- Keys decrease, on a page and across pages; nothing is shown twice. -/
  decreasing : ∀ q ss,
    (returned (follow request decode q ss)).Pairwise (shownKey · > shownKey ·)
  /-- What is shown was in the table when it was read. -/
  sound : ∀ q ss, ∀ v ∈ returned (follow request decode q ss),
    ∃ s ∈ ss, ∃ r ∈ table q s, Shows r v
  /-- A row that is in the table at every request is shown exactly once. -/
  once : ∀ q ss, cursor q = none → Finished (follow request decode q ss) → ∀ r,
    (∀ s ∈ ss.take (follow request decode q ss).length, r ∈ table q s) →
      (∃ v ∈ returned (follow request decode q ss), Shows r v)
        ∧ ((returned (follow request decode q ss)).map shownKey).count (key r) = 1
  /-- Once no rows are inserted the links end. -/
  ends : ∀ q (states : Nat → σ) n₀,
    (∀ n ≥ n₀, table q (states (n + 1)) ⊆ table q (states n)) →
      ∃ n, Ended (follow request decode q ((List.range n).map states))

/-! ## Exactness -/

variable {key size}

section Forall₂

variable {S : ρ → ν → Prop} {rows : List ρ} {views : List ν}

theorem exists_left (h : List.Forall₂ S rows views) {v : ν} (hv : v ∈ views) :
    ∃ r ∈ rows, S r v := by
  induction h with
  | nil => cases hv
  | cons hrv _ ih =>
      rcases List.mem_cons.mp hv with rfl | hv
      · exact ⟨_, List.mem_cons_self, hrv⟩
      · obtain ⟨r, hr, hS⟩ := ih hv
        exact ⟨r, List.mem_cons_of_mem _ hr, hS⟩

theorem exists_right (h : List.Forall₂ S rows views) {r : ρ} (hr : r ∈ rows) :
    ∃ v ∈ views, S r v := by
  induction h with
  | nil => cases hr
  | cons hrv _ ih =>
      rcases List.mem_cons.mp hr with rfl | hr
      · exact ⟨_, List.mem_cons_self, hrv⟩
      · obtain ⟨v, hv, hS⟩ := ih hr
        exact ⟨v, List.mem_cons_of_mem _ hv, hS⟩

omit [LinearOrder κ] in
theorem map_key_eq {f : ρ → κ} {g : ν → κ} (hfg : ∀ r v, S r v → g v = f r)
    (h : List.Forall₂ S rows views) : views.map g = rows.map f := by
  induction h with
  | nil => rfl
  | cons hrv _ ih => rw [List.map_cons, List.map_cons, hfg _ _ hrv, ih]

end Forall₂

variable {request : Q → σ → Except ε (Answer ν L)} {decode : L → Option Q}
  {cursor : Q → Option κ} {table : Q → σ → List ρ} {Shows : ρ → ν → Prop} {shownKey : ν → κ}

/-- Everything the first request can lead to: the links end with it, or they go
on with a query for the next page. -/
theorem follow_cons (hserves : Serves key size request decode cursor table Shows) (q : Q)
    (s : σ) :
    (∃ a, request q s = a ∧ (∀ body link, a ≠ .ok ⟨body, some link⟩)
        ∧ ∀ ss, follow request decode q (s :: ss) = [a])
      ∨ ∃ a q' c, request q s = .ok a ∧ a.link.isSome = true ∧ cursor q' = some c
        ∧ next key size (page key size (cursor q) (table q s)) = some c ∧ table q' = table q
        ∧ ∀ ss, follow request decode q (s :: ss) = .ok a :: follow request decode q' ss := by
  cases ha : request q s with
  | error e => exact Or.inl ⟨_, rfl, fun _ _ => by simp, fun ss => by simp [follow, ha]⟩
  | ok a =>
      rcases hserves.link q s a ha with ⟨hlink, -⟩
        | ⟨link, q', c, hlink, hdecode, hc, hnext, htable⟩
      · obtain ⟨body, link⟩ := a
        obtain rfl : link = none := hlink
        exact Or.inl ⟨_, rfl, fun _ _ => by simp, fun ss => by simp [follow, ha]⟩
      · obtain ⟨body, link'⟩ := a
        obtain rfl : link' = some link := hlink
        exact Or.inr ⟨_, q', c, rfl, rfl, hc, hnext, htable,
          fun ss => by simp [follow, ha, hdecode]⟩

theorem returned_cons_ok (a : Answer ν L) (answers : List (Except ε (Answer ν L))) :
    returned (.ok a :: answers) = a.body ++ returned answers := rfl

theorem returned_below (hserves : Serves key size request decode cursor table Shows)
    (hshown : ∀ r v, Shows r v → shownKey v = key r) (q : Q) (ss : List σ) :
    ∀ v ∈ returned (follow request decode q ss), ∀ c ∈ cursor q, shownKey v < c := by
  induction ss generalizing q with
  | nil => exact fun v hv => by cases hv
  | cons s ss ih =>
      intro v hv c hc
      have hbody : ∀ a, request q s = .ok a → v ∈ a.body → shownKey v < c := by
        intro a ha hv
        obtain ⟨r, hr, hS⟩ := exists_left (hserves.body q s a ha) hv
        have hbelow := (mem_page hr).2
        rw [hc] at hbelow
        rw [hshown r v hS]
        exact below_some.mp hbelow
      rcases follow_cons hserves q s with ⟨a, ha, -, hfollow⟩
        | ⟨a, q', c', ha, -, hc', hnext, -, hfollow⟩
      · rw [hfollow] at hv
        cases a with
        | error e => cases hv
        | ok a =>
            rw [returned_cons_ok] at hv
            rcases List.mem_append.mp hv with hv | hv
            · exact hbody a ha hv
            · cases hv
      · rw [hfollow, returned_cons_ok] at hv
        rcases List.mem_append.mp hv with hv | hv
        · exact hbody a ha hv
        · have hlt := ih q' v hv c' hc'
          obtain ⟨-, last, hlast, rfl⟩ := next_eq_some hnext
          have hbelow := (mem_page (List.mem_of_getLast? hlast)).2
          rw [hc] at hbelow
          exact lt_trans hlt (below_some.mp hbelow)

theorem returned_pairwise (hserves : Serves key size request decode cursor table Shows)
    (hshown : ∀ r v, Shows r v → shownKey v = key r) (q : Q) (ss : List σ) :
    (returned (follow request decode q ss)).Pairwise (shownKey · > shownKey ·) := by
  induction ss generalizing q with
  | nil => exact .nil
  | cons s ss ih =>
      have hbody : ∀ a, request q s = .ok a → a.body.Pairwise (shownKey · > shownKey ·) := by
        intro a ha
        have hpage := pairwise_page size (cursor q) (hserves.nodup q s)
        have hmap := map_key_eq hshown (hserves.body q s a ha)
        rw [← List.pairwise_map (R := (· > ·)), hmap]
        exact List.pairwise_map.mpr hpage
      rcases follow_cons hserves q s with ⟨a, ha, -, hfollow⟩
        | ⟨a, q', c, ha, -, hc, hnext, -, hfollow⟩
      · rw [hfollow]
        cases a with
        | error e => exact .nil
        | ok a =>
            rw [returned_cons_ok, returned, List.flatMap_nil, List.append_nil]
            exact hbody a ha
      · rw [hfollow, returned_cons_ok]
        refine List.pairwise_append.mpr ⟨hbody a ha, ih q', fun v hv w hw => ?_⟩
        -- what follows is below the cursor, which is below the page
        obtain ⟨r, hr, hS⟩ := exists_left (hserves.body q s a ha) hv
        have hle := next_le (pairwise_page size (cursor q) (hserves.nodup q s)) hnext r hr
        rw [hshown r v hS]
        exact lt_of_lt_of_le (returned_below hserves hshown q' ss w hw c hc) hle

theorem returned_sound (hserves : Serves key size request decode cursor table Shows) (q : Q)
    (ss : List σ) : ∀ v ∈ returned (follow request decode q ss),
      ∃ s ∈ ss, ∃ r ∈ table q s, Shows r v := by
  induction ss generalizing q with
  | nil => exact fun v hv => by cases hv
  | cons s ss ih =>
      intro v hv
      have hbody : ∀ a, request q s = .ok a → v ∈ a.body →
          ∃ s' ∈ s :: ss, ∃ r ∈ table q s', Shows r v := by
        intro a ha hv
        obtain ⟨r, hr, hS⟩ := exists_left (hserves.body q s a ha) hv
        exact ⟨s, List.mem_cons_self, r, (mem_page hr).1, hS⟩
      rcases follow_cons hserves q s with ⟨a, ha, -, hfollow⟩
        | ⟨a, q', c, ha, -, -, -, htable, hfollow⟩
      · rw [hfollow] at hv
        cases a with
        | error e => cases hv
        | ok a =>
            rw [returned_cons_ok] at hv
            rcases List.mem_append.mp hv with hv | hv
            · exact hbody a ha hv
            · cases hv
      · rw [hfollow, returned_cons_ok] at hv
        rcases List.mem_append.mp hv with hv | hv
        · exact hbody a ha hv
        · obtain ⟨s', hs', r, hr, hS⟩ := ih q' v hv
          rw [htable] at hr
          exact ⟨s', List.mem_cons_of_mem _ hs', r, hr, hS⟩

omit [LinearOrder κ] in
/-- The page that a walk ends with comes after an answer with a link. -/
theorem Finished.tail {a : Answer ν L} {answers : List (Except ε (Answer ν L))}
    (h : Finished (.ok a :: answers)) (hlink : a.link.isSome = true) : Finished answers := by
  obtain ⟨body, hlast⟩ := h
  rw [List.getLast?_cons] at hlast
  cases hrest : answers.getLast? with
  | none =>
      rw [hrest] at hlast
      obtain rfl := Except.ok.inj (Option.some.inj hlast)
      cases hlink
  | some last =>
      rw [hrest] at hlast
      exact ⟨body, hrest.trans hlast⟩

/-- A row below the cursor that is always there is shown. -/
theorem returned_complete (hsize : 0 < size)
    (hserves : Serves key size request decode cursor table Shows) (q : Q) (ss : List σ)
    (hfinished : Finished (follow request decode q ss)) {r : ρ}
    (hbelow : below key (cursor q) r = true)
    (hr : ∀ s ∈ ss.take (follow request decode q ss).length, r ∈ table q s) :
    ∃ v ∈ returned (follow request decode q ss), Shows r v := by
  induction ss generalizing q with
  | nil =>
      obtain ⟨body, hlast⟩ := hfinished
      cases hlast
  | cons s ss ih =>
      have hlen : s ∈ (s :: ss).take (follow request decode q (s :: ss)).length := by
        rw [follow, List.length_cons, List.take_succ_cons]
        exact List.mem_cons_self
      have hor := mem_page_or_lt_next hsize (hserves.nodup q s) (hr s hlen) hbelow
      rcases follow_cons hserves q s with ⟨a, ha, -, hfollow⟩
        | ⟨a, q', c, ha, hlink, hc, hnext, htable, hfollow⟩
      · obtain ⟨body, hlast⟩ := hfinished
        rw [hfollow] at hlast ⊢
        obtain rfl := Option.some.inj hlast
        rcases hor with hmem | ⟨c, hnext, -⟩
        · obtain ⟨v, hv, hS⟩ := exists_right (hserves.body q s _ ha) hmem
          exact ⟨v, List.mem_append_left _ hv, hS⟩
        · rcases hserves.link q s _ ha with ⟨-, hnone⟩ | ⟨link, _, _, hsome, -⟩
          · rw [hnone] at hnext
            cases hnext
          · cases hsome
      · rw [hfollow, returned_cons_ok]
        rcases hor with hmem | ⟨c', hnext', hlt⟩
        · obtain ⟨v, hv, hS⟩ := exists_right (hserves.body q s a ha) hmem
          exact ⟨v, List.mem_append_left _ hv, hS⟩
        · rw [hnext] at hnext'
          obtain rfl := Option.some.inj hnext'
          have hfinished' : Finished (follow request decode q' ss) := by
            rw [hfollow] at hfinished
            exact hfinished.tail hlink
          obtain ⟨v, hv, hS⟩ := ih q' hfinished' (by rw [hc]; exact below_some.mpr hlt)
            fun s' hs' => by
              rw [htable]
              refine hr s' ?_
              rw [hfollow, List.length_cons, List.take_succ_cons]
              exact List.mem_cons_of_mem _ hs'
          exact ⟨v, List.mem_append_right _ hv, hS⟩

/-! ## The links end -/

omit [LinearOrder κ] in
theorem ended_singleton {a : Except ε (Answer ν L)}
    (h : ∀ body link, a ≠ .ok ⟨body, some link⟩) : Ended [a] := by
  cases a with
  | error e => exact Or.inr ⟨e, rfl⟩
  | ok a =>
      obtain ⟨body, link⟩ := a
      cases link with
      | none => exact Or.inl ⟨body, rfl⟩
      | some link => exact absurd rfl (h body link)

omit [LinearOrder κ] in
theorem Ended.cons {a : Except ε (Answer ν L)} {answers : List (Except ε (Answer ν L))}
    (h : Ended answers) : Ended (a :: answers) := by
  rcases h with ⟨body, hlast⟩ | ⟨e, hlast⟩
  · refine Or.inl ⟨body, ?_⟩
    rw [List.getLast?_cons, hlast]
    rfl
  · refine Or.inr ⟨e, ?_⟩
    rw [List.getLast?_cons, hlast]
    rfl

theorem range_map_succ {σ : Type} (states : Nat → σ) (n : Nat) :
    (List.range (n + 1)).map states
      = states 0 :: (List.range n).map fun i => states (i + 1) := by
  rw [List.range_succ_eq_map, List.map_cons, List.map_map]
  rfl

/-- After a full page fewer rows are left, if none are inserted. -/
theorem length_filter_below_lt {cursor : Option κ} {rows rows' : List ρ} {c : κ}
    (hrows' : (rows'.map key).Nodup) (hsub : rows' ⊆ rows)
    (hnext : next key size (page key size cursor rows) = some c) :
    (rows'.filter (below key (some c))).length < (rows.filter (below key cursor)).length := by
  obtain ⟨-, last, hlast, hkey⟩ := next_eq_some hnext
  have hmem := mem_page (List.mem_of_getLast? hlast)
  have hsubperm : (rows'.filter (below key (some c))).length
      ≤ (rows.filter (below key (some c))).length := by
    refine (List.subperm_of_subset ((List.Nodup.of_map key hrows').filter _) ?_).length_le
    intro r hr
    obtain ⟨hr, hbelow⟩ := List.mem_filter.mp hr
    exact List.mem_filter.mpr ⟨hsub hr, hbelow⟩
  have hfilter : rows.filter (below key (some c))
      = (rows.filter (below key cursor)).filter (below key (some c)) := by
    rw [List.filter_filter]
    refine List.filter_congr fun r _ => ?_
    cases hb : below key (some c) r with
    | false => rfl
    | true => rw [below_of_next hnext (le_of_lt (below_some.mp hb)), Bool.and_true]
  have hlt : ((rows.filter (below key cursor)).filter (below key (some c))).length
      < (rows.filter (below key cursor)).length := by
    refine List.length_filter_lt_length_iff_exists.mpr
      ⟨last, List.mem_filter.mpr hmem, fun hbelow => ?_⟩
    exact absurd (below_some.mp hbelow) (by rw [hkey]; exact lt_irrefl c)
  rw [hfilter] at hsubperm
  omega

theorem ends_of_shrinking (hserves : Serves key size request decode cursor table Shows) (m : Nat)
    (q : Q) (states : Nat → σ)
    (hm : ((table q (states 0)).filter (below key (cursor q))).length ≤ m)
    (hsub : ∀ n, table q (states (n + 1)) ⊆ table q (states n)) :
    ∃ n, Ended (follow request decode q ((List.range n).map states)) := by
  induction m generalizing q states with
  | zero =>
      rcases follow_cons hserves q (states 0) with ⟨a, -, hlink, hfollow⟩
        | ⟨a, q', c, -, -, -, hnext, -, -⟩
      · refine ⟨1, ?_⟩
        rw [range_map_succ, hfollow]
        exact ended_singleton hlink
      · have hlt := length_filter_below_lt (hserves.nodup q (states 1)) (hsub 0) hnext
        omega
  | succ m ih =>
      rcases follow_cons hserves q (states 0) with ⟨a, -, hlink, hfollow⟩
        | ⟨a, q', c, -, -, hc, hnext, htable, hfollow⟩
      · refine ⟨1, ?_⟩
        rw [range_map_succ, hfollow]
        exact ended_singleton hlink
      · have hlt : ((table q (states 1)).filter (below key (some c))).length
            < ((table q (states 0)).filter (below key (cursor q))).length :=
          length_filter_below_lt (hserves.nodup q (states 1)) (hsub 0) hnext
        have hm' : ((table q' (states 1)).filter (below key (cursor q'))).length ≤ m := by
          rw [htable, hc]
          omega
        have hsub' : ∀ n, table q' (states (n + 1 + 1)) ⊆ table q' (states (n + 1)) := by
          intro n
          rw [htable]
          exact hsub (n + 1)
        obtain ⟨n, hn⟩ := ih q' (fun i => states (i + 1)) hm' hsub'
        refine ⟨n + 1, ?_⟩
        rw [range_map_succ, hfollow]
        exact hn.cons

theorem ends (hserves : Serves key size request decode cursor table Shows) (q : Q)
    (states : Nat → σ) (n₀ : Nat)
    (hsub : ∀ n ≥ n₀, table q (states (n + 1)) ⊆ table q (states n)) :
    ∃ n, Ended (follow request decode q ((List.range n).map states)) := by
  induction n₀ generalizing q states with
  | zero => exact ends_of_shrinking hserves _ q states le_rfl fun n => hsub n n.zero_le
  | succ n₀ ih =>
      rcases follow_cons hserves q (states 0) with ⟨a, -, hlink, hfollow⟩
        | ⟨a, q', c, -, -, -, -, htable, hfollow⟩
      · refine ⟨1, ?_⟩
        rw [range_map_succ, hfollow]
        exact ended_singleton hlink
      · obtain ⟨n, hn⟩ := ih q' (fun i => states (i + 1)) fun n hn => by
          rw [htable]
          exact hsub (n + 1) (by omega)
        refine ⟨n + 1, ?_⟩
        rw [range_map_succ, hfollow]
        exact hn.cons

/-! ## The requests on the way -/

/-- The requests that the client makes, each with the state that it finds. -/
def requests (request : Q → σ → Except ε (Answer ν L)) (decode : L → Option Q) :
    Q → List σ → List (Q × σ)
  | _, [] => []
  | q, s :: ss =>
      (q, s) ::
        match request q s with
        | .ok ⟨_, some link⟩ =>
            match decode link with
            | some q' => requests request decode q' ss
            | none => []
        | _ => []

omit [LinearOrder κ] in
theorem requests_cons (request : Q → σ → Except ε (Answer ν L)) (decode : L → Option Q) (q : Q)
    (s : σ) :
    (∃ a link q', request q s = .ok a ∧ a.link = some link ∧ decode link = some q'
        ∧ ∀ ss, requests request decode q (s :: ss) = (q, s) :: requests request decode q' ss
          ∧ follow request decode q (s :: ss) = .ok a :: follow request decode q' ss)
      ∨ ∀ ss, requests request decode q (s :: ss) = [(q, s)]
        ∧ follow request decode q (s :: ss) = [request q s] := by
  cases ha : request q s with
  | error e => exact Or.inr fun ss => by simp [requests, follow, ha]
  | ok a =>
      obtain ⟨body, link⟩ := a
      cases link with
      | none => exact Or.inr fun ss => by simp [requests, follow, ha]
      | some link =>
          cases hq : decode link with
          | none => exact Or.inr fun ss => by simp [requests, follow, ha, hq]
          | some q' =>
              exact Or.inl ⟨_, link, q', rfl, rfl, hq, fun ss => by simp [requests, follow, ha, hq]⟩

omit [LinearOrder κ] in
theorem follow_eq_map (request : Q → σ → Except ε (Answer ν L)) (decode : L → Option Q) (q : Q)
    (ss : List σ) :
    follow request decode q ss = (requests request decode q ss).map fun r => request r.1 r.2 := by
  induction ss generalizing q with
  | nil => rfl
  | cons s ss ih =>
      rcases requests_cons request decode q s with ⟨a, _, q', ha, -, -, hcons⟩ | hlast
      · rw [(hcons ss).1, (hcons ss).2, List.map_cons, ih, ha]
      · rw [(hlast ss).1, (hlast ss).2]
        rfl

omit [LinearOrder κ] in
theorem prefixed_requests (request : Q → σ → Except ε (Answer ν L)) (decode : L → Option Q) (q : Q)
    (ss ss' : List σ) : requests request decode q ss <+: requests request decode q (ss ++ ss') := by
  induction ss generalizing q with
  | nil => exact List.nil_prefix
  | cons s ss ih =>
      rw [List.cons_append]
      rcases requests_cons request decode q s with ⟨a, _, q', -, -, -, hcons⟩ | hlast
      · rw [(hcons ss).1, (hcons _).1]
        exact List.cons_prefix_cons.mpr ⟨rfl, ih q'⟩
      · exact ((hlast ss).1.trans (hlast (ss ++ ss')).1.symm) ▸ List.prefix_rfl

omit [LinearOrder κ] in
/-- What holds of the first query, and of a query that a link leads to, holds of
all. -/
theorem forall_requests {P : Q → Prop}
    (hlink : ∀ q s a link q', P q → request q s = .ok a → a.link = some link →
      decode link = some q' → P q') {q : Q} (hq : P q) (ss : List σ) :
    ∀ r ∈ requests request decode q ss, P r.1 ∧ r.2 ∈ ss := by
  induction ss generalizing q with
  | nil => exact fun r hr => by cases hr
  | cons s ss ih =>
      intro r hr
      rcases requests_cons request decode q s with ⟨a, link, q', ha, hl, hd, hcons⟩ | hlast
      · rw [(hcons ss).1] at hr
        rcases List.mem_cons.mp hr with rfl | hr
        · exact ⟨hq, List.mem_cons_self⟩
        · obtain ⟨hr, hmem⟩ := ih (hlink q s a link q' hq ha hl hd) r hr
          exact ⟨hr, List.mem_cons_of_mem _ hmem⟩
      · rw [(hlast ss).1] at hr
        obtain rfl := List.mem_singleton.mp hr
        exact ⟨hq, List.mem_cons_self⟩

omit [LinearOrder κ] in
/-- A walk that has come to its end has been answered throughout, and makes no
further request. -/
theorem Finished.requests_append {q : Q} {ss : List σ}
    (h : Finished (follow request decode q ss)) (ss' : List σ) :
    requests request decode q (ss ++ ss') = requests request decode q ss
      ∧ ∀ r ∈ requests request decode q ss, ∃ a, request r.1 r.2 = .ok a := by
  induction ss generalizing q with
  | nil =>
      obtain ⟨body, hlast⟩ := h
      cases hlast
  | cons s ss ih =>
      rw [List.cons_append]
      rcases requests_cons request decode q s with ⟨a, link, q', ha, hl, hd, hcons⟩ | hlast
      · rw [(hcons ss).2] at h
        have hrest := h.tail (by rw [hl]; rfl)
        obtain ⟨happend, hok⟩ := ih hrest
        rw [(hcons _).1, (hcons ss).1, happend]
        refine ⟨rfl, List.forall_mem_cons.mpr ⟨⟨a, ha⟩, hok⟩⟩
      · obtain ⟨body, hfinal⟩ := h
        rw [(hlast ss).2] at hfinal
        rw [(hlast _).1, (hlast ss).1]
        refine ⟨rfl, fun r hr => ?_⟩
        obtain rfl := List.mem_singleton.mp hr
        exact ⟨_, Option.some.inj hfinal⟩

/-- **A walk ends with a page**, once no more rows are inserted, exactly if none of
its requests fails. -/
theorem finishes_iff (hserves : Serves key size request decode cursor table Shows) {q : Q}
    {states : Nat → σ} {n₀ : Nat}
    (hsub : ∀ n ≥ n₀, table q (states (n + 1)) ⊆ table q (states n)) :
    (∃ n, Finished (follow request decode q ((List.range n).map states)))
      ↔ ∀ n, ∀ r ∈ requests request decode q ((List.range n).map states),
        ∃ a, request r.1 r.2 = .ok a := by
  constructor
  · rintro ⟨n, hfinished⟩ m r hr
    obtain ⟨happend, hok⟩ := hfinished.requests_append (((List.range m).map (n + ·)).map states)
    refine hok r ?_
    rw [← happend, ← List.map_append, ← List.range_add, Nat.add_comm, List.range_add,
      List.map_append]
    exact (prefixed_requests request decode q _ _).subset hr
  · intro h
    obtain ⟨n, hended⟩ := ends hserves q states n₀ hsub
    refine ⟨n, hended.resolve_right ?_⟩
    rintro ⟨e, hlast⟩
    have hmem := List.mem_of_getLast? hlast
    rw [follow_eq_map] at hmem
    obtain ⟨r, hr, herror⟩ := List.mem_map.mp hmem
    obtain ⟨a, ha⟩ := h n r hr
    rw [ha] at herror
    cases herror

/-- **What a request has to do** is enough. -/
theorem Serves.exact (hsize : 0 < size)
    (hserves : Serves key size request decode cursor table Shows)
    (hshown : ∀ r v, Shows r v → shownKey v = key r) :
    Exact key request decode cursor table Shows shownKey where
  decreasing := returned_pairwise hserves hshown
  sound := returned_sound hserves
  once := by
    intro q ss hcursor hfinished r hr
    have hbelow : below key (cursor q) r = true := by
      rw [hcursor]
      rfl
    obtain ⟨v, hv, hS⟩ := returned_complete hsize hserves q ss hfinished hbelow hr
    refine ⟨⟨v, hv, hS⟩, List.count_eq_one_of_mem ?_ ?_⟩
    · exact List.pairwise_map.mpr ((returned_pairwise hserves hshown q ss).imp
        fun hgt heq => absurd heq (ne_of_gt hgt))
    · rw [← hshown r v hS]
      exact List.mem_map_of_mem hv
  ends := ends hserves

end Keyset

end AstroPlant
