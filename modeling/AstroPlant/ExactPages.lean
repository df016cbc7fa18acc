import AstroPlant.Keyset
import AstroPlant.Pages
import Mathlib.Data.Prod.Lex

/-!
# Pages are exact

Both lists are keyset pagination over time and id, and their links lead back to
the same query with the cursor. So what keyset pagination is good for holds of
them, whatever is inserted and deleted between two pages.

To whoever may view the kit a page of media is always answered. A page of
aggregates is answered unless the values of a row on it cannot be read back; then
the walk breaks off there, and no row after it is ever returned. So the walk over
the aggregates comes to its end exactly if all rows on the pages that it asks for
can be read (`pagination_exact_iff`).

Rows are compared as the query orders them, time before id, both descending;
`PageKey` is that order, and the ids make keys distinct. The abstract walk of
`Keyset` is over keys, so what has to be shown of the code is small: an answer
shows a page and links to the next one (`serves_aggregates`, `serves_media`), and
a link is read back as the query with the cursor in it
(`cursorReads_aggregates`). Then order, soundness and exactly-once are those of
`Keyset.Serves.exact`. When a request is answered at all is
`AggregatesQuery.request_ok_iff`, in which the permission and the rows of the
page are looked up in two states.
-/

namespace AstroPlant

/-! ## Links lead back -/

theorem decimal_toDigits (n : Nat) : decimal (Nat.toDigits 10 n) = some n := by
  have hall : (Nat.toDigits 10 n).all Char.isDigit = true :=
    List.all_eq_true.mpr fun c hc => Nat.isDigit_of_mem_toDigits (by omega) (by omega) hc
  rw [decimal, if_pos ⟨Nat.toDigits_ne_nil, hall⟩, Nat.ofDigitChars_ten_toDigits]

theorem i32FromStr_i32ToString (i : Int) : i32FromStr (i32ToString i) = some i := by
  rw [i32ToString, Int.repr_eq_if]
  split
  · rename_i hi
    have hlist : (i.toNat.repr).toList = Nat.toDigits 10 i.toNat := Nat.toList_repr
    have hdigits : ∀ c ∈ Nat.toDigits 10 i.toNat, c.isDigit = true :=
      fun c hc => Nat.isDigit_of_mem_toDigits (by omega) (by omega) hc
    have hsome := decimal_toDigits i.toNat
    unfold i32FromStr
    rw [hlist]
    split
    · rename_i heq
      rw [heq] at hdigits
      exact absurd (hdigits '-' List.mem_cons_self) (by decide)
    · rename_i heq
      rw [heq] at hdigits
      exact absurd (hdigits '+' List.mem_cons_self) (by decide)
    · rw [hsome, Option.map_some, Int.toNat_of_nonneg hi]
  · rename_i hi
    have hlist : ("-" ++ (-i).toNat.repr).toList = '-' :: Nat.toDigits 10 (-i).toNat := by
      rw [String.toList_append, Nat.toList_repr]
      rfl
    simp only [i32FromStr, hlist, decimal_toDigits, Option.map_some, Option.some.injEq]
    omega

theorem AggregateCursor.fromStr_toString {x : Codecs} (hx : x.RoundTrips) (c : AggregateCursor) :
    fromStr x (c.toString x) = some c := by
  simp [fromStr, toString, hx.json, hx.datetime, hx.uuid]

theorem MediaCursor.fromStr_toString {x : Codecs} (hx : x.RoundTrips) (c : MediaCursor) :
    AggregateCursor.fromStr x (c.toString x) = some ⟨c.datetime, c.id⟩ := by
  simp [AggregateCursor.fromStr, toString, hx.json, hx.datetime, hx.uuid]

theorem AggregatesQuery.ofPairs_toPairs (q : AggregatesQuery) : ofPairs q.toPairs = some q := by
  obtain ⟨cursor, configuration, peripheral, quantityType⟩ := q
  cases cursor <;> cases configuration <;> cases peripheral <;> cases quantityType <;>
    simp [ofPairs, toPairs, queryInt, queryField, queryPair, i32FromStr_i32ToString]

theorem MediaQuery.ofPairs_toPairs (q : MediaQuery) : ofPairs q.toPairs = some q := by
  obtain ⟨cursor, configuration, peripheral⟩ := q
  cases cursor <;> cases configuration <;> cases peripheral <;>
    simp [ofPairs, toPairs, queryInt, queryField, queryPair, i32FromStr_i32ToString]

theorem AggregatesQuery.ofLink_next {x : Codecs} (hx : x.RoundTrips) (kitSerial : String)
    (q : AggregatesQuery) (c : AggregateCursor) :
    ofLink x kitSerial (q.next x kitSerial c) = some { q with cursor := some (c.toString x) } := by
  rw [ofLink, next, if_pos rfl, hx.urlencoded, ofPairs_toPairs]

theorem MediaQuery.ofLink_next {x : Codecs} (hx : x.RoundTrips) (kitSerial : String)
    (q : MediaQuery) (c : MediaCursor) :
    ofLink x kitSerial (q.next x kitSerial c) = some { q with cursor := some (c.toString x) } := by
  rw [ofLink, next, if_pos rfl, hx.urlencoded, ofPairs_toPairs]

/-! ## Pages are keyset pages -/

/-- Rows in the order of the pages, by time and then by id. -/
abbrev PageKey := Lex (Timestamp × Nat)

def pageKey (datetime : Timestamp) (id : Uuid) : PageKey := toLex (datetime, id.toNat)

theorem pageKey_lt {datetime datetime' : Timestamp} {id id' : Uuid} :
    pageKey datetime id < pageKey datetime' id'
      ↔ datetime < datetime' ∨ datetime = datetime' ∧ id < id' :=
  Prod.Lex.toLex_lt_toLex

theorem pageKey_le {datetime datetime' : Timestamp} {id id' : Uuid} :
    pageKey datetime id ≤ pageKey datetime' id'
      ↔ datetime < datetime' ∨ datetime = datetime' ∧ id ≤ id' :=
  Prod.Lex.toLex_le_toLex

theorem latestFirst_iff {datetime datetime' : Timestamp} {id id' : Uuid} :
    (decide (datetime' < datetime) || (decide (datetime = datetime') && decide (id' ≤ id))) = true
      ↔ pageKey datetime' id' ≤ pageKey datetime id := by
  rw [pageKey_le, Bool.or_eq_true, Bool.and_eq_true, decide_eq_true_eq, decide_eq_true_eq,
    decide_eq_true_eq, eq_comm]

def AggregateCursor.key (c : AggregateCursor) : PageKey := pageKey c.datetimeStart c.id

def AggregateMeasurement.key (m : AggregateMeasurement) : PageKey := pageKey m.datetimeStart m.id

def AggregateMeasurementView.key (v : AggregateMeasurementView) : PageKey :=
  pageKey v.datetimeStart v.id

def Media.key (m : Media) : PageKey := pageKey m.datetime m.id

theorem nodup_map_pageKey {ρ : Type} (id : ρ → Uuid) {rows : List ρ}
    (h : (rows.map id).Nodup) (datetime : ρ → Timestamp) :
    (rows.map fun r => pageKey (datetime r) (id r)).Nodup := by
  refine List.Nodup.of_map (fun k : PageKey => (ofLex k).2) ?_
  rw [List.map_map]
  have hid : (rows.map id).map BitVec.toNat = rows.map ((fun k : PageKey => (ofLex k).2)
      ∘ fun r => pageKey (datetime r) (id r)) := by
    rw [List.map_map]
    rfl
  rw [← hid]
  exact h.map fun _ _ => BitVec.eq_of_toNat_eq

theorem insertionSort_congr {ρ : Type} {r r' : ρ → ρ → Prop} [DecidableRel r] [DecidableRel r']
    (h : ∀ a b, r a b ↔ r' a b) (rows : List ρ) :
    rows.insertionSort r = rows.insertionSort r' := by
  obtain rfl : r = r' := by
    funext a b
    exact propext (h a b)
  congr

namespace AggregateMeasurement

/-- The rows that a query asks for. -/
def matching (kitId : Int) (query : AggregatesQuery) (m : AggregateMeasurement) : Bool :=
  m.kitId = kitId && query.configuration.all (m.kitConfigurationId = ·)
    && query.peripheral.all (m.peripheralId = ·) && query.quantityType.all (m.quantityTypeId = ·)

theorem page_eq (kitId : Int) (query : AggregatesQuery) (cursor : Option AggregateCursor)
    (s : Store) :
    page kitId query cursor s
      = Keyset.page key AggregateCursor.PER_PAGE (cursor.map (·.key))
          (s.aggregateMeasurements.select (matching kitId query)) := by
  have hselect : (s.aggregateMeasurements.select fun m =>
        matching kitId query m && cursor.all (after · m))
      = (s.aggregateMeasurements.select (matching kitId query)).filter
          (Keyset.below key (cursor.map (·.key))) := by
    rw [Table.select, Table.select, List.filter_filter]
    refine List.filter_congr fun m _ => ?_
    rw [Bool.and_comm]
    congr 1
    cases cursor with
    | none => rfl
    | some c =>
        rw [Bool.eq_iff_iff]
        simp [Keyset.below, after, key, AggregateCursor.key, pageKey_lt]
  have horder : ∀ a b : AggregateMeasurement, order a b = true ↔ key b ≤ key a :=
    fun a b => latestFirst_iff
  rw [page, Keyset.page, ← insertionSort_congr horder, ← hselect]
  rfl

end AggregateMeasurement

namespace Media

/-- The rows that a query asks for. -/
def matching (kitId : Int) (query : MediaQuery) (m : Media) : Bool :=
  m.kitId = kitId && query.configuration.all (m.kitConfigurationId = ·)
    && query.peripheral.all (m.peripheralId = ·)

theorem page_eq (kitId : Int) (query : MediaQuery) (cursor : Option AggregateCursor)
    (s : Store) :
    page kitId query cursor s
      = Keyset.page key MediaCursor.PER_PAGE (cursor.map (·.key))
          (s.media.select (matching kitId query)) := by
  have hselect : (s.media.select fun m => matching kitId query m && cursor.all (after · m))
      = (s.media.select (matching kitId query)).filter
          (Keyset.below key (cursor.map (·.key))) := by
    rw [Table.select, Table.select, List.filter_filter]
    refine List.filter_congr fun m _ => ?_
    rw [Bool.and_comm]
    congr 1
    cases cursor with
    | none => rfl
    | some c =>
        rw [Bool.eq_iff_iff]
        simp [Keyset.below, after, key, AggregateCursor.key, pageKey_lt]
  have horder : ∀ a b : Media, order a b = true ↔ key b ≤ key a :=
    fun a b => latestFirst_iff
  rw [page, Keyset.page, ← insertionSort_congr horder, ← hselect]
  rfl

end Media

/-! ## The two lists -/

/-- The cursor that a query names. -/
def cursorKey (x : Codecs) (cursor : Option String) : Option PageKey :=
  cursor.bind fun s => (AggregateCursor.fromStr x s).map (·.key)

namespace AggregatesQuery

/-- A request, with the link of its answer; the two stores are those that the
handler sees. -/
def request (x : Codecs) (userId : Option Int) (kitSerial : String) (q : AggregatesQuery)
    (s : Store × Store) : Except Problem (Keyset.Answer AggregateMeasurementView Link) :=
  (kitAggregateMeasurements (AggregateCursor.fromStr x) userId kitSerial q s.1 s.2).map fun r =>
    { body := r.body, link := r.next.map (q.next x kitSerial) }

/-- The rows of the kit that match the filters. -/
def table (kitSerial : String) (q : AggregatesQuery) (s : Store × Store) :
    List AggregateMeasurement :=
  match Kit.bySerial kitSerial s.1 with
  | none => []
  | some kit => s.2.aggregateMeasurements.select (AggregateMeasurement.matching kit.id q)

end AggregatesQuery

namespace MediaQuery

def request (x : Codecs) (userId : Option Int) (kitSerial : String) (q : MediaQuery)
    (s : Store × Store) : Except Problem (Keyset.Answer Media Link) :=
  (kitMedia (AggregateCursor.fromStr x) userId kitSerial q s.1 s.2).map fun r =>
    { body := r.body, link := r.next.map (q.next x kitSerial) }

/-- The rows of the kit that match the filters. -/
def table (kitSerial : String) (q : MediaQuery) (s : Store × Store) : List Media :=
  match Kit.bySerial kitSerial s.1 with
  | none => []
  | some kit => s.2.media.select (Media.matching kit.id q)

end MediaQuery

theorem map_ok {ε α β : Type} {x : Except ε α} {f : α → β} {b : β} :
    x.map f = .ok b ↔ ∃ a, x = .ok a ∧ f a = b := by
  cases x <;> simp [Except.map]

theorem mapM_ok_forall₂ {ε α β : Type} {f : α → Except ε β} {xs : List α} {ys : List β}
    (h : xs.mapM f = .ok ys) : List.Forall₂ (fun x y => f x = .ok y) xs ys := by
  induction xs generalizing ys with
  | nil =>
      cases h
      exact .nil
  | cons x xs ih =>
      rw [List.mapM_cons] at h
      obtain ⟨y, hy, h⟩ := bind_ok.mp h
      obtain ⟨ys', hys, h⟩ := bind_ok.mp h
      cases h
      exact .cons hy (ih hys)

theorem kitAggregateMeasurements_ok {x : Codecs} {userId : Option Int} {kitSerial : String}
    {q : AggregatesQuery} {s : Store × Store} {r : AggregatesResponse}
    (h : kitAggregateMeasurements (AggregateCursor.fromStr x) userId kitSerial q s.1 s.2 = .ok r) :
    let page := Keyset.page AggregateMeasurement.key AggregateCursor.PER_PAGE
      (cursorKey x q.cursor) (q.table kitSerial s)
    List.Forall₂ (fun m v => AggregateMeasurementView.tryFrom m = .ok v) page r.body
      ∧ r.next = AggregateCursor.nextFromPage page := by
  have hrest : ∀ c : Option AggregateCursor,
      ((futKitPermissionOrForbidden userId kitSerial .view).run s.1 >>= fun r =>
        aggregatesResponse (AggregateMeasurement.page r.1.2.2.id q c s.2)) = .ok r →
      let page := Keyset.page AggregateMeasurement.key AggregateCursor.PER_PAGE
        (c.map (·.key)) (q.table kitSerial s)
      List.Forall₂ (fun m v => AggregateMeasurementView.tryFrom m = .ok v) page r.body
        ∧ r.next = AggregateCursor.nextFromPage page := by
    intro c hr
    obtain ⟨r', hperm, hr⟩ := bind_ok.mp hr
    obtain ⟨-, hkit, -⟩ := futKitPermissionOrForbidden_ok hperm
    rw [AggregatesQuery.table, hkit, ← AggregateMeasurement.page_eq]
    obtain ⟨body, hbody, hr⟩ := bind_ok.mp hr
    cases hr
    exact ⟨mapM_ok_forall₂ hbody, rfl⟩
  rw [kitAggregateMeasurements] at h
  cases hcursor : q.cursor with
  | none =>
      rw [hcursor] at h
      exact hrest none h
  | some cursor =>
      cases hparse : AggregateCursor.fromStr x cursor with
      | none =>
          simp only [hcursor, hparse] at h
          cases h
      | some c =>
          simp only [hcursor, hparse] at h
          simp only [cursorKey, Option.bind_some, hparse]
          exact hrest (some c) h

theorem kitMedia_ok {x : Codecs} {userId : Option Int} {kitSerial : String} {q : MediaQuery}
    {s : Store × Store} {r : MediaResponse}
    (h : kitMedia (AggregateCursor.fromStr x) userId kitSerial q s.1 s.2 = .ok r) :
    let page := Keyset.page Media.key MediaCursor.PER_PAGE (cursorKey x q.cursor)
      (q.table kitSerial s)
    r.body = page ∧ r.next = MediaCursor.nextFromPage page := by
  have hrest : ∀ c : Option AggregateCursor,
      ((futKitPermissionOrForbidden userId kitSerial .view).run s.1 >>= fun r =>
        (.ok ⟨Media.page r.1.2.2.id q c s.2,
          MediaCursor.nextFromPage (Media.page r.1.2.2.id q c s.2)⟩ :
            Except Problem MediaResponse)) = .ok r →
      let page := Keyset.page Media.key MediaCursor.PER_PAGE (c.map (·.key)) (q.table kitSerial s)
      r.body = page ∧ r.next = MediaCursor.nextFromPage page := by
    intro c hr
    obtain ⟨r', hperm, hr⟩ := bind_ok.mp hr
    obtain ⟨-, hkit, -⟩ := futKitPermissionOrForbidden_ok hperm
    rw [MediaQuery.table, hkit, ← Media.page_eq]
    cases hr
    exact ⟨rfl, rfl⟩
  rw [kitMedia] at h
  cases hcursor : q.cursor with
  | none =>
      rw [hcursor] at h
      exact hrest none h
  | some cursor =>
      cases hparse : AggregateCursor.fromStr x cursor with
      | none =>
          simp only [hcursor, hparse] at h
          cases h
      | some c =>
          simp only [hcursor, hparse] at h
          simp only [cursorKey, Option.bind_some, hparse]
          exact hrest (some c) h

theorem nodup_table_aggregates (kitSerial : String) (q : AggregatesQuery) (s : Store × Store) :
    ((q.table kitSerial s).map AggregateMeasurement.key).Nodup := by
  unfold AggregatesQuery.table
  split
  · exact List.nodup_nil
  · exact nodup_map_pageKey AggregateMeasurement.id
      ((List.filter_sublist.map _).nodup s.2.aggregateMeasurements.nodup) _

theorem nodup_table_media (kitSerial : String) (q : MediaQuery) (s : Store × Store) :
    ((q.table kitSerial s).map Media.key).Nodup := by
  unfold MediaQuery.table
  split
  · exact List.nodup_nil
  · exact nodup_map_pageKey Media.id
      ((List.filter_sublist.map _).nodup s.2.media.nodup) _

theorem serves_aggregates {x : Codecs} (hx : x.RoundTrips) (userId : Option Int)
    (kitSerial : String) :
    Keyset.Serves AggregateMeasurement.key AggregateCursor.PER_PAGE
      (AggregatesQuery.request x userId kitSerial) (AggregatesQuery.ofLink x kitSerial)
      (fun q => cursorKey x q.cursor) (AggregatesQuery.table kitSerial)
      fun m v => AggregateMeasurementView.tryFrom m = .ok v where
  nodup := nodup_table_aggregates kitSerial
  body := by
    intro q s a ha
    obtain ⟨r, hr, rfl⟩ := map_ok.mp ha
    exact (kitAggregateMeasurements_ok hr).1
  link := by
    intro q s a ha
    obtain ⟨r, hr, rfl⟩ := map_ok.mp ha
    obtain ⟨-, hnext⟩ := kitAggregateMeasurements_ok hr
    generalize Keyset.page AggregateMeasurement.key AggregateCursor.PER_PAGE
      (cursorKey x q.cursor) (q.table kitSerial s) = page at hnext ⊢
    have hkey : Keyset.next AggregateMeasurement.key AggregateCursor.PER_PAGE page
        = r.next.map (·.key) := by
      rw [hnext, Keyset.next, AggregateCursor.nextFromPage]
      split
      · rw [Option.map_map]
        rfl
      · rfl
    rw [hkey]
    cases hc : r.next with
    | none => exact Or.inl ⟨rfl, rfl⟩
    | some c =>
        refine Or.inr ⟨_, _, c.key, rfl, AggregatesQuery.ofLink_next hx kitSerial q c, ?_, rfl, rfl⟩
        simp only [cursorKey, Option.bind_some, AggregateCursor.fromStr_toString hx,
          Option.map_some]

theorem serves_media {x : Codecs} (hx : x.RoundTrips) (userId : Option Int)
    (kitSerial : String) :
    Keyset.Serves Media.key MediaCursor.PER_PAGE (MediaQuery.request x userId kitSerial)
      (MediaQuery.ofLink x kitSerial) (fun q => cursorKey x q.cursor)
      (MediaQuery.table kitSerial) Eq where
  nodup := nodup_table_media kitSerial
  body := by
    intro q s a ha
    obtain ⟨r, hr, rfl⟩ := map_ok.mp ha
    rw [← (kitMedia_ok hr).1]
    exact List.forall₂_refl _
  link := by
    intro q s a ha
    obtain ⟨r, hr, rfl⟩ := map_ok.mp ha
    obtain ⟨-, hnext⟩ := kitMedia_ok hr
    generalize Keyset.page Media.key MediaCursor.PER_PAGE (cursorKey x q.cursor)
      (q.table kitSerial s) = page at hnext ⊢
    have hkey : Keyset.next Media.key MediaCursor.PER_PAGE page
        = r.next.map fun c => pageKey c.datetime c.id := by
      rw [hnext, Keyset.next, MediaCursor.nextFromPage]
      split
      · rw [Option.map_map]
        rfl
      · rfl
    rw [hkey]
    cases hc : r.next with
    | none => exact Or.inl ⟨rfl, rfl⟩
    | some c =>
        refine Or.inr ⟨_, _, pageKey c.datetime c.id, rfl,
          MediaQuery.ofLink_next hx kitSerial q c, ?_, rfl, rfl⟩
        simp only [cursorKey, Option.bind_some, MediaCursor.fromStr_toString hx, Option.map_some]
        rfl

theorem key_of_tryFrom {m : AggregateMeasurement} {v : AggregateMeasurementView}
    (h : AggregateMeasurementView.tryFrom m = .ok v) : v.key = m.key := by
  unfold AggregateMeasurementView.tryFrom at h
  split at h
  · cases h
    rfl
  · cases h

/-! ## Answers -/

/-- The cursor, if there is one, is the text of one. -/
def CursorReads (x : Codecs) (cursor : Option String) : Prop :=
  ∀ c, cursor = some c → (AggregateCursor.fromStr x c).isSome = true

/-- The rows on the page that the query asks for. -/
def AggregatesQuery.page (x : Codecs) (kitSerial : String) (q : AggregatesQuery)
    (s : Store × Store) : List AggregateMeasurement :=
  Keyset.page AggregateMeasurement.key AggregateCursor.PER_PAGE (cursorKey x q.cursor)
    (q.table kitSerial s)

theorem AggregatesQuery.mem_of_mem_page {x : Codecs} {kitSerial : String} {q : AggregatesQuery}
    {s : Store × Store} {m : AggregateMeasurement} (h : m ∈ q.page x kitSerial s) :
    m ∈ s.2.aggregateMeasurements := by
  have htable := (Keyset.mem_page h).1
  unfold table at htable
  split at htable
  · cases htable
  · exact (Table.mem_select.mp htable).1

section Answers

variable {x : Codecs} {userId : Option Int} {kitSerial : String} {s : Store × Store}

/-- **To whoever may view the kit** a page is answered exactly if its rows can be
read. -/
theorem AggregatesQuery.request_ok_iff (hview : ActorMayView userId kitSerial s.1)
    {q : AggregatesQuery} (hcursor : CursorReads x q.cursor) :
    (∃ a, q.request x userId kitSerial s = .ok a) ↔ ∀ m ∈ q.page x kitSerial s, m.Convertible := by
  obtain ⟨hactor, kit, hkit, hpermitted⟩ := hview
  obtain ⟨_, _, hperm⟩ := futKitPermissionOrForbidden_of_permitted hactor hkit hpermitted
  have hrest : ∀ c : Option AggregateCursor,
      (∃ r, ((futKitPermissionOrForbidden userId kitSerial .view).run s.1 >>= fun r =>
        aggregatesResponse (AggregateMeasurement.page r.1.2.2.id q c s.2)) = .ok r)
      ↔ ∀ m ∈ Keyset.page AggregateMeasurement.key AggregateCursor.PER_PAGE (c.map (·.key))
        (q.table kitSerial s), m.Convertible := by
    intro c
    rw [hperm, table, hkit, ← AggregateMeasurement.page_eq]
    exact aggregatesResponse_ok_iff
  have hmap : (∃ a, q.request x userId kitSerial s = .ok a)
      ↔ ∃ r, kitAggregateMeasurements (AggregateCursor.fromStr x) userId kitSerial q s.1 s.2
        = .ok r := by
    simp only [request, map_ok]
    exact ⟨fun ⟨_, r, hr, _⟩ => ⟨r, hr⟩, fun ⟨r, hr⟩ => ⟨_, r, hr, rfl⟩⟩
  rw [hmap, kitAggregateMeasurements, page, cursorKey]
  cases hc : q.cursor with
  | none => exact hrest none
  | some cursor =>
      obtain ⟨c, hread⟩ := Option.isSome_iff_exists.mp (hcursor cursor hc)
      simp only [hread, Option.bind_some]
      exact hrest (some c)

theorem MediaQuery.request_ok (hview : ActorMayView userId kitSerial s.1) {q : MediaQuery}
    (hcursor : CursorReads x q.cursor) : ∃ a, q.request x userId kitSerial s = .ok a := by
  obtain ⟨hactor, kit, hkit, hpermitted⟩ := hview
  obtain ⟨_, _, hperm⟩ := futKitPermissionOrForbidden_of_permitted hactor hkit hpermitted
  suffices hok : ∃ r, kitMedia (AggregateCursor.fromStr x) userId kitSerial q s.1 s.2 = .ok r by
    obtain ⟨r, hr⟩ := hok
    exact ⟨_, map_ok.mpr ⟨r, hr, rfl⟩⟩
  rw [kitMedia]
  cases hc : q.cursor with
  | none =>
      rw [hperm]
      exact ⟨_, rfl⟩
  | some cursor =>
      obtain ⟨c, hread⟩ := Option.isSome_iff_exists.mp (hcursor cursor hc)
      simp only [hread, hperm]
      exact ⟨_, rfl⟩

theorem cursorReads_aggregates (hx : x.RoundTrips) {q q' : AggregatesQuery}
    {a : Keyset.Answer AggregateMeasurementView Link} {link : Link}
    (ha : q.request x userId kitSerial s = .ok a) (hlink : a.link = some link)
    (hq' : AggregatesQuery.ofLink x kitSerial link = some q') : CursorReads x q'.cursor := by
  obtain ⟨r, -, rfl⟩ := map_ok.mp ha
  obtain ⟨c, -, rfl⟩ := Option.map_eq_some_iff.mp hlink
  rw [AggregatesQuery.ofLink_next hx] at hq'
  obtain rfl := Option.some.inj hq'
  rintro _ ⟨⟩
  rw [AggregateCursor.fromStr_toString hx]
  rfl

theorem cursorReads_media (hx : x.RoundTrips) {q q' : MediaQuery}
    {a : Keyset.Answer Media Link} {link : Link}
    (ha : q.request x userId kitSerial s = .ok a) (hlink : a.link = some link)
    (hq' : MediaQuery.ofLink x kitSerial link = some q') : CursorReads x q'.cursor := by
  obtain ⟨r, -, rfl⟩ := map_ok.mp ha
  obtain ⟨c, -, rfl⟩ := Option.map_eq_some_iff.mp hlink
  rw [MediaQuery.ofLink_next hx] at hq'
  obtain rfl := Option.some.inj hq'
  rintro _ ⟨⟩
  rw [MediaCursor.fromStr_toString hx]
  rfl

end Answers

/-! ## Walks -/

/-- The requests of a walk, with what each of them sees. -/
abbrev AggregatesQuery.requests (x : Codecs) (userId : Option Int) (kitSerial : String) :
    AggregatesQuery → List (Store × Store) → List (AggregatesQuery × (Store × Store)) :=
  Keyset.requests (request x userId kitSerial) (ofLink x kitSerial)

section Walks

variable {x : Codecs} {userId : Option Int} {kitSerial : String} {states : Nat → Store × Store}
  {n₀ : Nat}

theorem mem_states {n : Nat} {s : Store × Store} (h : s ∈ (List.range n).map states) :
    ∃ i, s = states i := by
  obtain ⟨i, -, rfl⟩ := List.mem_map.mp h
  exact ⟨i, rfl⟩

/-- Over the aggregates, a walk comes to its end exactly if the pages that it asks
for can be read. -/
theorem aggregates_finish_iff (hx : x.RoundTrips) {q : AggregatesQuery} (hq : q.cursor = none)
    (hview : ∀ n, ActorMayView userId kitSerial (states n).1)
    (hsettled : ∀ n ≥ n₀, q.table kitSerial (states (n + 1)) ⊆ q.table kitSerial (states n)) :
    (∃ n, Keyset.Finished (Keyset.follow (AggregatesQuery.request x userId kitSerial)
        (AggregatesQuery.ofLink x kitSerial) q ((List.range n).map states)))
      ↔ ∀ n, ∀ r ∈ q.requests x userId kitSerial ((List.range n).map states),
        ∀ m ∈ r.1.page x kitSerial r.2, m.Convertible := by
  rw [Keyset.finishes_iff (serves_aggregates hx userId kitSerial) hsettled]
  refine forall_congr' fun n => forall_congr' fun r => forall_congr' fun hr => ?_
  obtain ⟨hcursor, hmem⟩ := Keyset.forall_requests (P := fun q => CursorReads x q.cursor)
    (fun _ _ _ _ _ _ ha hl hd => cursorReads_aggregates hx ha hl hd)
    (fun c hc => by rw [hq] at hc; cases hc) _ r hr
  obtain ⟨i, hi⟩ := mem_states hmem
  exact AggregatesQuery.request_ok_iff (hi ▸ hview i) hcursor

theorem media_finish (hx : x.RoundTrips) {q : MediaQuery} (hq : q.cursor = none)
    (hview : ∀ n, ActorMayView userId kitSerial (states n).1)
    (hsettled : ∀ n ≥ n₀, q.table kitSerial (states (n + 1)) ⊆ q.table kitSerial (states n)) :
    ∃ n, Keyset.Finished (Keyset.follow (MediaQuery.request x userId kitSerial)
      (MediaQuery.ofLink x kitSerial) q ((List.range n).map states)) := by
  refine (Keyset.finishes_iff (serves_media hx userId kitSerial) hsettled).mpr fun n r hr => ?_
  obtain ⟨hcursor, hmem⟩ := Keyset.forall_requests (P := fun q => CursorReads x q.cursor)
    (fun _ _ _ _ _ _ ha hl hd => cursorReads_media hx ha hl hd)
    (fun c hc => by rw [hq] at hc; cases hc) _ r hr
  obtain ⟨i, hi⟩ := mem_states hmem
  exact MediaQuery.request_ok (hi ▸ hview i) hcursor

end Walks

/-- **Pagination is exact**, for every user, kit and filters, and every pair of
stores that the handler sees at each request; and for whoever may view the kit the
walk comes to its end, over media always, and over aggregates exactly if the rows
on the pages that it asks for can be read. A cursor leads back to the key it was
made of, and a link to its query with the cursor. -/
theorem pagination_exact_iff {x : Codecs} (hx : x.RoundTrips) (userId : Option Int)
    (kitSerial : String) :
    Keyset.Exact AggregateMeasurement.key (AggregatesQuery.request x userId kitSerial)
        (AggregatesQuery.ofLink x kitSerial) (fun q => cursorKey x q.cursor)
        (AggregatesQuery.table kitSerial) (fun m v => AggregateMeasurementView.tryFrom m = .ok v)
        AggregateMeasurementView.key
      ∧ (∀ (q : AggregatesQuery) (states : Nat → Store × Store) (n₀ : Nat), q.cursor = none →
        (∀ n, ActorMayView userId kitSerial (states n).1) →
        (∀ n ≥ n₀, q.table kitSerial (states (n + 1)) ⊆ q.table kitSerial (states n)) →
        ((∃ n, Keyset.Finished (Keyset.follow (AggregatesQuery.request x userId kitSerial)
            (AggregatesQuery.ofLink x kitSerial) q ((List.range n).map states)))
          ↔ ∀ n, ∀ r ∈ q.requests x userId kitSerial ((List.range n).map states),
            ∀ m ∈ r.1.page x kitSerial r.2, m.Convertible))
      ∧ Keyset.Exact Media.key (MediaQuery.request x userId kitSerial)
        (MediaQuery.ofLink x kitSerial) (fun q => cursorKey x q.cursor)
        (MediaQuery.table kitSerial) Eq Media.key
      ∧ (∀ (q : MediaQuery) (states : Nat → Store × Store) (n₀ : Nat), q.cursor = none →
        (∀ n, ActorMayView userId kitSerial (states n).1) →
        (∀ n ≥ n₀, q.table kitSerial (states (n + 1)) ⊆ q.table kitSerial (states n)) →
        ∃ n, Keyset.Finished (Keyset.follow (MediaQuery.request x userId kitSerial)
          (MediaQuery.ofLink x kitSerial) q ((List.range n).map states)))
      ∧ (∀ c : AggregateCursor, AggregateCursor.fromStr x (c.toString x) = some c)
      ∧ (∀ c : MediaCursor, AggregateCursor.fromStr x (c.toString x) = some ⟨c.datetime, c.id⟩)
      ∧ (∀ (q : AggregatesQuery) c, AggregatesQuery.ofLink x kitSerial (q.next x kitSerial c)
        = some { q with cursor := some (c.toString x) })
      ∧ (∀ (q : MediaQuery) c, MediaQuery.ofLink x kitSerial (q.next x kitSerial c)
        = some { q with cursor := some (c.toString x) }) :=
  ⟨(serves_aggregates hx userId kitSerial).exact (by decide) fun _ _ => key_of_tryFrom,
    fun _ _ _ hq hview hsettled => aggregates_finish_iff hx hq hview hsettled,
    (serves_media hx userId kitSerial).exact (by decide) fun _ _ h => by rw [h],
    fun _ _ _ hq hview hsettled => media_finish hx hq hview hsettled,
    AggregateCursor.fromStr_toString hx, MediaCursor.fromStr_toString hx,
    AggregatesQuery.ofLink_next hx kitSerial, MediaQuery.ofLink_next hx kitSerial⟩

end AstroPlant
