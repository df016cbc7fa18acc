import AstroPlant.ExactPages
import AstroPlant.Hyphenated
import AstroPlant.ReadableAggregates

/-!
# Codecs that round-trip

Concrete codecs that write what is read back: percent-encoding of form data
byte by byte, JSON strings with escapes, and times as numbers. With them a client
walks over two pages of aggregates, and fails to walk over one whose values are
not all numbers.

The round trips of pages are proved for any codecs that read back what they
wrote. These are here to show that there are some, and to run a client on rows
that are written down; nothing else depends on how they are made.
-/

namespace AstroPlant

/-! ## Form data -/

namespace FormUrlencoded

def unreserved (b : UInt8) : Bool :=
  let c := Char.ofNat b.toNat
  b < 128 && (c.isAlphanum || c = '*' || c = '-' || c = '.' || c = '_')

def encodeByte (b : UInt8) : List Char :=
  if unreserved b then [Char.ofNat b.toNat]
  else if b = 32 then ['+']
  else ['%', (hexDigit (b.toNat / 16)).toUpper, (hexDigit (b.toNat % 16)).toUpper]

def decodeBytes : List Char → List UInt8
  | [] => []
  | '%' :: h :: l :: cs =>
      match hexValue h, hexValue l with
      | some h, some l => .ofNat (16 * h + l) :: decodeBytes cs
      | _, _ => 37 :: decodeBytes (h :: l :: cs)
  | c :: cs => (if c = '+' then 32 else .ofNat c.toNat) :: decodeBytes cs

def encode (s : String) : List Char := s.toByteArray.data.toList.flatMap encodeByte

def decode (cs : List Char) : String :=
  (String.fromUTF8? (decodeBytes cs).toByteArray).getD ""

/-- The text of a byte is a character that stands for it, or an escape; in both
cases it can be put between separators. -/
def readable (b : UInt8) : Bool :=
  match encodeByte b with
  | [c] =>
      c ≠ '%' && c ≠ '&' && c ≠ '=' && (if c = '+' then 32 else UInt8.ofNat c.toNat) = b
  | ['%', h, l] =>
      h ≠ '&' && h ≠ '=' && l ≠ '&' && l ≠ '='
        && match hexValue h, hexValue l with
          | some h, some l => UInt8.ofNat (16 * h + l) = b
          | _, _ => false
  | _ => false

theorem readable_all : ∀ n < 256, readable (.ofNat n) = true := by
  decide +kernel

theorem readable_byte (b : UInt8) : readable b = true := by
  have hb := readable_all b.toNat b.toNat_lt
  rwa [UInt8.ofNat_toNat] at hb

theorem decodeBytes_encodeByte (b : UInt8) (cs : List Char) :
    decodeBytes (encodeByte b ++ cs) = b :: decodeBytes cs := by
  have hb := readable_byte b
  unfold readable at hb
  split at hb
  · rename_i c hc
    simp only [Bool.and_eq_true, decide_eq_true_eq] at hb
    obtain ⟨⟨⟨hpercent, -⟩, -⟩, hval⟩ := hb
    rw [hc, List.singleton_append, decodeBytes, hval]
    intro h l rest heq
    exact absurd heq (by simp [hpercent])
  · rename_i h l hc
    simp only [Bool.and_eq_true] at hb
    obtain ⟨-, hval⟩ := hb
    split at hval
    · rename_i m n hm hn
      rw [hc]
      simp only [List.cons_append, List.nil_append, decodeBytes, hm, hn]
      rw [of_decide_eq_true hval]
    · cases hval
  · cases hb

theorem not_mem_encode {s : String} {c : Char} (hc : c = '&' ∨ c = '=') : c ∉ encode s := by
  intro hmem
  obtain ⟨b, -, hb⟩ := List.mem_flatMap.mp hmem
  have hread := readable_byte b
  unfold readable at hread
  split at hread
  · rename_i c' hc'
    rw [hc', List.mem_singleton] at hb
    subst hb
    simp only [Bool.and_eq_true, decide_eq_true_eq] at hread
    rcases hc with rfl | rfl
    · exact hread.1.1.2 rfl
    · exact hread.1.2 rfl
  · rename_i h l hc'
    rw [hc'] at hb
    simp only [Bool.and_eq_true, decide_eq_true_eq] at hread
    obtain ⟨⟨⟨⟨hh, hh'⟩, hl⟩, hl'⟩, -⟩ := hread
    simp only [List.mem_cons, List.not_mem_nil, or_false] at hb
    rcases hb with rfl | rfl | rfl
    · rcases hc with hc | hc <;> cases hc
    · exact hc.elim hh hh'
    · exact hc.elim hl hl'
  · cases hread

theorem decode_encode (s : String) : decode (encode s) = s := by
  have hbytes : ∀ bs : List UInt8, decodeBytes (bs.flatMap encodeByte) = bs := by
    intro bs
    induction bs with
    | nil => rfl
    | cons b bs ih => rw [List.flatMap_cons, decodeBytes_encodeByte, ih]
  have harray : s.toByteArray.data.toList.toByteArray = s.toByteArray := by
    rw [ByteArray.ext_iff, ← Array.toList_inj, List.toList_data_toByteArray]
  rw [decode, encode, hbytes, harray, String.fromUTF8?, dif_pos s.isValidUTF8]
  rfl

/-- Pairs, as the body of a form or the query of a link. -/
def encodePairs (ps : List (String × String)) : List Char :=
  ['&'].intercalate (ps.map fun p => encode p.1 ++ '=' :: encode p.2)

def decodePairs (cs : List Char) : List (String × String) :=
  ((cs.splitOn '&').filter (· ≠ [])).map fun pair =>
    (decode (pair.takeWhile (· ≠ '=')), decode ((pair.dropWhile (· ≠ '=')).drop 1))

theorem takeWhile_encode (k : String) (cs : List Char) :
    (encode k ++ '=' :: cs).takeWhile (· ≠ '=') = encode k
      ∧ ((encode k ++ '=' :: cs).dropWhile (· ≠ '=')).drop 1 = cs := by
  have hall : ∀ c ∈ encode k, decide (c ≠ '=') = true := by
    intro c hc
    refine decide_eq_true fun heq => ?_
    exact not_mem_encode (Or.inr rfl) (heq ▸ hc)
  constructor
  · rw [List.takeWhile_append_of_pos hall]
    simp
  · rw [List.dropWhile_append_of_pos hall]
    simp

theorem decodePairs_encodePairs (ps : List (String × String)) :
    decodePairs (encodePairs ps) = ps := by
  rcases List.eq_nil_or_concat ps with rfl | ⟨ps', p, hps⟩
  · rfl
  · have hne : ps ≠ [] := by
      rw [hps]
      simp
    have hsplit : (encodePairs ps).splitOn '&'
        = ps.map fun p => encode p.1 ++ '=' :: encode p.2 := by
      refine List.splitOn_intercalate '&' (fun l hl => ?_) (by simpa using hne)
      obtain ⟨p, -, rfl⟩ := List.mem_map.mp hl
      intro hmem
      rcases List.mem_append.mp hmem with hmem | hmem
      · exact not_mem_encode (Or.inl rfl) hmem
      · rcases List.mem_cons.mp hmem with hmem | hmem
        · cases hmem
        · exact not_mem_encode (Or.inl rfl) hmem
    have hfilter : (ps.map fun p => encode p.1 ++ '=' :: encode p.2).filter (· ≠ [])
        = ps.map fun p => encode p.1 ++ '=' :: encode p.2 := by
      refine List.filter_eq_self.mpr fun l hl => ?_
      obtain ⟨p, -, rfl⟩ := List.mem_map.mp hl
      simp
    rw [decodePairs, hsplit, hfilter, List.map_map]
    refine (List.map_congr_left fun p _ => ?_).trans (List.map_id ps)
    obtain ⟨hk, hv⟩ := takeWhile_encode p.1 (encode p.2)
    simp only [Function.comp, hk, hv, decode_encode, id]

end FormUrlencoded

/-! ## JSON -/

namespace JsonText

/-- The characters of a string, with its closing quote. -/
def quote : List Char → List Char
  | [] => ['"']
  | c :: cs => if c = '"' ∨ c = '\\' then '\\' :: c :: quote cs else c :: quote cs

/-- What stands before the closing quote, and what follows it. -/
def unquote : List Char → Option (List Char × List Char)
  | [] => none
  | '"' :: rest => some ([], rest)
  | '\\' :: c :: rest => (unquote rest).map fun r => (c :: r.1, r.2)
  | c :: rest => (unquote rest).map fun r => (c :: r.1, r.2)

theorem unquote_quote (cs rest : List Char) : unquote (quote cs ++ rest) = some (cs, rest) := by
  induction cs with
  | nil => rfl
  | cons c cs ih =>
      by_cases hc : c = '"' ∨ c = '\\'
      · simp [quote, hc, unquote, ih]
      · have hquote : quote (c :: cs) = c :: quote cs := if_neg hc
        rw [hquote, List.cons_append, unquote, ih]
        · rfl
        · exact fun h => hc (Or.inl h)
        · exact fun _ _ h _ => hc (Or.inr h)

/-- An array of two strings; nothing else is written. -/
def toString : Json → String
  | .array [.string a, .string b] =>
      String.ofList ('[' :: '"' :: (quote a.toList ++ ',' :: '"' :: (quote b.toList ++ [']'])))
  | _ => "null"

def fromStr (s : String) : Option Json :=
  match s.toList with
  | '[' :: '"' :: cs =>
      match unquote cs with
      | some (a, ',' :: '"' :: cs) =>
          match unquote cs with
          | some (b, [']']) => some (.array [.string (String.ofList a), .string (String.ofList b)])
          | _ => none
      | _ => none
  | _ => none

theorem fromStr_toString (a b : String) :
    fromStr (toString (.array [.string a, .string b])) = some (.array [.string a, .string b]) := by
  simp [fromStr, toString, unquote_quote]

end JsonText

/-! ## Timestamps -/

/-- The epoch in RFC 3339; other times are written as a number. -/
def datetimeToString (t : Timestamp) : String :=
  if t = 0 then "1970-01-01T00:00:00Z" else "@" ++ t.repr

def datetimeFromStr (s : String) : Option Timestamp :=
  match s.toList with
  | '@' :: cs => i32FromStr (String.ofList cs)
  | _ => if s = "1970-01-01T00:00:00Z" then some 0 else none

theorem datetimeFromStr_datetimeToString (t : Timestamp) :
    datetimeFromStr (datetimeToString t) = some t := by
  unfold datetimeToString
  split
  · rename_i ht
    subst ht
    rfl
  · have hlist : ("@" ++ t.repr).toList = '@' :: t.repr.toList := by
      rw [String.toList_append]
      rfl
    simp only [datetimeFromStr, hlist, String.ofList_toList]
    exact i32FromStr_i32ToString t

/-! ## All together -/

def plainCodecs : Codecs where
  jsonToString := JsonText.toString
  jsonFromStr := JsonText.fromStr
  datetimeToString
  datetimeFromStr
  uuidFromStr
  urlencodedToString ps := String.ofList (FormUrlencoded.encodePairs ps)
  urlencodedFromStr s := FormUrlencoded.decodePairs s.toList

theorem plainCodecs_roundTrips : plainCodecs.RoundTrips := by
  refine ⟨fun a b => ?_, fun t => ?_, fun id => ?_, fun ps => ?_⟩
  · exact JsonText.fromStr_toString a b
  · simp only [plainCodecs]
    exact datetimeFromStr_datetimeToString t
  · simp only [plainCodecs]
    exact uuidFromStr_hyphenated id
  · simp only [plainCodecs, String.toList_ofList]
    exact FormUrlencoded.decodePairs_encodePairs ps

/-! ## Walks -/

/-- Of these every other one begins when the one before it does. -/
def finiteAggregate (n : Nat) : AggregateMeasurement :=
  ⟨.ofNat 128 n, 1, 1, 1, 1, (n / 2 : Nat), (n / 2 + 1 : Nat),
    .object [("average", .ofF64 F64.one)]⟩

def finiteAggregates : List AggregateMeasurement := (List.range 51).map finiteAggregate

/-- One row more than a page has. -/
def twoPages : Store :=
  { twoKits with
    aggregateMeasurements :=
      { rows := finiteAggregates
        nodup := by decide +kernel } }

/-- What a query without filters asks for, while nothing is written. -/
abbrev walk (kitSerial : String) (s : Store) (n : Nat) :
    List (Except Problem (Keyset.Answer AggregateMeasurementView Link)) :=
  Keyset.follow (AggregatesQuery.request plainCodecs none kitSerial)
    (AggregatesQuery.ofLink plainCodecs kitSerial) ⟨none, none, none, none⟩
    ((List.range n).map fun _ => (s, s))

theorem actorMayView_twoPages : ActorMayView none "k1" twoPages :=
  ⟨fun _ h => (by cases h), _, rfl, rfl⟩

/-- Anybody who asks for the aggregates of the public kit comes to the end, and has
been given each of them, in order. -/
theorem pagination_exact_iff_twoPages :
    ∃ n, Keyset.Finished (walk "k1" twoPages n)
      ∧ (∀ m ∈ finiteAggregates, ∃ v ∈ Keyset.returned (walk "k1" twoPages n),
        AggregateMeasurementView.tryFrom m = .ok v)
      ∧ (Keyset.returned (walk "k1" twoPages n)).Pairwise
        (AggregateMeasurementView.key · > AggregateMeasurementView.key ·) := by
  obtain ⟨hexact, hfinishes, -⟩ := pagination_exact_iff plainCodecs_roundTrips none "k1"
  have hreadable : ∀ m ∈ finiteAggregates, m.Convertible := by
    intro m hm
    obtain ⟨n, -, rfl⟩ := List.mem_map.mp hm
    rfl
  obtain ⟨n, hfinished⟩ := (hfinishes ⟨none, none, none, none⟩ (fun _ => (twoPages, twoPages)) 0 rfl
    (fun _ => actorMayView_twoPages) fun _ _ => List.Subset.refl _).mpr fun n r hr m hm => by
      obtain ⟨-, hmem⟩ := Keyset.forall_requests (P := fun _ => True)
        (fun _ _ _ _ _ _ _ _ _ => trivial) trivial _ r hr
      obtain ⟨_, hr₂⟩ := mem_states hmem
      have hrow := AggregatesQuery.mem_of_mem_page hm
      rw [hr₂] at hrow
      exact hreadable m hrow
  refine ⟨n, hfinished, fun m hm => (hexact.once _ _ rfl hfinished m fun s hs => ?_).1,
    hexact.decreasing _ _⟩
  obtain ⟨_, rfl⟩ := mem_states (List.mem_of_mem_take hs)
  have htable : m ∈ finiteAggregates.filter
      (AggregateMeasurement.matching 1 ⟨none, none, none, none⟩) := by
    refine List.mem_filter.mpr ⟨hm, ?_⟩
    obtain ⟨n, -, rfl⟩ := List.mem_map.mp hm
    rfl
  exact htable

/-- An average that is not a number has been stored for the public kit. Whoever asks
for the aggregates is answered with an error, and no walk comes to an end. -/
theorem nan_aggregate_ends_walk :
    ∃ c m, Run.exec (services plainCrates).step ⟨.start twoKits, []⟩ (storeAggregate F64.nan)
        = some c
      ∧ AggregatesQuery.table "k1" ⟨none, none, none, none⟩ (c.store.store, c.store.store) = [m]
      ∧ ActorMayView none "k1" c.store.store
      ∧ walk "k1" c.store.store 1 = [.error .INTERNAL_SERVER_ERROR]
      ∧ ∀ n, ¬Keyset.Finished (walk "k1" c.store.store n) := by
  obtain ⟨c, m, hrun, htable, hview, hanswer⟩ : ∃ c m,
      Run.exec (services plainCrates).step ⟨.start twoKits, []⟩ (storeAggregate F64.nan) = some c
      ∧ AggregatesQuery.table "k1" ⟨none, none, none, none⟩ (c.store.store, c.store.store) = [m]
      ∧ ActorMayView none "k1" c.store.store
      ∧ AggregatesQuery.request plainCodecs none "k1" ⟨none, none, none, none⟩
        (c.store.store, c.store.store) = .error .INTERNAL_SERVER_ERROR :=
    ⟨_, _, rfl, rfl, ⟨fun _ h => (by cases h), _, rfl, rfl⟩, rfl⟩
  have hwalk : ∀ n, walk "k1" c.store.store (n + 1) = [.error .INTERNAL_SERVER_ERROR] := by
    intro n
    rw [walk, Keyset.range_map_succ, Keyset.follow, hanswer]
  refine ⟨c, m, hrun, htable, hview, hwalk 0, fun n hfinished => ?_⟩
  obtain ⟨body, hlast⟩ := hfinished
  cases n with
  | zero => cases hlast
  | succ n =>
      rw [hwalk] at hlast
      cases hlast

end AstroPlant
