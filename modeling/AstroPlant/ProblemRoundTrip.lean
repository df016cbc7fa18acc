import AstroPlant.Problem
import AstroPlant.Serde

/-!
# Problems as JSON

A problem is sent with a title, its status and sometimes a detail beside its own
fields, in one object. Reading the problem back from that object takes no notice
of the added keys, but where a variant is an externally tagged enum its key has
to be the only one. So every problem is read back except a kit RPC problem, and
except a range with a bound for which JSON has no number.

Writing and reading are defined for each type as `serde` derives them, from the
inside out, each with its round trip. The keys that are added to a problem come
after its own fields, and a struct or an internally tagged enum ignores them
(`readBack_eq`); for an externally tagged one the object must have a single key
(`readBack_kitRpc`). The map of invalid parameters is read back entry by entry,
in whatever order a hash map has them, so problems are compared up to that order
(`Problem.Same`).
-/

namespace AstroPlant

/-! ## The types of a problem -/

namespace GenericProblem

def title : GenericProblem → String
  | notFound => "Not Found"
  | internalServerError => "Internal Server Error"
  | serviceUnavailable => "Service Unavailable"
  | forbidden => "Forbidden"
  | methodNotAllowed => "Method Not Allowed"
  | badRequest => "Bad Request"

/-- Internally tagged, by the title. -/
def toFields (problem : GenericProblem) : List (String × Json) :=
  [("title", .string problem.title)]

def ofJson (j : Json) : Option GenericProblem :=
  match j.internallyTagged "title" with
  | some ("Not Found", _) => some notFound
  | some ("Internal Server Error", _) => some internalServerError
  | some ("Service Unavailable", _) => some serviceUnavailable
  | some ("Forbidden", _) => some forbidden
  | some ("Method Not Allowed", _) => some methodNotAllowed
  | some ("Bad Request", _) => some badRequest
  | _ => none

end GenericProblem

namespace AccessTokenProblemCategory

def toJson : AccessTokenProblemCategory → Json
  | missing => .string "missing"
  | malformed => .string "malformed"
  | expired => .string "expired"

def ofJson (j : Json) : Option AccessTokenProblemCategory :=
  match j.unitVariant with
  | some "missing" => some missing
  | some "malformed" => some malformed
  | some "expired" => some expired
  | _ => none

@[simp] theorem ofJson_toJson (category : AccessTokenProblemCategory) :
    ofJson category.toJson = some category := by
  cases category <;> rfl

end AccessTokenProblemCategory

namespace JsonDeserializeErrorCategory

def toJson : JsonDeserializeErrorCategory → Json
  | syntactic => .string "syntactic"
  | semantic => .string "semantic"
  | prematureEnd => .string "prematureEnd"
  | other => .string "other"

def ofJson (j : Json) : Option JsonDeserializeErrorCategory :=
  match j.unitVariant with
  | some "syntactic" => some syntactic
  | some "semantic" => some semantic
  | some "prematureEnd" => some prematureEnd
  | some "other" => some other
  | _ => none

@[simp] theorem ofJson_toJson (category : JsonDeserializeErrorCategory) :
    ofJson category.toJson = some category := by
  cases category <;> rfl

end JsonDeserializeErrorCategory

namespace KitRpcProblem

/-- A variant inside a variant: its key stands beside the tag of the outer one. -/
def toFields : KitRpcProblem → List (String × Json)
  | kitRpcResponseError error => [("kitRpcResponseError", .string error)]

def ofJson (j : Json) : Option KitRpcProblem :=
  match j.externallyTagged with
  | some ("kitRpcResponseError", content) => content.string?.map kitRpcResponseError
  | _ => none

end KitRpcProblem

/-! ## Reasons against a parameter -/

namespace InvalidParameterReason

def toJson : InvalidParameterReason → Json
  | mustBeEmailAddress => .string "mustBeEmailAddress"
  | mustBeUrl => .string "mustBeUrl"
  | mustBeInRange min max =>
      .object [("mustBeInRange", .object [("min", .ofF64 min), ("max", .ofF64 max)])]
  | mustHaveLengthBetween min max =>
      .object [("mustHaveLengthBetween",
        .object (Json.unlessNone .ofNat "min" min ++ Json.unlessNone .ofNat "max" max))]
  | mustHaveLengthExactly length =>
      .object [("mustHaveLengthExactly", .object [("length", .ofNat length)])]
  | alreadyExists => .string "alreadyExists"
  | alreadyActivated => .string "alreadyActivated"
  | invalidToken category =>
      .object [("invalidToken", .object [("category", category.toJson)])]
  | notFound => .string "notFound"
  | other => .string "other"

def ofJson (j : Json) : Option InvalidParameterReason :=
  match j.externallyTagged with
  | some ("mustBeEmailAddress", .null) => some mustBeEmailAddress
  | some ("mustBeUrl", .null) => some mustBeUrl
  | some ("mustBeInRange", content) =>
      match content.struct ["min", "max"] with
      | some [min, max] => min.toF64?.bind fun min => max.toF64?.map (mustBeInRange min)
      | _ => none
  | some ("mustHaveLengthBetween", content) =>
      (content.optionField Json.u64? "min").bind fun min =>
        (content.optionField Json.u64? "max").map (mustHaveLengthBetween min)
  | some ("mustHaveLengthExactly", content) =>
      match content.struct ["length"] with
      | some [length] => length.u64?.map mustHaveLengthExactly
      | _ => none
  | some ("alreadyExists", .null) => some alreadyExists
  | some ("alreadyActivated", .null) => some alreadyActivated
  | some ("invalidToken", content) =>
      match content.struct ["category"] with
      | some [category] => (AccessTokenProblemCategory.ofJson category).map invalidToken
      | _ => none
  | some ("notFound", .null) => some notFound
  | some ("other", .null) => some other
  | _ => none

/-- The bounds of a range are numbers of JSON. -/
def isFinite : InvalidParameterReason → Bool
  | mustBeInRange min max => min.isFinite && max.isFinite
  | _ => true

/-- A reason is read back as itself or, where a bound has become `null`, not at
all. -/
theorem ofJson_toJson (reason : InvalidParameterReason) :
    ofJson reason.toJson = if reason.isFinite then some reason else none := by
  cases reason with
  | mustBeInRange min max =>
      show ((Json.ofF64 min).toF64?.bind fun min => (Json.ofF64 max).toF64?.map (mustBeInRange min))
        = _
      rw [Json.toF64?_ofF64, Json.toF64?_ofF64, isFinite]
      cases min.isFinite <;> cases max.isFinite <;> rfl
  | mustHaveLengthBetween min max => cases min <;> cases max <;> rfl
  | mustHaveLengthExactly length => rfl
  | invalidToken category => cases category <;> rfl
  | _ => rfl

end InvalidParameterReason

namespace InvalidParameters

def reasonsToJson (reasons : List InvalidParameterReason) : Json :=
  .array (reasons.map InvalidParameterReason.toJson)

def reasonsOfJson : Json → Option (List InvalidParameterReason)
  | .array values => values.mapM InvalidParameterReason.ofJson
  | _ => none

/-- The map is flattened: its keys are the fields of the object. -/
def toJson (ps : InvalidParameters) : Json :=
  .object (ps.entries.map fun e => (e.1, reasonsToJson e.2))

/-- Every field of the object is taken into the map. -/
def ofJson : Json → Option InvalidParameters
  | .object fields =>
      fields.foldlM (fun ps (field : String × Json) =>
        (reasonsOfJson field.2).map (ps.insert field.1)) ∅
  | _ => none

def isFinite (ps : InvalidParameters) : Bool :=
  ps.entries.all fun e => e.2.all InvalidParameterReason.isFinite

theorem reasonsOfJson_toJson (reasons : List InvalidParameterReason) :
    reasonsOfJson (reasonsToJson reasons)
      = if reasons.all InvalidParameterReason.isFinite then some reasons else none := by
  rw [reasonsToJson, reasonsOfJson]
  induction reasons with
  | nil => rfl
  | cons reason reasons ih =>
      rw [List.map_cons, List.mapM_cons, ih, InvalidParameterReason.ofJson_toJson, List.all_cons]
      cases reason.isFinite <;> cases reasons.all InvalidParameterReason.isFinite <;> rfl

/-- Reading further entries into a map: they are put before its own. -/
theorem readEntries {entries : List (Sigma fun _ : String => List InvalidParameterReason)}
    {acc : InvalidParameters} (hnodup : (entries.map Sigma.fst).Nodup)
    (hnew : ∀ e ∈ entries, e.1 ∉ acc)
    (hfinite : ∀ e ∈ entries, e.2.all InvalidParameterReason.isFinite) :
    ∃ qs : InvalidParameters, qs.entries.Perm (entries ++ acc.entries)
      ∧ (entries.map fun e => (e.1, reasonsToJson e.2)).foldlM
          (fun ps (field : String × Json) => (reasonsOfJson field.2).map (ps.insert field.1)) acc
        = some qs := by
  induction entries generalizing acc with
  | nil => exact ⟨acc, List.Perm.refl _, rfl⟩
  | cons e entries ih =>
      obtain ⟨hhead, hnodup⟩ := List.nodup_cons.mp hnodup
      have hne : ∀ e' ∈ entries, e'.1 ≠ e.1 := fun e' he' h =>
        hhead (h ▸ List.mem_map_of_mem he')
      have hfresh : ∀ e' ∈ entries, e'.1 ∉ acc.insert e.1 e.2 := fun e' he' h =>
        (AList.mem_insert acc).mp h |>.elim (hne e' he') (hnew e' (List.mem_cons_of_mem _ he'))
      obtain ⟨qs, hperm, hqs⟩ :=
        ih hnodup hfresh fun e' he' => hfinite e' (List.mem_cons_of_mem _ he')
      refine ⟨qs, ?_, ?_⟩
      · rw [AList.entries_insert_of_notMem (hnew e List.mem_cons_self)] at hperm
        exact hperm.trans List.perm_middle
      · rw [List.map_cons, List.foldlM_cons, reasonsOfJson_toJson,
          if_pos (hfinite e List.mem_cons_self)]
        exact hqs

/-- The map is read back, in whatever order its entries are listed. -/
theorem exists_ofJson {ps : InvalidParameters} (hfinite : ps.isFinite) :
    ∃ qs : InvalidParameters, qs.entries.Perm ps.entries ∧ ofJson ps.toJson = some qs := by
  obtain ⟨qs, hperm, hqs⟩ := readEntries ps.nodupKeys
    (fun e _ => AList.notMem_empty e.1) (List.all_eq_true.mp hfinite)
  exact ⟨qs, by rwa [AList.empty_entries, List.append_nil] at hperm, hqs⟩

theorem ofJson_eq_none {ps : InvalidParameters} (hfinite : ¬ps.isFinite) :
    ofJson ps.toJson = none := by
  have hfold : ∀ {entries : List (Sigma fun _ : String => List InvalidParameterReason)}
      {acc : InvalidParameters}, ¬(entries.all fun e => e.2.all InvalidParameterReason.isFinite) →
      (entries.map fun e => (e.1, reasonsToJson e.2)).foldlM
        (fun ps (field : String × Json) => (reasonsOfJson field.2).map (ps.insert field.1)) acc
      = none := by
    intro entries
    induction entries with
    | nil => intro acc h; exact absurd rfl h
    | cons e entries ih =>
        intro acc h
        rw [List.map_cons, List.foldlM_cons, reasonsOfJson_toJson]
        split
        · rename_i hhead
          rw [List.all_cons, hhead, Bool.true_and] at h
          exact ih h
        · rfl
  exact hfold hfinite

end InvalidParameters

/-! ## Problems -/

namespace Problem

/-- Internally tagged, by the type; the content of the variant follows. -/
def toFields : Problem → List (String × Json)
  | generic problem => ("type", .string "about:blank") :: problem.toFields
  | rateLimit waitTimeMillis =>
      [("type", .string "/probs/rate-limit"), ("waitTimeMillis", .ofNat waitTimeMillis)]
  | authorizationHeader category =>
      [("type", .string "/probs/authorization-header"), ("category", category.toJson)]
  | payloadTooLarge limit =>
      [("type", .string "/probs/payload-too-large"), ("limit", .ofNat limit)]
  | invalidJson category =>
      [("type", .string "/probs/invalid-json"), ("category", category.toJson)]
  | invalidParameters ps =>
      [("type", .string "/probs/invalid-parameters"), ("invalidParameters", ps.toJson)]
  | kitRpc problem => ("type", .string "/probs/kit-rpc") :: problem.toFields
  | kitsRequireOneSuperMember =>
      [("type", .string "/probs/kits-require-one-super-member")]

def ofJson (j : Json) : Option Problem :=
  match j.internallyTagged "type" with
  | some ("about:blank", content) => (GenericProblem.ofJson content).map generic
  | some ("/probs/rate-limit", content) =>
      match content.struct ["waitTimeMillis"] with
      | some [waitTimeMillis] => waitTimeMillis.u64?.map rateLimit
      | _ => none
  | some ("/probs/authorization-header", content) =>
      match content.struct ["category"] with
      | some [category] =>
          (AccessTokenProblemCategory.ofJson category).map authorizationHeader
      | _ => none
  | some ("/probs/payload-too-large", content) =>
      match content.struct ["limit"] with
      | some [limit] => limit.u64?.map payloadTooLarge
      | _ => none
  | some ("/probs/invalid-json", content) =>
      match content.struct ["category"] with
      | some [category] => (JsonDeserializeErrorCategory.ofJson category).map invalidJson
      | _ => none
  | some ("/probs/invalid-parameters", content) =>
      match content.struct ["invalidParameters"] with
      | some [ps] => (InvalidParameters.ofJson ps).map invalidParameters
      | _ => none
  | some ("/probs/kit-rpc", content) => (KitRpcProblem.ofJson content).map kitRpc
  | some ("/probs/kits-require-one-super-member", _) => some kitsRequireOneSuperMember
  | _ => none

/-- The same problem: the entries of a map have no order. -/
def Same : Problem → Problem → Prop
  | invalidParameters ps, invalidParameters qs => ps.entries.Perm qs.entries
  | p, q => p = q

theorem Same.refl (p : Problem) : p.Same p := by
  cases p with
  | invalidParameters ps => exact List.Perm.refl _
  | _ => rfl

end Problem

structure DescriptiveProblem where
  problem : Problem
  title : Option String
  status : Option Nat
  detail : Option String

namespace DescriptiveProblem

def titleOf : Problem → Option String
  | .generic _ => none
  | .rateLimit _ => some "Your request has been rate limited."
  | .authorizationHeader .missing => some "Your request misses the Authorization header."
  | .authorizationHeader .malformed => some "Your request Authorization header was malformed."
  | .authorizationHeader .expired => some "Your request access token was expired."
  | .payloadTooLarge _ => some "Your request payload was too large."
  | .invalidJson _ => some "Your request JSON was malformed."
  | .invalidParameters _ => some "Your request parameters did not validate."
  | .kitRpc _ => some "There was an issue with the kit RPC response"
  | .kitsRequireOneSuperMember => some "Kits must have at least one member with super access"

def detailOf : Problem → Option String
  | .payloadTooLarge limit => some s!"The request payload limit was {limit} bytes."
  | .invalidJson _ =>
      some ("The JSON might be syntactically incorrect, or it might not adhere to the endpoint's "
        ++ "schema. Refer to the category for more information.")
  | _ => none

/-- `From<&Problem>`. -/
def ofProblem (problem : Problem) : DescriptiveProblem where
  problem := problem
  title := titleOf problem
  status := some problem.toStatusCode
  detail := detailOf problem

/-- The fields of the problem are flattened into the object. -/
def toJson (descriptive : DescriptiveProblem) : Json :=
  .object (descriptive.problem.toFields
    ++ Json.unlessNone .string "title" descriptive.title
    ++ Json.unlessNone .ofNat "status" descriptive.status
    ++ Json.unlessNone .string "detail" descriptive.detail)

end DescriptiveProblem

namespace Problem

/-- What a client reads back from the answer with this problem. -/
def readBack (p : Problem) : Option Problem :=
  ofJson (DescriptiveProblem.ofProblem p).toJson

/-- No problem of a kit's answer, and no range with an infinite or undefined
bound. -/
def isReadable : Problem → Bool
  | kitRpc _ => false
  | invalidParameters ps => ps.isFinite
  | _ => true

/-- The title and the status beside the key of the inner variant are two keys too
many. -/
theorem readBack_kitRpc (problem : KitRpcProblem) : readBack (.kitRpc problem) = none := by
  cases problem with
  | kitRpcResponseError error =>
      show (KitRpcProblem.ofJson (.object [("kitRpcResponseError", .string error),
        ("title", .string "There was an issue with the kit RPC response"),
        ("status", .ofNat 502)])).map kitRpc = none
      rw [KitRpcProblem.ofJson, Json.externallyTagged_eq_none (by simp)]
      rfl

/-- The parameters are nested, out of the reach of the added keys. -/
theorem readBack_invalidParameters (ps : InvalidParameters) :
    readBack (.invalidParameters ps) = (InvalidParameters.ofJson ps.toJson).map invalidParameters :=
  rfl

/-- The tag and the fields of every other variant are found beside the added
keys. -/
theorem readBack_eq {p : Problem} (hkit : ∀ problem, p ≠ .kitRpc problem)
    (hparameters : ∀ ps, p ≠ .invalidParameters ps) : readBack p = some p := by
  cases p with
  | generic problem => cases problem <;> rfl
  | rateLimit waitTimeMillis => rfl
  | authorizationHeader category => cases category <;> rfl
  | payloadTooLarge limit => rfl
  | invalidJson category => cases category <;> rfl
  | invalidParameters ps => exact absurd rfl (hparameters ps)
  | kitRpc problem => exact absurd rfl (hkit problem)
  | kitsRequireOneSuperMember => rfl

theorem exists_readBack_invalidParameters_iff (ps : InvalidParameters) :
    (∃ q, readBack (.invalidParameters ps) = some q ∧ q.Same (.invalidParameters ps))
      ↔ ps.isFinite := by
  rw [readBack_invalidParameters]
  constructor
  · rintro ⟨q, hq, -⟩
    by_contra hfinite
    rw [InvalidParameters.ofJson_eq_none hfinite] at hq
    cases hq
  · intro hfinite
    obtain ⟨qs, hperm, hqs⟩ := InvalidParameters.exists_ofJson hfinite
    exact ⟨.invalidParameters qs, by rw [hqs]; rfl, hperm⟩

end Problem

/-- **A problem is read back from the answer exactly when it is readable**:
always, apart from problems of a kit's answer and bounds that JSON can not
write. -/
theorem problem_readBack_iff (p : Problem) :
    (∃ q, p.readBack = some q ∧ q.Same p) ↔ p.isReadable := by
  cases hp : p with
  | kitRpc problem =>
      rw [Problem.readBack_kitRpc]
      simp [Problem.isReadable]
  | invalidParameters ps => exact Problem.exists_readBack_invalidParameters_iff ps
  | _ =>
      refine iff_of_true ⟨_, Problem.readBack_eq ?_ ?_, Problem.Same.refl _⟩ rfl
      · exact fun _ h => nomatch h
      · exact fun _ h => nomatch h

/-- A kit that answers with an error: the problem can not be read back at all. -/
theorem kitRpcProblem_not_readBack :
    ¬∃ q, (Problem.kitRpc (.kitRpcResponseError "TimedOut")).readBack = some q
      ∧ q.Same (.kitRpc (.kitRpcResponseError "TimedOut")) := by
  rintro ⟨q, hq, -⟩
  cases hq

end AstroPlant
