import AstroPlant.Json
import AstroPlant.Tx
import Mathlib.Data.List.AList

/-!
# Problems

What a request is answered when it can not be served, and how database errors
and validation errors become problems. Handlers fail with a `Problem`; the
statements of the database layer fail with a `DieselError`.

The texts, the names of the fields and the status codes are those of the source.
Validation names the fields as the validation crate does, in the case of the
program, and a problem names them as the client wrote them (`toMixedCase`). A
problem is always an error to the client (`toStatusCode_ge`). Errors of the
database that the client has no part in become an internal server error.
-/

namespace AstroPlant

inductive GenericProblem where
  | notFound
  | internalServerError
  | serviceUnavailable
  | forbidden
  | methodNotAllowed
  | badRequest
deriving DecidableEq

inductive AccessTokenProblemCategory where
  | missing
  | malformed
  | expired
deriving DecidableEq

inductive InvalidParameterReason where
  | mustBeEmailAddress
  | mustBeUrl
  | mustBeInRange (min max : F64)
  | mustHaveLengthBetween (min max : Option Nat)
  | mustHaveLengthExactly (length : Nat)
  | alreadyExists
  | alreadyActivated
  | invalidToken (category : AccessTokenProblemCategory)
  | notFound
  | other
deriving DecidableEq

/-- The reasons against each parameter, by the parameter's name. -/
abbrev InvalidParameters := AList fun _ : String => List InvalidParameterReason

inductive JsonDeserializeErrorCategory where
  | syntactic
  | semantic
  | prematureEnd
  | other
deriving DecidableEq

inductive KitRpcProblem where
  | kitRpcResponseError (error : String)
deriving DecidableEq

inductive Problem where
  | generic (problem : GenericProblem)
  | rateLimit (waitTimeMillis : Nat)
  | authorizationHeader (category : AccessTokenProblemCategory)
  | payloadTooLarge (limit : Nat)
  | invalidJson (category : JsonDeserializeErrorCategory)
  | invalidParameters (invalidParameters : InvalidParameters)
  | kitRpc (problem : KitRpcProblem)
  | kitsRequireOneSuperMember
deriving DecidableEq

namespace Problem

def NOT_FOUND : Problem := .generic .notFound
def INTERNAL_SERVER_ERROR : Problem := .generic .internalServerError
def SERVICE_UNAVAILABLE : Problem := .generic .serviceUnavailable
def FORBIDDEN : Problem := .generic .forbidden
def BAD_REQUEST : Problem := .generic .badRequest

def toStatusCode : Problem → Nat
  | .generic .notFound => 404
  | .generic .internalServerError => 500
  | .generic .serviceUnavailable => 503
  | .generic .forbidden => 403
  | .generic .methodNotAllowed => 405
  | .generic .badRequest => 400
  | .rateLimit _ => 429
  | .authorizationHeader _ => 401
  | .payloadTooLarge _ => 413
  | .invalidJson _ => 400
  | .invalidParameters _ => 400
  | .kitRpc _ => 502
  | .kitsRequireOneSuperMember => 400

theorem toStatusCode_ge (p : Problem) : 400 ≤ p.toStatusCode := by
  cases p with
  | generic g => cases g <;> simp [toStatusCode]
  | _ => simp [toStatusCode]

end Problem

/-! ## Invalid parameters -/

namespace InvalidParameters

def isEmpty (ps : InvalidParameters) : Bool :=
  !ps.entries.any fun e => !e.2.isEmpty

def add (ps : InvalidParameters) (parameter : String) (reason : InvalidParameterReason) :
    InvalidParameters :=
  ps.insert parameter ((ps.lookup parameter).getD [] ++ [reason])

def intoProblem (ps : InvalidParameters) : Problem := .invalidParameters ps

theorem lookup_add (ps : InvalidParameters) (p : String) (r : InvalidParameterReason) :
    (add ps p r).lookup p = some ((ps.lookup p).getD [] ++ [r]) :=
  AList.lookup_insert ps

theorem mem_add {ps : InvalidParameters} {p q : String} {r : InvalidParameterReason} :
    q ∈ add ps p r ↔ q = p ∨ q ∈ ps :=
  AList.mem_insert ps

theorem isEmpty_add (ps : InvalidParameters) (p : String) (r : InvalidParameterReason) :
    isEmpty (add ps p r) = false := by
  have hmem := AList.mem_lookup_iff.mp (lookup_add ps p r)
  simp only [isEmpty, Bool.not_eq_false', List.any_eq_true]
  exact ⟨_, hmem, by simp⟩

end InvalidParameters

/-- The reason alone, against one parameter. -/
def InvalidParameterReason.singleton (reason : InvalidParameterReason)
    (parameter : String) : InvalidParameters :=
  InvalidParameters.add ∅ parameter reason

/-! ## Validation -/

/-- What a failed check of the validation library reports: a code and the
parameters of the check, for `length` in whole numbers and for `range` in
floats. -/
structure ValidationError where
  code : String
  min : Option Nat := none
  max : Option Nat := none
  equal : Option Nat := none
  range : Option F64 × Option F64 := (none, none)

def InvalidParameterReason.ofValidationError (e : ValidationError) :
    InvalidParameterReason :=
  if e.code = "email" then .mustBeEmailAddress
  else if e.code = "url" then .mustBeUrl
  else if e.code = "range" then
    match e.range with
    | (some min, some max) => .mustBeInRange min max
    | _ => .other
  else if e.code = "length" then
    match e.min, e.max, e.equal with
    | some min, max, none => .mustHaveLengthBetween (some min) max
    | min, some max, none => .mustHaveLengthBetween min (some max)
    | none, none, some equal => .mustHaveLengthExactly equal
    | _, _, _ => .other
  else .other

/-- A snake case field name in camel case. -/
def toMixedCase (field : String) : String :=
  String.ofList (go false field.toList)
where
  go : Bool → List Char → List Char
    | _, [] => []
    | up, c :: cs =>
        if c = '_' then go true cs
        else (if up then c.toUpper else c) :: go false cs

/-- `#[validate(length(min, max))]`, in characters. -/
def validateLength (min max : Option Nat) (s : String) : List ValidationError :=
  if min.getD 0 ≤ s.length ∧ (∀ m ∈ max, s.length ≤ m) then []
  else [{ code := "length", min, max }]

theorem validateLength_eq_nil {min max : Option Nat} {s : String} :
    validateLength min max s = [] ↔ min.getD 0 ≤ s.length ∧ ∀ m ∈ max, s.length ≤ m := by
  simp [validateLength]

/-- The errors of each field, as a struct's `validate` collects them. -/
abbrev ValidationErrors := List (String × List ValidationError)

def InvalidParameters.ofValidationErrors (errors : ValidationErrors) : InvalidParameters :=
  errors.foldl (fun ps fe =>
    fe.2.foldl (fun ps e => add ps (toMixedCase fe.1) (.ofValidationError e)) ps) ∅

theorem InvalidParameters.mem_addAll {es : List ValidationError} {ps : InvalidParameters}
    {p q : String} :
    q ∈ es.foldl (fun ps e => add ps p (.ofValidationError e)) ps ↔ (es ≠ [] ∧ q = p) ∨ q ∈ ps := by
  induction es generalizing ps with
  | nil => simp
  | cons e es ih =>
      rw [List.foldl_cons, ih, mem_add]
      constructor
      · rintro (⟨-, rfl⟩ | rfl | hq)
        · exact Or.inl ⟨List.cons_ne_nil _ _, rfl⟩
        · exact Or.inl ⟨List.cons_ne_nil _ _, rfl⟩
        · exact Or.inr hq
      · rintro (⟨-, rfl⟩ | hq)
        · exact Or.inr (Or.inl rfl)
        · exact Or.inr (Or.inr hq)

theorem InvalidParameters.mem_ofValidationErrors {errors : ValidationErrors} {q : String} :
    q ∈ ofValidationErrors errors ↔ ∃ fe ∈ errors, fe.2 ≠ [] ∧ q = toMixedCase fe.1 := by
  have hfold : ∀ ps : InvalidParameters,
      q ∈ errors.foldl (fun ps fe =>
        fe.2.foldl (fun ps e => add ps (toMixedCase fe.1) (.ofValidationError e)) ps) ps
      ↔ (∃ fe ∈ errors, fe.2 ≠ [] ∧ q = toMixedCase fe.1) ∨ q ∈ ps := by
    induction errors with
    | nil => simp
    | cons fe errors ih =>
        intro ps
        rw [List.foldl_cons, ih, mem_addAll, List.exists_mem_cons_iff, or_left_comm, or_assoc]
  rw [ofValidationErrors, hfold, or_iff_left (AList.notMem_empty q)]

/-- `validate()`: accepted when no field has an error. -/
def validate (errors : ValidationErrors) : Except Problem Unit :=
  if errors.all (·.2.isEmpty) then .ok ()
  else .error (InvalidParameters.ofValidationErrors errors).intoProblem

theorem validate_eq_ok {errors : ValidationErrors} {u : Unit} :
    validate errors = .ok u ↔ ∀ fe ∈ errors, fe.2 = [] := by
  simp [validate]

/-- **Every refusal names what it refuses**: some parameter, and none but the
fields with an error. -/
theorem validate_eq_error {errors : ValidationErrors} {problem : Problem}
    (h : validate errors = .error problem) :
    ∃ ps, problem = .invalidParameters ps ∧ (∃ q, q ∈ ps)
      ∧ ∀ q ∈ ps, ∃ fe ∈ errors, fe.2 ≠ [] ∧ q = toMixedCase fe.1 := by
  unfold validate at h
  split at h
  · cases h
  · rename_i hsome
    cases h
    obtain ⟨fe, hfe, hne⟩ : ∃ fe ∈ errors, fe.2 ≠ [] := by simpa using hsome
    exact ⟨_, rfl, ⟨_, InvalidParameters.mem_ofValidationErrors.mpr ⟨fe, hfe, hne, rfl⟩⟩,
      fun q hq => InvalidParameters.mem_ofValidationErrors.mp hq⟩

/-! ## Database errors -/

inductive DieselError where
  | notFound
  | databaseError
  | queryBuilderError
deriving DecidableEq

def Problem.ofDiesel : DieselError → Problem
  | .notFound => NOT_FOUND
  | _ => INTERNAL_SERVER_ERROR

end AstroPlant
