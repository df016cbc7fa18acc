import AstroPlant.Authentication
import AstroPlant.Base64
import AstroPlant.SplitOn

/-!
# Stored password hashes

A password is stored as `1$salt$hash`. Reading such a text back indexes its parts
and copies slices into arrays of fixed length, each of which panics where the
lengths are not what they should be. A panic is an outcome of its own here, and
the checks before these steps rule it out for every text.

There are three functions: what the code does, panics included (`V1Hash.parse`,
`runCheckUserPassword`); the same without panics, which the endpoints of
`Authentication` use; and the theorem that the two agree on every text
(`V1Hash.parse_eq`, `runCheckUserPassword_eq`). Then a text that is accepted is
described (`V1Hash.fromStr_eq_some`), a hash that was made is read back
(`V1Hash.fromStr_toString`), and only a password with the stored key is accepted
(`checkUserPassword_sound`). The encoding of bytes and the key derivation are
parameters, of which `Lawful` lists what is used.
-/

namespace AstroPlant

namespace Crypto

/-! ## Steps that panic -/

/-- What comes of a call instead of a result. -/
inductive Panic where
  | outOfBounds
  | lengthMismatch
deriving DecidableEq

/-- `parts[i]` -/
def index (parts : List String) (i : Nat) : Except Panic String :=
  match parts[i]? with
  | some part => .ok part
  | none => .error .outOfBounds

/-- `copy_from_slice` into an array of `n` bytes. -/
def copyFromSlice (n : Nat) (bytes : List UInt8) :
    Except Panic { bytes : List UInt8 // bytes.length = n } :=
  if h : bytes.length = n then .ok ⟨bytes, h⟩ else .error .lengthMismatch

variable (crypto : Crypto)

/-- `s.parse::<V1Hash>()`, statement by statement; `none` is `Err(())`. -/
def V1Hash.parse (s : String) : Except Panic (Option V1Hash) := do
  let parts := (s.toList.splitOn '$').map String.ofList
  if parts.length ≠ 3 then return none
  if (← index parts 0) ≠ "1" then return none
  let some vecSalt := crypto.base64Decode (← index parts 1) | return none
  let some vecHash := crypto.base64Decode (← index parts 2) | return none
  if vecSalt.length ≠ 16 then return none
  if vecHash.length ≠ 32 then return none
  let salt ← copyFromSlice 16 vecSalt
  let hash ← copyFromSlice 32 vecHash
  return some ⟨salt, hash, salt.2, hash.2⟩

/-- `check_user_password`, with its panics. -/
def runCheckUserPassword (password hash : String) : Except Panic Bool := do
  match HashVersion.fromHash hash with
  | some .v1 =>
      match ← V1Hash.parse crypto hash with
      | some v1Hash => return v1Hash.check crypto password
      | none => return false
  | none => return false

/-! ## No panic -/

theorem copyFromSlice_ok {n : Nat} {bytes : List UInt8} (h : bytes.length = n) :
    copyFromSlice n bytes = .ok ⟨bytes, h⟩ :=
  dif_pos h

/-- Each step that could panic comes after the check that it does not. -/
theorem V1Hash.parse_eq (s : String) : V1Hash.parse crypto s = .ok (V1Hash.fromStr crypto s) := by
  unfold V1Hash.parse V1Hash.fromStr
  generalize (s.toList.splitOn '$').map String.ofList = parts
  rcases parts with _ | ⟨version, _ | ⟨salt, _ | ⟨hash, _ | ⟨extra, parts⟩⟩⟩⟩
  · rfl
  · rfl
  · rfl
  · by_cases hversion : version = "1"
    · subst hversion
      cases hsalt : crypto.base64Decode salt with
      | none => simp [index, hsalt, bind, Except.bind, pure, Except.pure]
      | some vecSalt =>
          cases hhash : crypto.base64Decode hash with
          | none => simp [index, hsalt, hhash, bind, Except.bind, pure, Except.pure]
          | some vecHash =>
              by_cases hs : vecSalt.length = 16
              · by_cases hh : vecHash.length = 32
                · simp [index, hsalt, hhash, hs, hh, copyFromSlice_ok, bind, Except.bind, pure,
                    Except.pure]
                · simp [index, hsalt, hhash, hs, hh, bind, Except.bind, pure, Except.pure]
              · simp [index, hsalt, hhash, hs, bind, Except.bind, pure, Except.pure]
    · simp [index, hversion, bind, Except.bind, pure, Except.pure]
  · simp [pure, Except.pure]

theorem runCheckUserPassword_eq (password hash : String) :
    runCheckUserPassword crypto password hash = .ok (crypto.checkUserPassword password hash) := by
  unfold runCheckUserPassword checkUserPassword
  cases HashVersion.fromHash hash with
  | none => rfl
  | some version =>
      simp only [V1Hash.parse_eq]
      cases V1Hash.fromStr crypto hash <;> rfl

/-! ## Hashing a password -/

/-- What is relied on: decoding undoes encoding, which writes no dollar sign, and a
derived key has 32 bytes. -/
structure Lawful (base64Encode : List UInt8 → String) : Prop where
  decode_encode : ∀ bytes, crypto.base64Decode (base64Encode bytes) = some bytes
  no_dollar : ∀ bytes, '$' ∉ (base64Encode bytes).toList
  pbkdf2_length : ∀ password salt iterations,
    (crypto.pbkdf2 password salt iterations).length = 32

variable {crypto} {base64Encode : List UInt8 → String}

/-- `V1Hash::hash_password` for the salt that the random generator yields. -/
def V1Hash.hashPassword (lawful : Lawful crypto base64Encode) (password : String)
    (salt : List UInt8) (hsalt : salt.length = 16) : V1Hash where
  salt
  hash := crypto.pbkdf2 password salt PBKDF2_ITERATIONS
  salt_length := hsalt
  hash_length := lawful.pbkdf2_length password salt PBKDF2_ITERATIONS

variable (base64Encode) in
def V1Hash.toString (v : V1Hash) : String :=
  "1$" ++ base64Encode v.salt ++ "$" ++ base64Encode v.hash

def hashUserPassword (lawful : Lawful crypto base64Encode) (password : String)
    (salt : List UInt8) (hsalt : salt.length = 16) : String :=
  (V1Hash.hashPassword lawful password salt hsalt).toString base64Encode

/-! ## Reading back -/

/-- Text with two dollar signs between parts that have none. -/
theorem split_dollar {s version salt hash : String} :
    (s.toList.splitOn '$').map String.ofList = [version, salt, hash]
      ↔ s = version ++ "$" ++ salt ++ "$" ++ hash
        ∧ '$' ∉ version.toList ∧ '$' ∉ salt.toList ∧ '$' ∉ hash.toList := by
  rw [splitOn_eq_iff (List.cons_ne_nil _ _)]
  have htext : (String.singleton '$').intercalate [version, salt, hash]
      = version ++ "$" ++ salt ++ "$" ++ hash := by
    rw [← String.toList_inj]
    simp
  rw [htext]
  simp

theorem V1Hash.fromStr_eq_some {s : String} {v : V1Hash} :
    V1Hash.fromStr crypto s = some v ↔ ∃ salt hash : String,
      s = "1$" ++ salt ++ "$" ++ hash ∧ '$' ∉ salt.toList ∧ '$' ∉ hash.toList
        ∧ crypto.base64Decode salt = some v.salt ∧ crypto.base64Decode hash = some v.hash := by
  obtain ⟨vsalt, vhash, hvsalt, hvhash⟩ := v
  constructor
  · intro h
    unfold V1Hash.fromStr at h
    split at h
    · rename_i version salt hash hsplit
      obtain ⟨hs, -, hsalt, hhash⟩ := split_dollar.mp hsplit
      split at h
      · cases h
      · rename_i hversion
        obtain rfl : version = "1" := not_not.mp hversion
        split at h
        · rename_i bytes bytes' hdecode hdecode'
          split at h
          · cases h
            refine ⟨salt, hash, ?_, hsalt, hhash, hdecode, hdecode'⟩
            rw [hs, ← String.toList_inj]
            simp
          · cases h
        · cases h
    · cases h
  · rintro ⟨salt, hash, hs, hsalt, hhash, hdecode, hdecode'⟩
    have hsplit : (s.toList.splitOn '$').map String.ofList = ["1", salt, hash] := by
      refine split_dollar.mpr ⟨?_, by decide, hsalt, hhash⟩
      rw [hs, ← String.toList_inj]
      simp
    rw [V1Hash.fromStr, hsplit]
    simp [hdecode, hdecode', hvsalt, hvhash]

theorem HashVersion.fromHash_v1 (rest : String) :
    HashVersion.fromHash ("1$" ++ rest) = some .v1 := by
  rw [HashVersion.fromHash, String.toList_append]
  exact if_pos rfl

/-- What has been written for a password is read back as it was. -/
theorem V1Hash.fromStr_toString (lawful : Lawful crypto base64Encode) (v : V1Hash) :
    V1Hash.fromStr crypto (v.toString base64Encode) = some v :=
  V1Hash.fromStr_eq_some.mpr ⟨_, _, rfl, lawful.no_dollar _, lawful.no_dollar _,
    lawful.decode_encode _, lawful.decode_encode _⟩

theorem checkUserPassword_hashUserPassword (lawful : Lawful crypto base64Encode)
    (password : String) (salt : List UInt8) (hsalt : salt.length = 16) :
    crypto.checkUserPassword password (hashUserPassword lawful password salt hsalt) = true := by
  have hversion : HashVersion.fromHash (hashUserPassword lawful password salt hsalt)
      = some .v1 := by
    rw [hashUserPassword, V1Hash.toString, String.append_assoc, String.append_assoc]
    exact HashVersion.fromHash_v1 _
  rw [checkUserPassword, hversion]
  simp only [hashUserPassword, V1Hash.fromStr_toString lawful]
  exact decide_eq_true rfl

/-- Only a password whose key is the stored one is accepted. -/
theorem checkUserPassword_sound {password s : String}
    (h : crypto.checkUserPassword password s = true) :
    ∃ v, V1Hash.fromStr crypto s = some v
      ∧ crypto.pbkdf2 password v.salt PBKDF2_ITERATIONS = v.hash := by
  unfold checkUserPassword at h
  split at h
  · split at h
    · rename_i v hv
      exact ⟨v, hv, of_decide_eq_true h⟩
    · cases h
  · cases h

/-- **Stored hashes decode what was encoded.** The text stored for a password is
read back as the salt and the hash, and accepts the password; what is read as a
hash has three parts, the version and the Base64 of 16 and of 32 bytes; and
whatever is stored, a check returns, and accepts only a password whose key is the
hash that the text decodes to. -/
theorem password_hashes_decode (lawful : Lawful crypto base64Encode) :
    (∀ password salt (hsalt : salt.length = 16),
      V1Hash.parse crypto (hashUserPassword lawful password salt hsalt)
          = .ok (some (V1Hash.hashPassword lawful password salt hsalt))
        ∧ runCheckUserPassword crypto password (hashUserPassword lawful password salt hsalt)
          = .ok true)
      ∧ (∀ s v, V1Hash.parse crypto s = .ok (some v) → ∃ salt hash : String,
        s = "1$" ++ salt ++ "$" ++ hash ∧ '$' ∉ salt.toList ∧ '$' ∉ hash.toList
          ∧ (∃ bytes, bytes.length = 16 ∧ crypto.base64Decode salt = some bytes ∧ v.salt = bytes)
          ∧ ∃ bytes, bytes.length = 32 ∧ crypto.base64Decode hash = some bytes ∧ v.hash = bytes)
      ∧ ∀ s password, ∃ accepted, runCheckUserPassword crypto password s = .ok accepted
        ∧ (accepted = true → ∃ v, V1Hash.parse crypto s = .ok (some v)
          ∧ crypto.pbkdf2 password v.salt PBKDF2_ITERATIONS = v.hash) := by
  refine ⟨fun password salt hsalt => ?_, fun s v hv => ?_, fun s password => ?_⟩
  · rw [V1Hash.parse_eq, runCheckUserPassword_eq, checkUserPassword_hashUserPassword]
    exact ⟨congrArg Except.ok (V1Hash.fromStr_toString lawful _), rfl⟩
  · rw [V1Hash.parse_eq] at hv
    obtain ⟨salt, hash, hs, hsalt, hhash, hdecode, hdecode'⟩ :=
      V1Hash.fromStr_eq_some.mp (Except.ok.inj hv)
    exact ⟨salt, hash, hs, hsalt, hhash, ⟨v.salt, v.salt_length, hdecode, rfl⟩,
      ⟨v.hash, v.hash_length, hdecode', rfl⟩⟩
  · refine ⟨_, runCheckUserPassword_eq crypto password s, fun haccepted => ?_⟩
    obtain ⟨v, hv, hkey⟩ := checkUserPassword_sound haccepted
    exact ⟨v, (V1Hash.parse_eq crypto s).trans (congrArg Except.ok hv), hkey⟩

/-! ## A known hash -/

def knownSalt : List UInt8 := [1, 2, 3, 4, 5, 6, 7, 8, 9, 16, 17, 18, 19, 20, 21, 22]

/-- The key of the password "It all adds up to normality." with this salt. -/
def knownKey : List UInt8 :=
  [11, 22, 90, 155, 232, 128, 177, 252, 77, 183, 215, 104, 104, 217, 140, 181, 40, 193, 203, 163,
    106, 202, 131, 140, 197, 42, 105, 54, 146, 69, 155, 31]

/-- Base64, and a key derivation of which one key is known. -/
def knownCrypto : Crypto where
  pbkdf2 password salt _ :=
    if password = "It all adds up to normality." ∧ salt = knownSalt then knownKey
    else List.replicate 32 0
  base64Decode := Base64.decode
  encode _ := ""
  decode _ := .error .other

theorem knownCrypto_lawful : Lawful knownCrypto Base64.encode where
  decode_encode := Base64.decode_encode
  no_dollar _ h := absurd (Base64.mem_encode h) (by decide)
  pbkdf2_length password salt iterations := by
    simp only [knownCrypto]
    split <;> rfl

theorem password_hashes_decode_known :
    hashUserPassword knownCrypto_lawful "It all adds up to normality." knownSalt rfl
        = "1$AQIDBAUGBwgJEBESExQVFg==$CxZam+iAsfxNt9doaNmMtSjBy6NqyoOMxSppNpJFmx8="
      ∧ runCheckUserPassword knownCrypto "It all adds up to normality."
        (hashUserPassword knownCrypto_lawful "It all adds up to normality." knownSalt rfl)
        = .ok true :=
  ⟨by decide +kernel, ((password_hashes_decode knownCrypto_lawful).1 _ knownSalt rfl).2⟩

end Crypto

end AstroPlant
