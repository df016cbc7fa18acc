import AstroPlant.Confidentiality
import AstroPlant.SessionOrigins

/-!
# Who reads a private kit

What the API answers about a private kit it answers to the members of the kit, and
who a client is goes back to a sign-in. So whoever is told anything of a private
kit has signed in as a member of it (`private_reads_signed_in`), the memberships of
a user apart, which are listed to everybody. A handler looks the permission up and
then reads, through connections of their own, and the site goes on meanwhile: the
kit is private when the permission is looked up, and what comes after may find it
public, or gone.

The archive of a kit is sent to whoever has a download token of it. A token like
that was handed out half a minute ago at most, and to somebody who was allowed to
view the kit (`private_archives_signed_in`). Here the header is checked, the
permission looked up and the token signed in one step, at one time.
-/

namespace AstroPlant

section

variable {x : Site} {past past' : List SessionEvent} {s s' t : Sessions}

/-! ## What steps leave alone -/

theorem identity_step {op : SessionOp} (hs : BackendSound s) (h : s.step x op = some s') :
    Identity s.store s'.store := by
  rcases backend_step h with ⟨hservices, -⟩ | ⟨l, hstep, -⟩ | ⟨l, c, hstep, rfl, -⟩
  · unfold Sessions.store
    rw [hservices]
    exact .refl _
  · unfold Sessions.store
    rcases Program.step_cases hstep with ⟨r, -, heq⟩ | ⟨i, e, ⟨r, t⟩, s₁, k, -, -, hadv, heq⟩
      | ⟨i, t, -, -, -, heq⟩
    · rw [heq]
      exact .refl _
    · obtain ⟨store, next, hnext, rfl, -⟩ := Program.journaled_advance hadv
      rw [heq]
      exact services_identity hnext
    · rw [heq]
      exact .refl _
  · obtain ⟨-, -, users, hstore⟩ := profilesKept_step hs.2 hstep
    show Identity s.store c.store.store
    rw [hstore]
    exact ⟨.refl fun _ => rfl, .refl fun _ => rfl, .refl fun _ => rfl⟩

/-- What holds of the backend at some time of a run, and what has become of its
database later. -/
theorem backend_exec {ops : List SessionOp} (hs : BackendSound s)
    (hrun : Run.exec (Sessions.step x) s ops = some t) :
    BackendSound t ∧ UsersKept s.store t.store ∧ Identity s.store t.store := by
  refine Run.exec_invariant
    (I := fun t => BackendSound t ∧ UsersKept s.store t.store ∧ Identity s.store t.store)
    (fun u op v hu hstep => ?_) ⟨hs, .of_eq rfl, .refl _⟩ hrun
  obtain ⟨hbackend, husers, hidentity⟩ := hu
  obtain ⟨hbackend', husers'⟩ := backendSound_step hbackend hstep
  exact ⟨hbackend', husers.trans Eq.trans husers', hidentity.trans (identity_step hbackend hstep)⟩

/-! ## Reading -/

/-- The user has signed in in time, with the password that it still has. -/
def StillSignedIn (x : Site) (past : List SessionEvent) (now : Nat) (s : Store) (userId : Int) :
    Prop :=
  ∃ e ∈ past, ∃ username user, SignsIn x e username user ∧ user.id = userId
    ∧ now ≤ e.before.clock + 365 * 24 * 60 * 60 + 15 * 60 + 2 * x.signer.leeway
    ∧ Found x past s username user

/-- The user is a member of the kit. -/
def MemberOf (s : Store) (userId kitId : Int) : Prop :=
  ∃ m ∈ s.kitMemberships, m.userId = userId ∧ m.kitId = kitId

theorem memberOf_of_membershipOf {userId : Option Int} {kitId : Int} {s : Store} {m : KitMembership}
    (h : membershipOf userId kitId s = some m) : ∃ id, userId = some id ∧ MemberOf s id kitId := by
  obtain ⟨id, hid, hm⟩ := Option.bind_eq_some_iff.mp h
  have hmatches := List.find?_some hm
  simp only [Bool.decide_and, Bool.and_eq_true, decide_eq_true_eq] at hmatches
  exact ⟨id, hid, m, List.mem_of_find?_eq_some hm, hmatches⟩

theorem found_of_toOption {found : Except AccessTokenProblemCategory Int} {userId : Int}
    (h : found.toOption = some userId) : found = .ok userId := by
  cases found with
  | error e => cases h
  | ok id => exact congrArg Except.ok (Option.some.inj h)

theorem Identity.serial_eq {s s' : Store} (h : Identity s s') {k k' : Kit}
    (hk : k ∈ s.kits) (hk' : k' ∈ s'.kits) (hid : k.id = k'.id) : k.serial = k'.serial :=
  (((SerialOf.of_mem hk).keeps h).2 k' hk' hid.symm).symm

/-- While a kit is there its serial is its own, whichever of the states is asked. -/
theorem serialStays_of_visits {seen : Nat → Sessions} (hs : BackendSound s)
    (hseen : Run.Visits (Sessions.step x) s seen) {kit : Kit} {m : Nat}
    (hkit : kit ∈ (seen m).store.kits) (n : Nat) :
    SerialStays kit.id (seen n).store (seen m).store := by
  have hsound : ∀ n, BackendSound (seen n) := fun n =>
    let ⟨_, hrun⟩ := hseen.fromStart n
    (backend_exec hs hrun).1
  have hidentity : ∀ {m n : Nat}, m ≤ n → Identity (seen m).store (seen n).store := by
    intro m n hmn
    obtain ⟨_, hrun⟩ := hseen.between hmn
    exact (backend_exec (hsound m) hrun).2.2
  intro k hk hid k' hk' hserial
  have hkept : kit.serial = k.serial := by
    rcases Nat.le_total m n with hmn | hnm
    · exact (hidentity hmn).serial_eq hkit hk hid.symm
    · exact ((hidentity hnm).serial_eq hk hkit hid).symm
  rw [(hsound m).1.2.1.1 k' hk' kit hkit (hserial.trans hkept.symm)]

/-- **Who learns anything of a private kit has signed in as a member of it**, or a
member's memberships were listed. A request arrives with a token that is not
forged, and each of its accesses sees a later state; `other` is what the services
might be as well each time, for all that does not belong to the kit. The kit is
there, and private, when the access is made that decides whether it is shown. -/
theorem private_reads_signed_in {now : Nat} {store : Store} {ops : List SessionOp}
    {y : Reading} {kit : Kit} {seen : Nat → Sessions} {other : Nat → Services}
    (authorization : Option String) (read : Read)
    (howned : Owned store) (hserials : UniqueSerials store)
    (hrun : Run.exec (Sessions.step x) (.start now store) ops = some s)
    (hgenuine : Run.Guarded (Sessions.step x) (Sessions.Genuine x) (.start now store) ops)
    (hpresented : ∀ token ∈ authorization.bind x.bearer, s.tokens.Genuine x.signer token)
    (hseen : Run.Visits (Sessions.step x) s seen)
    (hsame : ∀ n, SameBut kit.id (seen n).services.store.store (other n))
    (hkit : kit ∈ (seen read.permissionAt).store.kits)
    (hpriv : Private kit.id (seen read.permissionAt).store)
    (hpriv' : Private kit.id (other read.permissionAt).store)
    (hdiffers :
      read.answerAt y (x.userIdFromRequest s.clock authorization).toOption
          (fun n => (seen n).services.store.store)
        ≠ read.answerAt y (x.userIdFromRequest s.clock authorization).toOption other) :
    read.ListsMemberOfAt y (x.userIdFromRequest s.clock authorization).toOption kit.id
        (seen 0).store (seen 1).store
      ∨ ∃ userId, x.userIdFromRequest s.clock authorization = .ok userId
        ∧ MemberOf (seen read.permissionAt).store userId kit.id
        ∧ StillSignedIn x (Run.history (Sessions.step x) (.start now store) ops) s.clock
          (seen read.permissionAt).store userId := by
  have hs := Run.exec_history_guarded (I := Sound x) (fun _ _ _ _ hs hg h => sound_step hs hg h)
    (sound_start howned hserials) hgenuine hrun
  cases hmember : membershipOf (x.userIdFromRequest s.clock authorization).toOption kit.id
      (seen read.permissionAt).store with
  | none =>
      left
      by_contra hlists
      apply hdiffers
      cases read with
      | kitMemberships username =>
          exact (listing_eq_iff hsame hpriv hpriv' username).mpr fun h => absurd h hlists
      | _ =>
          exact answerAt_eq _ hsame hpriv hpriv' hmember
            (serialStays_of_visits hs.backend hseen hkit) fun username heq => by cases heq
  | some m =>
      right
      obtain ⟨userId, hid, hmember⟩ := memberOf_of_membershipOf hmember
      have hfound := found_of_toOption hid
      obtain ⟨e, he, username, user, hsigns, huser, hclock⟩ :=
        authenticated_of_header hs.issued hpresented hfound
      obtain ⟨_, hlater⟩ := hseen.fromStart read.permissionAt
      obtain ⟨-, husers, -⟩ := backend_exec hs.backend hlater
      exact ⟨userId, hfound, hmember, e, he, username, user, hsigns, huser, hclock,
        (hs.signIns e he username user hsigns).keeps (List.Subset.refl _) husers⟩

/-! ### A garden with a private kit -/

/-- A private kit with a name. -/
def maidenhairKit (name : String) (id : Int) : Kit :=
  ⟨id, "k1", "", some name, none, none, none, false, true, 0, 0⟩

theorem maidenhairKit_id (name : String) (id : Int) : (maidenhairKit name id).id = id := rfl

def openKit (id : Int) : Kit := ⟨id, "k2", "", none, none, none, none, true, true, 0, 0⟩

theorem openKit_id (id : Int) : (openKit id).id = id := rfl

/-- The first kit is private, and has a name. -/
def adasFernery (name : String) : Store :=
  { adasGarden with
    kits := (SerialTable.empty.insert (maidenhairKit name) (maidenhairKit_id name)).insert openKit
      openKit_id }

def adasDownloadClaims : ArbitraryTokenClaims := ⟨31, ⟨"kit-archive-download", "k1"⟩⟩

/-- A download token is the serial of its kit. -/
def downloadSigner : TokenSigner :=
  { plainSigner with
    encode := fun json =>
      match ArbitraryTokenClaims.ofJson json with
      | some claims => claims.data.kitSerial ++ ".download"
      | none => plainSigner.encode json
    verify := fun token =>
      if token = "k1.download" then some adasDownloadClaims.toJson else plainSigner.verify token }

def downloadSite : Site := { plainSite with signer := downloadSigner }

/-- Ada signs in, and is given a download token of the first kit. -/
def signInForDownload : List SessionOp :=
  [.authenticate "ada" "pw", .login 0, .login 0, .elapse 1, .login 0,
    .archiveAuthorize (some "Bearer 901a1") "k1"]

def adasSigned : List Json :=
  [adasRefreshClaims.toJson, adasAccessClaims.toJson, adasDownloadClaims.toJson]

theorem genuine_adas {s : TokenState} {json : Json} (hsigned : s.signed ⊆ adasSigned)
    (hmem : json ∈ s.signed) : s.Genuine downloadSigner (downloadSigner.encode json) := by
  have hnodup : (adasSigned.map downloadSigner.encode).Nodup := by decide
  have hverify : ∀ j ∈ adasSigned, downloadSigner.verify (downloadSigner.encode j) = some j := by
    intro j hj
    simp only [adasSigned, List.mem_cons, List.not_mem_nil, or_false] at hj
    rcases hj with rfl | rfl | rfl <;> rfl
  exact genuine_of_verify (hverify json (hsigned hmem)) rfl hmem fun j hj hencode =>
    List.inj_on_of_nodup_map hnodup (hsigned hj) (hsigned hmem) hencode

theorem genuine_signInForDownload : Run.Guarded (Sessions.step downloadSite)
    (Sessions.Genuine downloadSite) (.start 0 (adasFernery "Maidenhair")) signInForDownload := by
  have hpresented : (Run.history (Sessions.step downloadSite) (.start 0 (adasFernery "Maidenhair"))
        signInForDownload).map (fun e => (e.before.presented downloadSite e.label, e.before.signed))
      = [(none, []), (none, []), (none, []), (none, adasSigned.take 1),
        (some (downloadSigner.encode adasRefreshClaims.toJson), adasSigned.take 1),
        (some (downloadSigner.encode adasAccessClaims.toJson), adasSigned.take 2)] := rfl
  refine Run.guarded_of_history fun e he token htoken => ?_
  have hmem := List.mem_map_of_mem (f := fun e : SessionEvent =>
    (e.before.presented downloadSite e.label, e.before.signed)) he
  rw [hpresented, Option.mem_def.mp htoken] at hmem
  simp only [List.mem_cons, Prod.mk.injEq, reduceCtorEq, false_and, false_or,
    Option.some.injEq, List.not_mem_nil, or_false] at hmem
  have hgenuine : ∀ n json, json ∈ adasSigned.take n → e.before.signed = adasSigned.take n →
      e.before.tokens.Genuine downloadSigner (downloadSigner.encode json) := by
    intro n json hjson hsigned
    have htokens : e.before.tokens.signed = adasSigned.take n := hsigned
    refine genuine_adas ?_ ?_ <;> rw [htokens]
    · exact List.take_subset n _
    · exact hjson
  rcases hmem with ⟨rfl, hsigned⟩ | ⟨rfl, hsigned⟩
  · exact hgenuine 1 _ List.mem_cons_self hsigned
  · exact hgenuine 2 _ (List.mem_cons_of_mem _ List.mem_cons_self) hsigned

theorem adasFernery_owned : Owned (adasFernery "Maidenhair") := { gardener_owned with }

theorem adasFernery_serials : UniqueSerials (adasFernery "Maidenhair") := by
  unfold UniqueSerials
  decide

theorem adasFernery_private (name : String) : Private 1 (adasFernery name) := by
  intro kit hkit hid
  rcases List.mem_cons.mp hkit with rfl | hkit
  · rfl
  · rw [List.mem_singleton.mp hkit] at hid
    cases hid

theorem adasFernery_sameBut (name name' : String) :
    SameBut 1 (.start (adasFernery name)) (.start (adasFernery name')) where
  users := rfl
  kitMemberships := rfl
  peripheralDefinitions := rfl
  quantityTypes := rfl
  expectedQuantityTypes := rfl
  queueMediaPendingDeletion := rfl
  kits := .cons ⟨rfl, fun hopen => absurd rfl hopen⟩ (.cons ⟨rfl, fun _ => rfl⟩ .nil)
  kitLastSeen := .refl _
  kitConfigurations := .refl _
  peripherals := .refl _
  rawMeasurements := .refl _
  aggregateMeasurements := .refl _
  media := .refl _
  objects _ _ _ := rfl

/-- A second later Ada asks for the kit, and is told its name. -/
theorem private_reads_signed_in_fernery :
    ∃ s t, Run.exec (Sessions.step downloadSite) (.start 0 (adasFernery "Maidenhair"))
        signInForDownload = some s
      ∧ Run.exec (Sessions.step downloadSite) s [.elapse 1] = some t
      ∧ (Read.kitBySerial "k1").answerAt plainReading (some 1) (fun _ => t.services.store.store)
        ≠ (Read.kitBySerial "k1").answerAt plainReading (some 1)
          (fun _ => .start (adasFernery "Staghorn"))
      ∧ MemberOf t.store 1 1
      ∧ StillSignedIn downloadSite (Run.history (Sessions.step downloadSite)
        (.start 0 (adasFernery "Maidenhair")) signInForDownload) s.clock t.store 1 := by
  obtain ⟨s, t, hrun, hlater, huser, hsigned, hservices⟩ : ∃ s t,
      Run.exec (Sessions.step downloadSite) (.start 0 (adasFernery "Maidenhair"))
        signInForDownload = some s
      ∧ Run.exec (Sessions.step downloadSite) s [.elapse 1] = some t
      ∧ downloadSite.userIdFromRequest s.clock (some "Bearer 901a1") = .ok 1
      ∧ s.signed = adasSigned ∧ t.services.store.store = .start (adasFernery "Maidenhair") :=
    ⟨_, _, rfl, rfl, rfl, rfl, rfl⟩
  have hpresented : ∀ token ∈ (some "Bearer 901a1").bind downloadSite.bearer,
      s.tokens.Genuine downloadSite.signer token := by
    rintro _ ⟨⟩
    have htokens : s.tokens.signed = adasSigned := hsigned
    refine @genuine_adas _ adasAccessClaims.toJson ?_ ?_ <;> rw [htokens]
    · exact List.Subset.refl _
    · exact List.mem_cons_of_mem _ List.mem_cons_self
  have hsame : SameBut 1 t.services.store.store (.start (adasFernery "Staghorn")) :=
    hservices ▸ adasFernery_sameBut "Maidenhair" "Staghorn"
  have hstore : t.store = adasFernery "Maidenhair" := congrArg Services.store hservices
  have hkit : maidenhairKit "Maidenhair" 1 ∈ t.store.kits := by
    rw [hstore]
    exact List.mem_cons_self
  have hpriv : Private 1 t.store := by
    rw [hstore]
    exact adasFernery_private "Maidenhair"
  have hdiffers : (Read.kitBySerial "k1").answerAt plainReading (some 1)
        (fun _ => t.services.store.store)
      ≠ (Read.kitBySerial "k1").answerAt plainReading (some 1)
        (fun _ => .start (adasFernery "Staghorn")) := by
    rw [hservices]
    intro heq
    have hname := congrArg KitView.name (ReadResponse.kit.inj (Except.ok.inj heq))
    exact absurd hname (by decide)
  refine ⟨s, t, hrun, hlater, hdiffers, ?_⟩
  have hanswers := hdiffers
  rw [← show (downloadSite.userIdFromRequest s.clock (some "Bearer 901a1")).toOption = some 1 by
    rw [huser]; rfl] at hanswers
  rcases private_reads_signed_in (some "Bearer 901a1") (.kitBySerial "k1") adasFernery_owned
      adasFernery_serials hrun genuine_signInForDownload hpresented
      (.const ⟨_, hlater⟩ fun _ => rfl) (fun _ => hsame) hkit hpriv (adasFernery_private "Staghorn")
      hanswers with hlists | ⟨userId, hfound, hmember, hsignedIn⟩
  · exact hlists.elim
  · obtain rfl := Except.ok.inj (huser.symm.trans hfound)
    exact ⟨hmember, hsignedIn⟩

/-! ## Downloading -/

/-- In the step somebody was found to be allowed to view the kit, and the download
token was handed out. -/
structure HandsOut (x : Site) (e : SessionEvent) (claims : ArbitraryTokenClaims)
    (userId : Option Int) (kit : Kit) : Prop where
  request : ∃ authorization kitSerial user membership,
    e.label = .archiveAuthorize authorization kitSerial
      ∧ userId = (x.userIdFromRequest e.before.clock authorization).toOption
      ∧ (futKitPermissionOrForbidden userId kitSerial .view).run e.before.store
        = .ok ((user, membership, kit), e.before.store)
  claims : claims = ⟨e.before.clock + 30, ⟨"kit-archive-download", kit.serial⟩⟩

/-- Whoever was allowed to view a private kit is a member of it. -/
theorem HandsOut.member {e : SessionEvent} {claims : ArbitraryTokenClaims} {userId : Option Int}
    {kit : Kit} (h : HandsOut x e claims userId kit)
    (hprivate : kit.privacyPublicDashboard = false) :
    ∃ id, userId = some id ∧ MemberOf e.before.store id kit.id := by
  obtain ⟨_, _, _, _, -, -, hgranted⟩ := h.request
  obtain ⟨-, -, hpermitted⟩ := futKitPermissionOrForbidden_ok hgranted
  cases hmember : membershipOf userId kit.id e.before.store with
  | none =>
      rw [hmember, KitAction.permitted_of_no_membership, hprivate] at hpermitted
      cases hpermitted
  | some m => exact memberOf_of_membershipOf hmember

/-- The download tokens that were signed were all handed out, to users who had signed
in if they were any. -/
def AllHandedOut (x : Site) (past : List SessionEvent) (signed : List Json) : Prop :=
  ∀ json ∈ signed, ∀ claims, ArbitraryTokenClaims.ofJson json = some claims →
    ∃ p e q userId kit, past = p ++ e :: q ∧ HandsOut x e claims userId kit
      ∧ ∀ id, userId = some id → Authenticated x p id e.before.clock

theorem AllHandedOut.append {signed : List Json} (h : AllHandedOut x past signed)
    (e : SessionEvent) : AllHandedOut x (past ++ [e]) signed := by
  intro json hjson claims hread
  obtain ⟨p, e', q, userId, kit, rfl, hrest⟩ := h json hjson claims hread
  exact ⟨p, e', q ++ [e], userId, kit, by simp, hrest⟩

/-- A step signs nothing, claims of a user, or a download token. -/
theorem signed_cases {op : SessionOp} (h : s.step x op = some s') :
    s'.signed = s.signed ∨ (∃ claims : Claims, s'.signed = s.signed ++ [claims.toJson])
      ∨ ∃ authorization kitSerial granted, op = .archiveAuthorize authorization kitSerial
        ∧ (futKitPermissionOrForbidden (x.userIdFromRequest s.clock authorization).toOption
          kitSerial .view).run s.store = .ok (granted, s.store)
        ∧ s'.signed = s.signed ++ [ArbitraryTokenClaims.toJson
          ⟨s.clock + 30, ⟨"kit-archive-download", granted.2.2.serial⟩⟩] := by
  have hexchanged : ∀ token signed', Exchanged x s.clock token s.signed signed' →
      ∃ claims : Claims, signed' = s.signed ++ [claims.toJson] := by
    rintro token signed' ⟨refresh, -, -, heq⟩
    exact ⟨_, heq⟩
  cases op with
  | elapse seconds | authenticate username password =>
      obtain rfl := Option.some.inj h
      exact Or.inl rfl
  | login i =>
      simp only [Sessions.step] at h
      split at h
      · cases h
      · split at h
        · cases h
        · rename_i l' signed hadvance
          obtain rfl := Option.some.inj h
          rcases Login.advance_cases hadvance with ⟨_, _, _, -, -, -, heq⟩
            | ⟨_, _, _, claims, _, -, -, -, -, -, -, heq⟩ | ⟨_, token, _, -, -, hex⟩ | ⟨_, -, heq⟩
          · exact Or.inl heq
          · exact Or.inr (Or.inl ⟨claims, heq⟩)
          · exact Or.inr (Or.inl (hexchanged token _ hex))
          · exact Or.inl heq
  | refresh token =>
      obtain ⟨r, hrun, rfl⟩ := Option.map_eq_some_iff.mp h
      exact (run_refresh hrun).imp_right fun hex => Or.inl (hexchanged token _ hex)
  | archiveAuthorize authorization kitSerial =>
      obtain ⟨r, hrun, rfl⟩ := Option.map_eq_some_iff.mp h
      rcases run_archiveAuthorize hrun with ⟨problem, rfl⟩ | ⟨granted, hgranted, rfl⟩
      · exact Or.inl rfl
      · exact Or.inr (Or.inr ⟨_, _, granted, rfl, hgranted, rfl⟩)
  | request authorization endpoint =>
      simp only [Sessions.step] at h
      split at h
      · obtain rfl := Option.some.inj h
        exact Or.inl rfl
      · obtain ⟨_, -, rfl⟩ := Option.map_eq_some_iff.mp h
        exact Or.inl rfl
      · obtain ⟨_, -, rfl⟩ := Option.map_eq_some_iff.mp h
        exact Or.inl rfl
  | service l | account l =>
      simp only [Sessions.step] at h
      split at h
      · obtain ⟨_, -, rfl⟩ := Option.map_eq_some_iff.mp h
        exact Or.inl rfl
      · cases h

theorem handedOut_step {op : SessionOp} (hissued : AllIssued x past s.signed)
    (h : AllHandedOut x past s.signed) (hgenuine : s.Genuine x op)
    (hstep : s.step x op = some s') : AllHandedOut x (past ++ [⟨s, op, s'⟩]) s'.signed := by
  have hold := h.append ⟨s, op, s'⟩
  rcases signed_cases hstep with hsame | ⟨claims, hadded⟩
    | ⟨authorization, kitSerial, ⟨user, membership, kit⟩, rfl, hgranted, hadded⟩
  · rwa [hsame]
  · rw [hadded]
    intro json hjson claims' hread
    rcases List.mem_append.mp hjson with hjson | hjson
    · exact hold json hjson claims' hread
    · obtain rfl := List.mem_singleton.mp hjson
      rw [ArbitraryTokenClaims.ofJson_claims] at hread
      cases hread
  · rw [hadded]
    intro json hjson claims' hread
    rcases List.mem_append.mp hjson with hjson | hjson
    · exact hold json hjson claims' hread
    · obtain rfl := List.mem_singleton.mp hjson
      obtain rfl := ArbitraryTokenClaims.eq_of_ofJson_toJson hread
      refine ⟨past, _, [], _, kit, rfl, ⟨⟨_, _, user, membership, rfl, rfl, hgranted⟩, rfl⟩, ?_⟩
      intro id hid
      exact authenticated_of_header hissued hgenuine (found_of_toOption hid)

theorem archive_mem {now : Nat} {kitSerial token : String} {kit : Kit} {s : Store}
    (h : archive x.signer now kitSerial token s = .ok kit) : kit ∈ s.kits := by
  obtain ⟨data, -, h⟩ := bind_ok.mp h
  split at h
  · cases h
  · split at h
    · cases h
    · rename_i kit' hkit
      obtain rfl := Except.ok.inj h
      exact List.mem_of_find?_eq_some hkit

/-- **Who downloads the archive of a kit has a token that was handed out** no longer
than half a minute ago, to somebody who was allowed to view a kit with this
serial: to a signed in member, if it was private. It is the archive of that kit,
unless that kit is gone. -/
theorem private_archives_signed_in {now : Nat} {store : Store} {ops : List SessionOp}
    {token kitSerial : String} {kit : Kit} (howned : Owned store) (hserials : UniqueSerials store)
    (hrun : Run.exec (Sessions.step x) (.start now store) ops = some s)
    (hgenuine : Run.Guarded (Sessions.step x) (Sessions.Genuine x) (.start now store) ops)
    (hpresented : s.tokens.Genuine x.signer token)
    (harchive : archive x.signer s.clock kitSerial token s.store = .ok kit) :
    kit.serial = kitSerial
      ∧ ∃ p e q claims userId granted,
        Run.history (Sessions.step x) (.start now store) ops = p ++ e :: q
        ∧ HandsOut x e claims userId granted ∧ granted.serial = kitSerial
        ∧ s.clock ≤ e.before.clock + 30 + x.signer.leeway
        ∧ (∀ id, userId = some id → Authenticated x p id e.before.clock)
        ∧ (granted.privacyPublicDashboard = false →
          ∃ id, userId = some id ∧ MemberOf e.before.store id granted.id)
        ∧ ∀ k ∈ s.store.kits, k.id = granted.id → k = kit := by
  obtain ⟨hs, hhanded⟩ := Run.exec_history_guarded
    (I := fun past s => Sound x past s ∧ AllHandedOut x past s.signed)
    (fun _ _ _ _ hs hg h => ⟨sound_step hs.1 hg h, handedOut_step hs.1.issued hs.2 hg h⟩)
    ⟨sound_start howned hserials, fun json hjson => by cases hjson⟩ hgenuine hrun
  obtain ⟨hdecode, hserial⟩ := archive_ok harchive
  obtain ⟨wrapped, hwrapped, hdata⟩ := bind_ok.mp hdecode
  obtain ⟨json, hjson, -, hread⟩ := hpresented.decode_ok hwrapped
  obtain ⟨p, e, q, userId, granted, hpast, hhands, hauthenticated⟩ :=
    hhanded json hjson wrapped hread
  have hclaims := hhands.claims
  subst hclaims
  have hgranted : granted.serial = kitSerial :=
    (DownloadToken.mk.inj (Except.ok.inj hdata)).2
  have hfresh := TokenSigner.decode_fresh hwrapped
  refine ⟨hserial, p, e, q, _, userId, granted, hpast, hhands, hgranted, hfresh, hauthenticated,
    hhands.member, fun k hk hid => ?_⟩
  -- the kit has kept its serial since the token was handed out
  obtain ⟨ops₁, ops₂, rfl, hbefore, -, hstep⟩ := Run.history_split hpast
  obtain ⟨u, hu, hrest⟩ := Run.exec_append.mp hrun
  obtain rfl := Option.some.inj (hbefore.symm.trans hu)
  obtain ⟨hbackend, -, -⟩ := backend_exec (sound_start (x := x) howned hserials).backend hbefore
  obtain ⟨-, -, hidentity⟩ := backend_exec hbackend hrest
  obtain ⟨_, _, _, _, -, -, hrequest⟩ := hhands.request
  obtain ⟨-, hfound, -⟩ := futKitPermissionOrForbidden_ok hrequest
  have hserialOf := (SerialOf.of_mem (List.mem_of_find?_eq_some hfound)).keeps hidentity
  refine hs.backend.1.2.1.1 k hk kit (archive_mem harchive) ?_
  rw [hserialOf.2 k hk hid, hserial]
  exact hgranted

/-- Whoever has the token downloads the archive of the kit. -/
theorem private_archives_signed_in_fernery :
    ∃ s kit e claims userId granted,
      Run.exec (Sessions.step downloadSite) (.start 0 (adasFernery "Maidenhair")) signInForDownload
        = some s
      ∧ archive downloadSigner s.clock "k1" "k1.download" s.store = .ok kit ∧ kit.id = 1
      ∧ e ∈ Run.history (Sessions.step downloadSite) (.start 0 (adasFernery "Maidenhair"))
        signInForDownload
      ∧ HandsOut downloadSite e claims userId granted ∧ granted.serial = "k1" := by
  obtain ⟨s, kit, hrun, hsigned, harchive, hid⟩ : ∃ s kit,
      Run.exec (Sessions.step downloadSite) (.start 0 (adasFernery "Maidenhair"))
        signInForDownload = some s
      ∧ s.signed = adasSigned
      ∧ archive downloadSigner s.clock "k1" "k1.download" s.store = .ok kit ∧ kit.id = 1 :=
    ⟨_, _, rfl, rfl, rfl, rfl⟩
  have hpresented : s.tokens.Genuine downloadSigner "k1.download" := by
    have htokens : s.tokens.signed = adasSigned := hsigned
    refine @genuine_adas _ adasDownloadClaims.toJson ?_ ?_ <;> rw [htokens]
    · exact List.Subset.refl _
    · exact List.mem_of_getLast? rfl
  obtain ⟨-, p, e, q, claims, userId, granted, hpast, hhands, hserial, -⟩ :=
    private_archives_signed_in adasFernery_owned adasFernery_serials hrun
      genuine_signInForDownload hpresented harchive
  refine ⟨s, kit, e, claims, userId, granted, hrun, harchive, hid, ?_, hhands, hserial⟩
  rw [hpast]
  exact List.mem_append_right _ List.mem_cons_self

end

end AstroPlant
