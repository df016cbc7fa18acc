import AstroPlant.MediaObjects

/-!
# Media in a response

A kit names the media that it sends, and nothing on the way to the database
looks at the name or at the media type. A download writes both into headers of
its response, where a value that is not a header value is a panic. So is an
object that the object store does not return: an upload inserts its row also
when it could not put the object.

A download answers exactly when none of the three is missing
(`download_answers_iff`).

A handler reads the row, the kit and the permission in this order, each with a
connection of its own, so it takes three states. What the permission is worth is
`MayView`; the rest of the answer is decided by the row and by the object store
alone (`Media.Sendable`), and each of its conditions is one of the ways in which
the handler panics (`downloadMediaContent_cases`).
-/

namespace AstroPlant

/-! ## Headers -/

/-- The characters that no header value has in it. -/
def isHeaderControl (c : Char) : Bool := c.toNat < 32 && c != '\t' || c.toNat == 127

/-- `HeaderValue::from_str`. -/
structure HeaderValues where
  parse : String → Option String
  control : ∀ text, text.toList.any isHeaderControl = true → parse text = none

/-- Every other text is a header value. -/
def HeaderValues.withoutControl : HeaderValues where
  parse text := if text.toList.any isHeaderControl then none else some text
  control _ h := if_pos h

structure ContentResponse (α : Type) where
  contentDisposition : String
  contentType : String
  stream : α

variable {α : Type}

/-- `ResponseBuilder::attachment_filename`; the panic is `none`. -/
def attachmentFilename (x : HeaderValues) (filename : String) : Option String :=
  x.parse ("attachment; filename=" ++ filename)

/-- `Response::into_response`, for a stream; the panic is `none`. -/
def intoResponse (x : HeaderValues) (contentDisposition mediaType : String) (stream : α) :
    Option (ContentResponse α) :=
  (x.parse mediaType).map fun contentType => ⟨contentDisposition, contentType, stream⟩

/-- `GET /media/{mediaId}/content` up to the response. `get` is the object
store's, and the handler's queries are not in one transaction. A panic is
`none`. -/
def downloadMediaContent (x : HeaderValues) (get : String → String → Option α)
    (userId : Option Int) (mediaId : Uuid) (atMedia atKit atPermission : Store) :
    Except Problem (Option (ContentResponse α)) := do
  let some media := Media.byId mediaId atMedia | throw .NOT_FOUND
  let some kit := Kit.byId media.kitId atKit | throw .NOT_FOUND
  let _ ← (futKitPermissionOrForbidden userId kit.serial .view).run atPermission
  return do
    let stream ← get kit.serial (hyphenated media.id)
    let contentDisposition ← attachmentFilename x media.name
    intoResponse x contentDisposition media.type stream

/-- What a download of the row needs beyond permission. -/
structure Media.Sendable (m : Media) (x : HeaderValues) (get : String → String → Option α)
    (kitSerial : String) : Prop where
  stored : (get kitSerial (hyphenated m.id)).isSome = true
  filename : (attachmentFilename x m.name).isSome = true
  type : (x.parse m.type).isSome = true

/-- The user may view the kit. -/
def MayView (userId : Option Int) (kit : Kit) (s : Store) : Prop :=
  ∃ r, (futKitPermissionOrForbidden userId kit.serial .view).run s = .ok r

/-! ## What a download comes to -/

section

variable {x : HeaderValues} {get : String → String → Option α} {userId : Option Int} {m : Media}
  {atMedia atKit atPermission : Store}

theorem content_isSome_iff {kitSerial : String} :
    (((get kitSerial (hyphenated m.id)).bind fun stream =>
        (attachmentFilename x m.name).bind fun contentDisposition =>
          intoResponse x contentDisposition m.type stream).isSome = true)
      ↔ m.Sendable x get kitSerial := by
  constructor
  · intro h
    obtain ⟨r, hr⟩ := Option.isSome_iff_exists.mp h
    obtain ⟨stream, hstream, hr⟩ := Option.bind_eq_some_iff.mp hr
    obtain ⟨disposition, hdisposition, hr⟩ := Option.bind_eq_some_iff.mp hr
    obtain ⟨type, htype, -⟩ := Option.map_eq_some_iff.mp hr
    exact ⟨Option.isSome_of_eq_some hstream, Option.isSome_of_eq_some hdisposition,
      Option.isSome_of_eq_some htype⟩
  · rintro ⟨hstored, hfilename, htype⟩
    obtain ⟨stream, hstream⟩ := Option.isSome_iff_exists.mp hstored
    obtain ⟨disposition, hdisposition⟩ := Option.isSome_iff_exists.mp hfilename
    obtain ⟨type, htype⟩ := Option.isSome_iff_exists.mp htype
    simp [hstream, hdisposition, intoResponse, htype]

/-- Everything that a download comes to. -/
theorem downloadMediaContent_cases (hm : m ∈ atMedia.media) :
    (∃ e, downloadMediaContent x get userId m.id atMedia atKit atPermission = .error e
        ∧ ∀ kit, Kit.byId m.kitId atKit = some kit → ¬ MayView userId kit atPermission)
      ∨ ∃ kit, Kit.byId m.kitId atKit = some kit ∧ MayView userId kit atPermission
        ∧ downloadMediaContent x get userId m.id atMedia atKit atPermission
          = .ok ((get kit.serial (hyphenated m.id)).bind fun stream =>
              (attachmentFilename x m.name).bind fun contentDisposition =>
                intoResponse x contentDisposition m.type stream) := by
  have hmedia : Media.byId m.id atMedia = some m := Table.find?_eq_some.mpr ⟨hm, rfl⟩
  cases hkit : Kit.byId m.kitId atKit with
  | none =>
      refine Or.inl ⟨.NOT_FOUND, ?_, fun kit h => by cases h⟩
      simp only [downloadMediaContent, hmedia, hkit]
      rfl
  | some kit =>
      cases hperm : (futKitPermissionOrForbidden userId kit.serial .view).run atPermission with
      | error e =>
          refine Or.inl ⟨e, ?_, ?_⟩
          · simp only [downloadMediaContent, hmedia, hkit, hperm]
            rfl
          · rintro kit' hkit' ⟨r, hr⟩
            obtain rfl := Option.some.inj hkit'
            rw [hperm] at hr
            cases hr
      | ok r =>
          refine Or.inr ⟨kit, rfl, ⟨r, hperm⟩, ?_⟩
          simp only [downloadMediaContent, hmedia, hkit, hperm]
          rfl

end

/-- The object store's `get`. -/
def Services.get (s : Services) (kitSerial objectName : String) : Option (List UInt8) :=
  s.objects.lookup (kitSerial ++ "/" ++ objectName)

/-- The response has the content that is stored under the row's kit. -/
theorem downloadMedia_of_response {x : HeaderValues} {s : Services} {userId : Option Int}
    {m : Media} {r : ContentResponse (List UInt8)} (hm : m ∈ s.store.media)
    (h : downloadMediaContent x s.get userId m.id s.store s.store s.store = .ok (some r)) :
    downloadMedia userId m.id s = .ok (some ⟨m.name, m.type, r.stream⟩) := by
  have hmedia : s.store.media.find? m.id = some m := Table.find?_eq_some.mpr ⟨hm, rfl⟩
  rcases downloadMediaContent_cases hm with ⟨e, herror, -⟩ | ⟨kit, hkit, ⟨granted, hgranted⟩, hok⟩
  · rw [herror] at h
    cases h
  · rw [hok] at h
    obtain ⟨data, hdata, h⟩ := Option.bind_eq_some_iff.mp (Except.ok.inj h)
    obtain ⟨disposition, -, h⟩ := Option.bind_eq_some_iff.mp h
    obtain ⟨type, -, rfl⟩ := Option.map_eq_some_iff.mp h
    simp only [downloadMedia, downloadMediaAt, hmedia, hkit, hgranted]
    show Except.ok ((s.getObject kit.serial m.id).map _) = _
    rw [show s.getObject kit.serial m.id = some data from hdata]
    rfl

theorem Media.Sendable.not_control {m : Media} {x : HeaderValues}
    {get : String → String → Option α} {kitSerial : String} (h : m.Sendable x get kitSerial) :
    (m.name.toList ++ m.type.toList).any isHeaderControl = false := by
  have hparse : ∀ text, (x.parse text).isSome = true → text.toList.any isHeaderControl = false := by
    intro text hsome
    rw [Bool.eq_false_iff]
    intro hcontrol
    rw [x.control text hcontrol] at hsome
    cases hsome
  have hname := hparse _ h.filename
  rw [String.toList_append, List.any_append, Bool.or_eq_false_iff] at hname
  rw [List.any_append, Bool.or_eq_false_iff]
  exact ⟨hname.2, hparse _ h.type⟩

/-- **Downloads.** For every row that an upload makes of a kit's message, and
whatever the object store returns, a download ends in a response or a problem
exactly when its object is returned and both texts are header values, if the
user may view the kit at all. A control character in either is a panic. -/
theorem download_answers_iff (x : HeaderValues) (get : String → String → Option α)
    (userId : Option Int) (media : Mqtt.Media) (peripheral : Peripheral)
    {atMedia : Store} (atKit atPermission : Store)
    (hm : (newMedia media peripheral).row ∈ atMedia.media) :
    (downloadMediaContent x get userId media.id atMedia atKit atPermission ≠ .ok none
        ↔ ∀ kit, Kit.byId peripheral.kitId atKit = some kit → MayView userId kit atPermission →
          (newMedia media peripheral).row.Sendable x get kit.serial)
      ∧ ∀ kit, Kit.byId peripheral.kitId atKit = some kit → MayView userId kit atPermission →
          (media.name.toList ++ media.type.toList).any isHeaderControl = true →
          downloadMediaContent x get userId media.id atMedia atKit atPermission = .ok none := by
  have hiff : downloadMediaContent x get userId media.id atMedia atKit atPermission ≠ .ok none
      ↔ ∀ kit, Kit.byId peripheral.kitId atKit = some kit → MayView userId kit atPermission →
        (newMedia media peripheral).row.Sendable x get kit.serial := by
    have hcases := @downloadMediaContent_cases α x get userId _ atMedia atKit atPermission hm
    rcases hcases with ⟨e, herror, hnone⟩ | ⟨kit, hkit, hview, hok⟩
    · refine iff_of_true (fun hpanic => ?_) fun kit hkit hview => absurd hview (hnone kit hkit)
      cases herror.symm.trans hpanic
    · constructor
      · intro hanswers kit' hkit' _
        obtain rfl := Option.some.inj (hkit.symm.trans hkit')
        refine content_isSome_iff.mp (Option.isSome_iff_ne_none.mpr fun hnone => hanswers ?_)
        exact hok.trans (congrArg _ hnone)
      · intro h hpanic
        have hsome := content_isSome_iff.mpr (h kit hkit hview)
        rw [Except.ok.inj (hok.symm.trans hpanic)] at hsome
        cases hsome
  refine ⟨hiff, fun kit hkit hview hcontrol => ?_⟩
  by_contra hanswers
  have hplain : (media.name.toList ++ media.type.toList).any isHeaderControl = false :=
    (hiff.mp hanswers kit hkit hview).not_control
  rw [hplain] at hcontrol
  cases hcontrol

/-! ## Two pictures -/

/-- A picture with this name, from the first kit's peripheral. -/
def named (name : String) : Mqtt.Media := ⟨7, "k1", 0, 1, name, "image/png", [0], .null⟩

def storeNamed (name : String) (putOk : Bool) : List (Sched MediaRequest ServiceEnv) :=
  [.spawn (.upload (named name)), .run 0 {}, .run 0 { putOk }, .run 0 {}]

def namedPeripheral : Peripheral := ⟨1, 1, 1, 1, "thermometer", .null⟩

/-- The super member of the first kit gets the picture. -/
theorem download_answers_iff_leaf :
    ∃ c, Run.exec (statements plainCrates).step ⟨.start administeredKit, []⟩
        (storeNamed "leaf.png" true) = some c
      ∧ downloadMediaContent .withoutControl c.store.get (some 1) 7 c.store.store c.store.store
          c.store.store = .ok (some ⟨"attachment; filename=leaf.png", "image/png", [0]⟩)
      ∧ ∀ kit, Kit.byId 1 c.store.store = some kit → MayView (some 1) kit c.store.store →
          (newMedia (named "leaf.png") namedPeripheral).row.Sendable .withoutControl c.store.get
            kit.serial := by
  have hrun : ∃ c, Run.exec (statements plainCrates).step ⟨.start administeredKit, []⟩
        (storeNamed "leaf.png" true) = some c
      ∧ (newMedia (named "leaf.png") namedPeripheral).row ∈ c.store.store.media
      ∧ downloadMediaContent .withoutControl c.store.get (some 1) 7 c.store.store c.store.store
          c.store.store = .ok (some ⟨"attachment; filename=leaf.png", "image/png", [0]⟩) :=
    ⟨_, rfl, List.mem_singleton.mpr rfl, by rfl⟩
  obtain ⟨c, hrun, hm, hdownload⟩ := hrun
  refine ⟨c, hrun, hdownload, ?_⟩
  refine (download_answers_iff .withoutControl c.store.get (some 1) (named "leaf.png")
    namedPeripheral c.store.store c.store.store hm).1.mp fun hpanic => ?_
  cases hdownload.symm.trans hpanic

/-- A line break in the name: the object is there, and the download panics. So it
does where the put had failed. -/
theorem lineBreak_panics :
    (∃ c, Run.exec (statements plainCrates).step ⟨.start administeredKit, []⟩
        (storeNamed "leaf\n.png" true) = some c
      ∧ c.store.get "k1" (hyphenated 7) = some [0]
      ∧ downloadMediaContent .withoutControl c.store.get (some 1) 7 c.store.store c.store.store
          c.store.store = .ok none)
    ∧ ∃ c, Run.exec (statements plainCrates).step ⟨.start administeredKit, []⟩
        (storeNamed "leaf.png" false) = some c
      ∧ downloadMediaContent .withoutControl c.store.get (some 1) 7 c.store.store c.store.store
          c.store.store = .ok none :=
  ⟨⟨_, rfl, rfl, rfl⟩, ⟨_, rfl, rfl⟩⟩

end AstroPlant
