import AstroPlant.KitRpc

/-!
# Responses reach the callers they answer

Whatever arrives on the connection, an answer reaches a caller only through a
message that came from the kit the caller asked and that carries the id under
which the caller's request was published. The argument has two parts.

*Ids are not reused*: with fewer than `2 ^ 64` calls the next id is the number
of publications, so the id of a stored waiter is below that of the request that
is about to be stored (`Inv.waiters`), and storing it replaces nothing.

*Everything is in one place*: a call is queued, or being published, or waiting,
or completed (`State.places`), and a decoded message is queued or has completed
a call (`State.uses`). Each step moves calls and messages on and duplicates
none.
-/

namespace AstroPlant

namespace KitRpc

/-! ## Waiters -/

theorem callers_insert {ws : Waiters} {key : String × UInt64} {w : Waiter}
    (h : ws.lookup key = none) :
    callers (ws.insert key w).entries = w.caller :: callers ws.entries := by
  rw [AList.insert_of_notMem (AList.lookup_eq_none.mp h)]
  rfl

theorem callers_erase {ws : Waiters} {key : String × UInt64} {w : Waiter}
    (h : ws.lookup key = some w) :
    (callers ws.entries).Perm (w.caller :: callers (ws.erase key).entries) := by
  have hmem : key ∈ ws := AList.lookup_isSome.mp (by simp [h])
  obtain ⟨w', l₁, l₂, -, hentries, herase⟩ := List.exists_of_kerase hmem
  have hw : w' ∈ ws.lookup key := by
    rw [AList.mem_lookup_iff, hentries]
    simp
  obtain rfl : w = w' := by
    rw [h] at hw
    exact Option.some.inj hw
  have hrest : (ws.erase key).entries = l₁ ++ l₂ := herase
  rw [hrest, hentries]
  simp only [callers, List.map_append, List.map_cons]
  exact List.perm_middle

theorem erase_of_lookup {ws : Waiters} {key : String × UInt64} (h : ws.lookup key = none) :
    ws.erase key = ws :=
  AList.ext (List.kerase_of_notMem_keys (AList.lookup_eq_none.mp h))

theorem count_callers_retain (ws : Waiters) (p : Waiter → Bool) (c : Nat) :
    (callers (HashMap.retain p ws).entries).count c
      + (callers (ws.entries.filter fun e => !p e.2)).count c = (callers ws.entries).count c := by
  simp only [callers, HashMap.retain]
  induction ws.entries with
  | nil => rfl
  | cons e es ih =>
      simp only [List.filter_cons]
      cases p e.2 <;> simp [List.count_cons] <;> omega

/-! ## The invariant -/

/-- One for each position in a list of length `n`. -/
def below (n i : Nat) : Nat := if i < n then 1 else 0

theorem below_succ (n i : Nat) : below (n + 1) i = below n i + [n].count i := by
  simp only [below, List.count_singleton, beq_iff_eq]
  split <;> split <;> split <;> omega

theorem below_le_one (n i : Nat) : below n i ≤ 1 := by
  unfold below
  split <;> omega

/-- The call that the driver is publishing. -/
def DriverPc.caller : DriverPc → List Nat
  | .publishing request _ => [request.caller]
  | _ => []

/-- The message that a completion came from. -/
def Completion.payload (c : Completion) : Option Nat := c.outcome.map (·.1)

namespace State

/-- How often a call occurs among what is queued, being published, waiting or
completed. -/
def places (s : State) (c : Nat) : Nat :=
  (s.requests.map (·.caller)).count c + s.pc.caller.count c
    + (callers s.waiters.entries).count c + (s.completions.map (·.caller)).count c

/-- How often a call occurs among what is queued or published. -/
def sends (s : State) (c : Nat) : Nat :=
  (s.requests.map (·.caller)).count c + (s.published.map (·.caller)).count c

/-- How often a received message occurs among what is queued or has completed a
call. -/
def uses (s : State) (i : Nat) : Nat :=
  (s.responses.map (·.payload)).count i + (s.completions.filterMap (·.payload)).count i

/-- The ids below this one are not used again, and all waiters have such. -/
def settled (s : State) : Nat :=
  match s.pc with
  | .publishing _ id => id.toNat
  | _ => s.published.length

end State

/-- The call was published under the id to the kit. -/
def PublishedTo (s : State) (kitSerial : String) (id : UInt64) (caller : Nat) : Prop :=
  ∃ body, s.calls[caller]? = some (kitSerial, body)
    ∧ ⟨(Topic.mk kitSerial .kitRpcRequest).text, id, body, caller⟩ ∈ s.published

/-- The message came from the kit and carries the id and the body. -/
def ReceivedFrom (codec : KitRpcCodec) (s : State) (kitSerial : String) (id : UInt64)
    (i : Nat) (body : Except DecodeErrorKind ResponseBody) : Prop :=
  ∃ payload, s.received[i]? = some ((Topic.mk kitSerial .kitRpcResponse).text, payload)
    ∧ decodeResponse codec payload = .ok (id, body)

structure Inv (codec : KitRpcCodec) (s : State) : Prop where
  nextId : s.nextId = UInt64.ofNat s.published.length
  room : s.published.length + s.requests.length ≤ s.calls.length
  places : ∀ c, s.places c ≤ below s.calls.length c
  sends : ∀ c, s.sends c ≤ below s.calls.length c
  uses : ∀ i, s.uses i ≤ below s.received.length i
  requests : ∀ r ∈ s.requests, s.calls[r.caller]? = some (r.kitSerial, r.body)
  publishing : ∀ r id, s.pc = .publishing r id →
    PublishedTo s r.kitSerial id r.caller ∧ id.toNat + 1 = s.published.length
  waiters : ∀ key, ∀ w ∈ s.waiters.lookup key,
    PublishedTo s key.1 key.2 w.caller ∧ key.2.toNat < s.settled
  responses : ∀ r ∈ s.responses, ReceivedFrom codec s r.kitSerial r.requestId r.payload r.body
  completions : ∀ c ∈ s.completions, ∀ i body, c.outcome = some (i, body) →
    ∃ kitSerial id, PublishedTo s kitSerial id c.caller
      ∧ ReceivedFrom codec s kitSerial id i body

variable {codec : KitRpcCodec} {s s' : State}

theorem getElem?_of_prefix {α : Type} {l l' : List α} (h : l <+: l') {i : Nat} {a : α}
    (ha : l[i]? = some a) : l'[i]? = some a := by
  obtain ⟨t, rfl⟩ := h
  rw [List.getElem?_append_left (List.getElem?_eq_some_iff.mp ha).1]
  exact ha

theorem PublishedTo.mono (hc : s.calls <+: s'.calls) (hp : s.published ⊆ s'.published)
    {kitSerial : String} {id : UInt64} {caller : Nat}
    (h : PublishedTo s kitSerial id caller) : PublishedTo s' kitSerial id caller := by
  obtain ⟨body, hcall, hpub⟩ := h
  exact ⟨body, getElem?_of_prefix hc hcall, hp hpub⟩

theorem ReceivedFrom.mono (hr : s.received <+: s'.received) {kitSerial : String} {id : UInt64}
    {i : Nat} {body : Except DecodeErrorKind ResponseBody}
    (h : ReceivedFrom codec s kitSerial id i body) :
    ReceivedFrom codec s' kitSerial id i body := by
  obtain ⟨payload, hi, hdec⟩ := h
  exact ⟨payload, getElem?_of_prefix hr hi, hdec⟩

theorem inv_start : Inv codec .start where
  nextId := rfl
  room := Nat.le_refl _
  places c := by simp [State.places, State.start, DriverPc.caller, callers]
  sends c := by simp [State.sends, State.start]
  uses i := by simp [State.uses, State.start]
  requests r hr := by cases hr
  publishing r id h := by cases h
  waiters key w h := by simp [State.start] at h
  responses r hr := by cases hr
  completions c hc := by cases hc

/-! ## One step -/

/-- A waiter that is about to be stored does not replace another one. -/
theorem Inv.fresh_key (h : Inv codec s) {request : Request} {id : UInt64}
    (hpc : s.pc = .publishing request id) : s.waiters.lookup (request.kitSerial, id) = none := by
  cases hl : s.waiters.lookup (request.kitSerial, id) with
  | none => rfl
  | some w =>
      have hw : w ∈ s.waiters.lookup (request.kitSerial, id) := by
        rw [hl]
        rfl
      have hlt := (h.waiters _ w hw).2
      simp only [State.settled, hpc] at hlt
      omega

theorem count_drop_le (s : State) (cs : List Nat) (c : Nat) :
    ((s.drop cs).completions.map (·.caller)).count c
      ≤ (s.completions.map (·.caller)).count c + cs.count c := by
  have hcallers : ∀ l : List Nat, (l.map fun c => (⟨c, none⟩ : Completion)).map (·.caller) = l :=
    fun l => by simp [Function.comp_def]
  simp only [State.drop, List.map_append, hcallers, List.count_append]
  exact Nat.add_le_add_left (List.filter_sublist.count_le c) _

theorem payload_drop (s : State) (cs : List Nat) :
    (s.drop cs).completions.filterMap (·.payload) = s.completions.filterMap (·.payload) := by
  simp [State.drop, Completion.payload]

theorem mem_drop {cs : List Nat} {c : Completion} (h : c ∈ (s.drop cs).completions) :
    c ∈ s.completions ∨ c.outcome = none := by
  rcases List.mem_append.mp h with h | h
  · exact Or.inl h
  · obtain ⟨_, _, rfl⟩ := List.mem_map.mp h
    exact Or.inr rfl

/-- Completions that tell the truth still do when the history grows. -/
theorem Inv.completions_mono (h : Inv codec s) (hc : s.calls <+: s'.calls)
    (hp : s.published ⊆ s'.published) (hr : s.received <+: s'.received) :
    ∀ c ∈ s.completions, ∀ i body, c.outcome = some (i, body) →
      ∃ kitSerial id, PublishedTo s' kitSerial id c.caller
        ∧ ReceivedFrom codec s' kitSerial id i body := by
  intro c hmem i body hout
  obtain ⟨kitSerial, id, hpub, hrec⟩ := h.completions c hmem i body hout
  exact ⟨kitSerial, id, hpub.mono hc hp, hrec.mono hr⟩

theorem inv_queued (h : Inv codec s) (kitSerial : String) (body : RequestBody) :
    Inv codec { s with
      calls := s.calls ++ [(kitSerial, body)]
      requests := s.requests ++ [⟨kitSerial, body, s.calls.length⟩] } where
  nextId := h.nextId
  room := by
    have := h.room
    simp only [List.length_append, List.length_singleton]
    omega
  places c := by
    have := h.places c
    simp only [State.places, List.map_append, List.map_singleton, List.count_append,
      List.length_append, List.length_singleton, below_succ] at this ⊢
    omega
  sends c := by
    have := h.sends c
    simp only [State.sends, List.map_append, List.map_singleton, List.count_append,
      List.length_append, List.length_singleton, below_succ] at this ⊢
    omega
  uses := h.uses
  requests r hr := by
    rcases List.mem_append.mp hr with hr | hr
    · exact getElem?_of_prefix (List.prefix_append _ _) (h.requests r hr)
    · rw [List.mem_singleton.mp hr]
      simp
  publishing r id hpc := (h.publishing r id hpc).imp_left (.mono (by simp) (by simp))
  waiters key w hw := (h.waiters key w hw).imp_left (.mono (by simp) (by simp))
  responses := h.responses
  completions := h.completions_mono (by simp) (by simp) (by simp)

/-- A call that is refused: its sender is dropped at once. -/
theorem inv_refused (h : Inv codec s) (kitSerial : String) (body : RequestBody) :
    Inv codec
      ({ s with calls := s.calls ++ [(kitSerial, body)] }.drop [s.calls.length]) where
  nextId := h.nextId
  room := by
    have := h.room
    simp only [State.drop, List.length_append, List.length_singleton]
    omega
  places c := by
    have := h.places c
    have hdrop := count_drop_le { s with calls := s.calls ++ [(kitSerial, body)] }
      [s.calls.length] c
    simp only [State.places, State.drop, List.length_append, List.length_singleton,
      below_succ] at this hdrop ⊢
    omega
  sends c := by
    have := h.sends c
    simp only [State.sends, State.drop, List.length_append, List.length_singleton,
      below_succ] at this ⊢
    omega
  uses i := by
    have := h.uses i
    rw [State.uses, payload_drop]
    exact this
  requests r hr := getElem?_of_prefix (List.prefix_append _ _) (h.requests r hr)
  publishing r id hpc :=
    (h.publishing r id hpc).imp_left (.mono (by simp [State.drop]) (by simp [State.drop]))
  waiters key w hw :=
    (h.waiters key w hw).imp_left (.mono (by simp [State.drop]) (by simp [State.drop]))
  responses := h.responses
  completions c hc i body hout := by
    rcases mem_drop hc with hc | hnone
    · exact h.completions_mono (by simp [State.drop]) (by simp [State.drop])
        (by simp [State.drop]) c hc i body hout
    · rw [hnone] at hout
      cases hout

theorem inv_received (h : Inv codec s) (m : String × List UInt8) :
    Inv codec { s with received := s.received ++ [m] } :=
  { h with
    uses := fun i => by
      have := h.uses i
      simp only [State.uses, List.length_append, List.length_singleton, below_succ] at this ⊢
      omega
    responses := fun r hr => (h.responses r hr).mono (by simp)
    completions := h.completions_mono (by simp) (by simp) (by simp) }

theorem inv_response (h : Inv codec s) {topic : String} {payload : List UInt8}
    {kitSerial : String} {id : UInt64} {body : Except DecodeErrorKind ResponseBody}
    (htopic : Topic.tryFrom topic = .ok ⟨kitSerial, .kitRpcResponse⟩)
    (hdec : decodeResponse codec payload = .ok (id, body)) :
    Inv codec { s with
      received := s.received ++ [(topic, payload)]
      responses := s.responses ++ [⟨kitSerial, id, body, s.received.length⟩] } :=
  { h with
    uses := fun i => by
      have := h.uses i
      simp only [State.uses, List.map_append, List.map_singleton, List.count_append,
        List.length_append, List.length_singleton, below_succ] at this ⊢
      omega
    responses := fun r hr => by
      rcases List.mem_append.mp hr with hr | hr
      · exact (h.responses r hr).mono (by simp)
      · rw [List.mem_singleton.mp hr]
        refine ⟨payload, ?_, hdec⟩
        rw [← (Topic.tryFrom_eq_ok.mp htopic).1]
        simp
    completions := h.completions_mono (by simp) (by simp) (by simp) }

theorem Inv.nextId_toNat (h : Inv codec s) (hfew : s.calls.length < 2 ^ 64) :
    s.nextId.toNat = s.published.length := by
  have hroom := h.room
  rw [h.nextId]
  exact UInt64.toNat_ofNat_of_lt' (by simp only [UInt64.size]; omega)

theorem inv_recvRequest (h : Inv codec s) (hfew : s.calls.length < 2 ^ 64) {request : Request}
    {rest : List Request} (hpc : s.pc = .select) (hreq : s.requests = request :: rest) :
    Inv codec { s with
      requests := rest
      nextId := s.nextId + 1
      pc := .publishing request s.nextId
      published := s.published ++
        [⟨(Topic.mk request.kitSerial .kitRpcRequest).text, s.nextId, request.body,
          request.caller⟩] } where
  nextId := by simp [h.nextId, UInt64.ofNat_add]
  room := by
    have := h.room
    simp only [hreq, List.length_cons, List.length_append, List.length_nil] at this ⊢
    omega
  places c := by
    have := h.places c
    simp only [State.places, hreq, hpc, DriverPc.caller, List.map_cons, List.count_cons,
      List.count_nil] at this ⊢
    omega
  sends c := by
    have := h.sends c
    simp only [State.sends, hreq, List.map_cons, List.count_cons, List.map_append,
      List.map_nil, List.count_append, List.count_nil] at this ⊢
    omega
  uses := h.uses
  requests r hr := h.requests r (by simp [hreq, hr])
  publishing r id hp := by
    obtain ⟨rfl, rfl⟩ := DriverPc.publishing.inj hp
    refine ⟨⟨request.body, h.requests request (by simp [hreq]), by simp⟩, ?_⟩
    simp [h.nextId_toNat hfew]
  waiters key w hw := by
    obtain ⟨hpub, hid⟩ := h.waiters key w hw
    refine ⟨hpub.mono (by simp) (by simp), ?_⟩
    simp only [State.settled, hpc] at hid ⊢
    rw [h.nextId_toNat hfew]
    exact hid
  responses := h.responses
  completions := h.completions_mono (by simp) (by simp) (by simp)

theorem inv_stop (h : Inv codec s) (hpc : s.pc = .select) : Inv codec (stop s) where
  nextId := h.nextId
  room := by
    have := h.room
    simp only [stop, State.drop, List.length_nil]
    omega
  places c := by
    have := h.places c
    have hdrop := count_drop_le s (s.requests.map (·.caller) ++ callers s.waiters.entries) c
    simp only [List.count_append] at hdrop
    have hnone : (callers (∅ : Waiters).entries).count c = 0 := rfl
    simp only [State.places, stop, hpc, hnone, DriverPc.caller, List.map_nil,
      List.count_nil] at this ⊢
    exact Nat.le_trans (by omega) this
  sends c := by
    have := h.sends c
    simp only [State.sends, stop, State.drop, List.map_nil, List.count_nil] at this ⊢
    omega
  uses i := by
    have := h.uses i
    have hpay := payload_drop s (s.requests.map (·.caller) ++ callers s.waiters.entries)
    simp only [State.uses, stop, hpay, List.map_nil, List.count_nil] at this ⊢
    exact Nat.le_trans (by omega) this
  requests r hr := by cases hr
  publishing r id hp := by cases hp
  waiters key w hw := by simp [stop] at hw
  responses r hr := by cases hr
  completions c hc i body hout := by
    rcases mem_drop hc with hc | hnone
    · exact h.completions c hc i body hout
    · rw [hnone] at hout
      cases hout

theorem inv_finishRequest (h : Inv codec s) {request : Request} {id : UInt64}
    (hpc : s.pc = .publishing request id) :
    Inv codec { s with
      waiters := s.waiters.insert (request.kitSerial, id) ⟨s.now, request.caller⟩
      pc := .select } :=
  { h with
    places := fun c => by
      have := h.places c
      simp only [State.places, hpc, DriverPc.caller, callers_insert (h.fresh_key hpc),
        List.count_cons, List.count_nil] at this ⊢
      omega
    publishing := fun r id hp => by cases hp
    waiters := fun key w hw => by
      obtain ⟨hpub, hid⟩ := h.publishing request id hpc
      by_cases hkey : key = (request.kitSerial, id)
      · subst hkey
        rw [AList.lookup_insert] at hw
        obtain rfl := Option.some.inj hw
        exact ⟨hpub, by simp only [State.settled]; omega⟩
      · rw [AList.lookup_insert_ne hkey] at hw
        obtain ⟨hpub', hid'⟩ := h.waiters key w hw
        refine ⟨hpub', ?_⟩
        simp only [State.settled, hpc] at hid' ⊢
        omega }

/-- A waiter is gone from the map without its caller hearing of it. -/
theorem inv_erase (h : Inv codec s) {response : Response} {rest : List Response}
    (hres : s.responses = response :: rest) (key : String × UInt64) :
    Inv codec { s with responses := rest, waiters := s.waiters.erase key } :=
  { h with
    places := fun c => by
      have := h.places c
      cases hl : s.waiters.lookup key with
      | none =>
          rw [erase_of_lookup hl]
          exact this
      | some w =>
          have hcount := (callers_erase hl).count_eq c
          simp only [State.places, List.count_cons] at this hcount ⊢
          omega
    uses := fun i => by
      have := h.uses i
      simp only [State.uses, hres, List.map_cons, List.count_cons] at this ⊢
      omega
    waiters := fun key' w hw => by
      by_cases hkey : key' = key
      · subst hkey
        rw [AList.lookup_erase] at hw
        cases hw
      · rw [AList.lookup_erase_ne hkey] at hw
        exact h.waiters key' w hw
    responses := fun r hr => h.responses r (by simp [hres, hr]) }

theorem inv_completed (h : Inv codec s) {response : Response} {rest : List Response}
    (hres : s.responses = response :: rest) {w : Waiter}
    (hw : s.waiters.lookup (response.kitSerial, response.requestId) = some w) :
    Inv codec { s with
      responses := rest
      waiters := s.waiters.erase (response.kitSerial, response.requestId)
      completions := s.completions ++
        [⟨w.caller, some (response.payload, response.body)⟩] } :=
  { inv_erase h hres (response.kitSerial, response.requestId) with
    places := fun c => by
      have := h.places c
      have hcount := (callers_erase hw).count_eq c
      simp only [State.places, List.map_append, List.map_singleton, List.count_append,
        List.count_cons, List.count_nil] at this hcount ⊢
      omega
    uses := fun i => by
      have := h.uses i
      have hlast : [(⟨w.caller, some (response.payload, response.body)⟩ : Completion)].filterMap
          (·.payload) = [response.payload] := rfl
      simp only [State.uses, hres, List.map_cons, List.count_cons, List.filterMap_append,
        List.count_append, hlast, List.count_nil] at this ⊢
      omega
    completions := fun c hc i body hout => by
      rcases List.mem_append.mp hc with hc | hc
      · exact h.completions c hc i body hout
      · obtain rfl := List.mem_singleton.mp hc
        obtain ⟨rfl, rfl⟩ := Prod.mk.inj (Option.some.inj hout)
        exact ⟨_, _, (h.waiters _ w hw).1, h.responses response (by simp [hres])⟩ }

theorem inv_cleanup (h : Inv codec s) (young : Waiter → Bool) :
    Inv codec { s.drop (callers (s.waiters.entries.filter fun e => !young e.2)) with
      waiters := HashMap.retain young s.waiters } :=
  { h with
    places := fun c => by
      have := h.places c
      have hdrop := count_drop_le s (callers (s.waiters.entries.filter fun e => !young e.2)) c
      have hcount := count_callers_retain s.waiters young c
      simp only [State.places, State.drop] at this hdrop ⊢
      omega
    uses := fun i => by
      have := h.uses i
      rw [State.uses, payload_drop]
      exact this
    waiters := fun key w hw => h.waiters key w (HashMap.mem_lookup_retain.mp hw).1
    completions := fun c hc i body hout => by
      rcases mem_drop hc with hc | hnone
      · exact h.completions c hc i body hout
      · rw [hnone] at hout
        cases hout }

theorem inv_step (h : Inv codec s) (hfew : s.calls.length < 2 ^ 64) {l : Label}
    (hs : step codec s l = some s') : Inv codec s' := by
  cases l with
  | call kitSerial body =>
      simp only [step, call] at hs
      split at hs
      · cases hs
      · split at hs
        · obtain rfl := Option.some.inj hs
          exact inv_refused h kitSerial body
        · split at hs
          · obtain rfl := Option.some.inj hs
            exact inv_queued h kitSerial body
          · cases hs
  | hangUp caller =>
      simp only [step] at hs
      split at hs
      · obtain rfl := Option.some.inj hs
        exact { h with }
      · cases hs
  | closeRequests =>
      obtain rfl := Option.some.inj hs
      exact { h with }
  | closeResponses =>
      obtain rfl := Option.some.inj hs
      exact { h with }
  | receive topic payload =>
      simp only [step, receive] at hs
      split at hs
      · cases hs
      · split at hs
        · rename_i kitSerial htopic
          split at hs
          · obtain rfl := Option.some.inj hs
            exact inv_received h (topic, payload)
          · rename_i id body hdec
            split at hs
            · obtain rfl := Option.some.inj hs
              exact inv_received h (topic, payload)
            · split at hs
              · obtain rfl := Option.some.inj hs
                exact inv_response h htopic hdec
              · cases hs
        · obtain rfl := Option.some.inj hs
          exact inv_received h (topic, payload)
  | recvRequest =>
      simp only [step, recvRequest] at hs
      split at hs
      · rename_i hpc
        split at hs
        · rename_i hreq
          obtain rfl := Option.some.inj hs
          exact inv_recvRequest h hfew hpc hreq
        · split at hs
          · cases hs
          · obtain rfl := Option.some.inj hs
            exact inv_stop h hpc
      · cases hs
  | published =>
      simp only [step, finishRequest] at hs
      split at hs
      · rename_i request id hpc
        simp only [h.fresh_key hpc] at hs
        obtain rfl := Option.some.inj hs
        simpa [State.drop] using inv_finishRequest h hpc
      · cases hs
  | recvResponse =>
      simp only [step, recvResponse] at hs
      split at hs
      · rename_i hpc
        split at hs
        · rename_i response rest hres
          split at hs
          · obtain rfl := Option.some.inj hs
            exact inv_erase h hres _
          · rename_i w hw
            split at hs
            · obtain rfl := Option.some.inj hs
              exact inv_erase h hres _
            · obtain rfl := Option.some.inj hs
              exact inv_completed h hres hw
        · split at hs
          · cases hs
          · obtain rfl := Option.some.inj hs
            exact inv_stop h hpc
      · cases hs
  | cleanup =>
      simp only [step, cleanup] at hs
      split at hs
      · obtain rfl := Option.some.inj hs
        exact inv_cleanup h _
      · cases hs
  | elapse d =>
      obtain rfl := Option.some.inj hs
      exact { h with }

theorem calls_le {l : Label} (hs : step codec s l = some s') :
    s.calls.length ≤ s'.calls.length := by
  cases l with
  | call kitSerial body =>
      simp only [step, call] at hs
      repeat' split at hs
      all_goals cases hs
      all_goals simp [State.drop]
  | receive topic payload =>
      simp only [step, receive] at hs
      repeat' split at hs
      all_goals cases hs
      all_goals exact Nat.le_refl _
  | hangUp caller =>
      simp only [step] at hs
      split at hs
      · obtain rfl := Option.some.inj hs
        exact Nat.le_refl _
      · cases hs
  | closeRequests | closeResponses | elapse d =>
      obtain rfl := Option.some.inj hs
      exact Nat.le_refl _
  | recvRequest | published | recvResponse | cleanup =>
      simp only [step, recvRequest, finishRequest, recvResponse, cleanup] at hs
      repeat' split at hs
      all_goals cases hs
      all_goals exact Nat.le_refl _

/-! ## Runs -/

theorem inv_exec {ls : List Label} (hrun : Run.exec (step codec) .start ls = some s)
    (hfew : s.calls.length < 2 ^ 64) : Inv codec s := by
  refine Run.exec_invariant (I := fun s => s.calls.length < 2 ^ 64 → Inv codec s)
    (fun s l s' h hs hfew' => ?_) (fun _ => inv_start) hrun hfew
  have hfew : s.calls.length < 2 ^ 64 := Nat.lt_of_le_of_lt (calls_le hs) hfew'
  exact inv_step (h hfew) hfew hs

/-- What correlation means in a state of the driver. -/
structure Correlated (codec : KitRpcCodec) (s : State) : Prop where
  /-- Whoever is handed anything but a timeout is handed the content of a
  message that came from the kit it asked, under the id of its own request. -/
  handed : ∀ c ∈ s.completions, ∀ {α : Type} (expected : ResponseBody → Option α),
    KitsRpc.respond expected (c.outcome.map (·.2)) ≠ .error .timedOut →
    ∃ i body kitSerial id, c.outcome = some (i, body)
      ∧ PublishedTo s kitSerial id c.caller ∧ ReceivedFrom codec s kitSerial id i body
  /-- A call has one publication, and so one id. -/
  published_once : (s.published.map (·.caller)).Nodup
  completed_once : (s.completions.map (·.caller)).Nodup
  payload_once : (s.completions.filterMap (·.payload)).Nodup
  keys_nodup : (s.waiters.entries.map (·.1)).Nodup
  /-- The waiter of the request that is being published replaces none. -/
  fresh_key : ∀ request id, s.pc = .publishing request id →
    s.waiters.lookup (request.kitSerial, id) = none
  /-- A response leaves the waiters for other kits alone, and completes no call
  to another kit. -/
  undisturbed : ∀ response rest s', s.responses = response :: rest →
    step codec s .recvResponse = some s' →
    (∀ key : String × UInt64, key.1 ≠ response.kitSerial →
      s'.waiters.lookup key = s.waiters.lookup key)
    ∧ (s'.completions = s.completions ∨ ∃ c body, s'.completions = s.completions ++ [c]
        ∧ s.calls[c.caller]? = some (response.kitSerial, body))

theorem Inv.undisturbed (h : Inv codec s) {response : Response} {rest : List Response}
    (hres : s.responses = response :: rest) (hs : step codec s .recvResponse = some s') :
    (∀ key : String × UInt64, key.1 ≠ response.kitSerial →
      s'.waiters.lookup key = s.waiters.lookup key)
    ∧ (s'.completions = s.completions ∨ ∃ c body, s'.completions = s.completions ++ [c]
        ∧ s.calls[c.caller]? = some (response.kitSerial, body)) := by
  have herase : ∀ key : String × UInt64, key.1 ≠ response.kitSerial →
      (s.waiters.erase (response.kitSerial, response.requestId)).lookup key
        = s.waiters.lookup key := by
    intro key hkey
    exact AList.lookup_erase_ne fun heq => hkey (by rw [heq])
  simp only [step, recvResponse, hres] at hs
  split at hs
  · split at hs
    · obtain rfl := Option.some.inj hs
      exact ⟨herase, Or.inl rfl⟩
    · rename_i w hw
      split at hs
      · obtain rfl := Option.some.inj hs
        exact ⟨herase, Or.inl rfl⟩
      · obtain rfl := Option.some.inj hs
        obtain ⟨⟨body, hcall, -⟩, -⟩ := h.waiters _ w hw
        exact ⟨herase, Or.inr ⟨_, body, rfl, hcall⟩⟩
  · cases hs

theorem Inv.correlated (h : Inv codec s) : Correlated codec s where
  handed c hc _ expected hne := by
    cases hout : c.outcome with
    | none =>
        rw [hout] at hne
        exact absurd (KitsRpc.respond_eq_timedOut.mpr rfl) hne
    | some o =>
        obtain ⟨kitSerial, id, hpub, hrec⟩ := h.completions c hc o.1 o.2 hout
        exact ⟨o.1, o.2, kitSerial, id, rfl, hpub, hrec⟩
  published_once := List.nodup_iff_count_le_one.mpr fun c => by
    have hsends := h.sends c
    have hbelow := below_le_one s.calls.length c
    simp only [State.sends] at hsends
    omega
  completed_once := List.nodup_iff_count_le_one.mpr fun c => by
    have hplaces := h.places c
    have hbelow := below_le_one s.calls.length c
    simp only [State.places] at hplaces
    omega
  payload_once := List.nodup_iff_count_le_one.mpr fun i => by
    have huses := h.uses i
    have hbelow := below_le_one s.received.length i
    simp only [State.uses] at huses
    omega
  keys_nodup := s.waiters.keys_nodup
  fresh_key _ _ hpc := h.fresh_key hpc
  undisturbed _ _ _ hres hs := h.undisturbed hres hs

/-- **Kit RPC correlation**: after every run with fewer than `2 ^ 64` calls. -/
theorem kit_rpc_correlation {ls : List Label}
    (hrun : Run.exec (step codec) .start ls = some s) (hfew : s.calls.length < 2 ^ 64) :
    Correlated codec s :=
  (inv_exec hrun hfew).correlated

/-- The packed message `(id = 0, version = "1")`. -/
def versionMessage : List UInt8 :=
  [0x10, 0x06, 0x50, 0x03, 0x01, 0x00, 0x00, 0x01, 0x01, 0x00, 0x00, 0x11, 0x01, 0x12, 0x01, 0x31]

/-- Reads that message, and finds everything else malformed. -/
def versionCodec : KitRpcCodec where
  readMessage message :=
    if message = versionMessage then .ok ⟨0, .ok (.version (.ok "1"))⟩ else .error .failed
  fromStr _ := none

/-- Two kits are asked; the second one also answers for the first one, and the
first one answers twice. -/
def forgedAnswer : List Label :=
  [.call "k1" .version, .call "k2" .uptime, .recvRequest, .published, .recvRequest, .published,
    .receive "kit/k2/kit-rpc/response" versionMessage,
    .receive "kit/k1/kit-rpc/response" versionMessage,
    .receive "kit/k1/kit-rpc/response" versionMessage,
    .receive "kit/k1/kit-rpc/response" [],
    .recvResponse, .recvResponse, .recvResponse, .elapse 30000, .cleanup]

theorem kit_rpc_correlation_forgedAnswer :
    ∃ s, Run.exec (step versionCodec) .start forgedAnswer = some s
      ∧ s.completions.map (·.payload) = [some 1, none] ∧ Correlated versionCodec s := by
  have hrun : ∃ s, Run.exec (step versionCodec) .start forgedAnswer = some s
      ∧ s.completions.map (·.payload) = [some 1, none] ∧ s.calls.length < 2 ^ 64 :=
    ⟨_, rfl, rfl, by decide⟩
  obtain ⟨s, hrun, hcompleted, hfew⟩ := hrun
  exact ⟨s, hrun, hcompleted, kit_rpc_correlation hrun hfew⟩

end KitRpc

end AstroPlant
