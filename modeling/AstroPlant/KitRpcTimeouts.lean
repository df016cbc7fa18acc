import AstroPlant.KitRpcCorrelation

/-!
# Responses are not lost, and calls do not time out early

A request is published before its waiter is stored, so its response may arrive
while there is nobody to hand it to. It is kept in the channel: the driver does
one thing at a time, and takes no response before the waiter is there.

The statements are about the past of a state, the list of steps that led to it:
when a waiter was stored (`Stores`), which responses the driver took (`Takes`)
and which waiters a cleanup removed (`Expires`). `Effect` says once what a step
does to what these speak of. From it follow where a waiter comes from
(`Past.waiters`), what has become of a published request (`Fate`) and what has
become of a received response (`Past.messages`).

Time passes in steps of its own. A cleanup removes the waiters that have been
there for the whole timeout, and the step that removes one is found in the past
(`Overdue`): a call whose waiter was dropped has waited long enough, or the
driver has stopped.
-/

namespace AstroPlant

namespace KitRpc

abbrev Event := Run.Event State Label

/-- The driver takes the response out of its channel. -/
def Takes (r : Response) (e : Event) : Prop :=
  e.label = .recvResponse ∧ e.before.responses.head? = some r

/-- The driver takes a response that carries the key. -/
def TakesFor (key : String × UInt64) (e : Event) : Prop :=
  ∃ r, Takes r e ∧ (r.kitSerial, r.requestId) = key

/-- The driver stores the waiter of a call. -/
def Stores (key : String × UInt64) (caller : Nat) (e : Event) : Prop :=
  e.label = .published ∧ ∃ request, e.before.pc = .publishing request key.2
    ∧ request.kitSerial = key.1 ∧ request.caller = caller

/-- A cleanup removes the waiter under the key. -/
def Expires (key : String × UInt64) (e : Event) : Prop :=
  e.label = .cleanup ∧ key ∈ e.before.waiters ∧ key ∉ e.after.waiters

/-- The waiter was stored at `t`, and no response for it has been taken since. -/
def WaitsSince (past : List Event) (key : String × UInt64) (caller : Nat) (t : Duration) :
    Prop :=
  ∃ p e q, past = p ++ e :: q ∧ Stores key caller e ∧ e.before.now = t
    ∧ ∀ u ∈ q, ¬ TakesFor key u

/-- A cleanup ran when the waiter had waited for the whole timeout. -/
def Overdue (past : List Event) (caller : Nat) : Prop :=
  ∃ key t p e q, past = p ++ e :: q ∧ WaitsSince p key caller t
    ∧ e.label = .cleanup ∧ t + timeout ≤ e.before.now

/-! ## What a step does -/

variable (codec : KitRpcCodec)

/-- A message that is an answer to a request. -/
def Answers (m : String × List UInt8) (kitSerial : String) (id : UInt64)
    (body : Except DecodeErrorKind ResponseBody) : Prop :=
  Topic.tryFrom m.1 = .ok ⟨kitSerial, .kitRpcResponse⟩ ∧ decodeResponse codec m.2 = .ok (id, body)

inductive Effect (s : State) : Label → State → Prop
  /-- Neither the driver nor its channel of responses is concerned. -/
  | quiet {l : Label} {s' : State}
      (hl : l ≠ .published ∧ l ≠ .recvResponse ∧ l ≠ .cleanup)
      (hpc : s'.pc = s.pc) (hwaiters : s'.waiters = s.waiters)
      (hpublished : s'.published = s.published) (hcalls : s.calls <+: s'.calls)
      (hresponses : s'.responses = s.responses) (hreceived : s'.received = s.received)
      (hgone : s.gone ⊆ s'.gone) (hcompletions : s.completions <+: s'.completions)
      (hdropped : s.pc = .stopped ∨ s'.completions = s.completions) : Effect s l s'
  | skipped (topic : String) (payload : List UInt8)
      (hskip : s.pc = .stopped
        ∨ ∀ kitSerial id body, ¬ Answers codec (topic, payload) kitSerial id body) :
      Effect s (.receive topic payload) { s with received := s.received ++ [(topic, payload)] }
  | queued (topic : String) (payload : List UInt8) {kitSerial : String} {id : UInt64}
      {body : Except DecodeErrorKind ResponseBody}
      (hanswers : Answers codec (topic, payload) kitSerial id body) :
      Effect s (.receive topic payload)
        { s with
          received := s.received ++ [(topic, payload)]
          responses := s.responses ++ [⟨kitSerial, id, body, s.received.length⟩] }
  | requested {request : Request} {rest : List Request} (hpc : s.pc = .select)
      (hrequests : s.requests = request :: rest) :
      Effect s .recvRequest
        { s with
          requests := rest
          nextId := s.nextId + 1
          pc := .publishing request s.nextId
          published := s.published ++
            [⟨(Topic.mk request.kitSerial .kitRpcRequest).text, s.nextId, request.body,
              request.caller⟩] }
  | stored {request : Request} {id : UInt64} (hpc : s.pc = .publishing request id)
      (hfresh : s.waiters.lookup (request.kitSerial, id) = none) :
      Effect s .published
        { s with
          waiters := s.waiters.insert (request.kitSerial, id) ⟨s.now, request.caller⟩
          pc := .select }
  | ignored {response : Response} {rest : List Response} (hpc : s.pc = .select)
      (hresponses : s.responses = response :: rest)
      (hwaiters : s.waiters.lookup (response.kitSerial, response.requestId) = none) :
      Effect s .recvResponse { s with responses := rest }
  | unheard {response : Response} {rest : List Response} {w : Waiter} (hpc : s.pc = .select)
      (hresponses : s.responses = response :: rest)
      (hwaiters : s.waiters.lookup (response.kitSerial, response.requestId) = some w)
      (hgone : w.caller ∈ s.gone) :
      Effect s .recvResponse
        { s with
          responses := rest
          waiters := s.waiters.erase (response.kitSerial, response.requestId) }
  | answered {response : Response} {rest : List Response} {w : Waiter} (hpc : s.pc = .select)
      (hresponses : s.responses = response :: rest)
      (hwaiters : s.waiters.lookup (response.kitSerial, response.requestId) = some w)
      (hlistens : w.caller ∉ s.gone) :
      Effect s .recvResponse
        { s with
          responses := rest
          waiters := s.waiters.erase (response.kitSerial, response.requestId)
          completions := s.completions ++
            [⟨w.caller, some (response.payload, response.body)⟩] }
  | stopped {l : Label} (hl : l = .recvRequest ∨ l = .recvResponse ∧ s.responses = [])
      (hpc : s.pc = .select) : Effect s l (stop s)
  | cleaned (hpc : s.pc = .select) :
      Effect s .cleanup
        { s.drop (callers (s.waiters.entries.filter fun e =>
            !decide (s.now - e.2.creation < timeout))) with
          waiters := HashMap.retain (fun w => s.now - w.creation < timeout) s.waiters }

variable {codec : KitRpcCodec} {s s' : State} {past : List Event}

theorem prefix_drop (s : State) (cs : List Nat) : s.completions <+: (s.drop cs).completions :=
  List.prefix_append _ _

theorem receive_effect {topic : String} {payload : List UInt8}
    (hs : step codec s (.receive topic payload) = some s') :
    Effect codec s (.receive topic payload) s' := by
  simp only [step, receive] at hs
  split at hs
  · cases hs
  · split at hs
    · rename_i kitSerial htopic
      split at hs
      · rename_i err hdec
        obtain rfl := Option.some.inj hs
        refine .skipped topic payload (Or.inr fun k id body hans => ?_)
        exact absurd (hdec.symm.trans hans.2) (by simp)
      · rename_i id body hdec
        split at hs
        · rename_i hpc
          obtain rfl := Option.some.inj hs
          exact .skipped topic payload (Or.inl hpc)
        · split at hs
          · obtain rfl := Option.some.inj hs
            exact .queued topic payload ⟨htopic, hdec⟩
          · cases hs
    · rename_i htopic
      obtain rfl := Option.some.inj hs
      exact .skipped topic payload (Or.inr fun k id body hans => htopic k hans.1)

theorem recvResponse_effect (hs : step codec s .recvResponse = some s') :
    Effect codec s .recvResponse s' := by
  simp only [step, recvResponse] at hs
  split at hs
  · rename_i hpc
    split at hs
    · rename_i response rest hres
      split at hs
      · rename_i hnone
        obtain rfl := Option.some.inj hs
        rw [erase_of_lookup hnone]
        exact .ignored hpc hres hnone
      · rename_i w hw
        split at hs
        · rename_i hgone
          obtain rfl := Option.some.inj hs
          exact .unheard hpc hres hw hgone
        · rename_i hlistens
          obtain rfl := Option.some.inj hs
          exact .answered hpc hres hw hlistens
    · rename_i hempty
      split at hs
      · cases hs
      · obtain rfl := Option.some.inj hs
        exact .stopped (Or.inr ⟨rfl, hempty⟩) hpc
  · cases hs

theorem step_effect (h : Inv codec s) {l : Label} (hs : step codec s l = some s') :
    Effect codec s l s' := by
  cases l with
  | call kitSerial body =>
      simp only [step, call] at hs
      split at hs
      · cases hs
      · split at hs
        · rename_i hpc
          obtain rfl := Option.some.inj hs
          exact .quiet (by simp) rfl rfl rfl (by simp [State.drop]) rfl rfl (List.Subset.refl _)
            (prefix_drop _ _) (Or.inl hpc)
        · split at hs
          · obtain rfl := Option.some.inj hs
            exact .quiet (by simp) rfl rfl rfl (by simp) rfl rfl (List.Subset.refl _)
              (List.prefix_refl _) (Or.inr rfl)
          · cases hs
  | hangUp caller =>
      simp only [step] at hs
      split at hs
      · obtain rfl := Option.some.inj hs
        exact .quiet (by simp) rfl rfl rfl (List.prefix_refl _) rfl rfl
          (List.subset_cons_self _ _) (List.prefix_refl _) (Or.inr rfl)
      · cases hs
  | closeRequests | closeResponses | elapse d =>
      obtain rfl := Option.some.inj hs
      exact .quiet (by simp) rfl rfl rfl (List.prefix_refl _) rfl rfl (List.Subset.refl _)
        (List.prefix_refl _) (Or.inr rfl)
  | receive topic payload => exact receive_effect hs
  | recvRequest =>
      simp only [step, recvRequest] at hs
      split at hs
      · rename_i hpc
        split at hs
        · rename_i hreq
          obtain rfl := Option.some.inj hs
          exact .requested hpc hreq
        · split at hs
          · cases hs
          · obtain rfl := Option.some.inj hs
            exact .stopped (Or.inl rfl) hpc
      · cases hs
  | published =>
      simp only [step, finishRequest] at hs
      split at hs
      · rename_i request id hpc
        simp only [h.fresh_key hpc] at hs
        obtain rfl := Option.some.inj hs
        simpa [State.drop] using @Effect.stored codec s _ _ hpc (h.fresh_key hpc)
      · cases hs
  | recvResponse => exact recvResponse_effect hs
  | cleanup =>
      simp only [step, cleanup] at hs
      split at hs
      · rename_i hpc
        obtain rfl := Option.some.inj hs
        exact .cleaned hpc
      · cases hs

/-! ## What stays -/

theorem Effect.gone_subset {l : Label} (h : Effect codec s l s') : s.gone ⊆ s'.gone := by
  cases h with
  | quiet _ _ _ _ _ _ _ hgone => exact hgone
  | _ => exact List.Subset.refl _

theorem Effect.completions_extend {l : Label} (h : Effect codec s l s') :
    s.completions <+: s'.completions := by
  cases h with
  | quiet _ _ _ _ _ _ _ _ hcompletions => exact hcompletions
  | answered => exact List.prefix_append _ _
  | stopped => exact prefix_drop _ _
  | cleaned => exact prefix_drop _ _
  | _ => exact List.prefix_refl _

theorem Effect.stopped_stays {l : Label} (h : Effect codec s l s') (hpc : s.pc = .stopped) :
    s'.pc = .stopped := by
  cases h with
  | quiet _ hpc' => exact hpc'.trans hpc
  | skipped | queued => exact hpc
  | stored hpc' => exact absurd (hpc.symm.trans hpc') (by simp)
  | requested hpc' | ignored hpc' | unheard hpc' | answered hpc' | stopped _ hpc' | cleaned hpc' =>
      exact absurd (hpc.symm.trans hpc') (by simp)

theorem WaitsSince.append {key : String × UInt64} {caller : Nat} {t : Duration} {e : Event}
    (h : WaitsSince past key caller t) (he : ¬ TakesFor key e) :
    WaitsSince (past ++ [e]) key caller t := by
  obtain ⟨p, e₀, q, rfl, hstores, hnow, hq⟩ := h
  refine ⟨p, e₀, q ++ [e], by simp, hstores, hnow, fun u hu => ?_⟩
  rcases List.mem_append.mp hu with hu | hu
  · exact hq u hu
  · rw [List.mem_singleton.mp hu]
    exact he

theorem Overdue.append {caller : Nat} {e : Event} (h : Overdue past caller) :
    Overdue (past ++ [e]) caller := by
  obtain ⟨key, t, p, e₀, q, rfl, hwaits, hlabel, hnow⟩ := h
  exact ⟨key, t, p, e₀, q ++ [e], by simp, hwaits, hlabel, hnow⟩

theorem not_takesFor {key : String × UInt64} {e : Event} (h : e.label ≠ .recvResponse) :
    ¬ TakesFor key e := fun ⟨_, htakes, _⟩ => h htakes.1

/-! ## What becomes of a request -/

/-- What may have become of a call that was published under the key. -/
inductive Fate (past : List Event) (s : State) (key : String × UInt64) (caller : Nat) : Prop
  | stopped (hpc : s.pc = .stopped)
  | publishing {request : Request} (hpc : s.pc = .publishing request key.2)
      (hkit : request.kitSerial = key.1) (hcaller : request.caller = caller)
  | waiting {w : Waiter} (hw : s.waiters.lookup key = some w) (hcaller : w.caller = caller)
  | expired {e : Event} (he : e ∈ past) (hexpires : Expires key e)
  | answered {answer : Nat × Except DecodeErrorKind ResponseBody}
      (hanswer : ⟨caller, some answer⟩ ∈ s.completions)
  | gone (hgone : caller ∈ s.gone)

theorem Fate.step_publishing {key : String × UInt64} {request : Request} {l : Label}
    (heff : Effect codec s l s') (hpc : s.pc = .publishing request key.2)
    (hkit : request.kitSerial = key.1) :
    Fate (past ++ [⟨s, l, s'⟩]) s' key request.caller := by
  cases heff with
  | quiet _ hpc' => exact .publishing (hpc'.trans hpc) hkit rfl
  | skipped | queued => exact .publishing hpc hkit rfl
  | stored hpc' hfresh =>
      obtain ⟨rfl, rfl⟩ := DriverPc.publishing.inj (hpc.symm.trans hpc')
      rw [hkit]
      exact .waiting (AList.lookup_insert _) rfl
  | requested hpc' | ignored hpc' | unheard hpc' | answered hpc' | stopped _ hpc' | cleaned hpc' =>
      exact absurd (hpc.symm.trans hpc') (by simp)

theorem Fate.step_waiting {key : String × UInt64} {w : Waiter} {l : Label}
    (heff : Effect codec s l s') (hw : s.waiters.lookup key = some w) :
    Fate (past ++ [⟨s, l, s'⟩]) s' key w.caller := by
  cases heff with
  | quiet _ _ hwaiters => exact .waiting (hwaiters ▸ hw) rfl
  | skipped | queued | requested | ignored => exact .waiting hw rfl
  | stored hpc hfresh =>
      refine .waiting ((AList.lookup_insert_ne ?_).trans hw) rfl
      rintro rfl
      rw [hfresh] at hw
      cases hw
  | @unheard response _ w' _ _ hwaiters hgone =>
      by_cases hkey : key = (response.kitSerial, response.requestId)
      · subst hkey
        obtain rfl := Option.some.inj (hw.symm.trans hwaiters)
        exact .gone hgone
      · exact .waiting ((AList.lookup_erase_ne hkey).trans hw) rfl
  | @answered response _ w' _ _ hwaiters _ =>
      by_cases hkey : key = (response.kitSerial, response.requestId)
      · subst hkey
        obtain rfl := Option.some.inj (hw.symm.trans hwaiters)
        exact .answered (List.mem_append_right _ (List.mem_singleton.mpr rfl))
      · exact .waiting ((AList.lookup_erase_ne hkey).trans hw) rfl
  | stopped => exact .stopped rfl
  | cleaned =>
      by_cases hyoung : s.now - w.creation < timeout
      · exact .waiting (HashMap.mem_lookup_retain.mpr ⟨hw, decide_eq_true hyoung⟩) rfl
      · refine .expired (List.mem_append_right _ (List.mem_singleton.mpr rfl)) ⟨rfl, ?_, ?_⟩
        · exact AList.lookup_isSome.mp (by rw [hw]; rfl)
        · intro hmem
          obtain ⟨w', hw'⟩ := Option.isSome_iff_exists.mp (AList.lookup_isSome.mpr hmem)
          obtain ⟨hmem', hyoung'⟩ := HashMap.mem_lookup_retain.mp hw'
          obtain rfl := Option.some.inj (hw.symm.trans hmem')
          exact hyoung (of_decide_eq_true hyoung')

theorem Fate.step {key : String × UInt64} {caller : Nat} {l : Label}
    (heff : Effect codec s l s') (h : Fate past s key caller) :
    Fate (past ++ [⟨s, l, s'⟩]) s' key caller := by
  cases h with
  | stopped hpc => exact .stopped (heff.stopped_stays hpc)
  | publishing hpc hkit hcaller => exact hcaller ▸ Fate.step_publishing heff hpc hkit
  | waiting hw hcaller => exact hcaller ▸ Fate.step_waiting heff hw
  | expired he hexpires => exact .expired (List.mem_append_left _ he) hexpires
  | answered hanswer => exact .answered (heff.completions_extend.subset hanswer)
  | gone hgone => exact .gone (heff.gone_subset hgone)

/-! ## The past of a state -/

structure Past (codec : KitRpcCodec) (past : List Event) (s : State) : Prop where
  ids : ∀ n p, s.published[n]? = some p → p.requestId = UInt64.ofNat n
  waiters : ∀ key, ∀ w ∈ s.waiters.lookup key, WaitsSince past key w.caller w.creation
  dropped : ∀ c ∈ s.completions, c.outcome = none → s.pc = .stopped ∨ Overdue past c.caller
  fates : ∀ kitSerial id caller, PublishedTo s kitSerial id caller →
    Fate past s (kitSerial, id) caller
  messages : ∀ n m kitSerial id body, s.received[n]? = some m →
    Answers codec m kitSerial id body →
    s.pc = .stopped ∨ ⟨kitSerial, id, body, n⟩ ∈ s.responses
      ∨ ∃ e ∈ past, Takes ⟨kitSerial, id, body, n⟩ e

theorem past_start : Past codec [] .start where
  ids n p hp := by simp [State.start] at hp
  waiters key w hw := by simp [State.start] at hw
  dropped c hc := by cases hc
  fates kitSerial id caller hpub := by
    obtain ⟨body, -, hmem⟩ := hpub
    cases hmem
  messages n m kitSerial id body hn := by simp [State.start] at hn

theorem Past.ids_step (h : Past codec past s) (hinv : Inv codec s) {l : Label}
    (heff : Effect codec s l s') :
    ∀ n p, s'.published[n]? = some p → p.requestId = UInt64.ofNat n := by
  cases heff with
  | quiet _ _ _ hpublished => rw [hpublished]; exact h.ids
  | requested =>
      intro n p hp
      rcases Run.getElem?_append_singleton hp with hp | ⟨rfl, rfl⟩
      · exact h.ids n p hp
      · exact hinv.nextId
  | _ => exact h.ids

theorem Past.waiters_step (h : Past codec past s) {l : Label} (heff : Effect codec s l s') :
    ∀ key, ∀ w ∈ s'.waiters.lookup key,
      WaitsSince (past ++ [⟨s, l, s'⟩]) key w.caller w.creation := by
  intro key w hw
  cases heff with
  | quiet hl _ hwaiters =>
      rw [hwaiters] at hw
      exact (h.waiters key w hw).append (not_takesFor hl.2.1)
  | skipped | queued | requested => exact (h.waiters key w hw).append (not_takesFor (by simp))
  | @stored request id hpc hfresh =>
      by_cases hkey : key = (request.kitSerial, id)
      · subst hkey
        rw [AList.lookup_insert] at hw
        obtain rfl := Option.some.inj hw
        exact ⟨past, _, [], rfl, ⟨rfl, request, hpc, rfl, rfl⟩, rfl, by simp⟩
      · rw [AList.lookup_insert_ne hkey] at hw
        exact (h.waiters key w hw).append (not_takesFor (by simp))
  | @ignored response rest hpc hresponses hwaiters =>
      refine (h.waiters key w hw).append ?_
      rintro ⟨r, ⟨-, hr⟩, rfl⟩
      simp only [hresponses, List.head?_cons, Option.some.injEq] at hr
      subst hr
      exact absurd (hw.symm.trans hwaiters) (by simp)
  | @unheard response rest _ _ hresponses | @answered response rest _ _ hresponses =>
      have hkey : key ≠ (response.kitSerial, response.requestId) := by
        rintro rfl
        rw [AList.lookup_erase] at hw
        cases hw
      rw [AList.lookup_erase_ne hkey] at hw
      refine (h.waiters key w hw).append ?_
      rintro ⟨r, ⟨-, hr⟩, rfl⟩
      simp only [hresponses, List.head?_cons, Option.some.injEq] at hr
      subst hr
      exact hkey rfl
  | stopped => simp [stop] at hw
  | cleaned =>
      exact (h.waiters key w (HashMap.mem_lookup_retain.mp hw).1).append (not_takesFor (by simp))

theorem Past.dropped_step (h : Past codec past s) {l : Label} (heff : Effect codec s l s') :
    ∀ c ∈ s'.completions, c.outcome = none →
      s'.pc = .stopped ∨ Overdue (past ++ [⟨s, l, s'⟩]) c.caller := by
  intro c hc hnone
  have hold : c ∈ s.completions →
      s'.pc = .stopped ∨ Overdue (past ++ [⟨s, l, s'⟩]) c.caller := fun hc =>
    (h.dropped c hc hnone).imp heff.stopped_stays .append
  cases heff with
  | quiet _ hpc _ _ _ _ _ _ _ hdropped =>
      rcases hdropped with hstopped | hsame
      · exact Or.inl (hpc.trans hstopped)
      · exact hold (hsame ▸ hc)
  | answered =>
      rcases List.mem_append.mp hc with hc | hc
      · exact hold hc
      · rw [List.mem_singleton.mp hc] at hnone
        cases hnone
  | stopped => exact Or.inl rfl
  | cleaned hpc =>
      rcases List.mem_append.mp hc with hc | hc
      · exact hold hc
      · obtain ⟨caller, hcaller, rfl⟩ := List.mem_map.mp hc
        obtain ⟨⟨key, w⟩, hmem, rfl⟩ := List.mem_map.mp (List.mem_filter.mp hcaller).1
        obtain ⟨hmem, hexpired⟩ := List.mem_filter.mp hmem
        have hw : w ∈ s.waiters.lookup key := AList.mem_lookup_iff.mpr hmem
        have hage : timeout ≤ s.now - w.creation := by simpa using hexpired
        have hpos : 0 < s.now - w.creation := Nat.lt_of_lt_of_le (by decide) hage
        exact Or.inr ⟨key, w.creation, past, _, [], rfl, h.waiters key w hw, rfl,
          Nat.add_le_of_le_sub' (Nat.le_of_lt (Nat.lt_of_sub_pos hpos)) hage⟩
  | _ => exact hold hc

theorem Past.fates_step (h : Past codec past s) (hinv : Inv codec s) {l : Label}
    (heff : Effect codec s l s') :
    ∀ kitSerial id caller, PublishedTo s' kitSerial id caller →
      Fate (past ++ [⟨s, l, s'⟩]) s' (kitSerial, id) caller := by
  intro kitSerial id caller hpub
  have hold : PublishedTo s kitSerial id caller →
      Fate (past ++ [⟨s, l, s'⟩]) s' (kitSerial, id) caller := fun hpub =>
    (h.fates kitSerial id caller hpub).step heff
  cases heff with
  | quiet _ _ _ hpublished hcalls =>
      obtain ⟨body, hcall, hmem⟩ := hpub
      rw [hpublished] at hmem
      refine hold ⟨body, ?_, hmem⟩
      have hlt : caller < s.calls.length := by
        have hsends := hinv.sends caller
        have hpos : 0 < (s.published.map (·.caller)).count caller :=
          List.count_pos_iff.mpr (List.mem_map.mpr ⟨_, hmem, rfl⟩)
        simp only [State.sends, below] at hsends
        split at hsends
        · assumption
        · omega
      obtain ⟨more, hmore⟩ := hcalls
      rwa [← hmore, List.getElem?_append_left hlt] at hcall
  | @requested request rest hpc hrequests =>
      obtain ⟨body, hcall, hmem⟩ := hpub
      rcases List.mem_append.mp hmem with hmem | hmem
      · exact hold ⟨body, hcall, hmem⟩
      · simp only [List.mem_singleton, Publication.mk.injEq] at hmem
        obtain ⟨-, rfl, rfl, rfl⟩ := hmem
        have hkit := hinv.requests request (by simp [hrequests])
        rw [hcall] at hkit
        obtain ⟨rfl, -⟩ := Prod.mk.inj (Option.some.inj hkit)
        exact .publishing rfl rfl rfl
  | _ => exact hold hpub

theorem Past.messages_step (h : Past codec past s) {l : Label} (heff : Effect codec s l s') :
    ∀ n m kitSerial id body, s'.received[n]? = some m → Answers codec m kitSerial id body →
      s'.pc = .stopped ∨ ⟨kitSerial, id, body, n⟩ ∈ s'.responses
        ∨ ∃ e ∈ past ++ [⟨s, l, s'⟩], Takes ⟨kitSerial, id, body, n⟩ e := by
  intro n m kitSerial id body hn hans
  have hold : s.received[n]? = some m → (∀ r ∈ s.responses, r ∈ s'.responses
      ∨ Takes r ⟨s, l, s'⟩) → s'.pc = .stopped ∨ ⟨kitSerial, id, body, n⟩ ∈ s'.responses
        ∨ ∃ e ∈ past ++ [⟨s, l, s'⟩], Takes ⟨kitSerial, id, body, n⟩ e := by
    intro hn hkept
    rcases h.messages n m kitSerial id body hn hans with hpc | hmem | ⟨e, he, htakes⟩
    · exact Or.inl (heff.stopped_stays hpc)
    · rcases hkept _ hmem with hmem | htakes
      · exact Or.inr (Or.inl hmem)
      · exact Or.inr (Or.inr ⟨_, List.mem_append_right _ (List.mem_singleton.mpr rfl), htakes⟩)
    · exact Or.inr (Or.inr ⟨e, List.mem_append_left _ he, htakes⟩)
  cases heff with
  | quiet _ _ _ _ _ hresponses hreceived =>
      exact hold (hreceived ▸ hn) fun r hr => Or.inl (hresponses ▸ hr)
  | skipped topic payload hskip =>
      rcases Run.getElem?_append_singleton hn with hn | ⟨rfl, rfl⟩
      · exact hold hn fun r hr => Or.inl hr
      · rcases hskip with hpc | hskip
        · exact Or.inl hpc
        · exact absurd hans (hskip kitSerial id body)
  | queued topic payload hanswers =>
      rcases Run.getElem?_append_singleton hn with hn | ⟨rfl, rfl⟩
      · exact hold hn fun r hr => Or.inl (List.mem_append_left _ hr)
      · obtain ⟨rfl⟩ := Topic.mk.inj (Except.ok.inj (hans.1.symm.trans hanswers.1))
        obtain ⟨rfl, rfl⟩ := Prod.mk.inj (Except.ok.inj (hans.2.symm.trans hanswers.2))
        exact Or.inr (Or.inl (List.mem_append_right _ (List.mem_singleton.mpr rfl)))
  | ignored _ hresponses | unheard _ hresponses | answered _ hresponses =>
      refine hold hn fun r hr => ?_
      rw [hresponses] at hr
      rcases List.mem_cons.mp hr with rfl | hr
      · exact Or.inr ⟨rfl, by simp [hresponses]⟩
      · exact Or.inl hr
  | stopped => exact Or.inl rfl
  | requested | stored | cleaned => exact hold hn fun r hr => Or.inl hr

theorem past_step (h : Past codec past s) (hinv : Inv codec s) {l : Label}
    (hs : step codec s l = some s') : Past codec (past ++ [⟨s, l, s'⟩]) s' :=
  have heff := step_effect hinv hs
  { ids := h.ids_step hinv heff
    waiters := h.waiters_step heff
    dropped := h.dropped_step heff
    fates := h.fates_step hinv heff
    messages := h.messages_step heff }

theorem past_exec {ls : List Label} (hrun : Run.exec (step codec) .start ls = some s)
    (hfew : s.calls.length < 2 ^ 64) : Past codec (Run.history (step codec) .start ls) s := by
  have hboth := Run.exec_history
    (I := fun past s => s.calls.length < 2 ^ 64 → Inv codec s ∧ Past codec past s)
    (fun past s l s' h hs hfew' => by
      have hfew : s.calls.length < 2 ^ 64 := Nat.lt_of_le_of_lt (calls_le hs) hfew'
      obtain ⟨hinv, hpast⟩ := h hfew
      exact ⟨inv_step hinv hfew hs, past_step hpast hinv hs⟩)
    (fun _ => ⟨inv_start, past_start⟩) hrun
  exact (hboth hfew).2

/-! ## Prompt answers -/

theorem Past.publishedTo_unique (h : Past codec past s) (hinv : Inv codec s)
    (hfew : s.calls.length < 2 ^ 64) {kitSerial kitSerial' : String} {id : UInt64}
    {caller caller' : Nat} (hpub : PublishedTo s kitSerial id caller)
    (hpub' : PublishedTo s kitSerial' id caller') : caller = caller' := by
  obtain ⟨body, -, hmem⟩ := hpub
  obtain ⟨body', -, hmem'⟩ := hpub'
  obtain ⟨n, hlt, hn⟩ := List.getElem_of_mem hmem
  obtain ⟨n', hlt', hn'⟩ := List.getElem_of_mem hmem'
  have hid := h.ids n _ (List.getElem?_eq_some_iff.mpr ⟨hlt, hn⟩)
  have hid' := h.ids n' _ (List.getElem?_eq_some_iff.mpr ⟨hlt', hn'⟩)
  have hroom := hinv.room
  have hnat : (UInt64.ofNat n).toNat = (UInt64.ofNat n').toNat := by rw [← hid, ← hid']
  rw [UInt64.toNat_ofNat_of_lt' (by simp only [UInt64.size]; omega),
    UInt64.toNat_ofNat_of_lt' (by simp only [UInt64.size]; omega)] at hnat
  subst hnat
  rw [hn] at hn'
  exact (Publication.mk.inj hn').2.2.2

theorem Past.lookup_completed (h : Past codec past s) (hinv : Inv codec s)
    (hfew : s.calls.length < 2 ^ 64) {kitSerial : String} {id : UInt64} {c : Completion}
    (hpub : PublishedTo s kitSerial id c.caller) (hc : c ∈ s.completions) :
    s.waiters.lookup (kitSerial, id) = none := by
  cases hw : s.waiters.lookup (kitSerial, id) with
  | none => rfl
  | some w =>
      have hcaller : c.caller = w.caller :=
        h.publishedTo_unique hinv hfew hpub (hinv.waiters (kitSerial, id) w hw).1
      have hwaits : 0 < (callers s.waiters.entries).count c.caller :=
        List.count_pos_iff.mpr
          (List.mem_map.mpr ⟨_, AList.mem_lookup_iff.mp hw, hcaller.symm⟩)
      have hdone : 0 < (s.completions.map (·.caller)).count c.caller :=
        List.count_pos_iff.mpr (List.mem_map.mpr ⟨c, hc, rfl⟩)
      have hplaces := hinv.places c.caller
      have hbelow := below_le_one s.calls.length c.caller
      simp only [State.places] at hplaces
      omega

/-- The response that the driver takes decides about the waiter under its key. -/
theorem Effect.taken {r : Response} (heff : Effect codec s .recvResponse s')
    (hr : s.responses.head? = some r) :
    s.pc = .select
      ∧ ((s.waiters.lookup (r.kitSerial, r.requestId) = none
          ∧ s' = { s with responses := s.responses.tail })
        ∨ ∃ w, s.waiters.lookup (r.kitSerial, r.requestId) = some w
          ∧ (w.caller ∉ s.gone →
            s'.completions = s.completions ++ [⟨w.caller, some (r.payload, r.body)⟩])) := by
  cases heff with
  | quiet hl => exact absurd rfl hl.2.1
  | ignored hpc hresponses hwaiters =>
      simp only [hresponses, List.head?_cons, Option.some.injEq] at hr
      subst hr
      exact ⟨hpc, Or.inl ⟨hwaiters, by simp [hresponses]⟩⟩
  | unheard hpc hresponses hwaiters hgone =>
      simp only [hresponses, List.head?_cons, Option.some.injEq] at hr
      subst hr
      exact ⟨hpc, Or.inr ⟨_, hwaiters, fun hlistens => absurd hgone hlistens⟩⟩
  | answered hpc hresponses hwaiters =>
      simp only [hresponses, List.head?_cons, Option.some.injEq] at hr
      subst hr
      exact ⟨hpc, Or.inr ⟨_, hwaiters, fun _ => rfl⟩⟩
  | stopped hl =>
      rcases hl with hl | ⟨-, hempty⟩
      · cases hl
      · rw [hempty] at hr
        cases hr

/-- A response that is taken for a published request goes to its caller, unless
a cleanup was first, the caller has been answered or it has stopped listening. -/
theorem Past.answered (h : Past codec past s) (hinv : Inv codec s)
    (hs : step codec s .recvResponse = some s') {r : Response}
    (hr : s.responses.head? = some r) {caller : Nat}
    (hpub : PublishedTo s r.kitSerial r.requestId caller)
    (hkept : ∀ e ∈ past, ¬ Expires (r.kitSerial, r.requestId) e)
    (hopen : ∀ answer, ⟨caller, some answer⟩ ∉ s.completions) (hlistens : caller ∉ s.gone) :
    s'.completions = s.completions ++ [⟨caller, some (r.payload, r.body)⟩] := by
  obtain ⟨hpc, htaken⟩ := (step_effect hinv hs).taken hr
  rcases h.fates _ _ _ hpub with hstopped | ⟨hpublishing, -, -⟩ | ⟨hw, rfl⟩ | ⟨he, hexpires⟩
    | hanswer | hgone
  · exact absurd (hpc.symm.trans hstopped) (by simp)
  · exact absurd (hpc.symm.trans hpublishing) (by simp)
  · rcases htaken with ⟨hnone, -⟩ | ⟨w', hw', hcompleted⟩
    · exact absurd (hw.symm.trans hnone) (by simp)
    · obtain rfl := Option.some.inj (hw.symm.trans hw')
      exact hcompleted hlistens
  · exact absurd hexpires (hkept _ he)
  · exact absurd hanswer (hopen _)
  · exact absurd hgone hlistens

theorem calls_le_exec {ls : List Label} (hrun : Run.exec (step codec) s ls = some s') :
    s.calls.length ≤ s'.calls.length :=
  Run.exec_invariant (I := fun t => s.calls.length ≤ t.calls.length)
    (fun _ _ _ h hs => Nat.le_trans h (calls_le hs)) (Nat.le_refl _) hrun

theorem completions_extend_exec {ls : List Label} (hrun : Run.exec (step codec) s ls = some s')
    (hinv : Inv codec s) (hfew : s'.calls.length < 2 ^ 64) : s.completions <+: s'.completions := by
  have hboth := Run.exec_invariant
    (I := fun t => t.calls.length < 2 ^ 64 → Inv codec t ∧ s.completions <+: t.completions)
    (fun t l t' h hs hfew' => by
      have hfew : t.calls.length < 2 ^ 64 := Nat.lt_of_le_of_lt (calls_le hs) hfew'
      obtain ⟨hinv, hprefix⟩ := h hfew
      exact ⟨inv_step hinv hfew hs, hprefix.trans (step_effect hinv hs).completions_extend⟩)
    (fun _ => ⟨hinv, List.prefix_refl _⟩) hrun
  exact (hboth hfew).2

/-- What is known where a run has taken one of its steps. -/
structure Taken (codec : KitRpcCodec) (p : List Event) (e : Event) (s : State) : Prop where
  inv : Inv codec e.before
  past : Past codec p e.before
  few : e.before.calls.length < 2 ^ 64
  step : step codec e.before e.label = some e.after
  completions : e.after.completions <+: s.completions

theorem taken_of_history {ls : List Label} (hrun : Run.exec (step codec) .start ls = some s)
    (hfew : s.calls.length < 2 ^ 64) {p q : List Event} {e : Event}
    (h : Run.history (step codec) .start ls = p ++ e :: q) : Taken codec p e s := by
  obtain ⟨ls₁, ls₂, rfl, hbefore, rfl, hstep⟩ := Run.history_split h
  obtain ⟨t, ht, hrest⟩ := Run.exec_append.mp hrun
  obtain rfl := Option.some.inj (ht.symm.trans hbefore)
  have hfew₁ : e.before.calls.length < 2 ^ 64 := Nat.lt_of_le_of_lt (calls_le_exec hrest) hfew
  have hinv := inv_exec hbefore hfew₁
  obtain ⟨u, hu, hrest⟩ := Run.exec_cons.mp hrest
  obtain rfl := Option.some.inj (hu.symm.trans hstep)
  have hfew₂ : e.after.calls.length < 2 ^ 64 := Nat.lt_of_le_of_lt (calls_le_exec hrest) hfew
  exact
    { inv := hinv
      past := past_exec hbefore hfew₁
      few := hfew₁
      step := hstep
      completions := completions_extend_exec hrest (inv_step hinv hfew₁ hstep) hfew }

/-- What the driver owes its callers, over the history of a run. -/
structure Prompt (codec : KitRpcCodec) (past : List Event) (s : State) : Prop where
  /-- A response that was received, at whatever moment, waits in the channel
  until it is taken. -/
  kept : ∀ n m kitSerial id body, s.received[n]? = some m →
    Answers codec m kitSerial id body →
    s.pc = .stopped ∨ ⟨kitSerial, id, body, n⟩ ∈ s.responses
      ∨ ∃ e ∈ past, Takes ⟨kitSerial, id, body, n⟩ e
  /-- The first response that is taken for a published request, before a cleanup
  has removed the waiter, completes the caller; an undecodable body is a
  malformed response. -/
  answered : ∀ p e q, past = p ++ e :: q → ∀ n kitSerial id body caller,
    Takes ⟨kitSerial, id, body, n⟩ e → PublishedTo e.before kitSerial id caller →
    (∀ u ∈ p, ¬ Expires (kitSerial, id) u) →
    (∀ answer, ⟨caller, some answer⟩ ∉ e.before.completions) → caller ∉ e.before.gone →
    e.after.completions = e.before.completions ++ [⟨caller, some (n, body)⟩]
      ∧ ⟨caller, some (n, body)⟩ ∈ s.completions
      ∧ ∀ {α : Type} (expected : ResponseBody → Option α) (kind : DecodeErrorKind),
        body = .error kind →
        KitsRpc.respond expected (some body) = .error .malformedResponse
  /-- A caller times out only when the driver has stopped or its waiter has
  waited for the whole timeout. -/
  timed_out : ∀ c ∈ s.completions, ∀ {α : Type} (expected : ResponseBody → Option α),
    KitsRpc.respond expected (c.outcome.map (·.2)) = .error .timedOut →
    s.pc = .stopped ∨ Overdue past c.caller
  /-- A response for an unknown request, or for one that has been completed,
  changes nothing. -/
  ignored : ∀ p e q, past = p ++ e :: q → ∀ r, Takes r e →
    ((∀ caller, ¬ PublishedTo e.before r.kitSerial r.requestId caller)
      ∨ ∃ c ∈ e.before.completions, PublishedTo e.before r.kitSerial r.requestId c.caller) →
    e.after = { e.before with responses := e.before.responses.tail }

/-- **No response is lost and no call times out early**, in every run with fewer
than `2 ^ 64` calls. -/
theorem kit_rpc_prompt {ls : List Label} (hrun : Run.exec (step codec) .start ls = some s)
    (hfew : s.calls.length < 2 ^ 64) : Prompt codec (Run.history (step codec) .start ls) s where
  kept := (past_exec hrun hfew).messages
  answered p e q hpast n kitSerial id body caller htakes hpub hkept hopen hlistens := by
    have htaken := taken_of_history hrun hfew hpast
    have hstep := htaken.step
    rw [htakes.1] at hstep
    have hcompletions :=
      htaken.past.answered htaken.inv hstep htakes.2 hpub hkept hopen hlistens
    refine ⟨hcompletions, htaken.completions.subset ?_, ?_⟩
    · rw [hcompletions]
      exact List.mem_append_right _ (List.mem_singleton.mpr rfl)
    · rintro α expected kind rfl
      rfl
  timed_out c hc _ expected hout :=
    (past_exec hrun hfew).dropped c hc (by simpa using KitsRpc.respond_eq_timedOut.mp hout)
  ignored p e q hpast r htakes hignored := by
    have htaken := taken_of_history hrun hfew hpast
    have hstep := htaken.step
    rw [htakes.1] at hstep
    have hnone : e.before.waiters.lookup (r.kitSerial, r.requestId) = none := by
      rcases hignored with hunknown | ⟨c, hc, hpub⟩
      · cases hw : e.before.waiters.lookup (r.kitSerial, r.requestId) with
        | none => rfl
        | some w =>
            exact absurd (htaken.inv.waiters (r.kitSerial, r.requestId) w hw).1
              (hunknown w.caller)
      · exact htaken.past.lookup_completed htaken.inv htaken.few hpub hc
    rcases ((step_effect htaken.inv hstep).taken htakes.2).2 with ⟨-, heq⟩ | ⟨w, hw, -⟩
    · exact heq
    · exact absurd (hw.symm.trans hnone) (by simp)

/-- The first answer arrives before its waiter is stored, the second call is
never answered. -/
def earlyAnswer : List Label :=
  [.call "k1" .version, .recvRequest, .receive "kit/k1/kit-rpc/response" versionMessage,
    .published, .call "k1" .uptime, .recvRequest, .published, .elapse 20000, .recvResponse,
    .cleanup, .elapse 10000, .cleanup]

theorem kit_rpc_prompt_earlyAnswer :
    ∃ s, Run.exec (step versionCodec) .start earlyAnswer = some s
      ∧ s.completions.map (fun c => (c.caller, c.payload)) = [(0, some 0), (1, none)]
      ∧ Prompt versionCodec (Run.history (step versionCodec) .start earlyAnswer) s := by
  have hrun : ∃ s, Run.exec (step versionCodec) .start earlyAnswer = some s
      ∧ s.completions.map (fun c => (c.caller, c.payload)) = [(0, some 0), (1, none)]
      ∧ s.calls.length < 2 ^ 64 := ⟨_, rfl, rfl, by decide⟩
  obtain ⟨s, hrun, hcompleted, hfew⟩ := hrun
  exact ⟨s, hrun, hcompleted, kit_rpc_prompt hrun hfew⟩

end KitRpc

end AstroPlant
