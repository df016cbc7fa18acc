import AstroPlant.Messages
import AstroPlant.MqttConnection
import AstroPlant.ServerRpcAnswers

/-!
# The grammar of topics, and the server's own messages

The subscription is to everything below `kit/`, so the broker hands the server
also what the server itself publishes there. The parser accepts exactly the
topics of a grammar with seven suffixes; the formatters of the two kinds of
publication write topics of that grammar, and `handle_publish` ignores both
kinds whatever they carry.

`TopicKind.write` is the grammar: a prefix, one level that has no slash, and one
of the suffixes. It is injective (`write_injective`), and the parser is its
inverse. What the server publishes is written in a run of the connection: every
publication that is waiting or has been sent was formatted for a kit whose serial
is one level (`Formatting`), either because it came in with a topic that was
parsed or because a caller named it, which is the only assumption (`OneLevel`).
-/

namespace AstroPlant

/-! ## The grammar -/

/-- What follows the serial in a topic. -/
def TopicKind.suffix : TopicKind → String
  | rawMeasurement => "measurement/raw"
  | aggregateMeasurement => "measurement/aggregate"
  | media => "media"
  | serverRpcRequest => "server-rpc/request"
  | serverRpcResponse => "server-rpc/response"
  | kitRpcRequest => "kit-rpc/request"
  | kitRpcResponse => "kit-rpc/response"

namespace Topic

/-- A topic of the grammar. -/
def write (kitSerial : String) (kind : TopicKind) : String :=
  "kit/" ++ kitSerial ++ "/" ++ kind.suffix

theorem text_eq (t : Topic) : t.text = write t.kitSerial t.kind := by
  obtain ⟨kitSerial, kind⟩ := t
  rw [← String.toList_inj]
  cases kind <;> simp [text, write, TopicKind.parts, TopicKind.suffix]

theorem suffix_unique {kind kind' : TopicKind}
    (h : ('/' :: kind.suffix.toList) <:+ ('/' :: kind'.suffix.toList)) : kind = kind' := by
  revert h
  cases kind <;> cases kind' <;> decide

/-- Whatever the serials are: the longer of two equal topics' ends is the
shorter one. -/
theorem write_injective {kitSerial kitSerial' : String} {kind kind' : TopicKind}
    (h : write kitSerial kind = write kitSerial' kind') :
    kitSerial = kitSerial' ∧ kind = kind' := by
  have hlist : kitSerial.toList ++ ('/' :: kind.suffix.toList)
      = kitSerial'.toList ++ ('/' :: kind'.suffix.toList) := by
    simpa [write] using congrArg String.toList h
  have hkind : kind = kind' := by
    rcases List.suffix_or_suffix_of_suffix (List.suffix_append _ _)
      (hlist ▸ List.suffix_append _ _) with hsuffix | hsuffix
    · exact (suffix_unique hsuffix).symm
    · exact suffix_unique hsuffix
  subst hkind
  exact ⟨String.toList_inj.mp (List.append_cancel_right hlist), rfl⟩

end Topic

/-! ## The formatters -/

/-- `format!("kit/{}/kit-rpc/request", request.kit_serial)` -/
def KitRpc.requestTopic (kitSerial : String) : String :=
  "kit/" ++ kitSerial ++ "/kit-rpc/request"

/-- `format!("kit/{}/server-rpc/response", response.kit_serial)` -/
def ServerRpc.responseTopic (kitSerial : String) : String :=
  "kit/" ++ kitSerial ++ "/server-rpc/response"

theorem KitRpc.requestTopic_eq (kitSerial : String) :
    requestTopic kitSerial = Topic.write kitSerial .kitRpcRequest := by
  rw [← String.toList_inj]
  simp [requestTopic, Topic.write, TopicKind.suffix]

theorem ServerRpc.responseTopic_eq (kitSerial : String) :
    responseTopic kitSerial = Topic.write kitSerial .serverRpcResponse := by
  rw [← String.toList_inj]
  simp [responseTopic, Topic.write, TopicKind.suffix]

/-! ## What the server publishes -/

namespace MqttConnection

variable {cfg : Config} {s s' : State cfg.limiter}

/-- A publication is on the topic that its formatter writes; a response is for a
kit whose serial is one level of a topic. -/
def Outgoing.Formatted : Outgoing → Prop
  | .subscribe _ => True
  | .kitRpcRequest p => ∃ kitSerial, p.topic = KitRpc.requestTopic kitSerial
  | .serverRpcResponse p =>
      ∃ kitSerial, '/' ∉ kitSerial.toList ∧ p.topic = ServerRpc.responseTopic kitSerial

/-- A task is for a kit whose serial came out of a topic, and so is its response. -/
structure OneLevel (task : ServerRpc.Task) : Prop where
  kitSerial : '/' ∉ task.kitSerial.toList
  response : ∀ response, task.pc = .publishing response → response.kitSerial = task.kitSerial

structure Formatting (s : State cfg.limiter) : Prop where
  outgoing : ∀ packet ∈ s.outgoing, packet.Formatted
  tasks : ∀ task ∈ s.serverRpc.tasks, OneLevel task

theorem formatting_start : Formatting (.start cfg.limiter) where
  outgoing packet hpacket := by cases hpacket
  tasks task htask := by cases htask

theorem oneLevel_setPc {r : ServerRpc.State cfg.limiter} {i : Nat} {task : ServerRpc.Task}
    {pc : ServerRpc.TaskPc} (h : ∀ task ∈ r.tasks, OneLevel task) (hi : r.tasks[i]? = some task)
    (hpc : ∀ response, pc = .publishing response → response.kitSerial = task.kitSerial) :
    ∀ task ∈ (r.setPc i pc).tasks, OneLevel task := by
  intro task' htask'
  obtain ⟨j, hj⟩ := List.mem_iff_getElem?.mp htask'
  rcases ServerRpc.tasks_setPc hi hj with ⟨-, rfl⟩ | ⟨-, hj⟩
  · exact ⟨(h task (List.mem_of_getElem? hi)).kitSerial, hpc⟩
  · exact h task' (List.mem_of_getElem? hj)

/-- The error responses with which a task may start are for the task's kit. -/
theorem start_kitSerial {task : ServerRpc.Task} {response : ServerRpc.ServerRpcResponse}
    (h : ServerRpc.start task = .publishing response) :
    response.kitSerial = task.kitSerial := by
  have hstage := ServerRpc.stage_start task
  rw [ServerRpc.Stage, h] at hstage
  exact hstage.1.1

theorem formatting_kitRpc {l : KitRpc.Label} (h : Formatting s)
    (hs : kitRpcStep cfg s l = some s') : Formatting s' := by
  cases l with
  | receive topic payload => cases hs
  | closeResponses => cases hs
  | published =>
      simp only [kitRpcStep] at hs
      split at hs
      · rename_i request id hpc
        split at hs
        · obtain ⟨k', -, rfl⟩ := Option.map_eq_some_iff.mp hs
          refine ⟨fun packet hpacket => ?_, h.tasks⟩
          rcases List.mem_append.mp hpacket with hpacket | hpacket
          · exact h.outgoing packet hpacket
          · obtain rfl := List.mem_singleton.mp hpacket
            exact ⟨request.kitSerial, (Topic.text_eq _).trans (KitRpc.requestTopic_eq _).symm⟩
        · cases hs
      · cases hs
  | call | hangUp | closeRequests | recvRequest | recvResponse | cleanup | elapse =>
      simp only [kitRpcStep, Option.map_eq_some_iff] at hs
      obtain ⟨k', -, rfl⟩ := hs
      exact ⟨h.outgoing, h.tasks⟩

theorem formatting_serverRpc {l : ServerRpc.Label} (h : Formatting s)
    (hs : serverRpcStep cfg s l = some s') : Formatting s' := by
  cases l with
  | receive topic payload instants => cases hs
  | run i =>
      obtain ⟨r', hr', rfl⟩ := Option.map_eq_some_iff.mp hs
      refine ⟨h.outgoing, ?_⟩
      obtain ⟨task, hi, hr'⟩ := Option.bind_eq_some_iff.mp hr'
      split at hr'
      · obtain rfl := Option.some.inj hr'
        exact oneLevel_setPc h.tasks hi fun response hresponse => start_kitSerial hresponse
      · cases hr'
  | handled i handler =>
      obtain ⟨r', hr', rfl⟩ := Option.map_eq_some_iff.mp hs
      refine ⟨h.outgoing, ?_⟩
      obtain ⟨task, hi, hr'⟩ := Option.bind_eq_some_iff.mp hr'
      split at hr'
      · obtain rfl := Option.some.inj hr'
        refine oneLevel_setPc h.tasks hi fun response hresponse => ?_
        obtain rfl := ServerRpc.TaskPc.publishing.inj hresponse
        exact (ServerRpc.callServerRpcHandler_spec _ _ _).1
      · cases hr'
  | publish i =>
      simp only [serverRpcStep] at hs
      split at hs
      · obtain ⟨r', hr', rfl⟩ := Option.map_eq_some_iff.mp hs
        obtain ⟨task, hi, hr'⟩ := Option.bind_eq_some_iff.mp hr'
        split at hr'
        · rename_i response hpc
          obtain rfl := Option.some.inj hr'
          refine ⟨fun packet hpacket => ?_, oneLevel_setPc h.tasks hi fun _ hpc => by cases hpc⟩
          rcases List.mem_append.mp hpacket with hpacket | hpacket
          · exact h.outgoing packet hpacket
          · have htask := h.tasks task (List.mem_of_getElem? hi)
            simp only [List.getLast?_append, List.getLast?_singleton, Option.some_or,
              Option.map_some, Option.toList_some, List.mem_singleton] at hpacket
            subst hpacket
            refine ⟨response.kitSerial, ?_, (Topic.text_eq _).trans
              (ServerRpc.responseTopic_eq _).symm⟩
            rw [htask.response response hpc]
            exact htask.kitSerial
        · cases hr'
      · cases hs

/-- A request that arrives starts a task for the kit in its topic. -/
theorem formatting_handlePublish (h : Formatting s) (topic : String) (payload : List UInt8)
    (instants : ServerRpc.Instant × ServerRpc.Instant) :
    Formatting (handlePublish cfg topic payload instants s) := by
  unfold handlePublish
  split
  · rename_i kitSerial htopic
    split
    · refine ⟨h.outgoing, fun task htask => ?_⟩
      rcases List.mem_append.mp htask with htask | htask
      · exact h.tasks task htask
      · obtain rfl := List.mem_singleton.mp htask
        exact ⟨(Topic.tryFrom_eq_ok.mp htopic).2, fun _ hpc => by cases hpc⟩
    · exact h
  · exact ⟨h.outgoing, h.tasks⟩
  · exact h

theorem formatting_step {l : Label} (h : Formatting s) (hs : step cfg s l = some s') :
    Formatting s' := by
  cases l with
  | kitRpc l => exact formatting_kitRpc h hs
  | serverRpc l => exact formatting_serverRpc h hs
  | poll taken event instants =>
      simp only [step, poll] at hs
      have htaken : Formatting { s with outgoing := s.outgoing.drop taken } :=
        ⟨fun packet hpacket => h.outgoing packet (List.mem_of_mem_drop hpacket), h.tasks⟩
      repeat' split at hs
      all_goals cases hs
      · exact ⟨htaken.outgoing, h.tasks⟩
      · exact formatting_handlePublish htaken _ _ _
      · exact htaken
  | subscribe =>
      simp only [step] at hs
      repeat' split at hs
      all_goals cases hs
      refine ⟨fun packet hpacket => ?_, h.tasks⟩
      rcases List.mem_append.mp hpacket with hpacket | hpacket
      · exact h.outgoing packet hpacket
      · obtain rfl := List.mem_singleton.mp hpacket
        trivial
  | respond =>
      simp only [step] at hs
      split at hs
      · obtain ⟨k', -, rfl⟩ := Option.map_eq_some_iff.mp hs
        exact ⟨h.outgoing, h.tasks⟩
      · cases hs

/-- In every run, what is handed to the client to publish is on a topic that a
formatter has written. -/
theorem formatting_exec {ls : List Label}
    (h : Run.exec (step cfg) (.start cfg.limiter) ls = some s) : Formatting s :=
  Run.exec_invariant (fun _ _ _ hs hl => formatting_step hs hl) formatting_start h

/-! ## What the server does with it -/

/-- Whatever arrives on the topic yields nothing and leaves everything as it is:
no task is started, no response is passed on, nothing is put into the outgoing
queue. -/
structure Ignored (cfg : Config) (codec : Mqtt.Codec) (topic : String) : Prop where
  nothing : ∀ payload, Mqtt.handlePublish codec topic payload = .ok none
  unmoved : ∀ payload instants (s : State cfg.limiter),
    handlePublish cfg topic payload instants s = s

theorem ignored_of_kind {codec : Mqtt.Codec} {topic : String} {t : Topic}
    (htopic : Topic.tryFrom topic = .ok t)
    (hkind : t.kind = .serverRpcResponse ∨ t.kind = .kitRpcRequest) :
    Ignored cfg codec topic := by
  obtain ⟨kitSerial, kind⟩ := t
  constructor
  · intro payload
    rw [Mqtt.handlePublish, htopic]
    rcases hkind with hkind | hkind <;> rw [show kind = _ from hkind]
  · intro payload instants s
    rw [handlePublish, htopic]
    rcases hkind with hkind | hkind <;> rw [show kind = _ from hkind]

end MqttConnection

open MqttConnection in
/-- **Topics are exact, and the server does not hear itself.** The parser accepts
the topics of the grammar and reads from each the serial and the kind it was
written with; no two pairs have a topic in common. What the server publishes to
a kit is on topics of that kit that it ignores, in every run. -/
theorem topics_exact (cfg : Config) (codec : Mqtt.Codec) :
    (∀ value t, Topic.tryFrom value = .ok t
        ↔ value = Topic.write t.kitSerial t.kind ∧ '/' ∉ t.kitSerial.toList)
      ∧ (∀ kitSerial kind kitSerial' kind',
        Topic.write kitSerial kind = Topic.write kitSerial' kind' →
          kitSerial = kitSerial' ∧ kind = kind')
      ∧ (∀ kitSerial : String, '/' ∉ kitSerial.toList →
        Topic.tryFrom (ServerRpc.responseTopic kitSerial) = .ok ⟨kitSerial, .serverRpcResponse⟩
          ∧ Ignored cfg codec (ServerRpc.responseTopic kitSerial)
          ∧ Topic.tryFrom (KitRpc.requestTopic kitSerial) = .ok ⟨kitSerial, .kitRpcRequest⟩
          ∧ Ignored cfg codec (KitRpc.requestTopic kitSerial))
      ∧ ∀ ls s, Run.exec (step cfg) (.start cfg.limiter) ls = some s →
        ∀ packet ∈ s.outgoing, packet.Formatted := by
  have hparse : ∀ value t, Topic.tryFrom value = .ok t
      ↔ value = Topic.write t.kitSerial t.kind ∧ '/' ∉ t.kitSerial.toList := by
    intro value t
    rw [Topic.tryFrom_eq_ok, Topic.text_eq]
  refine ⟨hparse, fun _ _ _ _ => Topic.write_injective, fun kitSerial hserial => ?_, ?_⟩
  · have hresponse := (hparse _ ⟨kitSerial, .serverRpcResponse⟩).mpr
      ⟨ServerRpc.responseTopic_eq kitSerial, hserial⟩
    have hrequest := (hparse _ ⟨kitSerial, .kitRpcRequest⟩).mpr
      ⟨KitRpc.requestTopic_eq kitSerial, hserial⟩
    exact ⟨hresponse, ignored_of_kind hresponse (Or.inl rfl), hrequest,
      ignored_of_kind hrequest (Or.inr rfl)⟩
  · intro ls s hrun
    exact (formatting_exec hrun).outgoing

end AstroPlant
