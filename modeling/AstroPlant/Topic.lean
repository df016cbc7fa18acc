import AstroPlant.SplitOn

/-!
# MQTT topics

All traffic with a kit goes over topics `kit/{serial}/...`. The serial in the
topic is the only identity of a sender that the services know, so the parser
must be exact: it accepts a topic precisely when the topic is the text of the
result (`tryFrom_eq_ok`).

There are seven kinds, each with its fixed levels (`TopicKind.parts`). A serial
has no separator in it, as the parser has cut the text there; it may be empty,
and it may be any other text.
-/

namespace AstroPlant

inductive TopicKind where
  | rawMeasurement
  | aggregateMeasurement
  | media
  | serverRpcRequest
  | serverRpcResponse
  | kitRpcRequest
  | kitRpcResponse
deriving DecidableEq

structure Topic where
  kitSerial : String
  kind : TopicKind
deriving DecidableEq

namespace TopicKind

/-- The parts of a topic after the serial. -/
def parts : TopicKind → List String
  | rawMeasurement => ["measurement", "raw"]
  | aggregateMeasurement => ["measurement", "aggregate"]
  | media => ["media"]
  | serverRpcRequest => ["server-rpc", "request"]
  | serverRpcResponse => ["server-rpc", "response"]
  | kitRpcRequest => ["kit-rpc", "request"]
  | kitRpcResponse => ["kit-rpc", "response"]

end TopicKind

namespace Topic

/-- `value.split('/')`. -/
def split (value : String) : List String := (value.toList.splitOn '/').map String.ofList

/-- The topic as text, `kit/{serial}/...`. -/
def text (t : Topic) : String :=
  "/".intercalate ("kit" :: t.kitSerial :: t.kind.parts)

/-- An invalid topic is reported with its text. -/
def tryFrom (value : String) : Except String Topic :=
  match split value with
  | "kit" :: kitSerial :: rest =>
      match rest with
      | ["measurement", "raw"] => .ok ⟨kitSerial, .rawMeasurement⟩
      | ["measurement", "aggregate"] => .ok ⟨kitSerial, .aggregateMeasurement⟩
      | ["media"] => .ok ⟨kitSerial, .media⟩
      | ["server-rpc", "request"] => .ok ⟨kitSerial, .serverRpcRequest⟩
      | ["server-rpc", "response"] => .ok ⟨kitSerial, .serverRpcResponse⟩
      | ["kit-rpc", "request"] => .ok ⟨kitSerial, .kitRpcRequest⟩
      | ["kit-rpc", "response"] => .ok ⟨kitSerial, .kitRpcResponse⟩
      | _ => .error value
  | _ => .error value

/-! ## The parser is exact -/

theorem tryFrom_of_split {value : String} {t : Topic}
    (h : split value = "kit" :: t.kitSerial :: t.kind.parts) : tryFrom value = .ok t := by
  obtain ⟨kitSerial, kind⟩ := t
  unfold tryFrom
  rw [h]
  cases kind <;> rfl

theorem split_of_tryFrom {value : String} {t : Topic} (h : tryFrom value = .ok t) :
    split value = "kit" :: t.kitSerial :: t.kind.parts := by
  unfold tryFrom at h
  split at h
  · rename_i kitSerial rest hsplit
    rw [hsplit]
    split at h <;> cases h <;> rfl
  · cases h

/-- Splitting undoes joining where no part contains a slash, and joining always
undoes splitting. -/
theorem split_eq_iff {value : String} {ps : List String} (hne : ps ≠ []) :
    split value = ps ↔ value = "/".intercalate ps ∧ ∀ p ∈ ps, '/' ∉ p.toList :=
  splitOn_eq_iff hne

theorem not_mem_parts (kind : TopicKind) : ∀ p ∈ kind.parts, '/' ∉ p.toList := by
  cases kind <;> decide

/-- **The topic parser is exact**: the accepted topics are the texts of topics
whose serial is one level of the topic. -/
theorem tryFrom_eq_ok {value : String} {t : Topic} :
    tryFrom value = .ok t ↔ value = t.text ∧ '/' ∉ t.kitSerial.toList := by
  have hsplit := @split_eq_iff value _
    (List.cons_ne_nil "kit" (t.kitSerial :: t.kind.parts))
  constructor
  · intro h
    obtain ⟨htext, hps⟩ := hsplit.mp (split_of_tryFrom h)
    exact ⟨htext, hps _ (by simp)⟩
  · rintro ⟨htext, hserial⟩
    refine tryFrom_of_split (hsplit.mpr ⟨htext, ?_⟩)
    intro p hp
    simp only [List.mem_cons] at hp
    rcases hp with rfl | rfl | hp
    · decide
    · exact hserial
    · exact not_mem_parts _ p hp

end Topic

end AstroPlant
