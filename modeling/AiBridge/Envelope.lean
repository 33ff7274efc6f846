import AiBridge.Errors
import AiBridge.JsonText

namespace AiBridge

/-- An object somewhere in the value has the key. -/
inductive Occurs (field : String) : Json → Prop
  | key {members value} : (field, value) ∈ members → Occurs field (.obj members)
  | value {members key value} : (key, value) ∈ members → Occurs field value →
    Occurs field (.obj members)
  | item {items item} : item ∈ items → Occurs field item → Occurs field (.arr items)

def identityFields : List String := ["sender", "auth_token"]

mutual

/-- The members stand in the order in which the map walks over them. -/
def forbiddenIdentityField : Json → Option String
  | .obj members =>
    if members.any fun member => member.1 = "sender" then some "sender"
    else if members.any fun member => member.1 = "auth_token" then some "auth_token"
    else forbiddenInValues members
  | .arr items => forbiddenInItems items
  | _ => none

/-- `find_map` over the values of a map. -/
def forbiddenInValues : List (String × Json) → Option String
  | [] => none
  | (_, value) :: members =>
    match forbiddenIdentityField value with
    | some field => some field
    | none => forbiddenInValues members

def forbiddenInItems : List Json → Option String
  | [] => none
  | item :: items =>
    match forbiddenIdentityField item with
    | some field => some field
    | none => forbiddenInItems items

end

def validatePayload (value : Json) : Except ChannelError Unit :=
  match forbiddenIdentityField value with
  | some field => .error (.forbiddenField field)
  | none => .ok ()

structure ChannelEnvelope where
  payload : Json

namespace ChannelEnvelope

/-- `fromStr` is `serde_json::from_str`. -/
def fromJsonStr (fromStr : String → Option Json) (data : String) :
    Except ChannelError ChannelEnvelope :=
  match fromStr data with
  | none => .error .json
  | some value =>
    match validatePayload value with
    | .error e => .error e
    | .ok () => .ok ⟨value⟩

/-- What the derived serializer writes: a payload of null is skipped. -/
def document (self : ChannelEnvelope) : Json :=
  match self.payload with
  | .null => .obj []
  | payload => .obj [("payload", payload)]

def toJsonString (self : ChannelEnvelope) : Except ChannelError String :=
  match validatePayload self.payload with
  | .error e => .error e
  | .ok () => .ok self.document.text

end ChannelEnvelope

variable {field : String} {value : Json} {members : List (String × Json)} {items : List Json}

theorem any_key_iff : (members.any fun member => member.1 = field) = true ↔
    ∃ value, (field, value) ∈ members := by
  rw [List.any_eq_true]
  constructor
  · intro h
    obtain ⟨⟨key, value⟩, hmem, hkey⟩ := h
    obtain rfl : key = field := by simpa using hkey
    exact ⟨value, hmem⟩
  · intro h
    obtain ⟨value, hmem⟩ := h
    exact ⟨(field, value), hmem, by simp⟩

mutual

/-- What the search names is an identity field, and it is there. -/
theorem occurs_of_forbidden : ∀ {value : Json}, forbiddenIdentityField value = some field →
    field ∈ identityFields ∧ Occurs field value
  | .obj members, h => by
    rw [forbiddenIdentityField] at h
    split at h
    next hsender =>
      obtain rfl := Option.some.inj h
      obtain ⟨value, hmem⟩ := any_key_iff.mp hsender
      exact ⟨by decide, .key hmem⟩
    next =>
      split at h
      next htoken =>
        obtain rfl := Option.some.inj h
        obtain ⟨value, hmem⟩ := any_key_iff.mp htoken
        exact ⟨by decide, .key hmem⟩
      next =>
        obtain ⟨hfield, key, value, hmem, hoccurs⟩ := occurs_of_forbiddenInValues h
        exact ⟨hfield, .value hmem hoccurs⟩
  | .arr items, h => by
    rw [forbiddenIdentityField] at h
    obtain ⟨hfield, item, hmem, hoccurs⟩ := occurs_of_forbiddenInItems h
    exact ⟨hfield, .item hmem hoccurs⟩
  | .null, h => by simp [forbiddenIdentityField] at h
  | .bool _, h => by simp [forbiddenIdentityField] at h
  | .num _, h => by simp [forbiddenIdentityField] at h
  | .str _, h => by simp [forbiddenIdentityField] at h

theorem occurs_of_forbiddenInValues : ∀ {members : List (String × Json)},
    forbiddenInValues members = some field →
      field ∈ identityFields ∧ ∃ key value, (key, value) ∈ members ∧ Occurs field value
  | [], h => by simp [forbiddenInValues] at h
  | (key, value) :: members, h => by
    rw [forbiddenInValues] at h
    cases hfound : forbiddenIdentityField value with
    | some found =>
      rw [hfound] at h
      rw [Option.some.inj h] at hfound
      obtain ⟨hfield, hoccurs⟩ := occurs_of_forbidden hfound
      exact ⟨hfield, key, value, List.mem_cons_self, hoccurs⟩
    | none =>
      rw [hfound] at h
      obtain ⟨hfield, key', value', hmem, hoccurs⟩ := occurs_of_forbiddenInValues h
      exact ⟨hfield, key', value', List.mem_cons_of_mem _ hmem, hoccurs⟩

theorem occurs_of_forbiddenInItems : ∀ {items : List Json}, forbiddenInItems items = some field →
    field ∈ identityFields ∧ ∃ item ∈ items, Occurs field item
  | [], h => by simp [forbiddenInItems] at h
  | item :: items, h => by
    rw [forbiddenInItems] at h
    cases hfound : forbiddenIdentityField item with
    | some found =>
      rw [hfound] at h
      rw [Option.some.inj h] at hfound
      obtain ⟨hfield, hoccurs⟩ := occurs_of_forbidden hfound
      exact ⟨hfield, item, List.mem_cons_self, hoccurs⟩
    | none =>
      rw [hfound] at h
      obtain ⟨hfield, item', hmem, hoccurs⟩ := occurs_of_forbiddenInItems h
      exact ⟨hfield, item', List.mem_cons_of_mem _ hmem, hoccurs⟩

end

theorem forbiddenInValues_isSome {key : String} (hmem : (key, value) ∈ members)
    (h : (forbiddenIdentityField value).isSome = true) :
    (forbiddenInValues members).isSome = true := by
  induction members with
  | nil => exact absurd hmem List.not_mem_nil
  | cons member members ih =>
    obtain ⟨first, other⟩ := member
    rw [forbiddenInValues]
    cases hfound : forbiddenIdentityField other with
    | some found => rfl
    | none =>
      rcases List.mem_cons.mp hmem with heq | hlater
      · rw [(Prod.mk.inj heq).2, hfound] at h
        simp at h
      · exact ih hlater

theorem forbiddenInItems_isSome {item : Json} (hmem : item ∈ items)
    (h : (forbiddenIdentityField item).isSome = true) :
    (forbiddenInItems items).isSome = true := by
  induction items with
  | nil => exact absurd hmem List.not_mem_nil
  | cons first items ih =>
    rw [forbiddenInItems]
    cases hfound : forbiddenIdentityField first with
    | some found => rfl
    | none =>
      rcases List.mem_cons.mp hmem with heq | hlater
      · rw [heq, hfound] at h
        simp at h
      · exact ih hlater

/-- The search misses no identity field. -/
theorem forbidden_of_occurs (hfield : field ∈ identityFields) (h : Occurs field value) :
    (forbiddenIdentityField value).isSome = true := by
  induction h with
  | key hmem =>
    have hkey := any_key_iff.mpr ⟨_, hmem⟩
    rw [forbiddenIdentityField]
    split
    next => rfl
    next hsender =>
      split
      next => rfl
      next htoken =>
        simp only [identityFields, List.mem_cons, List.not_mem_nil, or_false] at hfield
        rcases hfield with rfl | rfl
        · exact absurd hkey hsender
        · exact absurd hkey htoken
  | value hmem _ ih =>
    rw [forbiddenIdentityField]
    split
    next => rfl
    next =>
      split
      next => rfl
      next => exact forbiddenInValues_isSome hmem ih
  | item hmem _ ih =>
    rw [forbiddenIdentityField]
    exact forbiddenInItems_isSome hmem ih

/-- A value passes exactly if it has no identity field anywhere. -/
theorem validatePayload_eq_ok_iff :
    validatePayload value = .ok () ↔ ∀ field ∈ identityFields, ¬Occurs field value := by
  rw [validatePayload]
  cases hfound : forbiddenIdentityField value with
  | none =>
    simp only [true_iff]
    intro field hfield hoccurs
    have hsome := forbidden_of_occurs hfield hoccurs
    rw [hfound] at hsome
    simp at hsome
  | some field =>
    obtain ⟨hfield, hoccurs⟩ := occurs_of_forbidden hfound
    simp only [reduceCtorEq, false_iff]
    intro hnone
    exact hnone field hfield hoccurs

theorem validatePayload_eq_error_iff :
    (∃ error, validatePayload value = .error error) ↔ ∃ field ∈ identityFields, Occurs field value := by
  have hok : validatePayload value = .ok () ↔ ∀ field ∈ identityFields, ¬Occurs field value :=
    validatePayload_eq_ok_iff
  cases hvalidate : validatePayload value with
  | ok done =>
    have hnone := hok.mp hvalidate
    simp only [reduceCtorEq, exists_false, false_iff, not_exists, not_and]
    exact hnone
  | error e =>
    refine iff_of_true ⟨e, rfl⟩ ?_
    by_contra hnone
    simp only [not_exists, not_and] at hnone
    rw [hok.mpr hnone] at hvalidate
    simp at hvalidate

namespace ChannelEnvelope

variable {envelope : ChannelEnvelope}

theorem document_cases (envelope : ChannelEnvelope) :
    (envelope.payload = .null ∧ envelope.document = .obj []) ∨
      envelope.document = .obj [("payload", envelope.payload)] := by
  obtain ⟨payload⟩ := envelope
  cases payload with
  | null => exact Or.inl ⟨rfl, rfl⟩
  | _ => exact Or.inr rfl

/-- The wrapper adds no identity field. -/
theorem occurs_of_occurs_document (hfield : field ∈ identityFields)
    (h : Occurs field envelope.document) : Occurs field envelope.payload := by
  have hpayload : field ≠ "payload" := by
    rintro rfl
    exact absurd hfield (by decide)
  rcases document_cases envelope with ⟨_, hdocument⟩ | hdocument
  · rw [hdocument] at h
    cases h with
    | key hmem => exact absurd hmem List.not_mem_nil
    | value hmem _ => exact absurd hmem List.not_mem_nil
  · rw [hdocument] at h
    cases h with
    | key hmem => exact absurd (Prod.mk.inj (List.mem_singleton.mp hmem)).1 hpayload
    | value hmem hoccurs => rwa [(Prod.mk.inj (List.mem_singleton.mp hmem)).2] at hoccurs

theorem toJsonString_eq_ok_iff {text : String} : envelope.toJsonString = .ok text ↔
    validatePayload envelope.payload = .ok () ∧ envelope.document.text = text := by
  rw [toJsonString]
  cases hvalidate : validatePayload envelope.payload with
  | error e => simp
  | ok done => simp

/-- A document that is written passes as a payload. -/
theorem validatePayload_document (h : validatePayload envelope.payload = .ok ()) :
    validatePayload envelope.document = .ok () := by
  apply validatePayload_eq_ok_iff.mpr
  intro field hfield hoccurs
  exact validatePayload_eq_ok_iff.mp h field hfield (occurs_of_occurs_document hfield hoccurs)

/-- The document has its payload inside. -/
theorem document_ne_payload (envelope : ChannelEnvelope) :
    envelope.document ≠ envelope.payload := by
  intro h
  rcases document_cases envelope with ⟨hnull, hdocument⟩ | hdocument
  · rw [hdocument, hnull] at h
    simp at h
  · have hsize := congrArg sizeOf (hdocument.symm.trans h)
    simp at hsize
    omega

end ChannelEnvelope

open ChannelEnvelope

/-- A payload is refused exactly if some object in it has an identity field, and for a field that is
there; what is written of an envelope, however it came to its payload, has none. -/
theorem forbidden_fields_exact (value : Json) (envelope : ChannelEnvelope) :
    ((∃ error, validatePayload value = .error error) ↔
        ∃ field ∈ identityFields, Occurs field value) ∧
      (∀ error, validatePayload value = .error error →
        ∃ field, error = .forbiddenField field ∧ field ∈ identityFields ∧ Occurs field value) ∧
      ∀ text, envelope.toJsonString = .ok text →
        envelope.document.text = text ∧ ∀ field ∈ identityFields, ¬Occurs field envelope.document := by
  refine ⟨validatePayload_eq_error_iff, ?_, ?_⟩
  · intro error herror
    rw [validatePayload] at herror
    cases hfound : forbiddenIdentityField value with
    | none =>
      rw [hfound] at herror
      simp at herror
    | some field =>
      rw [hfound] at herror
      exact ⟨field, (Except.error.inj herror).symm, occurs_of_forbidden hfound⟩
  · intro text htext
    obtain ⟨hvalid, hwritten⟩ := toJsonString_eq_ok_iff.mp htext
    exact ⟨hwritten, validatePayload_eq_ok_iff.mp (validatePayload_document hvalid)⟩

/-- What the encoder writes is read back as a payload of its own, with the wrapper, and so never as
the envelope that was written. -/
theorem envelope_never_round_trips (fromStr : String → Option Json) (envelope : ChannelEnvelope)
    (hvalid : validatePayload envelope.payload = .ok ())
    (hround : fromStr envelope.document.text = some envelope.document) :
    ¬∃ text, envelope.toJsonString = .ok text ∧ fromJsonStr fromStr text = .ok envelope := by
  intro h
  obtain ⟨text, htext, hread⟩ := h
  rw [← (toJsonString_eq_ok_iff.mp htext).2, fromJsonStr, hround] at hread
  simp only [validatePayload_document hvalid, Except.ok.injEq] at hread
  exact document_ne_payload envelope (congrArg payload hread)

/-- The texts of the two documents that are written here. -/
def envelopeReader (text : String) : Option Json :=
  if text = "\x7b\x7d" then some (.obj [])
  else if text = "\x7b\"payload\":\x7b\"task\":\"ok\"\x7d\x7d" then
    some (.obj [("payload", .obj [("task", .str "ok")])])
  else none

theorem task_envelope_wrapped :
    ¬∃ text, toJsonString ⟨.obj [("task", .str "ok")]⟩ = .ok text ∧
      fromJsonStr envelopeReader text = .ok ⟨.obj [("task", .str "ok")]⟩ :=
  envelope_never_round_trips envelopeReader _ (by decide) (by rfl)

/-- An envelope without a payload comes back with an empty object. -/
theorem null_envelope_not_restored :
    toJsonString ⟨.null⟩ = .ok "\x7b\x7d" ∧
      fromJsonStr envelopeReader "\x7b\x7d" = .ok ⟨.obj []⟩ ∧
      fromJsonStr envelopeReader "\x7b\x7d" ≠ .ok ⟨.null⟩ := by
  refine ⟨by rfl, rfl, ?_⟩
  intro h
  have hread : (.ok ⟨.obj []⟩ : Except ChannelError ChannelEnvelope) = .ok ⟨.null⟩ := h
  simp at hread

end AiBridge
