import Foco.JsonDocuments

/-!
`store/workspace.rs`, the redaction of provider dumps and other audit JSON before it is stored.
A provider dump keeps its headers as they were sent, but for the authorization header; everything
else loses the values under secret keys, at any depth.
-/
namespace Foco.AuditRedaction
open Foco.RustText
open Foco.Json (asStr asU64)

/-! ## Secret keys -/

/-- `char::to_lowercase`, as far as ASCII letters come out of it. Besides `A` to `Z` only the
Kelvin sign and the dotted capital I have an ASCII letter in their lower case; the lower case of
any other character is not ASCII either, so no ASCII word can tell it from the character. -/
def toLowercase (c : Char) : Text :=
  if c = '\u212A' then ['k'] else if c = '\u0130' then ['i', '\u0307'] else [c.toLower]

/-- `is_secret_audit_key`. -/
def isSecretAuditKey (key : String) : Bool :=
  let normalized := (key.toList.filter fun c => c != '-' && c != '_').flatMap toLowercase
  normalized == "authorization".toList ||
    containsText "apikey".toList normalized ||
    containsText "cookie".toList normalized ||
    containsText "password".toList normalized

/-- `name.eq_ignore_ascii_case("authorization")`. -/
def isAuthorizationHeader (name : String) : Bool :=
  toAsciiLowercase name.toList == "authorization".toList

/-! ## Redaction of a document -/

def redactedText : Json := .string "[REDACTED]".toList

def maskedText : Json := .string "********".toList

mutual

/-- `redact_json_value`. -/
def redactJsonValue : Json → Json
  | .object object => .object (redactFields object)
  | .array items => .array (redactItems items)
  | .null => .null
  | .bool value => .bool value
  | .number value => .number value
  | .string text => .string text

/-- The loop over the fields of an object. -/
def redactFields : JsonMap → JsonMap
  | [] => []
  | (key, value) :: fields =>
    (key, if isSecretAuditKey key then redactedText else redactJsonValue value) ::
      redactFields fields

/-- The loop over the items of an array. -/
def redactItems : List Json → List Json
  | [] => []
  | item :: items => redactJsonValue item :: redactItems items

end

/-- `mask_provider_header_value`. -/
def maskProviderHeaderValue : Json → Json
  | .array values => .array (values.map fun _ => maskedText)
  | _ => maskedText

/-- `mask_provider_authorization_header`. -/
def maskProviderAuthorizationHeader : Json → Json
  | .object headers => .object (headers.map fun header =>
      (header.1, if isAuthorizationHeader header.1 then maskProviderHeaderValue header.2
        else header.2))
  | headers => headers

/-- `as_object_mut().and_then(|object| object.remove("headers"))`: the headers and what is left. -/
def takeHeaders : Json → Option Json × Json
  | .object object => (JsonMap.get "headers" object, .object (JsonMap.swapRemove "headers" object))
  | value => (none, value)

/-- The headers go back masked, if there is an object they can go into. -/
def restoreHeaders (headers : Option Json) : Json → Json
  | .object object =>
    match headers with
    | some headers =>
      .object (JsonMap.put "headers" (maskProviderAuthorizationHeader headers) object)
    | none => .object object
  | value => value

/-- `takeHeaders` of the value under a key, changed in place. -/
def takeHeadersUnder (key : String) : Json → Option Json × Json
  | .object object =>
    ((JsonMap.get key object).bind fun inner => (takeHeaders inner).1,
      .object (JsonMap.modify key (fun inner => (takeHeaders inner).2) object))
  | value => (none, value)

/-- `restoreHeaders` of the value under a key. -/
def restoreHeadersUnder (key : String) (headers : Option Json) : Json → Json
  | .object object => .object (JsonMap.modify key (restoreHeaders headers) object)
  | value => value

/-- `redact_provider_request_envelope`. -/
def redactProviderRequestEnvelope (value : Json) : Json :=
  let (headers, value) := takeHeaders value
  restoreHeaders headers (redactJsonValue value)

/-- `redact_provider_websocket_request_envelope`. -/
def redactProviderWebsocketRequestEnvelope (value : Json) : Json :=
  let (headers, value) := takeHeaders value
  let (handshakeHeaders, value) := takeHeadersUnder "handshake" value
  restoreHeadersUnder "handshake" handshakeHeaders
    (restoreHeaders headers (redactJsonValue value))

/-- `redact_provider_response_envelope`. -/
def redactProviderResponseEnvelope (value : Json) : Json :=
  let (headers, value) := takeHeadersUnder "http" value
  restoreHeadersUnder "http" headers (redactJsonValue value)

/-! ## Stored text -/

/-- The arms of the match in `redact_audit_json` that redact. -/
inductive Envelope where
  | providerRequest
  | providerWebsocketRequest
  | providerResponse
  /-- Event and raw chunk audit JSON: any other field. -/
  | none

/-- `WorkspaceDatabaseError`. The message of `InvalidAuditData` is "{field} must be a versioned
provider dump (got format={format:?}, version={version:?})". -/
inductive AuditError (SourceError : Type) where
  | invalidAuditJson (field : String) (source : SourceError)
  | invalidAuditData (field : String) (format : Option Text) (version : Option Nat)

def providerRequestV1 : Text := "provider_request_v1".toList
def providerWebsocketRequestV1 : Text := "provider_websocket_request_v1".toList
def providerFinalResponseV1 : Text := "provider_final_response_v1".toList

def formatOf (parsed : Json) : Option Text := (parsed.get "format").bind asStr
def versionOf (parsed : Json) : Option Nat := (parsed.get "version").bind asU64

/-- The arm a document of the given format and version takes. -/
def envelopeOf (SourceError : Type) (field : String) (format : Option Text)
    (version : Option Nat) : Except (AuditError SourceError) Envelope :=
  if field = "request_body_json" then
    if format = some providerRequestV1 ∧ version = some 1 then .ok .providerRequest
    else if format = some providerWebsocketRequestV1 ∧ version = some 1 then
      .ok .providerWebsocketRequest
    else .error (.invalidAuditData field format version)
  else if field = "response_body_json" then
    if format = some providerFinalResponseV1 ∧ version = some 1 then .ok .providerResponse
    else .error (.invalidAuditData field format version)
  else .ok .none

/-- What each arm does to the document. -/
def redactEnvelope : Envelope → Json → Json
  | .providerRequest => redactProviderRequestEnvelope
  | .providerWebsocketRequest => redactProviderWebsocketRequestEnvelope
  | .providerResponse => redactProviderResponseEnvelope
  | .none => redactJsonValue

/-- `serde_json::from_str` and `serde_json::to_string`. Writing a `Value` does not fail: all its
keys are strings. -/
structure SerdeJson (SourceError : Type) where
  fromStr : Text → Except SourceError Json
  toText : Json → Text

/-- A `serde_json::Map` has each key once. -/
def SerdeJson.ReadsMaps {SourceError : Type} (serde : SerdeJson SourceError) : Prop :=
  ∀ text value, serde.fromStr text = .ok value → value.Keyed

/-- The text written for a document is read as that document. `serde_json` promises this but for
floating-point numbers, which it reads with best effort. -/
def SerdeJson.ReadsBack {SourceError : Type} (serde : SerdeJson SourceError) (value : Json) :
    Prop :=
  serde.fromStr (serde.toText value) = .ok value

section
variable {SourceError : Type} (serde : SerdeJson SourceError)

/-- `redact_audit_json`. -/
def redactAuditJson (value : Text) (field : String) : Except (AuditError SourceError) Text :=
  match serde.fromStr value with
  | .error source => .error (.invalidAuditJson field source)
  | .ok parsed =>
    match envelopeOf SourceError field (formatOf parsed) (versionOf parsed) with
    | .error error => .error error
    | .ok envelope => .ok (serde.toText (redactEnvelope envelope parsed))

end

/-! ## Keys of the envelopes -/

section Keys

theorem headers_not_secret : isSecretAuditKey "headers" = false := by
  unfold isSecretAuditKey
  repeat rewrite [String.toList_ofList]
  decide

theorem handshake_not_secret : isSecretAuditKey "handshake" = false := by
  unfold isSecretAuditKey
  repeat rewrite [String.toList_ofList]
  decide

theorem http_not_secret : isSecretAuditKey "http" = false := by
  unfold isSecretAuditKey
  repeat rewrite [String.toList_ofList]
  decide

theorem format_not_secret : isSecretAuditKey "format" = false := by
  unfold isSecretAuditKey
  repeat rewrite [String.toList_ofList]
  decide

theorem version_not_secret : isSecretAuditKey "version" = false := by
  unfold isSecretAuditKey
  repeat rewrite [String.toList_ofList]
  decide

end Keys

private theorem plain_of_lower {c : Char} (letter : c.toLower ∈ "authorization".toList) :
    c ≠ '-' ∧ c ≠ '_' ∧ toLowercase c = [c.toLower] := by
  repeat rewrite [String.toList_ofList] at letter
  refine ⟨?_, ?_, ?_⟩
  · rintro rfl
    exact absurd letter (by decide)
  · rintro rfl
    exact absurd letter (by decide)
  · rw [toLowercase, if_neg, if_neg]
    · rintro rfl
      exact absurd letter (by decide)
    · rintro rfl
      exact absurd letter (by decide)

/-- The one header that is masked is also stored under a secret key. -/
theorem secret_of_authorization {name : String} (authorization : isAuthorizationHeader name = true) :
    isSecretAuditKey name = true := by
  have lower : name.toList.map Char.toLower = "authorization".toList := beq_iff_eq.mp authorization
  have letters : ∀ c ∈ name.toList, c ≠ '-' ∧ c ≠ '_' ∧ toLowercase c = [c.toLower] :=
    fun c mem => plain_of_lower (lower ▸ List.mem_map_of_mem mem)
  have kept : (name.toList.filter fun c => c != '-' && c != '_') = name.toList :=
    List.filter_eq_self.mpr fun c mem => by simp [(letters c mem).1, (letters c mem).2.1]
  have normalized : name.toList.flatMap toLowercase = name.toList.map Char.toLower := by
    rw [List.map_eq_flatMap]
    exact List.flatMap_congr fun c mem => (letters c mem).2.2
  simp only [isSecretAuditKey, kept, normalized, lower, beq_self_eq_true, Bool.true_or]

/-! ## What the redaction does not tell apart -/

mutual

theorem redactJsonValue_congr : (value other : Json) →
    value.AgreeBut isSecretAuditKey false other → redactJsonValue value = redactJsonValue other
  | .null, _, agree => by
    rw [Json.AgreeBut] at agree
    rw [agree]
  | .bool _, _, agree => by
    rw [Json.AgreeBut] at agree
    rw [agree]
  | .number _, _, agree => by
    rw [Json.AgreeBut] at agree
    rw [agree]
  | .string _, _, agree => by
    rw [Json.AgreeBut] at agree
    obtain ⟨_, rfl, under | rfl⟩ := agree
    · exact nomatch under
    · rfl
  | .array items, _, agree => by
    rw [Json.AgreeBut] at agree
    obtain ⟨others, rfl, agree⟩ := agree
    rw [redactJsonValue, redactJsonValue, redactItems_congr items others agree]
  | .object fields, _, agree => by
    rw [Json.AgreeBut] at agree
    obtain ⟨others, rfl, agree⟩ := agree
    rw [redactJsonValue, redactJsonValue, redactFields_congr fields others agree]

theorem redactFields_congr : (fields others : JsonMap) →
    Json.FieldsAgreeBut isSecretAuditKey false fields others →
      redactFields fields = redactFields others
  | [], _, agree => by
    rw [Json.FieldsAgreeBut] at agree
    rw [agree]
  | (key, value) :: fields, _, agree => by
    rw [Json.FieldsAgreeBut] at agree
    obtain ⟨other, rest, rfl, here, agree⟩ := agree
    rw [redactFields, redactFields, redactFields_congr fields rest agree]
    by_cases secret : isSecretAuditKey key = true
    · rw [if_pos secret, if_pos secret]
    · rw [Bool.not_eq_true] at secret
      rw [secret, Bool.false_or] at here
      rw [redactJsonValue_congr value other here]

theorem redactItems_congr : (items others : List Json) →
    Json.ValuesAgreeBut isSecretAuditKey false items others → redactItems items = redactItems others
  | [], _, agree => by
    rw [Json.ValuesAgreeBut] at agree
    rw [agree]
  | item :: items, _, agree => by
    rw [Json.ValuesAgreeBut] at agree
    obtain ⟨other, rest, rfl, here, agree⟩ := agree
    rw [redactItems, redactItems, redactJsonValue_congr item other here,
      redactItems_congr items rest agree]

end

/-- Headers objects with the same values under every name but the authorization header. -/
def HeadersAgree (value other : Json) : Prop :=
  value = other ∨ ∃ headers others, value = .object headers ∧ other = .object others ∧
    FieldsRelate (fun name value other => isAuthorizationHeader name = false → value = other)
      headers others

/-- The headers an envelope takes out before the redaction of the rest. -/
def takenHeaders : Envelope → Json → List (Option Json)
  | .providerRequest, value => [value.get "headers"]
  | .providerWebsocketRequest, value =>
    [value.get "headers", (value.get "handshake").bind (Json.get "headers")]
  | .providerResponse, value => [(value.get "http").bind (Json.get "headers")]
  | .none, _ => []

/-- Two documents that differ only in string values under secret keys. -/
abbrev SecretsApart (value other : Json) : Prop := value.AgreeBut isSecretAuditKey false other

theorem maskProviderHeaderValue_congr {value other : Json} {free : String → Bool} {under : Bool}
    (agree : value.AgreeBut free under other) :
    maskProviderHeaderValue value = maskProviderHeaderValue other := by
  cases value with
  | array values =>
    rw [Json.AgreeBut] at agree
    obtain ⟨others, rfl, agree⟩ := agree
    have length := (Json.valuesAgreeBut_iff.mp agree).length_eq
    simp only [maskProviderHeaderValue, List.map_const', length]
  | object fields =>
    obtain ⟨_, rfl, _⟩ := Json.AgreeBut.object_iff.mp agree
    rfl
  | string text =>
    rw [Json.AgreeBut] at agree
    obtain ⟨_, rfl, _⟩ := agree
    rfl
  | _ =>
    rw [Json.AgreeBut] at agree
    rw [agree]

private theorem FieldsRelate.and {p q : String → Json → Json → Prop} {fields others : JsonMap}
    (left : FieldsRelate p fields others) (right : FieldsRelate q fields others) :
    FieldsRelate (fun key value other => p key value other ∧ q key value other) fields others := by
  induction left with
  | nil => exact .nil
  | cons head _ ih =>
    obtain ⟨here, rest⟩ := List.forall₂_cons.mp right
    exact .cons ⟨head.1, head.2, here.2⟩ (ih rest)

theorem mask_congr {headers others : Json} (whole : SecretsApart headers others)
    (agree : HeadersAgree headers others) :
    maskProviderAuthorizationHeader headers = maskProviderAuthorizationHeader others := by
  obtain rfl | ⟨fields, otherFields, rfl, rfl, agree⟩ := agree
  · rfl
  · obtain ⟨others, same, apart⟩ := Json.AgreeBut.object_iff.mp whole
    cases same
    rw [maskProviderAuthorizationHeader, maskProviderAuthorizationHeader, Json.object.injEq]
    have both := FieldsRelate.and agree apart
    clear agree apart whole
    induction both with
    | nil => rfl
    | cons head rest ih =>
      rename_i field other _ _
      obtain ⟨name, plain, masked⟩ := head
      rw [List.map_cons, List.map_cons, ih, ← name]
      by_cases authorization : isAuthorizationHeader field.1 = true
      · rw [if_pos authorization, if_pos authorization, maskProviderHeaderValue_congr masked]
      · rw [if_neg authorization, if_neg authorization, plain (Bool.not_eq_true _ ▸ authorization)]

/-! ## Envelopes that differ under secret keys -/

/-- Documents that differ under secret keys are both objects, or the code reads the same in them. -/
theorem SecretsApart.shape {value other : Json} (apart : SecretsApart value other) :
    (∃ fields others, value = .object fields ∧ other = .object others ∧
      FieldsRelate (fun key => Json.AgreeBut isSecretAuditKey (isSecretAuditKey key))
        fields others) ∨
    (value.asObject = none ∧ other.asObject = none ∧ asStr value = asStr other ∧
      asU64 value = asU64 other) := by
  cases value with
  | object fields =>
    obtain ⟨others, rfl, related⟩ := Json.AgreeBut.object_iff.mp apart
    exact .inl ⟨fields, others, rfl, rfl, related⟩
  | array items =>
    rw [SecretsApart, Json.AgreeBut] at apart
    obtain ⟨_, rfl, _⟩ := apart
    exact .inr ⟨rfl, rfl, rfl, rfl⟩
  | string text =>
    rw [SecretsApart, Json.AgreeBut] at apart
    obtain ⟨_, rfl, under | rfl⟩ := apart
    · exact nomatch under
    · exact .inr ⟨rfl, rfl, rfl, rfl⟩
  | _ =>
    rw [SecretsApart, Json.AgreeBut] at apart
    rw [apart]
    exact .inr ⟨rfl, rfl, rfl, rfl⟩

theorem get_of_no_object {value : Json} (scalar : value.asObject = none) (key : String) :
    value.get key = none := by
  cases value <;> first | rfl | exact nomatch scalar

theorem takeHeaders_of_no_object {value : Json} (scalar : value.asObject = none) :
    takeHeaders value = (none, value) := by
  cases value <;> first | rfl | exact nomatch scalar

theorem takeHeadersUnder_of_no_object {value : Json} (scalar : value.asObject = none)
    (key : String) : takeHeadersUnder key value = (none, value) := by
  cases value <;> first | rfl | exact nomatch scalar

theorem SecretsApart.get {value other : Json} (apart : SecretsApart value other) {key : String}
    (plain : isSecretAuditKey key = false) :
    Option.Rel SecretsApart (value.get key) (other.get key) := by
  obtain ⟨fields, others, rfl, rfl, related⟩ | ⟨scalar, otherScalar, _⟩ := apart.shape
  · have here := FieldsRelate.get related key
    rw [plain] at here
    exact here
  · rw [get_of_no_object scalar, get_of_no_object otherScalar]
    exact .none

theorem SecretsApart.asStr_eq {value other : Json} (apart : SecretsApart value other) :
    asStr value = asStr other := by
  obtain ⟨_, _, rfl, rfl, _⟩ | ⟨_, _, same, _⟩ := apart.shape
  · rfl
  · exact same

theorem SecretsApart.asU64_eq {value other : Json} (apart : SecretsApart value other) :
    asU64 value = asU64 other := by
  obtain ⟨_, _, rfl, rfl, _⟩ | ⟨_, _, _, same⟩ := apart.shape
  · rfl
  · exact same

private theorem bind_eq_of_rel {α : Type} {related : Json → Json → Prop} {f : Json → Option α}
    {a b : Option Json} (rel : Option.Rel related a b)
    (same : ∀ a b, related a b → f a = f b) : a.bind f = b.bind f := by
  cases rel with
  | none => rfl
  | some here => exact same _ _ here

theorem SecretsApart.formatOf_eq {value other : Json} (apart : SecretsApart value other) :
    formatOf value = formatOf other :=
  bind_eq_of_rel (apart.get format_not_secret) fun _ _ here => here.asStr_eq

theorem SecretsApart.versionOf_eq {value other : Json} (apart : SecretsApart value other) :
    versionOf value = versionOf other :=
  bind_eq_of_rel (apart.get version_not_secret) fun _ _ here => here.asU64_eq

@[simp] theorem takeHeaders_fst (value : Json) : (takeHeaders value).1 = value.get "headers" := by
  cases value <;> rfl

@[simp] theorem takeHeadersUnder_fst (key : String) (value : Json) :
    (takeHeadersUnder key value).1 = (value.get key).bind (Json.get "headers") := by
  cases value with
  | object fields => simp only [takeHeadersUnder, takeHeaders_fst]; rfl
  | _ => rfl

theorem SecretsApart.takeHeaders {value other : Json} (apart : SecretsApart value other) :
    SecretsApart (takeHeaders value).2 (takeHeaders other).2 := by
  obtain ⟨fields, others, rfl, rfl, related⟩ | ⟨scalar, otherScalar, _⟩ := apart.shape
  · exact Json.AgreeBut.object_iff.mpr ⟨_, rfl, FieldsRelate.swapRemove related "headers"⟩
  · rw [takeHeaders_of_no_object scalar, takeHeaders_of_no_object otherScalar]
    exact apart

theorem SecretsApart.takeHeadersUnder {value other : Json} (apart : SecretsApart value other)
    {key : String} (plain : isSecretAuditKey key = false) :
    SecretsApart (takeHeadersUnder key value).2 (takeHeadersUnder key other).2 := by
  obtain ⟨fields, others, rfl, rfl, related⟩ | ⟨scalar, otherScalar, _⟩ := apart.shape
  · refine Json.AgreeBut.object_iff.mpr ⟨_, rfl, FieldsRelate.modify related key
      (fun inner otherInner here => ?_) fun _ _ _ _ here => here⟩
    rw [plain] at here ⊢
    exact SecretsApart.takeHeaders here
  · rw [takeHeadersUnder_of_no_object scalar, takeHeadersUnder_of_no_object otherScalar]
    exact apart

/-- Restoring reads no more of the headers than what is masked. -/
theorem restoreHeaders_congr {headers others : Option Json}
    (same : headers.map maskProviderAuthorizationHeader =
      others.map maskProviderAuthorizationHeader) :
    restoreHeaders headers = restoreHeaders others := by
  funext value
  cases value with
  | object fields =>
    cases headers with
    | none => cases others with
      | none => rfl
      | some _ => exact nomatch same
    | some headers => cases others with
      | none => exact nomatch same
      | some others =>
        rw [Option.map_some, Option.map_some, Option.some.injEq] at same
        rw [restoreHeaders, restoreHeaders, same]
  | _ => rfl

theorem restoreHeadersUnder_congr {headers others : Option Json}
    (same : headers.map maskProviderAuthorizationHeader =
      others.map maskProviderAuthorizationHeader) (key : String) :
    restoreHeadersUnder key headers = restoreHeadersUnder key others := by
  funext value
  cases value with
  | object fields => rw [restoreHeadersUnder, restoreHeadersUnder, restoreHeaders_congr same]
  | _ => rfl

theorem masked_eq {headers others : Option Json} (apart : Option.Rel SecretsApart headers others)
    (agree : Option.Rel HeadersAgree headers others) :
    headers.map maskProviderAuthorizationHeader = others.map maskProviderAuthorizationHeader := by
  cases apart with
  | none => rfl
  | some apart =>
    cases agree with
    | some agree => rw [Option.map_some, Option.map_some, mask_congr apart agree]

private theorem rel_bind {value other : Option Json} (apart : Option.Rel SecretsApart value other)
    {key : String} (plain : isSecretAuditKey key = false) :
    Option.Rel SecretsApart (value.bind (Json.get key)) (other.bind (Json.get key)) := by
  cases apart with
  | none => exact .none
  | some apart => exact apart.get plain

theorem get_takeHeaders_ne {value : Json} (keyed : value.Keyed) {key : String}
    (ne : key ≠ "headers") : (takeHeaders value).2.get key = value.get key := by
  cases value with
  | object fields =>
    rw [Json.Keyed] at keyed
    exact JsonMap.get_swapRemove_ne ne keyed.1
  | _ => rfl

/-- Each envelope keeps of its headers only what `HeadersAgree` speaks about. -/
theorem redactEnvelope_congr {value other : Json} (keyed : value.Keyed) (otherKeyed : other.Keyed)
    (apart : SecretsApart value other) (envelope : Envelope)
    (agree : List.Forall₂ (Option.Rel HeadersAgree) (takenHeaders envelope value)
      (takenHeaders envelope other)) :
    redactEnvelope envelope value = redactEnvelope envelope other := by
  have here := apart.get headers_not_secret
  cases envelope with
  | providerRequest =>
    obtain ⟨agree, -⟩ := List.forall₂_cons.mp agree
    simp only [redactEnvelope, redactProviderRequestEnvelope, takeHeaders_fst]
    rw [restoreHeaders_congr (masked_eq here agree),
      redactJsonValue_congr _ _ apart.takeHeaders]
  | providerWebsocketRequest =>
    obtain ⟨agree, rest⟩ := List.forall₂_cons.mp agree
    obtain ⟨innerAgree, -⟩ := List.forall₂_cons.mp rest
    have inner := rel_bind (apart.get handshake_not_secret) headers_not_secret
    have redacted := redactJsonValue_congr _ _
      (apart.takeHeaders.takeHeadersUnder handshake_not_secret)
    simp only [redactEnvelope, redactProviderWebsocketRequestEnvelope, takeHeaders_fst,
      takeHeadersUnder_fst, get_takeHeaders_ne keyed (by decide : "handshake" ≠ "headers"),
      get_takeHeaders_ne otherKeyed (by decide : "handshake" ≠ "headers")]
    rw [restoreHeadersUnder_congr (masked_eq inner innerAgree),
      restoreHeaders_congr (masked_eq here agree), redacted]
  | providerResponse =>
    obtain ⟨agree, -⟩ := List.forall₂_cons.mp agree
    have inner := rel_bind (apart.get http_not_secret) headers_not_secret
    simp only [redactEnvelope, redactProviderResponseEnvelope, takeHeadersUnder_fst]
    rw [restoreHeadersUnder_congr (masked_eq inner agree),
      redactJsonValue_congr _ _ (apart.takeHeadersUnder http_not_secret)]
  | none => exact redactJsonValue_congr _ _ apart

/-! ## Redacting again -/

mutual

theorem redactJsonValue_redactJsonValue : (value : Json) →
    redactJsonValue (redactJsonValue value) = redactJsonValue value
  | .null | .bool _ | .number _ | .string _ => rfl
  | .array items => by
    rw [redactJsonValue, redactJsonValue, redactItems_redactItems items]
  | .object fields => by
    rw [redactJsonValue, redactJsonValue, redactFields_redactFields fields]

theorem redactFields_redactFields : (fields : JsonMap) →
    redactFields (redactFields fields) = redactFields fields
  | [] => rfl
  | (key, value) :: fields => by
    rw [redactFields, redactFields, redactFields_redactFields fields]
    by_cases secret : isSecretAuditKey key = true
    · rw [if_pos secret, if_pos secret]
    · rw [if_neg secret, if_neg secret, redactJsonValue_redactJsonValue value]

theorem redactItems_redactItems : (items : List Json) →
    redactItems (redactItems items) = redactItems items
  | [] => rfl
  | item :: items => by
    rw [redactItems, redactItems, redactJsonValue_redactJsonValue item,
      redactItems_redactItems items]

end

theorem redactFields_eq_map (fields : JsonMap) :
    redactFields fields = fields.map fun field =>
      (field.1, if isSecretAuditKey field.1 then redactedText else redactJsonValue field.2) := by
  induction fields with
  | nil => rfl
  | cons field fields ih => rw [redactFields, ih, List.map_cons]

@[simp] theorem keys_redactFields (fields : JsonMap) :
    (redactFields fields).map Prod.fst = fields.map Prod.fst := by
  rw [redactFields_eq_map, List.map_map]
  rfl

theorem mask_mask (headers : Json) :
    maskProviderAuthorizationHeader (maskProviderAuthorizationHeader headers) =
      maskProviderAuthorizationHeader headers := by
  have value_twice : ∀ value, maskProviderHeaderValue (maskProviderHeaderValue value) =
      maskProviderHeaderValue value := by
    rintro (_ | _ | _ | _ | values | _)
    case array => rw [maskProviderHeaderValue, maskProviderHeaderValue, List.map_map]; rfl
    all_goals rfl
  cases headers with
  | object headers =>
    rw [maskProviderAuthorizationHeader, maskProviderAuthorizationHeader, List.map_map]
    refine congrArg Json.object (List.map_congr_left fun header _ => ?_)
    by_cases authorization : isAuthorizationHeader header.1 = true
    · simp only [Function.comp, authorization, if_true, value_twice]
    · simp only [Function.comp, authorization, Bool.false_eq_true, if_false]
  | _ => rfl

/-- What a value looks like after its headers were taken out: it has none, and only an object had
any. -/
def Taken (headers : Option Json) : Json → Prop
  | .object fields => "headers" ∉ fields.map Prod.fst
  | _ => headers = none

/-- The same of the value under a key. -/
def TakenUnder (key : String) (headers : Option Json) : Json → Prop
  | .object fields => (∀ field ∈ fields, field.1 = key → Taken headers field.2) ∧
      (key ∉ fields.map Prod.fst → headers = none)
  | _ => headers = none

theorem takeHeaders_taken {value : Json} (keyed : value.Keyed) :
    Taken (takeHeaders value).1 (takeHeaders value).2 := by
  cases value with
  | object fields =>
    rw [Json.Keyed] at keyed
    exact JsonMap.absent_swapRemove keyed.1
  | _ => rfl

theorem takeHeadersUnder_taken {value : Json} (keyed : value.Keyed) (key : String) :
    TakenUnder key (takeHeadersUnder key value).1 (takeHeadersUnder key value).2 := by
  cases value with
  | object fields =>
    rw [Json.Keyed] at keyed
    refine ⟨fun field mem same => ?_, fun absent => ?_⟩
    · obtain ⟨original, originalMem, rfl⟩ := List.mem_map.mp mem
      have name : original.1 = key := by
        by_cases here : original.1 = key
        · exact here
        · rwa [if_neg here] at same
      have found : JsonMap.get key _ = some original.2 :=
        JsonMap.get_of_mem keyed.1 (name ▸ originalMem)
      rw [if_pos name, takeHeadersUnder, found, Option.bind_some]
      exact takeHeaders_taken (Json.fieldsKeyed_iff.mp keyed.2 original originalMem)
    · rw [JsonMap.keys_modify] at absent
      rw [takeHeadersUnder, JsonMap.get_eq_none absent, Option.bind_none]
  | _ => rfl

theorem Taken.redact {headers : Option Json} {value : Json} (taken : Taken headers value) :
    Taken headers (redactJsonValue value) := by
  cases value with
  | object fields =>
    rw [redactJsonValue, Taken, keys_redactFields]
    exact taken
  | array items => rw [redactJsonValue]; exact taken
  | _ => exact taken

theorem TakenUnder.redact {key : String} (plain : isSecretAuditKey key = false)
    {headers : Option Json} {value : Json} (taken : TakenUnder key headers value) :
    TakenUnder key headers (redactJsonValue value) := by
  cases value with
  | object fields =>
    rw [redactJsonValue, TakenUnder, keys_redactFields]
    refine ⟨fun field mem same => ?_, taken.2⟩
    rw [redactFields_eq_map] at mem
    obtain ⟨original, originalMem, rfl⟩ := List.mem_map.mp mem
    have name : original.1 = key := same
    rw [if_neg (by rw [name, plain]; exact Bool.false_ne_true)]
    exact (taken.1 original originalMem name).redact
  | array items => rw [redactJsonValue]; exact taken
  | _ => exact taken

/-- Headers come out as they were put back, and leave what they were put into. -/
theorem takeHeaders_restoreHeaders {headers : Option Json} {value : Json}
    (taken : Taken headers value) :
    takeHeaders (restoreHeaders headers value) =
      (headers.map maskProviderAuthorizationHeader, value) := by
  cases value with
  | object fields =>
    cases headers with
    | none =>
      rw [restoreHeaders, takeHeaders, JsonMap.get_eq_none taken,
        JsonMap.swapRemove_absent taken, Option.map_none]
    | some headers =>
      rw [restoreHeaders, JsonMap.put_absent _ taken, takeHeaders,
        JsonMap.get_append_absent _ taken, JsonMap.swapRemove_append_absent _ taken,
        Option.map_some]
  | _ =>
    obtain rfl : headers = none := taken
    rfl

theorem takeHeadersUnder_restoreHeadersUnder {key : String} {headers : Option Json} {value : Json}
    (taken : TakenUnder key headers value) :
    takeHeadersUnder key (restoreHeadersUnder key headers value) =
      (headers.map maskProviderAuthorizationHeader, value) := by
  cases value with
  | object fields =>
    have left : JsonMap.modify key ((fun inner => (takeHeaders inner).2) ∘ restoreHeaders headers)
        fields = fields :=
      JsonMap.modify_eq_self fun field mem same => by
        rw [Function.comp, takeHeaders_restoreHeaders (taken.1 field mem same)]
    rw [restoreHeadersUnder, takeHeadersUnder, JsonMap.modify_modify, left,
      JsonMap.get_modify_self]
    cases found : JsonMap.get key fields with
    | none =>
      rw [taken.2 (JsonMap.absent_of_get found)]
      rfl
    | some inner =>
      obtain ⟨field, here, rfl⟩ := Option.map_eq_some_iff.mp found
      have name : field.1 = key := by simpa using List.find?_some here
      rw [Option.map_some, Option.bind_some,
        takeHeaders_restoreHeaders (taken.1 field (List.mem_of_find?_eq_some here) name)]
  | _ =>
    obtain rfl : headers = none := taken
    rfl

/-- Headers under another key do not disturb the taking of the outer ones. -/
theorem takeHeaders_restoreHeadersUnder {key : String} (ne : key ≠ "headers")
    (headers : Option Json) (value : Json) :
    takeHeaders (restoreHeadersUnder key headers value) =
      ((takeHeaders value).1, restoreHeadersUnder key headers (takeHeaders value).2) := by
  cases value with
  | object fields =>
    rw [restoreHeadersUnder, takeHeaders, takeHeaders, restoreHeadersUnder,
      JsonMap.swapRemove_modify, JsonMap.get_modify_ne ne.symm]
  | _ => rfl

theorem keyed_takeHeaders {value : Json} (keyed : value.Keyed) : (takeHeaders value).2.Keyed := by
  cases value with
  | object fields =>
    rw [Json.Keyed] at keyed
    rw [takeHeaders, Json.Keyed]
    exact ⟨JsonMap.nodup_swapRemove keyed.1, Json.fieldsKeyed_iff.mpr fun field mem =>
      Json.fieldsKeyed_iff.mp keyed.2 field (JsonMap.mem_of_mem_swapRemove mem)⟩
  | _ => exact keyed

/-- The headers of the envelope itself are as little disturbed by what happens under a key. -/
theorem Taken.takeHeadersUnder {headers : Option Json} {value : Json} (taken : Taken headers value)
    (key : String) : Taken headers (takeHeadersUnder key value).2 := by
  cases value with
  | object fields =>
    rw [AuditRedaction.takeHeadersUnder, Taken, JsonMap.keys_modify]
    exact taken
  | _ => exact taken

private theorem masked_twice (headers : Option Json) :
    (headers.map maskProviderAuthorizationHeader).map maskProviderAuthorizationHeader =
      headers.map maskProviderAuthorizationHeader := by
  rw [Option.map_map]
  exact congrArg (headers.map ·) (funext mask_mask)

private theorem restore_masked (headers : Option Json) :
    restoreHeaders (headers.map maskProviderAuthorizationHeader) = restoreHeaders headers :=
  restoreHeaders_congr (masked_twice headers)

private theorem restoreUnder_masked (key : String) (headers : Option Json) :
    restoreHeadersUnder key (headers.map maskProviderAuthorizationHeader) =
      restoreHeadersUnder key headers :=
  restoreHeadersUnder_congr (masked_twice headers) key

/-- A redacted document is redacted. -/
theorem redactEnvelope_redactEnvelope {value : Json} (keyed : value.Keyed) (envelope : Envelope) :
    redactEnvelope envelope (redactEnvelope envelope value) = redactEnvelope envelope value := by
  cases envelope with
  | providerRequest =>
    simp only [redactEnvelope, redactProviderRequestEnvelope]
    rw [takeHeaders_restoreHeaders (takeHeaders_taken keyed).redact, restore_masked,
      redactJsonValue_redactJsonValue]
  | providerWebsocketRequest =>
    have outer := ((takeHeaders_taken keyed).takeHeadersUnder "handshake").redact
    have inner := (takeHeadersUnder_taken (keyed_takeHeaders keyed) "handshake").redact
      handshake_not_secret
    simp only [redactEnvelope, redactProviderWebsocketRequestEnvelope]
    rw [takeHeaders_restoreHeadersUnder (by decide), takeHeaders_restoreHeaders outer,
      takeHeadersUnder_restoreHeadersUnder inner, restoreUnder_masked, restore_masked,
      redactJsonValue_redactJsonValue]
  | providerResponse =>
    simp only [redactEnvelope, redactProviderResponseEnvelope]
    rw [takeHeadersUnder_restoreHeadersUnder
      ((takeHeadersUnder_taken keyed "http").redact http_not_secret), restoreUnder_masked,
      redactJsonValue_redactJsonValue]
  | none => exact redactJsonValue_redactJsonValue value

/-! ## The format and version of a redacted document -/

theorem get_redactJsonValue {key : String} (plain : isSecretAuditKey key = false) (value : Json) :
    (redactJsonValue value).get key = (value.get key).map redactJsonValue := by
  cases value with
  | object fields =>
    rw [redactJsonValue]
    change JsonMap.get key (redactFields fields) = (JsonMap.get key fields).map redactJsonValue
    induction fields with
    | nil => rfl
    | cons field fields ih =>
      rw [redactFields, JsonMap.get_cons, JsonMap.get_cons, ih]
      by_cases same : field.1 = key
      · rw [if_pos same, if_pos same, same, plain]
        rfl
      · rw [if_neg same, if_neg same]
  | array items => rw [redactJsonValue]; rfl
  | _ => rfl

theorem get_restoreHeaders_ne {key : String} (ne : key ≠ "headers") (headers : Option Json)
    (value : Json) : (restoreHeaders headers value).get key = value.get key := by
  cases value with
  | object fields =>
    cases headers with
    | none => rfl
    | some headers =>
      rw [restoreHeaders, JsonMap.put]
      split
      · exact JsonMap.get_modify_ne ne _ fields
      · have absent : key ∉ [("headers", maskProviderAuthorizationHeader headers)].map Prod.fst := by
          simpa using ne
        rw [Json.get_append, Json.get_eq_none absent, Option.or_none]
  | _ => rfl

theorem get_restoreHeadersUnder_ne {key other : String} (ne : other ≠ key) (headers : Option Json)
    (value : Json) : (restoreHeadersUnder key headers value).get other = value.get other := by
  cases value with
  | object fields => exact JsonMap.get_modify_ne ne _ fields
  | _ => rfl

theorem get_takeHeadersUnder_ne {key other : String} (ne : other ≠ key) (value : Json) :
    (takeHeadersUnder key value).2.get other = value.get other := by
  cases value with
  | object fields => exact JsonMap.get_modify_ne ne _ fields
  | _ => rfl

/-- The keys an envelope is told by are not among those its headers are taken from. -/
theorem get_redactEnvelope {value : Json} (keyed : value.Keyed) (envelope : Envelope) {key : String}
    (plain : isSecretAuditKey key = false)
    (other : key ≠ "headers" ∧ key ≠ "handshake" ∧ key ≠ "http") :
    (redactEnvelope envelope value).get key = (value.get key).map redactJsonValue := by
  obtain ⟨headers, handshake, http⟩ := other
  cases envelope with
  | providerRequest =>
    simp only [redactEnvelope, redactProviderRequestEnvelope]
    rw [get_restoreHeaders_ne headers, get_redactJsonValue plain, get_takeHeaders_ne keyed headers]
  | providerWebsocketRequest =>
    simp only [redactEnvelope, redactProviderWebsocketRequestEnvelope]
    rw [get_restoreHeadersUnder_ne handshake, get_restoreHeaders_ne headers,
      get_redactJsonValue plain, get_takeHeadersUnder_ne handshake,
      get_takeHeaders_ne keyed headers]
  | providerResponse =>
    simp only [redactEnvelope, redactProviderResponseEnvelope]
    rw [get_restoreHeadersUnder_ne http, get_redactJsonValue plain, get_takeHeadersUnder_ne http]
  | none => exact get_redactJsonValue plain value

theorem formatOf_redactEnvelope {value : Json} (keyed : value.Keyed) (envelope : Envelope) :
    formatOf (redactEnvelope envelope value) = formatOf value := by
  have scalar : ∀ inner, asStr (redactJsonValue inner) = asStr inner := fun inner => by
    cases inner <;> rw [redactJsonValue] <;> rfl
  rw [formatOf, formatOf, get_redactEnvelope keyed envelope format_not_secret (by decide),
    Option.bind_map]
  exact congrArg _ (funext scalar)

theorem versionOf_redactEnvelope {value : Json} (keyed : value.Keyed) (envelope : Envelope) :
    versionOf (redactEnvelope envelope value) = versionOf value := by
  have scalar : ∀ inner, asU64 (redactJsonValue inner) = asU64 inner := fun inner => by
    cases inner <;> rw [redactJsonValue] <;> rfl
  rw [versionOf, versionOf, get_redactEnvelope keyed envelope version_not_secret (by decide),
    Option.bind_map]
  exact congrArg _ (funext scalar)

/-! ## What is stored -/

section
variable {SourceError : Type} {serde : SerdeJson SourceError}

theorem redactAuditJson_eq_ok_iff {field : String} {text stored : Text} {value : Json}
    (read : serde.fromStr text = .ok value) :
    redactAuditJson serde text field = .ok stored ↔ ∃ envelope,
      envelopeOf SourceError field (formatOf value) (versionOf value) = .ok envelope ∧
        stored = serde.toText (redactEnvelope envelope value) := by
  rw [redactAuditJson, read]
  dsimp only
  cases envelopeOf SourceError field (formatOf value) (versionOf value) with
  | error error => exact ⟨nofun, fun ⟨_, same, _⟩ => nomatch same⟩
  | ok envelope =>
    constructor
    · rintro ⟨⟩
      exact ⟨envelope, rfl, rfl⟩
    · rintro ⟨_, ⟨⟩, rfl⟩
      rfl

/-- The stored text of an accepted dump tells nothing of the string values under its secret keys
but for the headers it keeps, and it is stored as it is when it is redacted again. -/
theorem redactAuditJson_hides_secrets (serde : SerdeJson SourceError) (maps : serde.ReadsMaps)
    (field : String) :
    (∀ text otherText value other stored envelope, serde.fromStr text = .ok value →
      serde.fromStr otherText = .ok other → redactAuditJson serde text field = .ok stored →
      envelopeOf SourceError field (formatOf value) (versionOf value) = .ok envelope →
      SecretsApart value other →
      List.Forall₂ (Option.Rel HeadersAgree) (takenHeaders envelope value)
        (takenHeaders envelope other) →
      redactAuditJson serde otherText field = .ok stored) ∧
    (∀ text value stored envelope, serde.fromStr text = .ok value →
      redactAuditJson serde text field = .ok stored →
      envelopeOf SourceError field (formatOf value) (versionOf value) = .ok envelope →
      serde.ReadsBack (redactEnvelope envelope value) →
      redactAuditJson serde stored field = .ok stored) := by
  constructor
  · intro text otherText value other stored envelope read otherRead accepted chosen apart headers
    obtain ⟨taken, same, rfl⟩ := (redactAuditJson_eq_ok_iff read).mp accepted
    rw [chosen, Except.ok.injEq] at same
    subst same
    rw [redactEnvelope_congr (maps _ _ read) (maps _ _ otherRead) apart envelope headers]
    rw [apart.formatOf_eq, apart.versionOf_eq] at chosen
    exact (redactAuditJson_eq_ok_iff otherRead).mpr ⟨envelope, chosen, rfl⟩
  · intro text value stored envelope read accepted chosen readsBack
    obtain ⟨taken, same, rfl⟩ := (redactAuditJson_eq_ok_iff read).mp accepted
    rw [chosen, Except.ok.injEq] at same
    subst same
    have keyed := maps _ _ read
    refine (redactAuditJson_eq_ok_iff readsBack).mpr ⟨envelope, ?_, ?_⟩
    · rw [formatOf_redactEnvelope keyed, versionOf_redactEnvelope keyed, chosen]
    · rw [redactEnvelope_redactEnvelope keyed]

end

/-! ## A dump with one header -/

/-- One character of a JSON string, as `serde_json` escapes it. -/
def escapeCharacter (c : Char) : Text :=
  if c = '"' ∨ c = '\\' then ['\\', c]
  else if c.toNat = 8 then ['\\', 'b']
  else if c.toNat = 9 then ['\\', 't']
  else if c.toNat = 10 then ['\\', 'n']
  else if c.toNat = 12 then ['\\', 'f']
  else if c.toNat = 13 then ['\\', 'r']
  else if c.toNat < 32 then
    ['\\', 'u', '0', '0', Nat.digitChar (c.toNat / 16), Nat.digitChar (c.toNat % 16)]
  else [c]

def writeString (text : Text) : Text := '"' :: text.flatMap escapeCharacter ++ ['"']

mutual

/-- The text `serde_json::to_string` writes for a value. -/
def writeJson : Json → Text
  | .null => "null".toList
  | .bool true => "true".toList
  | .bool false => "false".toList
  | .number (.integer value) => intText value
  | .number (.float text) => text
  | .string text => writeString text
  | .array items => '[' :: List.intercalate [','] (writeItems items) ++ [']']
  | .object fields => '\x7b' :: List.intercalate [','] (writeFields fields) ++ ['\x7d']

def writeItems : List Json → List Text
  | [] => []
  | item :: items => writeJson item :: writeItems items

def writeFields : JsonMap → List Text
  | [] => []
  | (key, value) :: fields =>
    (writeString key.toList ++ ':' :: writeJson value) :: writeFields fields

end

/-- A `provider_request_v1` dump with one header. -/
def oneHeaderDump (name : String) (value : Text) : Json :=
  .object [("format", .string providerRequestV1), ("version", .number (.integer 1)),
    ("headers", .object [(name, .string value)])]

/-- `serde_json` on the texts of some documents. -/
def serdeOf (documents : List Json) : SerdeJson Unit where
  fromStr text := match documents.find? fun document => writeJson document == text with
    | some document => .ok document
    | none => .error ()
  toText := writeJson

theorem serdeOf_readsMaps {documents : List Json} (keyed : ∀ document ∈ documents, document.Keyed) :
    (serdeOf documents).ReadsMaps := by
  intro text value read
  cases found : documents.find? fun document => writeJson document == text with
  | none =>
    simp only [serdeOf, found] at read
    exact nomatch read
  | some document =>
    simp only [serdeOf, found, Except.ok.injEq] at read
    exact read ▸ keyed document (List.mem_of_find?_eq_some found)

theorem oneHeaderDump_keyed (name : String) (value : Text) : (oneHeaderDump name value).Keyed := by
  simp [oneHeaderDump, Json.Keyed, Json.FieldsKeyed]

theorem oneHeaderDump_ne {name : String} {c d : Char} (plain : escapeCharacter c = [c])
    (otherPlain : escapeCharacter d = [d]) (ne : c ≠ d) :
    writeJson (oneHeaderDump name [c]) ≠ writeJson (oneHeaderDump name [d]) := by
  simp [oneHeaderDump, writeJson, writeFields, writeString, plain, otherPlain, ne,
    List.intercalate]

theorem x_api_key_is_secret : isSecretAuditKey "x-api-key" = true := by
  unfold isSecretAuditKey
  repeat rewrite [String.toList_ofList]
  decide

theorem x_api_key_is_kept : isAuthorizationHeader "x-api-key" = false := by
  unfold isAuthorizationHeader
  repeat rewrite [String.toList_ofList]
  decide

theorem authorization_is_masked : isAuthorizationHeader "Authorization" = true := by
  unfold isAuthorizationHeader
  repeat rewrite [String.toList_ofList]
  decide

theorem oneHeaderDump_envelope (name : String) (value : Text) :
    envelopeOf Unit "request_body_json" (formatOf (oneHeaderDump name value))
      (versionOf (oneHeaderDump name value)) = .ok .providerRequest := by
  simp [envelopeOf, formatOf, versionOf, oneHeaderDump, Json.get, asStr, asU64, usizeMax]

theorem redact_oneHeaderDump (name : String) (value : Text) :
    redactEnvelope .providerRequest (oneHeaderDump name value) =
      oneHeaderDump name
        (if isAuthorizationHeader name then "********".toList else value) := by
  have taken : takeHeaders (oneHeaderDump name value) =
      (some (.object [(name, .string value)]),
        .object [("format", .string providerRequestV1), ("version", .number (.integer 1))]) := by
    simp [oneHeaderDump, takeHeaders, JsonMap.get_cons, JsonMap.swapRemove]
  have rest : redactJsonValue
      (.object [("format", .string providerRequestV1), ("version", .number (.integer 1))]) =
      .object [("format", .string providerRequestV1), ("version", .number (.integer 1))] := by
    simp only [redactJsonValue, redactFields, format_not_secret, version_not_secret,
      Bool.false_eq_true, if_false]
  have masked : maskProviderAuthorizationHeader (.object [(name, .string value)]) =
      .object [(name, .string
        (if isAuthorizationHeader name then "********".toList else value))] := by
    simp only [maskProviderAuthorizationHeader, List.map_cons, List.map_nil,
      maskProviderHeaderValue, maskedText]
    split <;> rfl
  simp only [redactEnvelope, redactProviderRequestEnvelope, taken, rest]
  rw [restoreHeaders, masked, JsonMap.put_absent _ (by simp)]
  rfl

theorem oneHeaderDump_apart {name : String} (secret : isSecretAuditKey name = true)
    (value other : Text) : SecretsApart (oneHeaderDump name value) (oneHeaderDump name other) := by
  simp [oneHeaderDump, Json.AgreeBut, Json.FieldsAgreeBut, secret]

/-- The API key of a dump can be read off its stored text. -/
theorem redactAuditJson_keeps_api_key : ¬ ∀ serde : SerdeJson Unit, serde.ReadsMaps →
    ∀ field text otherText value other stored, serde.fromStr text = .ok value →
      serde.fromStr otherText = .ok other → redactAuditJson serde text field = .ok stored →
      SecretsApart value other → redactAuditJson serde otherText field = .ok stored := by
  intro hides
  let dump := fun c => oneHeaderDump "x-api-key" [c]
  have different : writeJson (dump 'a') ≠ writeJson (dump 'b') :=
    oneHeaderDump_ne (by decide) (by decide) (by decide)
  let serde := serdeOf [dump 'a', dump 'b']
  have first : serde.fromStr (writeJson (dump 'a')) = .ok (dump 'a') := by
    simp [serde, serdeOf]
  have second : serde.fromStr (writeJson (dump 'b')) = .ok (dump 'b') := by
    simp [serde, serdeOf, different]
  have stored : ∀ c, serde.fromStr (writeJson (dump c)) = .ok (dump c) →
      redactAuditJson serde (writeJson (dump c)) "request_body_json" =
        .ok (writeJson (dump c)) := fun c read => by
    refine (redactAuditJson_eq_ok_iff read).mpr ⟨_, oneHeaderDump_envelope _ _, ?_⟩
    rw [redact_oneHeaderDump, x_api_key_is_kept]
    rfl
  have same := hides serde
    (serdeOf_readsMaps (by simp [dump, oneHeaderDump_keyed])) "request_body_json" _ _ _ _ _ first
    second (stored 'a' first) (oneHeaderDump_apart x_api_key_is_secret _ _)
  rw [stored 'b' second, Except.ok.injEq] at same
  exact different same.symm

/-- The authorization header of a dump cannot, and the stored text is stored as it is. -/
theorem redactAuditJson_hides_authorization :
    let dump := fun value => oneHeaderDump "Authorization" value
    let masked := dump "********".toList
    let serde := serdeOf [masked, dump ['a'], dump ['b']]
    redactAuditJson serde (writeJson (dump ['b'])) "request_body_json" = .ok (writeJson masked) ∧
      redactAuditJson serde (writeJson masked) "request_body_json" = .ok (writeJson masked) := by
  intro dump masked serde
  have different : writeJson (dump ['a']) ≠ writeJson (dump ['b']) :=
    oneHeaderDump_ne (by decide) (by decide) (by decide)
  have star : escapeCharacter '*' = ['*'] := by decide
  have unmasked : ∀ c, escapeCharacter c = [c] → c ≠ '*' →
      writeJson masked ≠ writeJson (dump [c]) := fun c plain ne => by
    simp [masked, dump, oneHeaderDump, writeJson, writeFields, writeString, List.intercalate, plain,
      star]
  have maskedRead : serde.fromStr (writeJson masked) = .ok masked := by
    simp [serde, serdeOf]
  have first : serde.fromStr (writeJson (dump ['a'])) = .ok (dump ['a']) := by
    simp [serde, serdeOf, unmasked 'a' (by decide) (by decide)]
  have second : serde.fromStr (writeJson (dump ['b'])) = .ok (dump ['b']) := by
    simp [serde, serdeOf, unmasked 'b' (by decide) (by decide), different]
  have redacted : redactEnvelope .providerRequest (dump ['a']) = masked := by
    rw [redact_oneHeaderDump, authorization_is_masked]
    rfl
  have stored : redactAuditJson serde (writeJson (dump ['a'])) "request_body_json" =
      .ok (writeJson masked) :=
    (redactAuditJson_eq_ok_iff first).mpr ⟨_, oneHeaderDump_envelope _ _, by rw [redacted]; rfl⟩
  have hides := redactAuditJson_hides_secrets serde
    (serdeOf_readsMaps (by simp [masked, dump, oneHeaderDump_keyed])) "request_body_json"
  refine ⟨hides.1 _ _ _ _ _ _ first second stored (oneHeaderDump_envelope _ _)
      (oneHeaderDump_apart (secret_of_authorization authorization_is_masked) _ _) ?_,
    hides.2 _ _ _ _ first stored (oneHeaderDump_envelope _ _) ?_⟩
  · refine .cons (.some (.inr ⟨_, _, rfl, rfl, .cons ⟨rfl, fun plain => ?_⟩ .nil⟩)) .nil
    exact absurd (authorization_is_masked.symm.trans plain) (by decide)
  · rw [redacted]
    exact maskedRead

end Foco.AuditRedaction
