import TempestSdk.Library.PyDecimal

/-!
# Pix charges

The canonical charge, the three readers of a provider's JSON body, and
`confirm_pix_payment`.  What pydantic does with a field, `fromisoformat` and the
other fields of OpenPix's `Charge` are parameters.
-/

namespace TempestSdk.Pix

open PyJson PyDecimal

inductive PaymentStatusEnum where
  | PENDING
  | AUTHORIZED
  | PAID
  | EXPIRED
  | CANCELLED
  | REFUNDED
  | CHARGED_BACK
  | IN_ANALYSIS
  | FAILED
  | UNKNOWN
deriving DecidableEq, Repr

/-- What pydantic and the standard library give to the readers. -/
structure Environment (floats : FloatTexts) where
  Datetime : Type
  fromisoformat : List Char → Option Datetime
  /-- `str_strip_whitespace`. -/
  strip : List Char → List Char
  /-- An `int` field that gets a text, and one that gets a float. -/
  intOfText : List Char → Option Int
  intOfFloat : floats.Float → Option Int
  /-- The fields of `Charge` that no reader looks at are valid. -/
  fieldsValid : Members floats → Bool
  /-- `model_dump(mode="json", by_alias=True)` of the `Charge` of a body. -/
  dumped : Members floats → Members floats
  /-- A field of the type `dict[str, Any]`. -/
  recorded : Members floats → Members floats

variable {floats : FloatTexts}

inductive Refusal (floats : FloatTexts) where
  | validation
  | notNumber (value : Json floats)
  | notFinite (value : Json floats)
  | negative (value : Json floats)
  | fractional (value : Json floats)
  | overflow (value : Json floats)
  | withoutId
  | undelivered (value reference : Json floats) (cause : Refusal floats)
  | noReadable (key : List Char) (value id : Json floats)
  | unreadable (key : List Char) (value id : Json floats)
      (cause : Refusal floats)

structure PixCharge (environment : Environment floats) where
  provider : List Char
  provider_charge_id : List Char
  reference : List Char
  amount_cents : Int
  currency : List Char
  status : PaymentStatusEnum
  provider_status : List Char
  br_code : Option (List Char)
  qr_code_base64 : Option (List Char)
  qr_code_image_url : Option (List Char)
  end_to_end_id : Option (List Char)
  expires_at : Option environment.Datetime
  paid_at : Option environment.Datetime
  raw : Members floats

variable (environment : Environment floats)

def PixCharge.validated {environment : Environment floats}
    (charge : PixCharge environment) : PixCharge environment :=
  { charge with
    provider := environment.strip charge.provider
    provider_charge_id := environment.strip charge.provider_charge_id
    reference := environment.strip charge.reference
    currency := environment.strip charge.currency
    provider_status := environment.strip charge.provider_status
    br_code := charge.br_code.map environment.strip
    qr_code_base64 := charge.qr_code_base64.map environment.strip
    qr_code_image_url := charge.qr_code_image_url.map environment.strip
    end_to_end_id := charge.end_to_end_id.map environment.strip
    raw := environment.recorded charge.raw }

/-- `mapping.get(key)`. -/
def get (mapping : Members floats) (key : String) : Json floats :=
  (mapping.find key.toList).getD .none

/-- `value if isinstance(value, str) else None`. -/
def asText : Json floats → Option (List Char)
  | .str text => some text
  | _ => none

def asOptionalStr (value : Json floats) : Option (List Char) :=
  (asText value).filter fun text => text ≠ []

/-- `value.replace("Z", "+00:00")`. -/
def withOffset (text : List Char) : List Char :=
  text.flatMap fun char => if char = 'Z' then "+00:00".toList else [char]

def parseDatetime (value : Json floats) : Option environment.Datetime :=
  (asOptionalStr value).bind fun text =>
    environment.fromisoformat (withOffset text)

namespace OpenPix

/-- `to_cents` of OpenPix, which narrows an amount that is in cents. -/
def toCents (value : Json floats) : Except (Refusal floats) Int :=
  match ofJson value with
  | none => .error (.notNumber value)
  | some (.infinite _) | some .nan => .error (.notFinite value)
  | some (.finite amount) =>
    if toRat amount < 0 then .error (.negative value)
    else if ¬ Whole amount then .error (.fractional value)
    else .ok (toInt amount)

def toStatus : Option (List Char) → PaymentStatusEnum
  | none => .UNKNOWN
  | some raw =>
    if raw = "ACTIVE".toList then .PENDING
    else if raw = "COMPLETED".toList then .PAID
    else if raw = "EXPIRED".toList then .EXPIRED
    else .UNKNOWN

/-- The fields of the generated `Charge` that the reader looks at. -/
structure Charge (floats : FloatTexts) where
  value : Option Int
  br_code : Option (List Char)
  status : Option (List Char)
  correlation_id : Option (List Char)
  global_id : Json floats
  identifier : Option (List Char)
  qr_code_image : Json floats
  expires_date : Option (List Char)
  dumped : Members floats

def entry (body : Members floats) (wire name : String) : Option (Json floats) :=
  (body.find wire.toList).or (body.find name.toList)

/-- A field of the type `str | None`. -/
def textField : Option (Json floats) → Except (Refusal floats) (Option (List Char))
  | none | some .none => .ok none
  | some (.str text) => .ok (some (environment.strip text))
  | some _ => .error .validation

/-- A field of the type `int | None`. -/
def intField : Option (Json floats) → Except (Refusal floats) (Option Int)
  | none | some .none => .ok none
  | some (.bool truth) => .ok (some truth.toNat)
  | some (.int number) => .ok (some number)
  | some (.float (.finite number)) =>
    match environment.intOfFloat number with
    | some number => .ok (some number)
    | none => .error .validation
  | some (.str text) =>
    match environment.intOfText text with
    | some number => .ok (some number)
    | none => .error .validation
  | some _ => .error .validation

/-- `Charge.model_validate`. -/
def validate (body : Members floats) : Except (Refusal floats) (Charge floats) := do
  if environment.fieldsValid body = false then throw .validation
  let value ← intField environment (body.find "value".toList)
  let br_code ← textField environment (entry body "brCode" "br_code")
  let status ← textField environment (body.find "status".toList)
  let correlation_id ← textField environment (entry body "correlationID" "correlation_id")
  let identifier ← textField environment (body.find "identifier".toList)
  let expires_date ← textField environment (entry body "expiresDate" "expires_date")
  return {
    value, br_code, status, correlation_id, identifier, expires_date
    global_id := (entry body "globalID" "global_id").getD .none
    qr_code_image := (entry body "qrCodeImage" "qr_code_image").getD .none
    dumped := environment.dumped body }

/-- `text or None`. -/
def given (text : Option (List Char)) : Option (List Char) :=
  text.filter fun text => text ≠ []

def optionalJson : Option (List Char) → Json floats
  | none => .none
  | some text => .str text

/-- `to_cents(value) if value else 0`. -/
def chargeCents : Option Int → Except (Refusal floats) Int
  | none => .ok 0
  | some value => if value = 0 then .ok 0 else toCents (.int value)

def toPixCharge (charge : Charge floats) : Except (Refusal floats) (PixCharge environment) := do
  let amount_cents ← chargeCents charge.value
  return PixCharge.validated {
    provider := "openpix".toList
    provider_charge_id :=
      (((asOptionalStr charge.global_id).or (given charge.identifier)).or
        (given charge.correlation_id)).getD []
    reference := charge.correlation_id.getD []
    amount_cents
    currency := "BRL".toList
    status := toStatus charge.status
    provider_status := charge.status.getD []
    br_code := charge.br_code
    qr_code_base64 := none
    qr_code_image_url := asOptionalStr charge.qr_code_image
    end_to_end_id := none
    expires_at := parseDatetime environment (optionalJson charge.expires_date)
    paid_at := none
    raw := charge.dumped }

/-- The API reader: `get_pix_charge` of an answer with this charge. -/
def getPixCharge (body : Members floats) : Except (Refusal floats) (PixCharge environment) :=
  (validate environment body).bind (toPixCharge environment)

def truthy : Json floats → Bool
  | .none | .bool false | .int 0 | .str [] | .list .nil | .dict .nil => false
  | _ => true

def webhookCents (payload : Members floats) (value : Json floats) :
    Except (Refusal floats) Int :=
  match toCents value with
  | .ok cents => .ok cents
  | .error cause =>
    let correlation := get payload "correlationID"
    .error (.undelivered value
      (if truthy correlation then correlation else get payload "identifier")
      cause)

def fromWebhookPayload (payload : Members floats) :
    Except (Refusal floats) (PixCharge environment) := do
  let amount_cents ← webhookCents payload (get payload "value")
  return PixCharge.validated {
    provider := "openpix".toList
    provider_charge_id :=
      (((asOptionalStr (get payload "globalID")).or
        (asOptionalStr (get payload "identifier"))).or
          (asOptionalStr (get payload "correlationID"))).getD []
    reference := (asOptionalStr (get payload "correlationID")).getD []
    amount_cents
    currency := "BRL".toList
    status := toStatus (asText (get payload "status"))
    provider_status := (asText (get payload "status")).getD []
    br_code := asOptionalStr (get payload "brCode")
    qr_code_base64 := none
    qr_code_image_url := asOptionalStr (get payload "qrCodeImage")
    end_to_end_id := none
    expires_at := parseDatetime environment (get payload "expiresDate")
    paid_at := parseDatetime environment (get payload "paidAt")
    raw := payload }

end OpenPix

namespace MercadoPago

/-- `to_cents` of Mercado Pago, which states amounts in reais. -/
def toCents (amount : Json floats) : Except (Refusal floats) Int :=
  match ofJson amount with
  | none => .error (.notNumber amount)
  | some .nan => .error (.notNumber amount)
  | some (.infinite negative) =>
    -- `int` of an infinity overflows.
    .error (if negative then .negative amount else .overflow amount)
  | some (.finite value) =>
    if toRat value < 0 then .error (.negative amount)
    else match defaultContext.mul value (ofInt 100) with
      | none => .error (.overflow amount)
      | some cents =>
        if ¬ Whole cents then .error (.fractional amount)
        else .ok (toInt cents)

def cents (source : Members floats) (key : String) : Except (Refusal floats) Int :=
  match get source key with
  | .none => .error (.noReadable key.toList .none (get source "id"))
  | .bool truth => .error (.noReadable key.toList (.bool truth) (get source "id"))
  | value =>
    match toCents value with
    | .ok cents => .ok cents
    | .error cause => .error (.unreadable key.toList value (get source "id") cause)

/-- The members of an object; others have none. -/
def mapping : Json floats → Members floats
  | .dict members => members
  | _ => .nil

def firstPayment (order : Members floats) : Members floats :=
  match get (mapping (get order "transactions")) "payments" with
  | .list (.cons payment _) => mapping payment
  | _ => .nil

def paymentMethod (order : Members floats) : Members floats :=
  mapping (get (firstPayment order) "payment_method")

/-- `STATUS_MAP.get(raw, PaymentStatusEnum.UNKNOWN)`. -/
def mapped (raw : List Char) : PaymentStatusEnum :=
  if raw = "created".toList then .PENDING
  else if raw = "action_required".toList then .PENDING
  else if raw = "processing".toList then .IN_ANALYSIS
  else if raw = "processed".toList then .PAID
  else if raw = "canceled".toList then .CANCELLED
  else if raw = "failed".toList then .FAILED
  else if raw = "refunded".toList then .REFUNDED
  else .UNKNOWN

def status (order : Members floats) : PaymentStatusEnum :=
  match asText (get order "status") with
  | none => .UNKNOWN
  | some raw =>
    if raw = "canceled".toList ∧ asText (get order "status_detail") = some "expired".toList then
      .EXPIRED
    else if raw = "action_required".toList ∧ asText (get order "status_detail") =
          some "waiting_capture".toList then .AUTHORIZED
    else mapped raw

def orderId (order : Members floats) : Except (Refusal floats) (List Char) :=
  match asOptionalStr (get order "id") with
  | none => .error .withoutId
  | some id => .ok id

/-- `_to_pix_charge`, which is `get_pix_charge` of an answer with this order. -/
def toPixCharge (order : Members floats) : Except (Refusal floats) (PixCharge environment) := do
  let provider_charge_id ← orderId order
  let amount_cents ← cents order "total_amount"
  return PixCharge.validated {
    provider := "mercado_pago".toList
    provider_charge_id
    reference := (asOptionalStr (get order "external_reference")).getD []
    amount_cents
    currency := (asOptionalStr (get order "currency")).getD "BRL".toList
    status := status order
    provider_status := (asText (get order "status")).getD []
    br_code := asOptionalStr (get (paymentMethod order) "qr_code")
    qr_code_base64 :=
      asOptionalStr (get (paymentMethod order) "qr_code_base64")
    qr_code_image_url := none
    end_to_end_id := asOptionalStr (get (paymentMethod order) "e2e_id")
    expires_at := parseDatetime environment (get (firstPayment order) "date_of_expiration")
    paid_at := none
    raw := order }

end MercadoPago

inductive PixConfirmationOutcomeEnum where
  | PAID
  | REFERENCE_MISMATCH
  | NOT_PAID
  | AMOUNT_MISMATCH
deriving DecidableEq, Repr

structure PixPaymentConfirmation (environment : Environment floats) where
  outcome : PixConfirmationOutcomeEnum
  charge : PixCharge environment
  expected_reference : List Char
  expected_amount_cents : Int

/-- `confirm_pix_payment` after the provider's answer. -/
def confirmPixPayment (answer : Except (Refusal floats) (PixCharge environment))
    (reference : List Char) (amount_cents : Int) :
    Except (Refusal floats) (PixPaymentConfirmation environment) := do
  let charge ← answer
  let outcome : PixConfirmationOutcomeEnum :=
    if charge.reference ≠ reference then .REFERENCE_MISMATCH
    else if charge.status ≠ .PAID then .NOT_PAID
    else if charge.amount_cents ≠ amount_cents then .AMOUNT_MISMATCH
    else .PAID
  return {
    outcome, charge
    expected_reference := environment.strip reference
    expected_amount_cents := amount_cents }

end TempestSdk.Pix
