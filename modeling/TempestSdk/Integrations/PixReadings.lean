import TempestSdk.Integrations.PixCharges
import TempestSdk.Library.Effects

/-!
# What the Pix readers make of a body

An amount is stated by a number of JSON or by a decimal text.  One lemma for
each reader says what an accepted body holds, and one which bodies it accepts.
-/

namespace TempestSdk.Pix

open PyJson PyDecimal

variable {floats : FloatTexts}

structure Environment.Documented (environment : Environment floats) : Prop where
  strip_nil : environment.strip [] = []
  strip_strip : ∀ text, environment.strip (environment.strip text) = environment.strip text
  /-- A text that is read as an integer is a numeral of this integer. -/
  int_of_text : ∀ text number, environment.intOfText text = some number →
    ∃ decimal, ofText text = some (.finite decimal) ∧ toRat decimal = number

def Numeric : Json floats → Prop
  | .int _ | .float _ | .str _ => True
  | _ => False

def Stated (value : Json floats) (amount : ℚ) : Prop :=
  Numeric value ∧ ∃ decimal, ofJson value = some (.finite decimal) ∧ toRat decimal = amount

theorem stated_unique {value : Json floats} {left right : ℚ}
    (first : Stated value left) (second : Stated value right) :
    left = right := by
  obtain ⟨-, decimal, read, rfl⟩ := first
  obtain ⟨-, other, again, rfl⟩ := second
  rw [read] at again
  cases again
  rfl

theorem stated_int (number : Int) : Stated (.int number : Json floats) number :=
  ⟨trivial, ofInt number, rfl, toRat_ofInt number⟩

def ReadAsCents (value : Json floats) : Prop :=
  ∃ decimal, ofJson value = some (.finite decimal) ∧ 0 ≤ toRat decimal ∧ Whole decimal

theorem toCents_ok {value : Json floats} {cents : Int}
    (read : OpenPix.toCents value = .ok cents) :
    ReadAsCents value ∧ ∃ decimal, ofJson value = some (.finite decimal) ∧
      toRat decimal = cents := by
  unfold OpenPix.toCents at read
  split at read
  next => cases read
  next => cases read
  next => cases read
  next amount made =>
    split at read
    next => cases read
    next positive =>
      split at read
      next => cases read
      next whole =>
        cases read
        have exact_whole := Decidable.not_not.mp whole
        exact ⟨⟨amount, made, not_lt.mp positive, exact_whole⟩, amount, made,
          (toInt_whole exact_whole).symm⟩

theorem toCents_reads {value : Json floats} (read : ReadAsCents value) :
    ∃ cents, OpenPix.toCents value = .ok cents := by
  obtain ⟨decimal, made, positive, whole⟩ := read
  refine ⟨toInt decimal, ?_⟩
  simp only [OpenPix.toCents, made]
  rw [if_neg (not_lt.mpr positive), if_neg (not_not.mpr whole)]

theorem toCents_int {number : Int} (positive : 0 ≤ number) :
    OpenPix.toCents (.int number : Json floats) = .ok number := by
  have value : (0 : ℚ) ≤ toRat (ofInt number) := by
    rw [toRat_ofInt]
    exact_mod_cast positive
  have whole : ReadAsCents (.int number : Json floats) :=
    ⟨ofInt number, rfl, value, whole_ofInt number⟩
  obtain ⟨cents, read⟩ := toCents_reads whole
  obtain ⟨-, decimal, made, amount⟩ := toCents_ok read
  cases made
  rw [toRat_ofInt, Int.cast_inj] at amount
  rw [read, amount]

namespace OpenPix

variable (environment : Environment floats)

def Textual : Option (Json floats) → Prop
  | none | some .none | some (.str _) => True
  | _ => False

def fieldText (field : Option (Json floats)) : Option (List Char) :=
  field.bind asText

theorem textField_ok {field : Option (Json floats)} {text : Option (List Char)} :
    textField environment field = .ok text ↔
      Textual field ∧ text = (fieldText field).map environment.strip := by
  unfold textField
  split
  next => simp [Textual, fieldText, eq_comm]
  next => simp [Textual, fieldText, asText, eq_comm]
  next => simp [Textual, fieldText, asText, eq_comm]
  next value not_null not_text =>
    constructor
    · intro read
      cases read
    · rintro ⟨textual, -⟩
      cases value with
      | none => exact absurd rfl not_null
      | str text => exact absurd rfl (not_text text)
      | bool truth => cases textual
      | int number => cases textual
      | float number => cases textual
      | list items => cases textual
      | dict members => cases textual
      | other text => cases textual

/-- The schema accepts all fields but the amount. -/
structure Shaped (body : Members floats) : Prop where
  fields : environment.fieldsValid body = true
  br_code : Textual (entry body "brCode" "br_code")
  status : Textual (body.find "status".toList)
  correlation_id : Textual (entry body "correlationID" "correlation_id")
  identifier : Textual (body.find "identifier".toList)
  expires_date : Textual (entry body "expiresDate" "expires_date")

def apiStatus (body : Members floats) : PaymentStatusEnum :=
  toStatus ((fieldText (body.find "status".toList)).map environment.strip)

def apiReference (body : Members floats) : List Char :=
  environment.strip (((fieldText (entry body "correlationID"
    "correlation_id")).map environment.strip).getD [])

variable {body : Members floats}

theorem validate_ok {charge : Charge floats} (valid : validate environment body = .ok charge) :
    Shaped environment body ∧
      intField environment (body.find "value".toList) = .ok charge.value ∧
      charge.status = (fieldText (body.find "status".toList)).map environment.strip ∧
      charge.correlation_id = (fieldText (entry body "correlationID"
        "correlation_id")).map environment.strip := by
  unfold validate at valid
  split at valid
  next => cases valid
  next fields =>
    obtain ⟨value, value_read, valid⟩ := Effects.ok_of_bind valid
    obtain ⟨br_code, br_code_read, valid⟩ := Effects.ok_of_bind valid
    obtain ⟨status, status_read, valid⟩ := Effects.ok_of_bind valid
    obtain ⟨reference, reference_read, valid⟩ := Effects.ok_of_bind valid
    obtain ⟨identifier, identifier_read, valid⟩ := Effects.ok_of_bind valid
    obtain ⟨expires, expires_read, valid⟩ := Effects.ok_of_bind valid
    cases valid
    rw [textField_ok] at br_code_read status_read reference_read
    rw [textField_ok] at identifier_read expires_read
    exact ⟨⟨by simpa using fields, br_code_read.1, status_read.1,
      reference_read.1, identifier_read.1, expires_read.1⟩, value_read,
      status_read.2, reference_read.2⟩

theorem validate_accepts {value : Option Int} (shaped : Shaped environment body)
    (read : intField environment (body.find "value".toList) = .ok value) :
    ∃ charge, validate environment body = .ok charge ∧ charge.value = value := by
  have texts : ∀ {field}, Textual field → textField environment field =
      .ok ((fieldText field).map environment.strip) := fun textual =>
    (textField_ok environment).mpr ⟨textual, rfl⟩
  unfold validate
  rw [if_neg (by simp [shaped.fields]), read, texts shaped.br_code,
    texts shaped.status, texts shaped.correlation_id,
    texts shaped.identifier, texts shaped.expires_date]
  exact ⟨_, rfl, rfl⟩

theorem getPixCharge_ok {charge : PixCharge environment}
    (read : getPixCharge environment body = .ok charge) :
    Shaped environment body ∧
      (∃ value, intField environment (body.find "value".toList) = .ok value ∧
        (chargeCents value : Except (Refusal floats) Int) = .ok charge.amount_cents) ∧
      charge.status = apiStatus environment body ∧
      charge.reference = apiReference environment body := by
  obtain ⟨fields, valid, read⟩ := Effects.ok_of_bind read
  obtain ⟨shaped, value, status, reference⟩ := validate_ok environment valid
  obtain ⟨cents, priced, read⟩ := Effects.ok_of_bind read
  cases read
  refine ⟨shaped, ⟨fields.value, value, priced⟩, ?_, ?_⟩
  · exact congrArg toStatus status
  · exact congrArg (fun text => environment.strip (text.getD [])) reference

theorem getPixCharge_accepts {value : Option Int} {cents : Int}
    (shaped : Shaped environment body)
    (read : intField environment (body.find "value".toList) = .ok value)
    (priced : (chargeCents value : Except (Refusal floats) Int) = .ok cents) :
    ∃ charge, getPixCharge environment body = .ok charge ∧ charge.amount_cents = cents := by
  obtain ⟨fields, valid, rfl⟩ := validate_accepts environment shaped read
  simp only [getPixCharge, valid, Except.bind, toPixCharge, priced, bind]
  exact ⟨_, rfl, rfl⟩

theorem chargeCents_some {number cents : Int}
    (priced : (chargeCents (some number) : Except (Refusal floats) Int) = .ok cents) :
    cents = number ∧ 0 ≤ number := by
  change (if number = 0 then .ok 0 else toCents (.int number)) = _ at priced
  by_cases nothing : number = 0
  · rw [if_pos nothing] at priced
    cases priced
    exact ⟨nothing.symm, nothing.ge⟩
  · rw [if_neg nothing] at priced
    obtain ⟨⟨decimal, made, positive, -⟩, _, made_again, amount⟩ :=
      toCents_ok priced
    cases made
    cases made_again
    rw [toRat_ofInt] at amount positive
    exact ⟨(Int.cast_injective amount).symm, by exact_mod_cast positive⟩

theorem chargeCents_positive {number : Int} (positive : 0 ≤ number) :
    (chargeCents (some number) : Except (Refusal floats) Int) = .ok number := by
  change (if number = 0 then .ok 0 else toCents (.int number)) = _
  by_cases nothing : number = 0
  · rw [if_pos nothing, nothing]
  · rw [if_neg nothing, toCents_int positive]

theorem webhookCents_ok {payload : Members floats} {value : Json floats}
    {cents : Int} (read : webhookCents payload value = .ok cents) :
    toCents value = .ok cents := by
  unfold webhookCents at read
  split at read
  next _ narrowed =>
    cases read
    exact narrowed
  next => cases read

theorem fromWebhookPayload_ok {payload : Members floats} {charge : PixCharge environment}
    (read : fromWebhookPayload environment payload = .ok charge) :
    toCents (get payload "value") = .ok charge.amount_cents ∧
      charge.status = toStatus (asText (get payload "status")) ∧
      charge.reference = environment.strip
        ((asOptionalStr (get payload "correlationID")).getD []) := by
  obtain ⟨cents, narrowed, read⟩ := Effects.ok_of_bind read
  cases read
  exact ⟨webhookCents_ok narrowed, rfl, rfl⟩

theorem fromWebhookPayload_accepts {payload : Members floats}
    (read : ReadAsCents (get payload "value")) :
    ∃ charge, fromWebhookPayload environment payload = .ok charge := by
  obtain ⟨cents, narrowed⟩ := toCents_reads read
  simp only [fromWebhookPayload, webhookCents, narrowed, bind, Except.bind]
  exact ⟨_, rfl⟩

end OpenPix

namespace MercadoPago

variable (environment : Environment floats)

def Priced (value : Json floats) : Prop :=
  (∀ truth, value ≠ .bool truth) ∧
    ∃ decimal product, ofJson value = some (.finite decimal) ∧ 0 ≤ toRat decimal ∧
      defaultContext.mul decimal (ofInt 100) = some product ∧ Whole product

theorem toCents_ok {value : Json floats} {read : Int} (narrowed : toCents value = .ok read) :
    ∃ decimal product, ofJson value = some (.finite decimal) ∧ 0 ≤ toRat decimal ∧
      defaultContext.mul decimal (ofInt 100) = some product ∧
      Whole product ∧ toRat product = read := by
  unfold toCents at narrowed
  split at narrowed
  next => cases narrowed
  next => cases narrowed
  next => cases narrowed
  next decimal made =>
    split at narrowed
    next => cases narrowed
    next positive =>
      split at narrowed
      next => cases narrowed
      next product multiplied =>
        split at narrowed
        next => cases narrowed
        next whole =>
          cases narrowed
          have exact_whole := Decidable.not_not.mp whole
          exact ⟨decimal, product, made, not_lt.mp positive, multiplied,
            exact_whole, (toInt_whole exact_whole).symm⟩

theorem cents_ok {source : Members floats} {key : String} {read : Int}
    (narrowed : cents source key = .ok read) :
    (∀ truth, get source key ≠ .bool truth) ∧ toCents (get source key) = .ok read := by
  unfold cents at narrowed
  split at narrowed
  next => cases narrowed
  next => cases narrowed
  next not_null not_bool =>
    split at narrowed
    next narrow =>
      cases narrowed
      exact ⟨not_bool, narrow⟩
    next => cases narrowed

theorem cents_reads {source : Members floats} {key : String}
    (priced : Priced (get source key)) :
    ∃ read, cents source key = .ok read := by
  obtain ⟨not_bool, decimal, product, made, positive, multiplied, whole⟩ :=
    priced
  have narrow : toCents (get source key) = .ok (toInt product) := by
    simp only [toCents, made]
    rw [if_neg (not_lt.mpr positive), multiplied]
    exact if_neg (not_not.mpr whole)
  refine ⟨toInt product, ?_⟩
  unfold cents
  split
  next null =>
    rw [null] at made
    cases made
  next truth is_bool => exact absurd is_bool (not_bool truth)
  next => rw [narrow]

theorem exact_product {decimal product : PyText.Decimal}
    (multiplied : defaultContext.mul decimal (ofInt 100) = some product) :
    toRat product = toRat decimal * 100 ↔ defaultContext.Fits (toRat decimal * 100) := by
  have kept := defaultContext.mul_exact multiplied
  rw [toRat_ofInt] at kept
  exact_mod_cast kept

theorem toPixCharge_ok {order : Members floats} {charge : PixCharge environment}
    (read : toPixCharge environment order = .ok charge) :
    (∃ id, orderId order = .ok id) ∧ cents order "total_amount" = .ok charge.amount_cents ∧
      charge.status = status order ∧
      charge.reference = environment.strip
        ((asOptionalStr (get order "external_reference")).getD []) := by
  obtain ⟨id, identified, read⟩ := Effects.ok_of_bind read
  obtain ⟨amount, narrowed, read⟩ := Effects.ok_of_bind read
  cases read
  exact ⟨⟨id, identified⟩, narrowed, rfl, rfl⟩

theorem toPixCharge_accepts {order : Members floats} (identified : ∃ id, orderId order = .ok id)
    (priced : Priced (get order "total_amount")) :
    ∃ charge, toPixCharge environment order = .ok charge := by
  obtain ⟨id, identified⟩ := identified
  obtain ⟨amount, narrowed⟩ := cents_reads priced
  simp only [toPixCharge, identified, narrowed, bind, Except.bind]
  exact ⟨_, rfl⟩

end MercadoPago

end TempestSdk.Pix
