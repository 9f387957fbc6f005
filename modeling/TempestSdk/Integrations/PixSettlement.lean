import TempestSdk.Integrations.PixReadings

/-!
# When Pix amounts are read exactly

The readers of an OpenPix charge and of a Mercado Pago order, and the
settlement check over them, are faithful when the body states what they read
plainly, and only then.  They answer other amounts for a charge without a value,
for truth values and triples, for a float that `repr` does not write out, and
for an order whose amount has more digits than the decimal context.
-/

namespace TempestSdk.Pix

open PyJson PyDecimal

variable {floats : FloatTexts}

section Settlement

variable {environment : Environment floats}

theorem confirm_paid {answer : Except (Refusal floats) (PixCharge environment)}
    {reference : List Char} {cents : Int}
    {confirmation : PixPaymentConfirmation environment}
    (confirmed : confirmPixPayment environment answer reference cents = .ok confirmation)
    (paid : confirmation.outcome = .PAID) :
    ∃ charge, answer = .ok charge ∧ charge.reference = reference ∧
      charge.status = .PAID ∧ charge.amount_cents = cents := by
  obtain ⟨charge, answered, confirmed⟩ := Effects.ok_of_bind confirmed
  cases confirmed
  refine ⟨charge, answered, ?_⟩
  dsimp only at paid
  split at paid
  next => cases paid
  next reference_same =>
    split at paid
    next => cases paid
    next status_paid =>
      split at paid
      next => cases paid
      next cents_same =>
        exact ⟨Decidable.not_not.mp reference_same,
          Decidable.not_not.mp status_paid, Decidable.not_not.mp cents_same⟩

theorem confirm_itself {answer : Except (Refusal floats) (PixCharge environment)}
    {charge : PixCharge environment} (answered : answer = .ok charge)
    (paid : charge.status = .PAID) :
    ∃ confirmation, confirmPixPayment environment answer charge.reference
      charge.amount_cents = .ok confirmation ∧ confirmation.outcome = .PAID := by
  refine ⟨⟨.PAID, charge, environment.strip charge.reference, charge.amount_cents⟩, ?_, rfl⟩
  simp [confirmPixPayment, answered, paid, bind, Except.bind, pure, Except.pure]

end Settlement

def StatesReference (environment : Environment floats)
    (body : Members floats) (key : String) (reference : List Char) : Prop :=
  reference ≠ [] ∧ ∃ text, asText (get body key) = some text ∧
    environment.strip text = reference

namespace OpenPix

variable (environment : Environment floats)

/-- The readers of an OpenPix charge invent nothing. -/
structure Faithful (body : Members floats) : Prop where
  api : ∀ charge, getPixCharge environment body = .ok charge →
    Stated (get body "value") charge.amount_cents
  webhook : ∀ charge, fromWebhookPayload environment body = .ok charge →
    Stated (get body "value") charge.amount_cents
  absent : get body "value" = .none →
    (∃ refusal, getPixCharge environment body = .error refusal) ∧
      ∃ refusal, fromWebhookPayload environment body = .error refusal
  agree : ∀ charge delivered, getPixCharge environment body = .ok charge →
    fromWebhookPayload environment body = .ok delivered →
      charge.amount_cents = delivered.amount_cents ∧ charge.status = delivered.status ∧
        charge.reference = delivered.reference
  paid : ∀ reference cents confirmation,
    confirmPixPayment environment (getPixCharge environment body) reference
      cents = .ok confirmation →
    confirmation.outcome = .PAID → StatesReference environment body "correlationID" reference ∧
        toStatus (asText (get body "status")) = .PAID ∧
        Stated (get body "value") cents

/-- The value is a number or a text, and `repr` writes a float out. -/
def Spelled : Option (Json floats) → Prop
  | none | some .none | some (.bool _) => False
  | some (.float (.finite float)) => ∀ number,
      environment.intOfFloat float = some number → 0 ≤ number →
        Stated (.float (.finite float) : Json floats) number
  | _ => True

def Accepted (body : Members floats) : Prop :=
  Shaped environment body ∧ ∃ number : Int,
    intField environment (body.find "value".toList) = .ok (some number) ∧ 0 ≤ number

structure PlainlyStated (body : Members floats) : Prop where
  value : Shaped environment body → Spelled environment (body.find "value".toList)
  number : ReadAsCents (get body "value") → Numeric (get body "value")
  status : Accepted environment body →
    apiStatus environment body = toStatus (asText (get body "status"))
  key : Accepted environment body → body.find "correlationID".toList = none →
      ∀ text, body.find "correlation_id".toList = some (.str text) → environment.strip text = []
  reference : Accepted environment body → apiStatus environment body = .PAID →
      ∃ text, asText (get body "correlationID") = some text ∧ environment.strip text ≠ []

variable {environment}
variable {body : Members floats}

theorem get_of_find {key : String} {value : Json floats}
    (found : body.find key.toList = some value) : get body key = value := by
  rw [get, found]
  rfl

theorem spelled_stated (documented : environment.Documented) {value : Option Int} {cents : Int}
    (spelled : Spelled environment (body.find "value".toList))
    (read : intField environment (body.find "value".toList) = .ok value)
    (priced : (chargeCents value : Except (Refusal floats) Int) = .ok cents) :
    Stated (get body "value") cents ∧ value = some cents ∧ 0 ≤ cents := by
  have taken : ∀ {number : Int}, some number = value → Stated (get body "value") number →
        Stated (get body "value") cents ∧ value = some cents ∧ 0 ≤ cents := by
    intro number same stated
    rw [← same] at priced
    obtain ⟨rfl, positive⟩ := chargeCents_some priced
    exact ⟨stated, same.symm, positive⟩
  cases found : body.find "value".toList with
  | none =>
    rw [found] at spelled
    exact spelled.elim
  | some entry =>
    have here := get_of_find found
    rw [found] at spelled read
    cases entry with
    | none => exact spelled.elim
    | bool truth => exact spelled.elim
    | int number =>
      cases read
      apply taken rfl
      rw [here]
      exact stated_int number
    | float float =>
      cases float with
      | nan => cases read
      | infinity negative => cases read
      | finite float =>
        unfold intField at read
        dsimp only at read
        split at read
        next number whole =>
          cases read
          apply taken rfl
          rw [here]
          exact spelled number whole (chargeCents_some priced).2
        next => cases read
    | str text =>
      unfold intField at read
      dsimp only at read
      split at read
      next number whole =>
        cases read
        apply taken rfl
        rw [here]
        exact ⟨trivial, documented.int_of_text text number whole⟩
      next => cases read
    | list items => cases read
    | dict members => cases read
    | other text => cases read

theorem readAsCents_of_stated {value : Json floats} {cents : Int}
    (stated : Stated value cents) (positive : 0 ≤ cents) :
    ReadAsCents value := by
  obtain ⟨-, decimal, made, amount⟩ := stated
  refine ⟨decimal, made, ?_, whole_of_int amount⟩
  rw [amount]
  exact_mod_cast positive

theorem references_agree (documented : environment.Documented)
    (key : body.find "correlationID".toList = none →
      ∀ text, body.find "correlation_id".toList = some (.str text) →
        environment.strip text = []) :
    apiReference environment body = environment.strip
      ((asOptionalStr (get body "correlationID")).getD []) := by
  have empty : asOptionalStr (.none : Json floats) = none := rfl
  unfold apiReference entry
  cases found : body.find "correlationID".toList with
  | some value =>
    rw [get_of_find found, Option.some_or, fieldText, Option.bind_some, asOptionalStr]
    cases asText value with
    | none => rfl
    | some text =>
      rw [Option.map_some, Option.getD_some, documented.strip_strip]
      by_cases blank : text = []
      · rw [blank]
        rfl
      · simp [Option.filter, blank]
  | none =>
    rw [Option.none_or, get, found, Option.getD_none, empty, Option.getD_none]
    cases named : body.find "correlation_id".toList with
    | none => rfl
    | some value =>
      cases value with
      | str text =>
        have blank := key found text named
        change environment.strip (environment.strip text) = _
        rw [blank]
      | none => rfl
      | bool truth => rfl
      | int number => rfl
      | float number => rfl
      | list items => rfl
      | dict members => rfl
      | other text => rfl

theorem key_of_agreement (documented : environment.Documented)
    (same : apiReference environment body = environment.strip
      ((asOptionalStr (get body "correlationID")).getD []))
    (missing : body.find "correlationID".toList = none) {text : List Char}
    (named : body.find "correlation_id".toList = some (.str text)) :
    environment.strip text = [] := by
  have read : apiReference environment body = environment.strip (environment.strip text) := by
    rw [apiReference, entry, missing, Option.none_or, named]
    rfl
  have delivered : (asOptionalStr (get body "correlationID")).getD [] = [] := by
    rw [get, missing]
    rfl
  rw [read, delivered, documented.strip_strip, documented.strip_nil] at same
  exact same

theorem accepts (accepted : Accepted environment body) :
    ∃ charge, getPixCharge environment body = .ok charge := by
  obtain ⟨shaped, number, read, positive⟩ := accepted
  obtain ⟨charge, answered, -⟩ := getPixCharge_accepts environment shaped read
    (chargeCents_positive positive)
  exact ⟨charge, answered⟩

theorem spelled_of_exact (exactly : ∀ charge, getPixCharge environment body = .ok charge →
      Stated (get body "value") charge.amount_cents)
    (shaped : Shaped environment body) :
    Spelled environment (body.find "value".toList) := by
  have reads : ∀ {value : Option Int} {cents : Int},
      intField environment (body.find "value".toList) = .ok value →
        (chargeCents value : Except (Refusal floats) Int) = .ok cents →
          Stated (get body "value") cents := by
    intro value cents read priced
    obtain ⟨charge, answered, rfl⟩ :=
      getPixCharge_accepts environment shaped read priced
    exact exactly charge answered
  cases found : body.find "value".toList with
  | none =>
    have read : intField environment (body.find "value".toList) = .ok none := by
      rw [found]
      rfl
    have stated := reads read rfl
    rw [get, found] at stated
    exact stated.1.elim
  | some entry =>
    have here := get_of_find found
    rw [found, here] at reads
    cases entry with
    | none => exact (reads rfl rfl).1.elim
    | bool truth => exact (reads rfl (chargeCents_positive (Int.natCast_nonneg _))).1.elim
    | float float =>
      cases float with
      | nan => trivial
      | infinity negative => trivial
      | finite float =>
        intro number whole positive
        apply reads _ (chargeCents_positive positive)
        simp only [intField, whole]
    | int number => trivial
    | str text => trivial
    | list items => trivial
    | dict members => trivial
    | other text => trivial

theorem plainlyStated_of_faithful (documented : environment.Documented)
    (faithful : Faithful environment body) :
    PlainlyStated environment body := by
  have together : Accepted environment body →
      ∃ charge delivered, getPixCharge environment body = .ok charge ∧
        fromWebhookPayload environment body = .ok delivered := by
    intro accepted
    obtain ⟨shaped, number, read, positive⟩ := accepted
    obtain ⟨charge, answered, amount⟩ := getPixCharge_accepts environment
      shaped read (chargeCents_positive positive)
    have stated := faithful.api charge answered
    rw [amount] at stated
    obtain ⟨delivered, accepted⟩ := fromWebhookPayload_accepts environment
      (readAsCents_of_stated stated positive)
    exact ⟨charge, delivered, answered, accepted⟩
  refine ⟨spelled_of_exact faithful.api, ?_, ?_, ?_, ?_⟩
  · intro read
    obtain ⟨charge, accepted⟩ := fromWebhookPayload_accepts environment read
    exact (faithful.webhook charge accepted).1
  · intro accepted
    obtain ⟨charge, delivered, answered, taken⟩ := together accepted
    obtain ⟨-, same, -⟩ := faithful.agree charge delivered answered taken
    rw [(getPixCharge_ok environment answered).2.2.1,
      (fromWebhookPayload_ok environment taken).2.1] at same
    exact same
  · intro accepted missing text named
    obtain ⟨charge, delivered, answered, taken⟩ := together accepted
    obtain ⟨-, -, same⟩ := faithful.agree charge delivered answered taken
    rw [(getPixCharge_ok environment answered).2.2.2,
      (fromWebhookPayload_ok environment taken).2.2] at same
    exact key_of_agreement documented same missing named
  · intro accepted paid
    obtain ⟨charge, answered⟩ := accepts accepted
    have status := (getPixCharge_ok environment answered).2.2.1
    obtain ⟨confirmation, confirmed, outcome⟩ :=
      confirm_itself answered (status.trans paid)
    obtain ⟨⟨nonempty, text, given, same⟩, -, -⟩ :=
      faithful.paid _ _ confirmation confirmed outcome
    exact ⟨text, given, by rw [same]; exact nonempty⟩


theorem faithful_of_plainlyStated (documented : environment.Documented)
    (plain : PlainlyStated environment body) : Faithful environment body := by
  have answers : ∀ {charge}, getPixCharge environment body = .ok charge →
      Stated (get body "value") charge.amount_cents ∧ Accepted environment body := by
    intro charge answered
    obtain ⟨shaped, ⟨value, read, priced⟩, -, -⟩ :=
      getPixCharge_ok environment answered
    obtain ⟨stated, rfl, positive⟩ :=
      spelled_stated documented (plain.value shaped) read priced
    exact ⟨stated, shaped, _, read, positive⟩
  have delivers : ∀ {charge}, fromWebhookPayload environment body = .ok charge →
      Stated (get body "value") charge.amount_cents := by
    intro charge delivered
    obtain ⟨read, decimal⟩ :=
      toCents_ok (fromWebhookPayload_ok environment delivered).1
    exact ⟨plain.number read, decimal⟩
  refine ⟨fun _ => And.left ∘ answers, fun _ => delivers, ?_, ?_, ?_⟩
  · intro missing
    constructor
    · cases answered : getPixCharge environment body with
      | error refusal => exact ⟨refusal, rfl⟩
      | ok charge =>
        have stated := (answers answered).1
        rw [missing] at stated
        exact stated.1.elim
    · cases delivered : fromWebhookPayload environment body with
      | error refusal => exact ⟨refusal, rfl⟩
      | ok charge =>
        have stated := delivers delivered
        rw [missing] at stated
        exact stated.1.elim
  · intro charge delivered answered taken
    obtain ⟨stated, accepted⟩ := answers answered
    refine ⟨?_, ?_, ?_⟩
    · exact_mod_cast stated_unique stated (delivers taken)
    · rw [(getPixCharge_ok environment answered).2.2.1,
        (fromWebhookPayload_ok environment taken).2.1]
      exact plain.status accepted
    · rw [(getPixCharge_ok environment answered).2.2.2,
        (fromWebhookPayload_ok environment taken).2.2]
      exact references_agree documented (plain.key accepted)
  · intro reference cents confirmation confirmed outcome
    obtain ⟨charge, answered, rfl, paid, rfl⟩ := confirm_paid confirmed outcome
    obtain ⟨stated, accepted⟩ := answers answered
    obtain ⟨-, -, status, read⟩ := getPixCharge_ok environment answered
    rw [status] at paid
    obtain ⟨text, given, nonempty⟩ := plain.reference accepted paid
    have stated_reference : environment.strip text = charge.reference := by
      have some_text : text ≠ [] := by
        rintro rfl
        exact nonempty documented.strip_nil
      have optional : asOptionalStr (get body "correlationID") = some text := by
        simp [asOptionalStr, given, Option.filter, some_text]
      rw [read, references_agree documented (plain.key accepted), optional, Option.getD_some]
    refine ⟨⟨?_, text, given, stated_reference⟩, ?_, stated⟩
    · rw [← stated_reference]
      exact nonempty
    · rw [← plain.status accepted]
      exact paid

end OpenPix

namespace MercadoPago

variable (environment : Environment floats)

def StatesReais (value : Json floats) (cents : Int) : Prop :=
  ∃ amount : ℚ, Stated value amount ∧ (cents : ℚ) = amount * 100

/-- The reader of a Mercado Pago order invents nothing. -/
structure Faithful (order : Members floats) : Prop where
  amount : ∀ charge, toPixCharge environment order = .ok charge →
    StatesReais (get order "total_amount") charge.amount_cents
  absent : get order "total_amount" = .none →
    ∃ refusal, toPixCharge environment order = .error refusal
  paid : ∀ reference read confirmation,
    confirmPixPayment environment (toPixCharge environment order) reference
      read = .ok confirmation →
    confirmation.outcome = .PAID →
      StatesReference environment order "external_reference" reference ∧ status order = .PAID ∧
        StatesReais (get order "total_amount") read

structure PlainlyStated (order : Members floats) : Prop where
  amount : (∃ id, orderId order = .ok id) → Priced (get order "total_amount") →
      ∃ amount, Stated (get order "total_amount") amount ∧ defaultContext.Fits (amount * 100)
  reference : (∃ id, orderId order = .ok id) →
    Priced (get order "total_amount") → status order = .PAID →
      ∃ text, asText (get order "external_reference") = some text ∧ environment.strip text ≠ []

variable {environment}

theorem plainlyStated_of_faithful
    {order : Members floats} (faithful : Faithful environment order) :
    PlainlyStated environment order := by
  constructor
  · intro identified priced
    obtain ⟨charge, read⟩ :=
      toPixCharge_accepts environment identified priced
    obtain ⟨-, narrowed, -, -⟩ := toPixCharge_ok environment read
    obtain ⟨decimal, product, made, -, multiplied, -, value⟩ :=
      toCents_ok (cents_ok narrowed).2
    obtain ⟨amount, ⟨numeric, other, made_again, rfl⟩, same⟩ :=
      faithful.amount charge read
    rw [made] at made_again
    cases made_again
    refine ⟨_, ⟨numeric, decimal, made, rfl⟩, ?_⟩
    exact (exact_product multiplied).mp (value.trans same)
  · intro identified priced paid
    obtain ⟨charge, read⟩ :=
      toPixCharge_accepts environment identified priced
    have said := (toPixCharge_ok environment read).2.2.1
    obtain ⟨confirmation, confirmed, outcome⟩ :=
      confirm_itself read (said.trans paid)
    obtain ⟨⟨nonempty, text, given, same⟩, -, -⟩ :=
      faithful.paid _ _ confirmation confirmed outcome
    exact ⟨text, given, by rw [same]; exact nonempty⟩

theorem faithful_of_plainlyStated (documented : environment.Documented)
    {order : Members floats} (plain : PlainlyStated environment order) :
    Faithful environment order := by
  have answers : ∀ {charge}, toPixCharge environment order = .ok charge →
      (∃ id, orderId order = .ok id) ∧ Priced (get order "total_amount") ∧
        StatesReais (get order "total_amount") charge.amount_cents := by
    intro charge read
    obtain ⟨identified, narrowed, -, -⟩ := toPixCharge_ok environment read
    obtain ⟨not_bool, narrow⟩ := cents_ok narrowed
    obtain ⟨decimal, product, made, positive, multiplied, whole, value⟩ :=
      toCents_ok narrow
    have priced : Priced (get order "total_amount") :=
      ⟨not_bool, decimal, product, made, positive, multiplied, whole⟩
    obtain ⟨amount, stated, fits⟩ := plain.amount identified priced
    have same : amount = toRat decimal :=
      stated_unique stated ⟨stated.1, decimal, made, rfl⟩
    refine ⟨identified, priced, amount, stated, ?_⟩
    rw [← value, same]
    exact (exact_product multiplied).mpr (same ▸ fits)
  refine ⟨fun _ read => (answers read).2.2, ?_, ?_⟩
  · intro missing
    cases read : toPixCharge environment order with
    | error refusal => exact ⟨refusal, rfl⟩
    | ok charge =>
      obtain ⟨-, -, amount, stated, -⟩ := answers read
      rw [missing] at stated
      exact stated.1.elim
  · intro reference paid_cents confirmation confirmed outcome
    obtain ⟨charge, read, rfl, paid, rfl⟩ := confirm_paid confirmed outcome
    obtain ⟨identified, priced, states⟩ := answers read
    obtain ⟨-, -, said, named⟩ := toPixCharge_ok environment read
    rw [said] at paid
    obtain ⟨text, given, nonempty⟩ := plain.reference identified priced paid
    have some_text : text ≠ [] := by
      rintro rfl
      exact nonempty documented.strip_nil
    have optional : asOptionalStr (get order "external_reference") = some text := by
      simp [asOptionalStr, given, Option.filter, some_text]
    rw [optional, Option.getD_some] at named
    refine ⟨⟨?_, text, given, named.symm⟩, paid, states⟩
    rw [named]
    exact nonempty

end MercadoPago

def wholeTexts : FloatTexts := ⟨Empty, Empty.elim, fun _ => none⟩

def intOfDigits (text : List Char) : Option Int :=
  match ofText text with
  | some (.finite decimal) =>
    if isDigits text ∧ Whole decimal then some (toInt decimal) else none
  | _ => none

def wholeEnvironment : Environment wholeTexts where
  Datetime := Unit
  fromisoformat _ := none
  strip := PyDecimal.strip
  intOfText := intOfDigits
  intOfFloat := Empty.elim
  fieldsValid _ := true
  dumped := id
  recorded := id

theorem wholeEnvironment_documented : wholeEnvironment.Documented where
  strip_nil := rfl
  strip_strip := PyDecimal.strip_strip
  int_of_text := by
    intro text number read
    unfold wholeEnvironment intOfDigits at read
    dsimp only at read
    split at read
    next decimal made =>
      split at read
      next given =>
        cases read
        exact ⟨decimal, made, (toInt_whole given.2).symm⟩
      next => cases read
    next => cases read

/-- A charge that says it is paid and does not say what was paid. -/
def unpricedBody : Members wholeTexts :=
  .cons (.str "correlationID".toList) (.str "order-1".toList)
    (.cons (.str "status".toList) (.str "COMPLETED".toList) .nil)

def pricedBody : Members wholeTexts :=
  .cons (.str "value".toList) (.int 1990) unpricedBody

def pricedOrder : Members wholeTexts :=
  .cons (.str "id".toList) (.str "ORD1".toList)
    (.cons (.str "status".toList) (.str "processed".toList)
      (.cons (.str "external_reference".toList) (.str "order-1".toList)
        (.cons (.str "total_amount".toList) (.str "19.90".toList) .nil)))

/-- The three readers and the settlement check invent nothing exactly when the
bodies state what they read plainly. -/
theorem amounts_never_invented (environment : Environment floats)
    (documented : environment.Documented) (body order : Members floats) :
    (OpenPix.Faithful environment body ↔ OpenPix.PlainlyStated environment body) ∧
      (MercadoPago.Faithful environment order ↔ MercadoPago.PlainlyStated environment order) :=
  ⟨⟨OpenPix.plainlyStated_of_faithful documented, OpenPix.faithful_of_plainlyStated documented⟩,
    ⟨MercadoPago.plainlyStated_of_faithful, MercadoPago.faithful_of_plainlyStated documented⟩⟩

theorem amounts_never_invented_priced : OpenPix.Faithful wholeEnvironment pricedBody ∧
      MercadoPago.Faithful wholeEnvironment pricedOrder := by
  have readings := amounts_never_invented wholeEnvironment
    wholeEnvironment_documented pricedBody pricedOrder
  refine ⟨readings.1.mpr ⟨?_, ?_, ?_, ?_, ?_⟩, readings.2.mpr ⟨?_, ?_⟩⟩
  · intro _
    trivial
  · intro _
    trivial
  · intro _
    rfl
  · intro _ missing
    cases missing
  · intro _ _
    exact ⟨"order-1".toList, rfl, by decide⟩
  · intro _ _
    have made : ofText "19.90".toList = some (.finite ⟨false, 1990, -2⟩) := by
      decide
    refine ⟨_, ⟨trivial, _, made, rfl⟩, 1990, 0, by decide, by decide, ?_⟩
    norm_num [toRat, signed]
  · intro _ _ _
    exact ⟨"order-1".toList, rfl, by decide⟩

theorem absent_amount_paid : ¬ OpenPix.Faithful wholeEnvironment unpricedBody ∧
      ∃ confirmation, confirmPixPayment wholeEnvironment
        (OpenPix.getPixCharge wholeEnvironment unpricedBody)
          "order-1".toList 0 = .ok confirmation ∧ confirmation.outcome = .PAID := by
  constructor
  · intro faithful
    obtain ⟨⟨refusal, refused⟩, -⟩ := faithful.absent rfl
    cases refused
  · exact ⟨_, rfl, rfl⟩

end TempestSdk.Pix
