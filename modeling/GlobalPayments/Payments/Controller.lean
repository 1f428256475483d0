/-
# GlobalPayments.Payments.Controller — the five handler methods, from the raw request to the answer.

Spring reads the arguments of a handler method from the request, one after the other, and checks a
`@Valid` body as soon as it has it; then `@PreAuthorize` decides; then the method runs.  Whatever is
raised on the way is answered by `GlobalExceptionHandler`.

How a text becomes a UUID, an int or a DTO is Spring's and Jackson's work (`Readers`), and the service
is a parameter over a state of its own (`PaymentService`).

`client_fault_answered_iff`: of the requests at fault themselves, only those whose body breaks a
constraint are told so; the catch-all takes all others for a fault of the server.
-/
import GlobalPayments.Library.Numeral
import GlobalPayments.Payments.Pages
import GlobalPayments.Payments.Security
import GlobalPayments.Payments.Validation

namespace GlobalPayments.Payments

universe u

/-! ## Requests and their arguments -/

/-- A request to one of the handler methods, with what the method reads of it. -/
inductive HandlerRequest where
  | createPayment (body : String) (idempotencyKey : Option String)
  | getPaymentById (id : String)
  | getPaymentByReference (reference : String)
  | getPayments (senderAccountId page size : Option String)
  | updateStatus (id body : String)
  deriving DecidableEq, Repr

def HandlerRequest.endpoint : HandlerRequest → Endpoint
  | .createPayment _ _ => .createPayment
  | .getPaymentById _ => .getPaymentById
  | .getPaymentByReference _ => .getPaymentByReference
  | .getPayments _ _ _ => .getPayments
  | .updateStatus _ _ => .updateStatus

/-- The readers of Spring's conversion service and of Jackson; `none` where they refuse the text. -/
structure Readers where
  uuid : String → Option UUID
  int : String → Option Int
  createPaymentRequest : String → Option CreatePaymentBody
  updateStatusRequest : String → Option UpdateStatusBody

/-- The arguments of a handler method. -/
inductive Arguments where
  | createPayment (request : CreatePaymentRequest) (idempotencyKey : Option String)
  | getPaymentById (id : UUID)
  | getPaymentByReference (reference : String)
  | getPayments (senderAccountId : String) (page size : Int)
  | updateStatus (id : UUID) (request : UpdateStatusRequest)

/-- The value that was read, or the exception for its absence. -/
def orRaise {α : Type u} (e : JavaException) : Option α → Except JavaException α
  | none => .error e
  | some a => .ok a

/-- `@PathVariable UUID`. -/
def Readers.pathVariable (readers : Readers) (id : String) : Except JavaException UUID :=
  orRaise .methodArgumentTypeMismatch (readers.uuid id)

/-- `@RequestParam(defaultValue = …) int`; the default stands in for an empty value too. -/
def Readers.requestParam (readers : Readers) (defaultValue : Int) :
    Option String → Except JavaException Int
  | none => .ok defaultValue
  | some text =>
      if text = "" then .ok defaultValue
      else orRaise .methodArgumentTypeMismatch (readers.int text)

/-- The arguments of the method for a request, in the order of its parameters. -/
def Readers.resolve (readers : Readers) : HandlerRequest → Except JavaException Arguments
  | .createPayment body idempotencyKey => do
      let dto ← orRaise .httpMessageNotReadable (readers.createPaymentRequest body)
      let request ← dto.validate
      .ok (.createPayment request idempotencyKey)
  | .getPaymentById id => do
      let id ← readers.pathVariable id
      .ok (.getPaymentById id)
  | .getPaymentByReference reference => .ok (.getPaymentByReference reference)
  | .getPayments senderAccountId page size => do
      let senderAccountId ← orRaise .missingServletRequestParameter senderAccountId
      let page ← readers.requestParam 0 page
      let size ← readers.requestParam 20 size
      .ok (.getPayments senderAccountId page size)
  | .updateStatus id body => do
      let id ← readers.pathVariable id
      let dto ← orRaise .httpMessageNotReadable (readers.updateStatusRequest body)
      let request ← dto.validate
      .ok (.updateStatus id request)

/-! ## `PaymentController` -/

/-- `PaymentService`, over whatever state its methods read and write. -/
structure PaymentService (σ : Type u) where
  createPayment : CreatePaymentRequest → σ → Except JavaException PaymentResponse × σ
  getPaymentById : UUID → σ → Except JavaException PaymentResponse × σ
  getPaymentByReference : String → σ → Except JavaException PaymentResponse × σ
  getPaymentsBySender : String → PageRequest → σ → Except JavaException PaymentPageResponse × σ
  updateStatus : UUID → UpdateStatusRequest → σ → Except JavaException PaymentResponse × σ

/-- The body of a response. -/
inductive Payload where
  | payment (response : PaymentResponse)
  | page (response : PaymentPageResponse)
  deriving DecidableEq

/-- The request with the key of the header, where there is one. -/
def enriched (request : CreatePaymentRequest) : Option String → CreatePaymentRequest
  | none => request
  | some idempotencyKey =>
      { senderAccountId := request.senderAccountId
        receiverAccountId := request.receiverAccountId
        receiverBankCode := request.receiverBankCode
        amount := request.amount
        currency := request.currency
        paymentType := request.paymentType
        description := request.description
        idempotencyKey := some idempotencyKey }

namespace PaymentController

variable {σ : Type u} (service : PaymentService σ)

def createPayment (request : CreatePaymentRequest) (idempotencyKey : Option String) (s : σ) :
    Except JavaException PaymentResponse × σ :=
  service.createPayment (enriched request idempotencyKey) s

def getPayments (senderAccountId : String) (page size : Int) (s : σ) :
    Except JavaException PaymentPageResponse × σ :=
  let cappedSize := min size 100
  match PageRequest.of page cappedSize with
  | .error e => (.error e, s)
  | .ok pageRequest => service.getPaymentsBySender senderAccountId pageRequest s

/-- `ResponseEntity.body(…)` of what the service returns. -/
def respondWith {α : Type} (payload : α → Payload) :
    Except JavaException α × σ → Except JavaException Payload × σ :=
  Prod.map (Except.map payload) id

/-- Over the repository's query, the method serves the pages of `Pages`. -/
theorem getPayments_eq {answer : List Payment}
    (hquery : ∀ sender pageRequest s,
      service.getPaymentsBySender sender pageRequest s = (getPaymentsBySender answer pageRequest, s))
    (senderAccountId : String) (page size : Int) (s : σ) :
    getPayments service senderAccountId page size s = (Payments.getPayments answer page size, s) := by
  unfold getPayments Payments.getPayments
  dsimp only
  cases PageRequest.of page (min size 100) with
  | error e => rfl
  | ok pageRequest => exact hquery senderAccountId pageRequest s

/-- The method of a request, called with its arguments. -/
def invoke : Arguments → σ → Except JavaException Payload × σ
  | .createPayment request idempotencyKey, s =>
      respondWith .payment (createPayment service request idempotencyKey s)
  | .getPaymentById id, s => respondWith .payment (service.getPaymentById id s)
  | .getPaymentByReference reference, s =>
      respondWith .payment (service.getPaymentByReference reference s)
  | .getPayments senderAccountId page size, s =>
      respondWith .page (getPayments service senderAccountId page size s)
  | .updateStatus id request, s => respondWith .payment (service.updateStatus id request s)

end PaymentController

/-- The status of a method's success. -/
def Endpoint.successStatus : Endpoint → Nat
  | .createPayment => 201
  | _ => 200

/-- `@PreAuthorize("hasAnyRole(…)")`. -/
def Endpoint.permits (endpoint : Endpoint) (authentication : Authentication) : Bool :=
  endpoint.anyRole.any fun role => authentication.authorities.contains ("ROLE_" ++ role)

/-- A request that the filter chain lets through is denied here or granted. -/
theorem access_of_authenticated {parseSignedClaims : String → Option JwtClaims}
    {headers : List (String × String)} {authentication : Authentication} (endpoint : Endpoint)
    (h : jwtAuthFilter parseSignedClaims headers = some authentication) :
    access parseSignedClaims endpoint headers =
      if endpoint.permits authentication then .granted else .denied := by
  unfold access
  rw [h]
  rfl

/-! ## The answer -/

inductive HttpAnswer where
  | success (status : Nat) (payload : Payload)
  | failure (error : ErrorAnswer)
  deriving DecidableEq

def HttpAnswer.status : HttpAnswer → Nat
  | .success status _ => status
  | .failure error => error.status

/-- What a request of an authenticated caller is answered, and the state it leaves. -/
def respond {σ : Type u} (readers : Readers) (service : PaymentService σ)
    (authentication : Authentication) (request : HandlerRequest) (s : σ) : HttpAnswer × σ :=
  match readers.resolve request with
  | .error e => (.failure e.handle, s)
  | .ok arguments =>
      if request.endpoint.permits authentication then
        match PaymentController.invoke service arguments s with
        | (.ok payload, s') => (.success request.endpoint.successStatus payload, s')
        | (.error e, s') => (.failure e.handle, s')
      else (.failure JavaException.accessDenied.handle, s)

section Respond

variable {σ : Type u} {readers : Readers} {service : PaymentService σ}
variable {authentication : Authentication} {request : HandlerRequest} {s : σ}

theorem respond_unresolved {e : JavaException} (h : readers.resolve request = .error e) :
    respond readers service authentication request s = (.failure e.handle, s) := by
  unfold respond
  rw [h]

theorem respond_denied {arguments : Arguments} (h : readers.resolve request = .ok arguments)
    (hdenied : ¬ request.endpoint.permits authentication = true) :
    respond readers service authentication request s =
      (.failure JavaException.accessDenied.handle, s) := by
  unfold respond
  rw [h]
  exact if_neg hdenied

theorem respond_raised {arguments : Arguments} {e : JavaException} {s' : σ}
    (h : readers.resolve request = .ok arguments)
    (hpermits : request.endpoint.permits authentication = true)
    (hinvoke : PaymentController.invoke service arguments s = (.error e, s')) :
    respond readers service authentication request s = (.failure e.handle, s') := by
  unfold respond
  rw [h]
  dsimp only
  rw [if_pos hpermits, hinvoke]

theorem respond_returned {arguments : Arguments} {payload : Payload} {s' : σ}
    (h : readers.resolve request = .ok arguments)
    (hpermits : request.endpoint.permits authentication = true)
    (hinvoke : PaymentController.invoke service arguments s = (.ok payload, s')) :
    respond readers service authentication request s =
      (.success request.endpoint.successStatus payload, s') := by
  unfold respond
  rw [h]
  dsimp only
  rw [if_pos hpermits, hinvoke]

end Respond

/-! ## Faults of the client -/

/-- What the client can get wrong. -/
inductive ClientFault (readers : Readers) (authentication : Authentication) : HandlerRequest → Prop
  | unreadablePayment {body : String} {idempotencyKey : Option String} :
      readers.createPaymentRequest body = none →
      ClientFault readers authentication (.createPayment body idempotencyKey)
  | unreadableStatus {id body : String} :
      readers.updateStatusRequest body = none →
      ClientFault readers authentication (.updateStatus id body)
  | paymentId {id : String} :
      readers.uuid id = none → ClientFault readers authentication (.getPaymentById id)
  | statusId {id body : String} :
      readers.uuid id = none → ClientFault readers authentication (.updateStatus id body)
  | senderMissing {page size : Option String} :
      ClientFault readers authentication (.getPayments none page size)
  | page {senderAccountId page size : Option String} {e : JavaException} :
      readers.requestParam 0 page = .error e →
      ClientFault readers authentication (.getPayments senderAccountId page size)
  | size {senderAccountId page size : Option String} {e : JavaException} :
      readers.requestParam 20 size = .error e →
      ClientFault readers authentication (.getPayments senderAccountId page size)
  | pageRequest {senderAccountId page size : Option String} {p n : Int} {e : JavaException} :
      readers.requestParam 0 page = .ok p → readers.requestParam 20 size = .ok n →
      PageRequest.of p (min n 100) = .error e →
      ClientFault readers authentication (.getPayments senderAccountId page size)
  | role {request : HandlerRequest} :
      ¬ request.endpoint.permits authentication = true →
      ClientFault readers authentication request

/-- The body is read, after an id if there is one, and breaks a constraint. -/
inductive BreaksConstraint (readers : Readers) : HandlerRequest → Prop
  | createPayment {body : String} {idempotencyKey : Option String} {b : CreatePaymentBody} :
      readers.createPaymentRequest body = some b → b.fieldErrors ≠ [] →
      BreaksConstraint readers (.createPayment body idempotencyKey)
  | updateStatus {id body : String} {uuid : UUID} {b : UpdateStatusBody} :
      readers.uuid id = some uuid → readers.updateStatusRequest body = some b →
      b.fieldErrors ≠ [] → BreaksConstraint readers (.updateStatus id body)

theorem orRaise_eq_error {α : Type u} {e e' : JavaException} {x : Option α} :
    orRaise e x = .error e' ↔ x = none ∧ e = e' := by
  cases x with
  | none => simp [orRaise]
  | some a => simp [orRaise]

theorem orRaise_eq_ok {α : Type u} {e : JavaException} {x : Option α} {a : α} :
    orRaise e x = .ok a ↔ x = some a := by
  cases x with
  | none => simp [orRaise]
  | some b => simp [orRaise]

theorem Readers.requestParam_error {readers : Readers} {defaultValue : Int} {value : Option String}
    {e : JavaException} (h : readers.requestParam defaultValue value = .error e) :
    e = .methodArgumentTypeMismatch := by
  unfold requestParam at h
  split at h
  · cases h
  · split at h
    · cases h
    · exact ((orRaise_eq_error.mp h).2).symm

section Resolve

variable {readers : Readers} {authentication : Authentication} {request : HandlerRequest}

/-- **How reading the arguments can fail**: over a body that breaks a constraint, or with an exception
nothing but the catch-all is there for. -/
theorem Readers.resolve_error {e : JavaException} (h : readers.resolve request = .error e) :
    BreaksConstraint readers request ∨ e.handle.status = 500 := by
  cases request with
  | createPayment body key =>
      rcases Runs.bind_eq_error.mp h with h | ⟨dto, hdto, h⟩
      · obtain ⟨-, rfl⟩ := orRaise_eq_error.mp h
        exact Or.inr rfl
      · rcases Runs.bind_eq_error.mp h with h | ⟨r, -, h⟩
        · exact Or.inl (.createPayment (orRaise_eq_ok.mp hdto) (CreatePaymentBody.validate_error h).1)
        · cases h
  | getPaymentById id =>
      rcases Runs.bind_eq_error.mp h with h | ⟨uuid, -, h⟩
      · obtain ⟨-, rfl⟩ := orRaise_eq_error.mp h
        exact Or.inr rfl
      · cases h
  | getPaymentByReference reference => cases h
  | getPayments sender page size =>
      rcases Runs.bind_eq_error.mp h with h | ⟨sender, -, h⟩
      · obtain ⟨-, rfl⟩ := orRaise_eq_error.mp h
        exact Or.inr rfl
      rcases Runs.bind_eq_error.mp h with h | ⟨p, -, h⟩
      · obtain rfl := requestParam_error h
        exact Or.inr rfl
      rcases Runs.bind_eq_error.mp h with h | ⟨n, -, h⟩
      · obtain rfl := requestParam_error h
        exact Or.inr rfl
      · cases h
  | updateStatus id body =>
      rcases Runs.bind_eq_error.mp h with h | ⟨uuid, hid, h⟩
      · obtain ⟨-, rfl⟩ := orRaise_eq_error.mp h
        exact Or.inr rfl
      rcases Runs.bind_eq_error.mp h with h | ⟨dto, hdto, h⟩
      · obtain ⟨-, rfl⟩ := orRaise_eq_error.mp h
        exact Or.inr rfl
      rcases Runs.bind_eq_error.mp h with h | ⟨r, -, h⟩
      · exact Or.inl (.updateStatus (orRaise_eq_ok.mp hid) (orRaise_eq_ok.mp hdto)
          (UpdateStatusBody.validate_error h).1)
      · cases h

/-- A body that is valid as it stands reaches the handler method, whatever the header says. -/
theorem Readers.resolve_valid {body : String} {r : CreatePaymentRequest}
    (idempotencyKey : Option String) (hbody : readers.createPaymentRequest body = some r.toBody)
    (hvalid : r.valid = true) :
    readers.resolve (.createPayment body idempotencyKey) = .ok (.createPayment r idempotencyKey) := by
  refine Runs.bind_eq_ok.mpr ⟨r.toBody, orRaise_eq_ok.mpr hbody, ?_⟩
  exact Runs.bind_eq_ok.mpr ⟨r, CreatePaymentRequest.validate_toBody hvalid, rfl⟩

theorem Readers.resolve_invalid {body : String} {b : CreatePaymentBody}
    (idempotencyKey : Option String) (hbody : readers.createPaymentRequest body = some b)
    (herrors : b.fieldErrors ≠ []) :
    readers.resolve (.createPayment body idempotencyKey) =
      .error (.methodArgumentNotValid b.fieldErrors) := by
  refine Runs.bind_eq_error.mpr (Or.inr ⟨b, orRaise_eq_ok.mpr hbody, ?_⟩)
  exact Runs.bind_eq_error.mpr (Or.inl (CreatePaymentBody.validate_invalid herrors))

/-- A body that breaks a constraint is refused with its errors. -/
theorem BreaksConstraint.resolve (h : BreaksConstraint readers request) :
    ∃ errors, readers.resolve request = .error (.methodArgumentNotValid errors) := by
  cases h with
  | @createPayment body key b hbody herrors =>
      exact ⟨b.fieldErrors, Readers.resolve_invalid key hbody herrors⟩
  | @updateStatus id body uuid b hid hbody herrors =>
      refine ⟨b.fieldErrors, Runs.bind_eq_error.mpr (Or.inr ⟨uuid, orRaise_eq_ok.mpr hid, ?_⟩)⟩
      refine Runs.bind_eq_error.mpr (Or.inr ⟨b, orRaise_eq_ok.mpr hbody, ?_⟩)
      exact Runs.bind_eq_error.mpr (Or.inl (UpdateStatusBody.validate_invalid herrors))

/-- `PageRequest.of` refuses with an exception nothing but the catch-all is there for. -/
theorem PageRequest.of_error {page size : Int} {e : JavaException}
    (h : PageRequest.of page size = .error e) : e.handle.status = 500 := by
  unfold PageRequest.of at h
  split at h
  · obtain rfl := Except.error.inj h
    rfl
  · split at h
    · obtain rfl := Except.error.inj h
      rfl
    · cases h

/-- A request at fault whose arguments can be read is refused for the role, or by `PageRequest.of`. -/
theorem ClientFault.cases_of_resolved {arguments : Arguments}
    (h : ClientFault readers authentication request) (hok : readers.resolve request = .ok arguments) :
    ¬ request.endpoint.permits authentication = true ∨
      ∃ sender p n e, arguments = .getPayments sender p n ∧ PageRequest.of p (min n 100) = .error e := by
  cases h with
  | role hdenied => exact Or.inl hdenied
  | @pageRequest sender page size p n e hp hn hrefused =>
      right
      obtain ⟨sender, -, h⟩ := Runs.bind_eq_ok.mp hok
      obtain ⟨p', hp', h⟩ := Runs.bind_eq_ok.mp h
      obtain ⟨n', hn', h⟩ := Runs.bind_eq_ok.mp h
      obtain rfl := Except.ok.inj (hp.symm.trans hp')
      obtain rfl := Except.ok.inj (hn.symm.trans hn')
      exact ⟨sender, p, n, e, (Except.ok.inj h).symm, hrefused⟩
  | unreadablePayment hbody =>
      obtain ⟨dto, hdto, -⟩ := Runs.bind_eq_ok.mp hok
      cases hbody.symm.trans (orRaise_eq_ok.mp hdto)
  | unreadableStatus hbody =>
      obtain ⟨uuid, -, h⟩ := Runs.bind_eq_ok.mp hok
      obtain ⟨dto, hdto, -⟩ := Runs.bind_eq_ok.mp h
      cases hbody.symm.trans (orRaise_eq_ok.mp hdto)
  | paymentId hid =>
      obtain ⟨uuid, huuid, -⟩ := Runs.bind_eq_ok.mp hok
      cases hid.symm.trans (orRaise_eq_ok.mp huuid)
  | statusId hid =>
      obtain ⟨uuid, huuid, -⟩ := Runs.bind_eq_ok.mp hok
      cases hid.symm.trans (orRaise_eq_ok.mp huuid)
  | senderMissing =>
      obtain ⟨sender, hsender, -⟩ := Runs.bind_eq_ok.mp hok
      cases hsender
  | page hpage =>
      obtain ⟨sender, -, h⟩ := Runs.bind_eq_ok.mp hok
      obtain ⟨p, hp, -⟩ := Runs.bind_eq_ok.mp h
      cases hpage.symm.trans hp
  | size hsize =>
      obtain ⟨sender, -, h⟩ := Runs.bind_eq_ok.mp hok
      obtain ⟨p, -, h⟩ := Runs.bind_eq_ok.mp h
      obtain ⟨n, hn, -⟩ := Runs.bind_eq_ok.mp h
      cases hsize.symm.trans hn

end Resolve

/-- The status is in the 4xx range. -/
def HttpAnswer.IsClientError (answer : HttpAnswer) : Prop := 400 ≤ answer.status ∧ answer.status < 500

instance (answer : HttpAnswer) : Decidable answer.IsClientError :=
  inferInstanceAs (Decidable (_ ∧ _))

theorem HttpAnswer.not_isClientError {e : JavaException} (h : e.handle.status = 500) :
    ¬ (HttpAnswer.failure e.handle).IsClientError := by
  show ¬ (400 ≤ e.handle.status ∧ e.handle.status < 500)
  omega

/-- **Which client faults are answered as such**: only a body that breaks a constraint.  Every other
fault of the client is answered 500. -/
theorem client_fault_answered_iff {σ : Type u} (readers : Readers) (service : PaymentService σ)
    (authentication : Authentication) (request : HandlerRequest) (s : σ)
    (h : ClientFault readers authentication request) :
    (respond readers service authentication request s).1.IsClientError ↔
      BreaksConstraint readers request := by
  constructor
  · intro hanswered
    by_contra hunbroken
    cases hresolve : readers.resolve request with
    | error e =>
        rw [respond_unresolved hresolve] at hanswered
        have hstatus := (Readers.resolve_error hresolve).resolve_left hunbroken
        exact HttpAnswer.not_isClientError hstatus hanswered
    | ok arguments =>
        by_cases hpermits : request.endpoint.permits authentication = true
        · obtain ⟨sender, p, n, e, rfl, hrefused⟩ :=
            (h.cases_of_resolved hresolve).resolve_left (fun hdenied => hdenied hpermits)
          have hinvoke : PaymentController.invoke service (.getPayments sender p n) s =
              (.error e, s) := by
            show PaymentController.respondWith .page
              (PaymentController.getPayments service sender p n s) = _
            unfold PaymentController.getPayments
            dsimp only
            rw [hrefused]
            rfl
          rw [respond_raised hresolve hpermits hinvoke] at hanswered
          exact HttpAnswer.not_isClientError (PageRequest.of_error hrefused) hanswered
        · rw [respond_denied hresolve hpermits] at hanswered
          exact HttpAnswer.not_isClientError (e := .accessDenied) rfl hanswered
  · intro hbroken
    obtain ⟨errors, hresolve⟩ := hbroken.resolve
    rw [respond_unresolved hresolve]
    refine ⟨le_refl 400, ?_⟩
    show 400 < 500
    decide

/-- Readers that read one id, decimal numbers, and the empty object. -/
def sampleReaders : Readers where
  uuid text := if text = "00000000-0000-0000-0000-000000000007" then some 7 else none
  int text :=
    let (negative, cs) := Numeral.splitSign text.toList
    if cs ≠ [] && cs.all Char.isDigit then some (Numeral.signed negative (Nat.ofDigitChars 10 cs 0))
    else none
  createPaymentRequest body := if body = "\x7b\x7d" then some {} else none
  updateStatusRequest body := if body = "\x7b\x7d" then some {} else none

/-- A service that finds nothing. -/
def emptyService : PaymentService Unit where
  createPayment _ s := (.error (.service .dataIntegrityViolation), s)
  getPaymentById _ s := (.error (.service (.paymentNotFound "Payment not found")), s)
  getPaymentByReference _ s := (.error (.service (.paymentNotFound "Payment not found")), s)
  getPaymentsBySender _ pageRequest s := (Payments.getPaymentsBySender [] pageRequest, s)
  updateStatus _ _ s := (.error (.service (.paymentNotFound "Payment not found")), s)

def viewer : Authentication := ⟨"u-17", ["ROLE_PAYMENT_VIEWER"]⟩

/-- A viewer who sends an empty status update is told what is wrong with it, not that it is none of
theirs. -/
theorem client_fault_answered_update :
    BreaksConstraint sampleReaders
        (.updateStatus "00000000-0000-0000-0000-000000000007" "\x7b\x7d") ∧
      (respond sampleReaders emptyService viewer
        (.updateStatus "00000000-0000-0000-0000-000000000007" "\x7b\x7d") ()).1.status = 400 ∧
      (respond sampleReaders emptyService viewer
        (.updateStatus "00000000-0000-0000-0000-000000000007" "\x7b\x7d") ()).1.IsClientError := by
  have hbreaks : BreaksConstraint sampleReaders
      (.updateStatus "00000000-0000-0000-0000-000000000007" "\x7b\x7d") :=
    .updateStatus rfl rfl (by decide)
  exact ⟨hbreaks, by decide +kernel,
    (client_fault_answered_iff sampleReaders emptyService viewer _ () (.role (by decide))).mpr hbreaks⟩

/-- An id that is no UUID is answered 500; so are an unreadable body, a missing parameter, a negative
page and a missing role. -/
theorem client_fault_unanswered :
    (∀ request ∈ ([.getPaymentById "not-a-uuid", .createPayment "" none,
        .getPayments none none none, .getPayments (some "a") (some "-1") none,
        .updateStatus "00000000-0000-0000-0000-000000000007" ""] : List HandlerRequest),
      ClientFault sampleReaders viewer request ∧
        (respond sampleReaders emptyService viewer request ()).1.status = 500) ∧
      ¬ ∀ (readers : Readers) (service : PaymentService Unit) (authentication : Authentication)
        (request : HandlerRequest), ClientFault readers authentication request →
          (respond readers service authentication request ()).1.IsClientError := by
  have hid : ClientFault sampleReaders viewer (.getPaymentById "not-a-uuid") := .paymentId rfl
  refine ⟨?_, fun hall => ?_⟩
  · simp only [List.forall_mem_cons]
    refine ⟨⟨hid, rfl⟩, ⟨.unreadablePayment rfl, rfl⟩, ⟨.senderMissing, rfl⟩,
      ⟨.pageRequest (p := -1) (n := 20) ?_ rfl rfl, ?_⟩, ⟨.role (by decide), rfl⟩, by simp⟩
    · decide +kernel
    · decide +kernel
  · exact absurd (hall sampleReaders emptyService viewer _ hid) (by decide)

end GlobalPayments.Payments
