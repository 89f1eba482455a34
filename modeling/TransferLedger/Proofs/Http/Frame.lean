import TransferLedger.Http.Router
import TransferLedger.Proofs.Service.Accounts
import TransferLedger.Proofs.Service.Outcome

/-! # What a request may change

Showing changes nothing, and of all requests only a transfer, a new account and a change of an account may
change the world (`answer_cases`). Each of these is answered with a client error only if nothing was done
(`SparesRefused`), and a transfer is answered with status 201 if and only if it was carried out
(`createTransaction_committed`, `createTransaction_answered`). `answer_frame` puts this together for every
request and every world.
-/

namespace TransferLedger
set_option autoImplicit false

/-- A status by which a request is refused. -/
def HttpResponse.refuses (r : HttpResponse) : Prop := 400 ≤ r.status ∧ r.status < 500

theorem HttpResponse.error_refuses {code : ErrorCode} {message : String}
    (h : (error code message).refuses) : code ≠ .internal := by
  rintro rfl
  exact absurd h.2 (Nat.lt_irrefl 500)

theorem ErrorCode.status_ne_created (code : ErrorCode) : code.status ≠ 201 := by
  cases code <;> decide

/-- Exactly one record is new, that of a transfer that was carried out. -/
def OneCommitted (w w' : World) : Prop :=
  ∃ row, row.status = TransactionStatus.success.name ∧
    w'.bank.transactions = w.bank.transactions ++ [row]

theorem not_oneCommitted_self (w : World) : ¬ OneCommitted w w := by
  rintro ⟨row, -, hrecords⟩
  exact absurd (List.self_eq_append_right.1 hrecords) (List.cons_ne_nil row [])

namespace Transactions

theorem Committed.oneCommitted {publish : Publisher} {w w' : World} {t : Transaction}
    (h : Committed publish w w' t) : OneCommitted w w' :=
  ⟨_, congrArg TransactionStatus.name h.success, h.recorded⟩

theorem Failed.not_oneCommitted {publish : Publisher} {w w' : World} (h : Failed publish w w') :
    ¬ OneCommitted w w' := by
  rcases h with rfl | ⟨t, hfailed, -, hbank, -⟩
  · exact not_oneCommitted_self w'
  · rintro ⟨row, hrow, hrecords⟩
    -- The one record that is new is that of a failure.
    rw [hbank] at hrecords
    have hsame := List.append_cancel_left hrecords
    rw [← List.singleton_inj.1 hsame] at hrow
    have hsuccess := TransactionStatus.name_injective hrow
    rw [hfailed] at hsuccess
    cases hsuccess

theorem Refused.failed {publish : Publisher} {w w' : World} :
    ∀ {code : ErrorCode}, Refused publish w w' code → Failed publish w w'
  | .invalidArgument, h => .inl h
  | .notFound, h => .inl h
  | .internal, h => h

/-- Unless the error is internal, nothing was done. -/
theorem Refused.unchanged {publish : Publisher} {w w' : World} :
    ∀ {code : ErrorCode}, Refused publish w w' code → code ≠ .internal → w' = w
  | .invalidArgument, h, _ => h
  | .notFound, h, _ => h
  | .internal, _, hcode => absurd rfl hcode

theorem Explains.ok_iff {publish : Publisher} {w w' : World}
    {outcome : Except (Halt TransferError) Transaction} (h : Explains publish w w' outcome) :
    (∃ t, outcome = .ok t) ↔ OneCommitted w w' := by
  constructor
  · rintro ⟨t, ht⟩
    exact (h.ok t ht).oneCommitted
  · intro hone
    match outcome with
    | .ok t => exact ⟨t, rfl⟩
    | .error (.overflow o) =>
      have hfailed : Failed publish w w' := .inl (h.overflowed o rfl)
      exact absurd hone hfailed.not_oneCommitted
    | .error (.refused cause) => exact absurd hone (h.refused cause rfl).failed.not_oneCommitted

end Transactions

namespace Http

/-- An answer by which the request is refused comes with the world as it was. -/
def SparesRefused (w : World) (a : Answered) : Prop :=
  ∀ response, a.1 = .ok response → response.refuses → a.2 = w

theorem sparesRefused_self (w : World) (outcome : Except Overflow HttpResponse) :
    SparesRefused w (outcome, w) := fun _ _ _ => rfl

/-- An outcome of the account service is refused only if the tables are as they were. -/
theorem sparesRefused_ofOutcome {α : Type} {w : World} {bank : Bank} {status : Nat}
    {toJson : α → Json.Value} {outcome : Except ServiceError α} (hstatus : status < 400)
    (h : ∀ c, outcome = .error c → c.code ≠ .internal → bank = w.bank) :
    SparesRefused w (.ok (ofOutcome status toJson outcome), { w with bank := bank }) := by
  intro response hresponse hrefuses
  cases hresponse
  cases outcome with
  | ok a => exact absurd hrefuses.1 (Nat.not_le.2 hstatus)
  | error c =>
    rw [h c rfl (HttpResponse.error_refuses hrefuses)]

variable (s : Surroundings)

/-! ## Accounts -/

theorem createAccount_sparesRefused (r : HttpRequest) (w : World) :
    SparesRefused w (.ok (createAccount s r w).1, (createAccount s r w).2) := by
  unfold createAccount
  split
  · exact sparesRefused_self w _
  · next request _ =>
    refine sparesRefused_ofOutcome (by decide) ?_
    intro c hc _
    exact Accounts.create_eq_error (Prod.ext hc rfl)

theorem renameAccount_sparesRefused (id : String) (r : HttpRequest) (w : World) :
    SparesRefused w (.ok (renameAccount s id r w).1, (renameAccount s id r w).2) := by
  unfold renameAccount
  split
  · exact sparesRefused_self w _
  · next request _ =>
    refine sparesRefused_ofOutcome (by decide) ?_
    intro c hc hcode
    exact Accounts.rename_eq_error (Prod.ext hc rfl) hcode

theorem closeAccount_sparesRefused (id : String) (w : World) :
    SparesRefused w (.ok (closeAccount s id w).1, (closeAccount s id w).2) := by
  refine sparesRefused_ofOutcome (by decide) ?_
  intro c hc hcode
  exact Accounts.close_eq_error (Prod.ext hc rfl) hcode

theorem deleteAccount_sparesRefused (id : String) (w : World) :
    SparesRefused w (.ok (deleteAccount s id w).1, (deleteAccount s id w).2) := by
  unfold deleteAccount
  split
  · next bank hdelete =>
    intro response hresponse hrefuses
    cases hresponse
    exact absurd hrefuses.1 (show ¬ 400 ≤ 204 by decide)
  · next c bank hdelete =>
    rw [Accounts.delete_eq_error hdelete]
    exact sparesRefused_self w _

/-! ## Transfers -/

variable {s}

/-- The answer to a transfer is a refusal of its body, or it shows an outcome that explains itself. -/
theorem createTransaction_cases (he : s.engines.bank.KeepsInserts) (r : HttpRequest) (w : World) :
    (∃ rejection, createTransaction s r w = (.ok (ofRejection rejection), w)) ∨
    ∃ outcome w', Transactions.Explains .direct w w' outcome ∧ createTransaction s r w =
      (ofHalting 201 Transaction.toJson HttpResponse.ofTransferError outcome, w') := by
  unfold createTransaction
  split
  · next rejection _ => exact .inl ⟨rejection, rfl⟩
  · next request _ =>
    exact .inr ⟨_, _, Transactions.createWith_explains Publisher.direct_bestEffort he s.now s.newId
      request w, rfl⟩

theorem createTransaction_sparesRefused (he : s.engines.bank.KeepsInserts) (r : HttpRequest)
    (w : World) : SparesRefused w (createTransaction s r w) := by
  rcases createTransaction_cases he r w with ⟨rejection, hr⟩ | ⟨outcome, w', hexplains, hr⟩
  · rw [hr]
    exact sparesRefused_self w _
  rw [hr]
  intro response hresponse hrefuses
  match outcome with
  | .ok t =>
    cases hresponse
    exact absurd hrefuses.1 (show ¬ 400 ≤ 201 by decide)
  | .error (.overflow o) => cases hresponse
  | .error (.refused cause) =>
    cases hresponse
    exact (hexplains.refused cause rfl).unchanged (HttpResponse.error_refuses hrefuses)

theorem ofHalting_created {outcome : Except (Halt TransferError) Transaction}
    {response : HttpResponse} (h : ofHalting 201 Transaction.toJson HttpResponse.ofTransferError
      outcome = .ok response) (hcreated : response.status = 201) :
    ∃ t, outcome = .ok t ∧ response = .json 201 t.toJson := by
  match outcome with
  | .ok t =>
    cases h
    exact ⟨t, rfl, rfl⟩
  | .error (.overflow o) => cases h
  | .error (.refused cause) =>
    cases h
    exact absurd hcreated cause.code.status_ne_created

theorem createTransaction_committed (he : s.engines.bank.KeepsInserts) {r : HttpRequest} {w : World}
    {response : HttpResponse} (h : (createTransaction s r w).1 = .ok response)
    (hcreated : response.status = 201) :
    ∃ t, response = .json 201 t.toJson ∧
      Transactions.Committed .direct w (createTransaction s r w).2 t := by
  rcases createTransaction_cases he r w with ⟨rejection, hr⟩ | ⟨outcome, w', hexplains, hr⟩
  · rw [hr] at h
    cases h
    cases hcreated
  · rw [hr] at h ⊢
    obtain ⟨t, ht, hresponse⟩ := ofHalting_created h hcreated
    exact ⟨t, hresponse, hexplains.ok t ht⟩

/-- Where one record of a committed transfer is new, the answer says so. -/
theorem createTransaction_answered (he : s.engines.bank.KeepsInserts) {r : HttpRequest} {w : World}
    (h : OneCommitted w (createTransaction s r w).2) :
    ∃ response, (createTransaction s r w).1 = .ok response ∧ response.status = 201 := by
  rcases createTransaction_cases he r w with ⟨rejection, hr⟩ | ⟨outcome, w', hexplains, hr⟩
  · rw [hr] at h
    exact absurd h (not_oneCommitted_self w)
  · rw [hr] at h ⊢
    obtain ⟨t, rfl⟩ := hexplains.ok_iff.2 h
    exact ⟨_, rfl, rfl⟩

/-! ## All requests -/

variable (s)

/-- A request leaves the world as it is, or it is a change of a resource that knows its method. -/
theorem answer_cases (r : HttpRequest) (w : World) :
    (∃ outcome, answer s r w = (outcome, w)) ∨
    r.method ≠ "GET" ∧ ∃ resource id, answer s r w = answerChange s resource id r w := by
  have hknown : ∀ resource id, (∃ outcome, answerKnown s resource id r w = (outcome, w)) ∨
      r.method ≠ "GET" ∧ answerKnown s resource id r w = answerChange s resource id r w := by
    intro resource id
    unfold answerKnown
    split
    · exact .inl ⟨_, rfl⟩
    next hget =>
    split
    · exact .inl ⟨_, rfl⟩
    · exact .inr ⟨hget, rfl⟩
  unfold answer
  split
  · exact .inl ⟨_, rfl⟩
  next resource hpath =>
  split
  · exact .inl ⟨_, rfl⟩
  split
  · rcases hknown resource "" with h | ⟨hget, h⟩
    · exact .inl h
    · exact .inr ⟨hget, resource, "", h⟩
  split
  · next id _ =>
    rcases hknown resource id with h | ⟨hget, h⟩
    · exact .inl h
    · exact .inr ⟨hget, resource, id, h⟩
  · exact .inl ⟨_, rfl⟩

variable {s}

theorem answerChange_sparesRefused (he : s.engines.bank.KeepsInserts) (resource : Resource)
    (id : String) (r : HttpRequest) (w : World) :
    SparesRefused w (answerChange s resource id r w) := by
  unfold answerChange
  split
  · exact createTransaction_sparesRefused he r w
  · exact createAccount_sparesRefused s r w
  · exact closeAccount_sparesRefused s id w
  · split
    · exact deleteAccount_sparesRefused s id w
    · exact renameAccount_sparesRefused s id r w
  · exact sparesRefused_self w _

/-- A transfer that is posted is created. -/
theorem answer_transactions (s : Surroundings) {r : HttpRequest} (hmethod : r.method = "POST")
    (hpath : r.path = "/dbank/v1/transactions".toList) (w : World) :
    answer s r w = createTransaction s r w := by
  have hresource : Resource.ofPath? r.path = some .transactions := by
    rw [hpath]
    decide +kernel
  unfold answer
  rw [hresource]
  simp only [Resource.methods, hmethod, Resource.rawId?, answerKnown]
  rfl

theorem answer_frame (s : Surroundings) (he : s.engines.bank.KeepsInserts) (r : HttpRequest)
    (w : World) :
    (∀ response, (answer s r w).1 = .ok response → response.refuses → (answer s r w).2 = w) ∧
    (r.method = "GET" → (answer s r w).2 = w) ∧
    (r.method = "POST" → r.path = "/dbank/v1/transactions".toList →
      ((∃ response, (answer s r w).1 = .ok response ∧ response.status = 201) ↔
        OneCommitted w (answer s r w).2) ∧
      ∀ response, (answer s r w).1 = .ok response → response.status = 201 →
        ∃ t, response = .json 201 t.toJson ∧
          Transactions.Committed .direct w (answer s r w).2 t) := by
  refine ⟨?_, ?_, ?_⟩
  · rcases answer_cases s r w with ⟨outcome, h⟩ | ⟨-, resource, id, h⟩
    · rw [h]
      exact sparesRefused_self w outcome
    · rw [h]
      exact answerChange_sparesRefused he resource id r w
  · intro hget
    rcases answer_cases s r w with ⟨outcome, h⟩ | ⟨hne, -⟩
    · rw [h]
    · exact absurd hget hne
  · intro hmethod hpath
    rw [answer_transactions s hmethod hpath]
    refine ⟨⟨?_, createTransaction_answered he⟩, fun _ => createTransaction_committed he⟩
    rintro ⟨response, hresponse, hcreated⟩
    obtain ⟨t, -, hcommitted⟩ := createTransaction_committed he hresponse hcreated
    exact hcommitted.oneCommitted

/-! ## Two requests -/

def sampleSurroundings : Surroundings := ⟨.sound, default, "t"⟩

def sampleWorld : World := ⟨Books.samplePlanned.bank, .empty, .empty⟩

/-- A transfer that is posted with some body. -/
def samplePost (body : Bytes) : HttpRequest :=
  ⟨"POST", "/dbank/v1/transactions".toList, [], some "application/json", body⟩

def sampleBody : Bytes :=
  Json.Value.bytes (.record [("from_account_id", .text "alice"), ("to_account_id", .text "bob"),
    ("amount", .text "3.25"), ("currency", .text "eur")])

theorem sample_answer_frame :
    (∃ response, (answer sampleSurroundings (samplePost []) sampleWorld).1 = .ok response ∧
      response.refuses ∧ (answer sampleSurroundings (samplePost []) sampleWorld).2 = sampleWorld) ∧
    ∃ response, (answer sampleSurroundings (samplePost sampleBody) sampleWorld).1 = .ok response ∧
      response.status = 201 := by
  have he : sampleSurroundings.engines.bank.KeepsInserts := Engine.sound_keepsInserts
  refine ⟨?_, ?_⟩
  · obtain ⟨hspared, -, -⟩ := answer_frame sampleSurroundings he (samplePost []) sampleWorld
    have hstatus : (answer sampleSurroundings (samplePost []) sampleWorld).1.toOption.map (·.status) =
        some 400 := by decide +kernel
    cases hanswer : (answer sampleSurroundings (samplePost []) sampleWorld).1 with
    | error o =>
      rw [hanswer] at hstatus
      cases hstatus
    | ok response =>
      rw [hanswer] at hstatus
      have hstatus : response.status = 400 := Option.some.inj hstatus
      have hrefuses : response.refuses := by
        rw [HttpResponse.refuses, hstatus]
        decide
      exact ⟨response, rfl, hrefuses, hspared response hanswer hrefuses⟩
  · obtain ⟨-, -, hposted⟩ := answer_frame sampleSurroundings he (samplePost sampleBody) sampleWorld
    have hcommitted : OneCommitted sampleWorld
        (answer sampleSurroundings (samplePost sampleBody) sampleWorld).2 :=
      ⟨.ofTransaction (Books.samplePlan.record .success default), rfl, by decide +kernel⟩
    exact (hposted rfl rfl).1.2 hcommitted

end Http

end TransferLedger
