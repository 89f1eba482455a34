import TransferLedger.Proofs.Books.History

/-! # Errors that never come up

Three errors of the tables stand for what cannot be: a text that is no decimal, a text that is no status, and an
update that does not find the row that was read in the same unit (`BankError.isDefensive`). No operation on
tables with rows as they are written reports one of them (`Bank.Operation.perform_ordinary`): each text is read
back, and the updates of a unit concern one row. So none comes up in any history
(`Bank.defensive_errors_unreachable`).
-/

namespace TransferLedger
set_option autoImplicit false

/-- The error stands for a text that is not read back or for a row that is gone within a unit. -/
def BankError.isDefensive : BankError → Bool
  | .invalidDecimal _ _ | .invalidStatus _ _ | .concurrentUpdate _ => true
  | _ => false

/-- No defensive error is reported. -/
def Ordinary (reported : Option BankError) : Prop := reported.any BankError.isDefensive = false

section
variable {ε φ α β : Type} [TableError ε] [TableError φ]

theorem ordinary_ok (a : α) : Ordinary (tableError? (.ok a : Except ε α)) := rfl

theorem Ordinary.bind {x : Except ε α} {f : α → Except ε β} (hx : Ordinary (tableError? x))
    (hf : ∀ a, x = .ok a → Ordinary (tableError? (f a))) : Ordinary (tableError? (x >>= f)) := by
  cases x with
  | error c => exact hx
  | ok a => exact hf a rfl

/-- An error is ordinary in itself, or reports an ordinary error of what failed. -/
theorem Ordinary.mapError {x : Except ε α} {f : ε → φ} (hx : Ordinary (tableError? x))
    (hf : ∀ c, TableError.cause? (f c) = TableError.cause? c ∨ Ordinary (TableError.cause? (f c))) :
    Ordinary (tableError? (x.mapError f)) := by
  cases x with
  | ok a => exact ordinary_ok a
  | error c =>
    obtain heq | hc := hf c
    · exact (congrArg Ordinary heq).mpr hx
    · exact hc

theorem ordinary_mapError {x : Except EngineError α} {f : EngineError → ε}
    (hf : ∀ c, Ordinary (TableError.cause? (f c))) : Ordinary (tableError? (x.mapError f)) := by
  cases x with
  | ok a => exact ordinary_ok a
  | error c => exact hf c

end

/-! ## Operations on one table -/

namespace Bank

variable {e : Engine} {b : Bank}

theorem ordinary_database (cause : EngineError) : Ordinary (some (.database cause)) := rfl

theorem ordinary_ofInsertion (entity : Entity) (id : String) (cause : EngineError) :
    Ordinary (some (.ofInsertion entity id cause)) := by
  unfold BankError.ofInsertion
  split
  · rfl
  · rfl

theorem ordinary_notFound (entity : Entity) (id : String) : Ordinary (some (.notFound entity id)) := rfl

theorem askRead_ordinary (e : Engine) (n : Nat) : Ordinary (tableError? (askRead e n)) :=
  ordinary_mapError ordinary_database

theorem accountRow_ordinary (e : Engine) (n : Nat) (id : String) (b : Bank) :
    Ordinary (tableError? (accountRow e n id b)) := by
  refine (askRead_ordinary e n).bind fun u _ => ?_
  split
  · exact ordinary_ok _
  · exact ordinary_notFound .account id

/-- A unit of work that reports nothing defensive, nor does what comes of it. -/
theorem atomically_ordinary {ε α : Type} [TableError ε] {unit : Except ε (α × Bank)}
    (h : Ordinary (tableError? unit)) (b : Bank) : Ordinary (outcome (atomically b unit)).1 := by
  cases unit with
  | error c => exact h
  | ok result => exact rfl

theorem insertAccount_ordinary (e : Engine) (a : Account) (b : Bank) :
    Ordinary (outcome (b.insertAccount e a)).1 := by
  refine atomically_ordinary ?_ b
  refine Ordinary.bind (ordinary_mapError (ordinary_ofInsertion .account a.id)) fun effect _ => ?_
  split
  · exact ordinary_ok _
  split
  · exact ordinary_ofInsertion ..
  · exact ordinary_ok _

theorem updateAccounts_ordinary (e : Engine) (n : Nat) (id : String) (condition : AccountRow → Bool)
    (f : AccountRow → AccountRow) (b : Bank) : Ordinary (tableError? (updateAccounts e n id condition f b)) := by
  refine Ordinary.bind (ordinary_mapError ordinary_database) fun effect _ => ?_
  split
  · exact ordinary_ok _
  · exact ordinary_ok _

theorem updateLive_ordinary (e : Engine) (id : String) (f : AccountRow → AccountRow) (b : Bank) :
    Ordinary (outcome (atomically b (updateLive e id f b))).1 := by
  refine atomically_ordinary ?_ b
  refine (updateAccounts_ordinary e 0 id _ f b).bind fun (count, _) _ => ?_
  show Ordinary (tableError? (if count = 0 then _ else _))
  split
  · exact ordinary_notFound .account id
  · exact ordinary_ok _

theorem addTransaction_ordinary (e : Engine) (n : Nat) (t : Transaction) (b : Bank) :
    Ordinary (tableError? (addTransaction e n t b)) := by
  refine Ordinary.bind (ordinary_mapError (ordinary_ofInsertion .transaction t.id)) fun effect _ => ?_
  split
  · exact ordinary_ok _
  split
  · exact ordinary_ofInsertion ..
  split
  · exact ordinary_ofInsertion ..
  · exact ordinary_ok _

theorem insertTransaction_ordinary (e : Engine) (t : Transaction) (b : Bank) :
    Ordinary (outcome (b.insertTransaction e t)).1 :=
  atomically_ordinary (addTransaction_ordinary e 0 t b) b

/-! ## Reading rows as they are written -/

theorem mapM_ordinary {ε α β : Type} [TableError ε] {f : α → Except ε β} {xs : List α}
    (h : ∀ x ∈ xs, Ordinary (tableError? (f x))) : Ordinary (tableError? (xs.mapM f)) := by
  induction xs with
  | nil => exact ordinary_ok []
  | cons x xs ih =>
    rw [List.mapM_cons]
    refine (h x List.mem_cons_self).bind fun y _ => ?_
    refine (ih fun z hz => h z (List.mem_cons_of_mem x hz)).bind fun ys _ => ?_
    exact ordinary_ok _

namespace Written

theorem toAccount_ordinary (h : b.Written) {r : AccountRow} (hr : r ∈ b.accounts) :
    Ordinary (tableError? r.toAccount) := by
  obtain ⟨a, ha⟩ := h.exists_account hr
  rw [ha]
  exact ordinary_ok a

theorem toTransaction_ordinary (h : b.Written) {r : TransactionRow} (hr : r ∈ b.transactions) :
    Ordinary (tableError? r.toTransaction) := by
  obtain ⟨t, ht⟩ := h.exists_record hr
  rw [ht]
  exact ordinary_ok t

theorem getAccount_ordinary (h : b.Written) (e : Engine) (id : String) :
    Ordinary (tableError? (b.getAccount e id)) := by
  refine (accountRow_ordinary e 0 id b).bind fun r hr => ?_
  exact h.toAccount_ordinary (liveAccount?_eq_some (accountRow_eq_ok hr)).1

theorem listAccounts_ordinary (h : b.Written) (e : Engine) (page size : Nat) :
    Ordinary (tableError? (b.listAccounts e page size)) := by
  refine (askRead_ordinary e 0).bind fun _ _ => mapM_ordinary fun r hr => ?_
  have hlive := List.mem_of_mem_drop (List.mem_of_mem_take hr)
  rw [liveAccounts, List.mem_mergeSort] at hlive
  exact h.toAccount_ordinary (List.mem_of_mem_filter hlive)

theorem getTransaction_ordinary (h : b.Written) (e : Engine) (id : String) :
    Ordinary (tableError? (b.getTransaction e id)) := by
  refine (askRead_ordinary e 0).bind fun _ _ => ?_
  split
  · next r hr => exact h.toTransaction_ordinary (List.mem_of_find?_eq_some hr)
  · exact ordinary_notFound .transaction id

/-- A query that sorts the records that it picks. -/
theorem queryRecords_ordinary (h : b.Written) (e : Engine) (pick : TransactionRow → Bool)
    (order : TransactionRow → TransactionRow → Bool) : Ordinary (tableError? (do
      askRead e 0
      ((b.transactions.filter pick).mergeSort order).mapM TransactionRow.toTransaction)) := by
  refine (askRead_ordinary e 0).bind fun _ _ => mapM_ordinary fun r hr => ?_
  rw [List.mem_mergeSort] at hr
  exact h.toTransaction_ordinary (List.mem_of_mem_filter hr)

theorem transactionsOf_ordinary (h : b.Written) (e : Engine) (account : String) :
    Ordinary (tableError? (b.transactionsOf e account)) := h.queryRecords_ordinary e _ _

theorem transactionsWithStatus_ordinary (h : b.Written) (e : Engine) (status : TransactionStatus) :
    Ordinary (tableError? (b.transactionsWithStatus e status)) := h.queryRecords_ordinary e _ _

/-! ## The transfer unit -/

theorem examineTransfer_ordinary (h : b.Written) (e : Engine) (p : TransferPlan) :
    Ordinary (tableError? (examineTransfer e p b)) := by
  have htransferable : ∀ r, Ordinary (tableError? (checkTransferable r)) := by
    intro r
    unfold checkTransferable
    split
    · exact ordinary_ok _
    · exact rfl
  have hbalance : ∀ {n id r}, accountRow e n id b = .ok r →
      Ordinary (tableError? (readDecimalColumn r.balance)) := by
    intro n id r hr
    obtain ⟨d, hd⟩ := h.exists_balance (liveAccount?_eq_some (accountRow_eq_ok hr)).1
    rw [hd]
    exact ordinary_ok d
  refine (accountRow_ordinary ..).bind fun sender hsender => ?_
  refine (accountRow_ordinary ..).bind fun receiver hreceiver => ?_
  refine (htransferable sender).bind fun _ _ => ?_
  refine (htransferable receiver).bind fun _ _ => ?_
  refine (hbalance hsender).bind fun senderBalance _ => ?_
  refine (hbalance hreceiver).bind fun receiverBalance _ => ?_
  split
  · exact rfl
  · exact ordinary_ok _

end Written

/-- Where the update concerns one row, setting the balance finds it. -/
theorem setBalance_ordinary {n : Nat} {id : String} {condition : AccountRow → Bool} {balance : Decimal}
    {now : Instant} (h : ∀ k b', updateAccounts e n id (Movement.isActive condition)
      (rebalanced balance now) b = .ok (k, b') → k = 1) :
    Ordinary (tableError? (setBalance e n id condition balance now b)) := by
  refine (updateAccounts_ordinary e n id _ _ b).bind fun x hx => ?_
  obtain ⟨k, b'⟩ := x
  obtain rfl := h k b' hx
  exact ordinary_ok b'

theorem updateAccounts_of_setBalance {n : Nat} {id : String} {condition : AccountRow → Bool}
    {balance : Decimal} {now : Instant} {b' : Bank} (h : setBalance e n id condition balance now b = .ok b') :
    updateAccounts e n id (Movement.isActive condition) (rebalanced balance now) b = .ok (1, b') := by
  unfold setBalance at h
  obtain ⟨⟨k, b₁⟩, hk, h⟩ := bind_eq_ok.1 h
  dsimp only at h
  split at h
  · next hone =>
    cases h
    rw [← hone]
    exact hk
  · cases h

theorem Written.applyTransfer_ordinary (h : b.Written) (he : e.NeverSkips) (now : Instant)
    (p : TransferPlan) : Ordinary (outcome (b.applyTransfer e now p)).1 := by
  have hrefused : ∀ {α : Type} {x : Except BankError α}, Ordinary (tableError? x) →
      Ordinary (tableError? (x.mapError Halt.refused)) := fun hx => hx.mapError fun _ => .inl rfl
  have hoverflow : ∀ x : Except Overflow Decimal,
      Ordinary (tableError? (x.mapError Halt.overflow : Except (Halt BankError) Decimal)) := by
    intro x
    cases x with
    | error o => exact rfl
    | ok d => exact rfl
  refine atomically_ordinary ?_ b
  refine Ordinary.bind (ordinary_mapError ordinary_database) fun _ _ => ?_
  refine (hrefused (h.examineTransfer_ordinary e p)).bind fun x hx => ?_
  obtain ⟨sender, receiver, senderBalance, receiverBalance⟩ := x
  have hsingle := singleUpdates he h.ids_nodup now p _ _ _ _ (mapError_eq_ok.1 hx)
  refine (hoverflow (senderBalance.sub p.amount)).bind fun debited _ => ?_
  refine (hrefused (setBalance_ordinary fun k b' hk => (hsingle debited k b' hk).1)).bind fun b₁ hdebit => ?_
  have hcredit := (hsingle debited 1 b₁ (updateAccounts_of_setBalance (mapError_eq_ok.1 hdebit))).2
  refine (hoverflow (receiverBalance.add p.amount)).bind fun credited _ => ?_
  refine (hrefused (setBalance_ordinary (hcredit credited))).bind fun b₂ _ => ?_
  refine (hrefused (addTransaction_ordinary e 5 (p.record .success now) b₂)).bind fun _ _ => ?_
  refine Ordinary.bind (ordinary_mapError ordinary_database) fun _ _ => ?_
  exact ordinary_ok _

end Bank

/-! ## Errors of the other layers -/

theorem TransferError.cause?_ofBank (operation : String) (c : BankError) :
    TableError.cause? (ofBank operation c) = TableError.cause? c ∨
      Ordinary (TableError.cause? (ofBank operation c)) := by
  unfold ofBank
  split
  · exact .inr rfl
  · exact .inr rfl
  · exact .inr rfl
  · exact .inr rfl
  · exact .inl rfl

theorem TransferRequest.validate_ordinary (r : TransferRequest) : Ordinary (tableError? r.validate) := by
  unfold validate
  dsimp only
  split
  · exact rfl
  split
  · exact rfl
  split
  · exact rfl
  split
  · exact rfl
  split
  · exact rfl
  · exact rfl

theorem ValidTransfer.checkAccount_ordinary (t : ValidTransfer) (a : Account) :
    Ordinary (tableError? (t.checkAccount a)) := by
  unfold checkAccount
  split
  · exact rfl
  split
  · exact rfl
  · exact rfl

namespace Bank

variable {e : Engine} {b : Bank} (now : Instant)

theorem TableOperation.perform_ordinary (he : e.NeverSkips) (hb : b.Written) (o : TableOperation) :
    Ordinary (o.perform e now b).1 := by
  cases o with
  | insertAccount a => exact insertAccount_ordinary e a b
  | accountRow id => exact accountRow_ordinary e 0 id b
  | getAccount id => exact hb.getAccount_ordinary e id
  | listAccounts page size => exact hb.listAccounts_ordinary e page size
  | renameAccount id name => exact updateLive_ordinary e id _ b
  | setAccountStatus id status => exact updateLive_ordinary e id _ b
  | deleteAccount id => exact updateLive_ordinary e id _ b
  | insertTransaction t => exact insertTransaction_ordinary e t b
  | getTransaction id => exact hb.getTransaction_ordinary e id
  | transactionsOf account => exact hb.transactionsOf_ordinary e account
  | transactionsWithStatus status => exact hb.transactionsWithStatus_ordinary e status
  | applyTransfer p => exact hb.applyTransfer_ordinary he now p

namespace Written

theorem loadAccount_ordinary (h : b.Written) (e : Engine) (id : String) :
    Ordinary (tableError? (Transfer.loadAccount e id b)) :=
  (h.getAccount_ordinary e id).mapError (TransferError.cause?_ofBank _)

theorem prepare_ordinary (h : b.Written) (e : Engine) (newId : String) (r : TransferRequest) :
    Ordinary (tableError? (Transfer.prepare e newId r b)) := by
  refine r.validate_ordinary.bind fun valid _ => ?_
  refine (h.loadAccount_ordinary e valid.fromAccount).bind fun sender _ => ?_
  refine (h.loadAccount_ordinary (e.after 1) valid.toAccount).bind fun receiver _ => ?_
  refine (valid.checkAccount_ordinary sender).bind fun _ _ => ?_
  refine (valid.checkAccount_ordinary receiver).bind fun _ _ => ?_
  split
  · exact rfl
  · exact ordinary_ok _

theorem commit_ordinary (h : b.Written) (he : e.NeverSkips) (p : TransferPlan) :
    Ordinary (outcome (Transfer.commit e now p b)).1 := by
  refine Ordinary.mapError (h.applyTransfer_ordinary he now p) fun c => ?_
  cases c with
  | refused cause => exact TransferError.cause?_ofBank _ cause
  | overflow o => exact .inl rfl

theorem execute_ordinary (h : b.Written) (he : e.NeverSkips) (newId : String) (r : TransferRequest) :
    Ordinary (outcome (Transfer.execute e now newId r b)).1 := by
  have hprepare := h.prepare_ordinary e newId r
  unfold Transfer.execute
  cases hplan : Transfer.prepare e newId r b with
  | error cause =>
    rw [hplan] at hprepare
    exact hprepare
  | ok p => exact h.commit_ordinary now (he.after 2) p

end Written

theorem recordFailed_ordinary (e : Engine) (p : TransferPlan) (b : Bank) :
    Ordinary (outcome (Transfer.recordFailed e now p b)).1 := by
  have hinsert := insertTransaction_ordinary e (p.record .failed now) b
  unfold Transfer.recordFailed
  dsimp only
  split
  · exact rfl
  · next cause b' herror =>
    rw [herror] at hinsert
    obtain heq | hordinary := TransferError.cause?_ofBank "record failed transfer" cause
    · exact (congrArg Ordinary heq).mpr hinsert
    · exact hordinary

theorem TransferOperation.perform_ordinary (he : e.NeverSkips) (hb : b.Written) (o : TransferOperation) :
    Ordinary (o.perform e now b).1 := by
  cases o with
  | prepare newId r => exact hb.prepare_ordinary e newId r
  | commit p => exact hb.commit_ordinary now he p
  | recordFailed p => exact recordFailed_ordinary now e p b
  | execute newId r => exact hb.execute_ordinary now he newId r
  | getTransaction id =>
    show Ordinary (tableError? (Transfer.getTransaction e id b))
    unfold Transfer.getTransaction
    split
    · exact rfl
    · exact (hb.getTransaction_ordinary e id).mapError (TransferError.cause?_ofBank _)
  | withStatus status =>
    exact (hb.transactionsWithStatus_ordinary e status).mapError (TransferError.cause?_ofBank _)

/-! ## Services -/

namespace Written

theorem get_ordinary (h : b.Written) (e : Engine) (id : String) :
    Ordinary (tableError? (Accounts.get e id b)) :=
  (h.getAccount_ordinary e id).mapError fun _ => .inl rfl

theorem changed_ordinary (h : b.Written) (operation id : String) {f : AccountRow → AccountRow}
    (hf : ∀ a, ∃ a' : Account, .ofAccount a' = f (.ofAccount a)) (hid : ∀ r, (f r).id = r.id) :
    Ordinary (outcome (Accounts.changed e operation id (atomically b (Bank.updateLive e id f b)))).1 := by
  have hchange := updateLive_ordinary e id f b
  have hb' := h.updateLive (e := e) id hf hid
  unfold Accounts.changed
  split
  · next cause b' herror =>
    rw [herror] at hchange
    exact hchange
  · next b' hok =>
    rw [hok] at hb'
    exact hb'.get_ordinary (e.after 1) id

theorem transactions_ordinary (h : b.Written) (e : Engine) (id : String) :
    Ordinary (tableError? (Accounts.transactions e id b)) := by
  refine (h.get_ordinary e id).bind fun _ _ => ?_
  exact (h.transactionsOf_ordinary (e.after 1) id).mapError fun _ => .inl rfl

theorem createWith_ordinary (h : b.Written) (he : e.NeverSkips) (publish : Publisher) (newId : String)
    (r : TransferRequest) (ledger : TableLedger) (broker : Broker) :
    Ordinary (tableError? (Transactions.createWith publish e now newId r ⟨b, ledger, broker⟩).1) := by
  have hprepare := h.prepare_ordinary e newId r
  unfold Transactions.createWith
  cases hplan : Transfer.prepare e newId r b with
  | error cause =>
    rw [hplan] at hprepare
    exact hprepare
  | ok p =>
    have hcommit := h.commit_ordinary now (he.after 2) p
    dsimp only
    unfold Transactions.carryOutWith
    split
    · exact rfl
    · next cause b' herror =>
      rw [herror] at hcommit
      exact hcommit
    · exact rfl

end Written

theorem ofRequest_ordinary (newId : String) (r : OpenAccount) :
    Ordinary (tableError? (Accounts.ofRequest now newId r)) := by
  have hbalance : Ordinary (tableError? (Accounts.readOpeningBalance r.balance)) := by
    unfold Accounts.readOpeningBalance
    dsimp only
    split
    · exact rfl
    split
    · exact rfl
    split
    · exact rfl
    · exact rfl
  unfold Accounts.ofRequest
  dsimp only
  split
  · exact rfl
  split
  · exact rfl
  · exact hbalance.bind fun _ _ => ordinary_ok _

theorem create_ordinary (e : Engine) (newId : String) (r : OpenAccount) (b : Bank) :
    Ordinary (outcome (Accounts.create e now newId r b)).1 := by
  have hrequest := ofRequest_ordinary now newId r
  unfold Accounts.create
  split
  · next cause herror => exact herror ▸ hrequest
  · next a ha =>
    have hinsert := insertAccount_ordinary e a b
    split
    · exact rfl
    · next cause b' herror =>
      rw [herror] at hinsert
      exact hinsert

/-! ## Reconciliation -/

theorem entriesOf_ordinary (e : Engine) (ledger : TableLedger) (id : String) :
    Ordinary (tableError? (Reconciliation.entriesOf e ledger id)) := by
  unfold Reconciliation.entriesOf
  cases ledger.entriesByTransaction e id with
  | error cause => exact rfl
  | ok entries => exact rfl

theorem missingIds_ordinary (e : Engine) (ledger : TableLedger) (records : List Transaction) (n : Nat) :
    Ordinary (tableError? (Reconciliation.missingIds e ledger n records)) := by
  induction records generalizing n with
  | nil => exact rfl
  | cons t ts ih =>
    refine (entriesOf_ordinary (e.after n) ledger t.id).bind fun entries _ => ?_
    exact (ih (n + 1)).bind fun ids _ => ordinary_ok _

theorem replayEach_ordinary (e : Engine) (ledger : TableLedger) (records : List Transaction) (n : Nat)
    (broker : Broker) : Ordinary (tableError? (Reconciliation.replayEach e ledger n records broker).1) := by
  induction records generalizing n broker with
  | nil => exact rfl
  | cons t ts ih =>
    have hentries := entriesOf_ordinary (e.after n) ledger t.id
    unfold Reconciliation.replayEach
    split
    · next cause herror =>
      rw [herror] at hentries
      exact hentries
    · next entries _ =>
      split
      · exact ih (n + 1) broker
      · have hrest := ih (n + 1) (Transactions.announce t broker).2
        dsimp only
        split
        · exact rfl
        · next cause broker' herror =>
          rw [herror] at hrest
          exact hrest

theorem Written.report_ordinary (h : b.Written) (e ledgerEngine : Engine) (id : String)
    (ledger : TableLedger) (broker : Broker) :
    Ordinary (tableError? (Reconciliation.report ⟨e, ledgerEngine⟩ id ⟨b, ledger, broker⟩)) := by
  have hrefused : ∀ {α : Type} {x : Except ServiceError α}, Ordinary (tableError? x) →
      Ordinary (tableError? (x.mapError Halt.refused)) := fun hx => hx.mapError fun _ => .inl rfl
  have hbalance : Ordinary (tableError? (Reconciliation.ledgerBalance ledgerEngine ledger id)) := by
    unfold Reconciliation.ledgerBalance
    cases ledger.accountBalance ledgerEngine id with
    | ok d => exact rfl
    | error cause =>
      cases cause with
      | refused c => exact rfl
      | overflow o => exact rfl
  refine (hrefused (h.get_ordinary e id)).bind fun account _ => ?_
  refine (hrefused (h.transactions_ordinary (e.after 1) id)).bind fun records _ => ?_
  refine hbalance.bind fun ledgerBalance _ => ?_
  refine (hrefused (missingIds_ordinary (ledgerEngine.after 1) ledger _ 0)).bind fun missing _ => ?_
  cases account.balance.sub ledgerBalance with
  | error o => exact rfl
  | ok opening => exact rfl

theorem Written.replayMissing_ordinary (h : b.Written) (e ledgerEngine : Engine) (ledger : TableLedger)
    (broker : Broker) :
    Ordinary (tableError? (Reconciliation.replayMissing ⟨e, ledgerEngine⟩ ⟨b, ledger, broker⟩).1) := by
  have hrecords : Ordinary (tableError? (Transactions.successful e b)) :=
    (h.transactionsWithStatus_ordinary e .success).mapError (TransferError.cause?_ofBank _)
  unfold Reconciliation.replayMissing
  dsimp only
  split
  · next cause herror =>
    rw [herror] at hrecords
    exact hrecords
  · next records _ => exact replayEach_ordinary ledgerEngine ledger records 0 broker

/-! ## All operations -/

theorem ServiceOperation.perform_ordinary (he : e.NeverSkips) (hb : b.Written) (o : ServiceOperation) :
    Ordinary (o.perform e now b).1 := by
  cases o with
  | create newId r => exact create_ordinary now e newId r b
  | get id => exact hb.get_ordinary e id
  | list q =>
    refine Ordinary.bind ((hb.listAccounts_ordinary e _ _).mapError fun _ => .inl rfl) fun accounts _ => ?_
    exact ordinary_ok _
  | rename id r =>
    show Ordinary (outcome (Accounts.rename e now id r b)).1
    unfold Accounts.rename
    dsimp only
    split
    · exact rfl
    · exact hb.changed_ordinary _ id
        (fun a => ⟨{ a with name := Text.trim r.name, updatedAt := now }, rfl⟩) fun _ => rfl
  | close id =>
    exact hb.changed_ordinary _ id (fun a => ⟨{ a with status := .closed, updatedAt := now }, rfl⟩) fun _ => rfl
  | delete id => exact Ordinary.mapError (updateLive_ordinary e id _ b) fun _ => .inl rfl
  | transactions id => exact hb.transactions_ordinary e id
  | transfer publish newId r ledger broker =>
    exact hb.createWith_ordinary now he publish newId r ledger broker
  | successful => exact (hb.transactionsWithStatus_ordinary e .success).mapError (TransferError.cause?_ofBank _)
  | report ledgerEngine id ledger broker => exact hb.report_ordinary e ledgerEngine id ledger broker
  | replayMissing ledgerEngine ledger broker => exact hb.replayMissing_ordinary e ledgerEngine ledger broker

theorem Operation.perform_ordinary (he : e.NeverSkips) (hb : b.Written) (o : Operation) :
    Ordinary (o.perform e now b).1 := by
  cases o with
  | table o => exact o.perform_ordinary now he hb
  | transfer o => exact o.perform_ordinary now he hb
  | service o => exact o.perform_ordinary now he hb

/-- **Defensive errors are unreachable.** After any history every text is read back, no operation reports an
error that stands for what cannot be, whichever of its statements fail, and the updates of a unit each concern
one row. -/
theorem defensive_errors_unreachable (turns : List Turn) :
    (∀ r ∈ (history turns).accounts, ∃ a, r.toAccount = .ok a) ∧
      (∀ r ∈ (history turns).transactions, ∃ t, r.toTransaction = .ok t) ∧
      ∀ faults now,
        (∀ o : Operation, Ordinary (o.perform (.failing faults) now (history turns)).1) ∧
        ∀ p, SingleUpdates (.failing faults) now p (history turns) := by
  have hwritten := history_written turns
  refine ⟨fun r => hwritten.exists_account, fun r => hwritten.exists_record, fun faults now => ⟨fun o => ?_, ?_⟩⟩
  · exact o.perform_ordinary now (Engine.failing_neverSkips faults) hwritten
  · exact singleUpdates (Engine.failing_neverSkips faults) hwritten.ids_nodup now

end Bank

end TransferLedger
