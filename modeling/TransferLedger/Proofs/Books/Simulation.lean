import TransferLedger.Proofs.Books.Register
import TransferLedger.Proofs.Service.Accounts
import TransferLedger.Proofs.Service.Transactions

/-! # The tables follow the register

Every call on the tables is matched by steps of the register whose rows they hold
(`Register.perform_follows`), so whatever holds of every register holds of every run of the services
(`Books.Reachable.register`).
-/

namespace TransferLedger.Register
set_option autoImplicit false

variable {g : Register}

/-! ## Looking accounts up -/

theorem liveAccount?_books {id : String} {row : AccountRow}
    (h : g.books.bank.liveAccount? id = some row) : ∃ a, g.Live id a ∧ row = .ofAccount a := by
  obtain ⟨hmem, hid, hlive⟩ := Bank.liveAccount?_eq_some h
  obtain ⟨a, ha, rfl⟩ := List.mem_map.1 hmem
  exact ⟨a, ⟨ha, hid, by simpa [AccountRow.isLive, AccountRow.ofAccount] using hlive⟩, rfl⟩

theorem rows_ids : g.books.bank.accounts.map (·.id) = g.accounts.map (·.id) := by
  simp only [books, List.map_map]
  rfl

theorem records_ids : g.books.bank.transactions.map (·.id) = g.records.map (·.id) := by
  simp only [books, List.map_map]
  rfl

theorem account?_books_none {id : String} (h : g.books.bank.account? id = none) :
    id ∉ g.accounts.map (·.id) := by
  rw [← rows_ids]
  exact Bank.account?_eq_none h

theorem account?_books_isSome {id : String} (h : (g.books.bank.account? id).isSome = true) :
    id ∈ g.accounts.map (·.id) := by
  rw [← rows_ids]
  exact Bank.account?_isSome h

theorem transaction?_books_none {id : String} (h : g.books.bank.transaction? id = none) :
    id ∉ g.records.map (·.id) := by
  rw [← records_ids]
  exact Bank.transaction?_eq_none h

theorem mem_records {t : Transaction} :
    .ofTransaction t ∈ g.books.bank.transactions ↔ t ∈ g.records := by
  refine ⟨?_, fun ht => List.mem_map_of_mem ht⟩
  intro h
  obtain ⟨t', ht', heq⟩ := List.mem_map.1 h
  rwa [← TransactionRow.ofTransaction_injective heq]

/-! ## Calls -/

/-- The books are those of a register that the given one leads to. -/
def Follows (g : Register) (s : Books) : Prop :=
  ∃ g', Relation.ReflTransGen Step g g' ∧ s = g'.books

theorem follows_self : g.Follows g.books := ⟨g, .refl, rfl⟩

theorem Step.follows {g' : Register} (h : Step g g') : g.Follows g'.books := ⟨g', .single h, rfl⟩

/-- Rows change as their accounts do. -/
theorem change_books (id : String) (m : Amendment) (now : Instant) {f : AccountRow → AccountRow}
    (hf : ∀ a, f (.ofAccount a) = .ofAccount (m.apply now a)) :
    (g.books.bank.change id (fun _ => true) f).accounts =
      (g.accounts.map fun a =>
        if a.id = id ∧ a.deletedAt = none then m.apply now a else a).map .ofAccount := by
  simp only [Bank.change, books, List.map_map]
  apply List.map_congr_left
  intro a _
  have hcond : ((AccountRow.ofAccount a).id == id && (AccountRow.ofAccount a).isLive && true) =
      decide (a.id = id ∧ a.deletedAt = none) := by
    rw [Bool.eq_iff_iff]
    simp [AccountRow.ofAccount, AccountRow.isLive]
  simp only [Function.comp_apply, hcond, decide_eq_true_eq]
  split
  · exact hf a
  · rfl

/-- Changing the rows of a live account amends it. -/
theorem amended_books (g : Register) (id : String) (m : Amendment) (now : Instant)
    {f : AccountRow → AccountRow} (hf : ∀ a, f (.ofAccount a) = .ofAccount (m.apply now a)) :
    { g.books with bank := g.books.bank.change id (fun _ => true) f } =
      Register.books { g with accounts := g.accounts.map fun a =>
        if a.id = id ∧ a.deletedAt = none then m.apply now a else a } := by
  have := change_books (g := g) id m now hf
  simp only [Bank.change, books] at this ⊢
  rw [this]

theorem amended_follows (id : String) (m : Amendment) (now : Instant)
    {f : AccountRow → AccountRow} (hf : ∀ a, f (.ofAccount a) = .ofAccount (m.apply now a))
    {b : Bank} (hb : b = g.books.bank ∨ b = g.books.bank.change id (fun _ => true) f) :
    g.Follows { g.books with bank := b } := by
  rcases hb with rfl | rfl
  · exact follows_self
  · exact ⟨_, .single (.amended id m now), g.amended_books id m now hf⟩

theorem openAccount_follows {e : Engine} (he : e.KeepsInserts) (now : Instant) (newId : String)
    (r : OpenAccount) : g.Follows (g.books.perform e now (.openAccount newId r)) := by
  unfold Books.perform
  simp only
  split
  · next a b hcreate =>
    obtain ⟨ha, hnew, rfl⟩ := Accounts.create_eq_ok he hcreate
    obtain ⟨hpos, hscale, -, -⟩ := Accounts.ofRequest_eq_ok ha
    refine ⟨_, .single (.opened (account?_books_none hnew) hpos hscale), ?_⟩
    simp only [books, List.map_append, List.map_cons, List.map_nil]
  · next c b hcreate =>
    rw [Accounts.create_eq_error hcreate]
    exact follows_self

/-- A plan that is drawn is noted. -/
theorem prepare_follows {e : Engine} {newId : String} {r : TransferRequest} {p : TransferPlan}
    (h : Transfer.prepare e newId r g.books.bank = .ok p) :
    Step g { g with plans := g.plans ++ [p] } := by
  obtain ⟨v, sender, receiver, hv, rfl, ⟨srow, hs, hsa⟩, ⟨rrow, hr, hra⟩, hsf, hrf, hfunds⟩ :=
    Transfer.prepare_eq_ok h
  obtain ⟨s, hslive, rfl⟩ := liveAccount?_books hs
  obtain ⟨t, htlive, rfl⟩ := liveAccount?_books hr
  rw [AccountRow.toAccount_ofAccount, Except.ok.injEq] at hsa hra
  subst hsa hra
  exact .planned newId hv hslive htlive hsf hrf hfunds

/-- The movement of a plan on the tables, as a posting on the register. -/
def postingOf {p : TransferPlan} (m : Bank.Movement g.books.bank p) (s r : Account)
    (hs : g.Live p.fromAccount s) (hsrow : m.sender = .ofAccount s)
    (hr : g.Live p.toAccount r) (hrrow : m.receiver = .ofAccount r) : g.Posting p where
  sender := s
  receiver := r
  debited := m.debited
  credited := m.credited
  sender_live := hs
  receiver_live := hr
  sender_active := by
    have h := m.sender_transferable
    simp only [hsrow, AccountRow.isTransferable, AccountRow.ofAccount, Bool.and_eq_true,
      beq_iff_eq] at h
    exact AccountStatus.name_injective h.1
  receiver_active := by
    have h := m.receiver_transferable
    simp only [hrrow, AccountRow.isTransferable, AccountRow.ofAccount, Bool.and_eq_true,
      beq_iff_eq] at h
    exact AccountStatus.name_injective h.1
  funded := by
    have h := m.senderBalance_read
    simp only [hsrow, AccountRow.ofAccount, readDecimalColumn_text, Except.ok.injEq] at h
    rw [h]
    exact m.funded
  debited_eq := by
    have h := m.senderBalance_read
    simp only [hsrow, AccountRow.ofAccount, readDecimalColumn_text, Except.ok.injEq] at h
    rw [h]
    exact Decimal.sub_eq_ok.1 m.debited_eq
  credited_eq := by
    have h := m.receiverBalance_read
    simp only [hrrow, AccountRow.ofAccount, readDecimalColumn_text, Except.ok.injEq] at h
    rw [h]
    exact Decimal.add_eq_ok.1 m.credited_eq

theorem exists_posting {p : TransferPlan} (m : Bank.Movement g.books.bank p) :
    ∃ k : g.Posting p, m.sender = .ofAccount k.sender ∧ m.receiver = .ofAccount k.receiver ∧
      m.debited = k.debited ∧ m.credited = k.credited := by
  obtain ⟨s, hs, hsrow⟩ := liveAccount?_books m.sender_found
  obtain ⟨r, hr, hrrow⟩ := liveAccount?_books m.receiver_found
  exact ⟨postingOf m s r hs hsrow hr hrrow, hsrow, hrrow, rfl, rfl⟩

theorem posted_books (hg : g.Sound) {p : TransferPlan} (hp : p ∈ g.plans)
    (m : Bank.Movement g.books.bank p) (now : Instant) {k : g.Posting p}
    (hd : m.debited = k.debited) (hc : m.credited = k.credited) :
    m.result now = ⟨(g.accounts.map (k.moved now)).map .ofAccount,
      (g.records ++ [p.record .success now]).map .ofTransaction⟩ := by
  have hids : (g.books.bank.accounts.map (·.id)).Nodup := by
    rw [rows_ids]
    exact hg.accountIds
  have haccounts := m.result_accounts now (hg.plans p hp).distinct hids
  have hmap : g.books.bank.accounts.map (m.moved now) =
      (g.accounts.map (k.moved now)).map .ofAccount := by
    simp only [books, List.map_map]
    apply List.map_congr_left
    intro a _
    simp only [Function.comp_apply, Bank.Movement.moved, Posting.moved, hd, hc]
    show (if a.id = p.fromAccount then _ else if a.id = p.toAccount then _ else _) = _
    split
    · rfl
    split <;> rfl
  rw [hmap] at haccounts
  have hrecords : (m.result now).transactions =
      (g.records ++ [p.record .success now]).map .ofTransaction := by
    simp only [Bank.Movement.result, books, List.map_append, List.map_cons, List.map_nil]
  rw [← haccounts, ← hrecords]

theorem movement_follows (hg : g.Sound) {p : TransferPlan} (hp : p ∈ g.plans)
    (m : Bank.Movement g.books.bank p) (now : Instant) :
    g.Follows { g.books with bank := m.result now } := by
  obtain ⟨k, -, -, hd, hc⟩ := exists_posting m
  refine ⟨_, .single (.posted hp (transaction?_books_none m.record_new) k now), ?_⟩
  rw [posted_books hg hp m now hd hc]
  rfl

theorem failed_follows {p : TransferPlan} (hp : p ∈ g.plans)
    (hnew : g.books.bank.transaction? p.transactionId = none)
    (hs : (g.books.bank.account? p.fromAccount).isSome = true)
    (hr : (g.books.bank.account? p.toAccount).isSome = true) (now : Instant) :
    g.Follows { g.books with bank := { g.books.bank with
      transactions := g.books.bank.transactions ++ [.ofTransaction (p.record .failed now)] } } := by
  refine ⟨_, .single (.failed hp (transaction?_books_none hnew) (account?_books_isSome hs)
    (account?_books_isSome hr) now), ?_⟩
  simp only [books, List.map_append, List.map_cons, List.map_nil]

theorem commit_follows (hg : g.Sound) {e : Engine} (he : e.KeepsInserts) (now : Instant)
    {p : TransferPlan} (hp : p ∈ g.plans) :
    g.Follows (g.books.perform e now (.commit p)) := by
  unfold Books.perform
  simp only
  cases hcommit : Transfer.commit e now p g.books.bank with
  | mk outcome b =>
    cases outcome with
    | ok t =>
      obtain ⟨-, m, -, rfl⟩ := Transfer.commit_eq_ok he hcommit
      exact movement_follows hg hp m now
    | error c =>
      rw [Transfer.commit_eq_error hcommit]
      exact follows_self

theorem recordFailed_follows {e : Engine} (he : e.KeepsInserts) (now : Instant)
    {p : TransferPlan} (hp : p ∈ g.plans) :
    g.Follows (g.books.perform e now (.recordFailed p)) := by
  unfold Books.perform
  simp only
  cases hrec : Transfer.recordFailed e now p g.books.bank with
  | mk outcome b =>
    cases outcome with
    | ok t =>
      obtain ⟨rfl, hnew, hs, hr, rfl⟩ := Transfer.recordFailed_eq_ok he hrec
      exact failed_follows hp hnew hs hr now
    | error c =>
      rw [Transfer.recordFailed_eq_error hrec]
      exact follows_self

/-- However a plan ends, the tables are those of a register that this one leads to. -/
theorem ending_follows (hg : g.Sound) {now : Instant} {p : TransferPlan} (hp : p ∈ g.plans)
    {ledger : TableLedger} {broker : Broker} {outcome : Except (Halt TransferError) Transaction}
    {publish : Publisher} {w : World}
    (h : Transactions.Ending publish now p ⟨g.books.bank, ledger, broker⟩ outcome w) :
    g.Follows { g.books with bank := w.bank } := by
  cases h with
  | carriedOut m _ => exact movement_follows hg hp m now
  | refused _ => exact follows_self
  | failed _ => exact follows_self
  | recorded _ hnew hs hr => exact failed_follows hp hnew hs hr now
  | overflowed _ => exact follows_self

theorem createWith_follows (hg : g.Sound) (publish : Publisher) {e : Engine} (he : e.KeepsInserts)
    (now : Instant) (newId : String) (r : TransferRequest) (ledger : TableLedger) (broker : Broker) :
    g.Follows { g.books with
      bank := (Transactions.createWith publish e now newId r ⟨g.books.bank, ledger, broker⟩).2.bank
      plans := g.books.plans ++ (Transfer.prepare e newId r g.books.bank).toOption.toList } := by
  rcases Transactions.createWith_ending publish he now newId r ⟨g.books.bank, ledger, broker⟩ with
    ⟨cause, hprepare, hcreate⟩ | ⟨p, hprepare, hending⟩
  · rw [hcreate, hprepare]
    simp only [Except.toOption, Option.toList_none, List.append_nil]
    exact follows_self
  · -- The plan is drawn first; the rest happens to the register that has noted it.
    have hstep := prepare_follows hprepare
    obtain ⟨g', hsteps, hbooks⟩ := ending_follows (hg.step hstep) (by simp) hending
    refine ⟨g', .head hstep hsteps, ?_⟩
    rw [hprepare, ← hbooks]
    rfl

theorem transfer_follows (hg : g.Sound) {e : Engine} (he : e.KeepsInserts) (now : Instant)
    (newId : String) (r : TransferRequest) (ledger : TableLedger) (broker : Broker) :
    g.Follows (g.books.perform e now (.transfer newId r ledger broker)) :=
  createWith_follows hg .direct he now newId r ledger broker

theorem perform_follows (hg : g.Sound) {e : Engine} (he : e.KeepsInserts) (now : Instant)
    {c : Call} (hc : g.books.Permits c) : g.Follows (g.books.perform e now c) := by
  cases c with
  | openAccount newId r => exact openAccount_follows he now newId r
  | rename id r =>
    exact amended_follows id (.rename (Text.trim r.name)) now (fun _ => rfl)
      (Accounts.rename_bank e now id r _)
  | close id => exact amended_follows id .close now (fun _ => rfl) (Accounts.close_bank e now id _)
  | delete id =>
    exact amended_follows id .delete now (fun _ => rfl) (Accounts.delete_bank e now id _)
  | prepare newId r =>
    unfold Books.perform
    simp only
    cases hprepare : Transfer.prepare e newId r g.books.bank with
    | error cause =>
      simp only [Except.toOption, Option.toList_none, List.append_nil]
      exact follows_self
    | ok p => exact (prepare_follows hprepare).follows
  | commit p => exact commit_follows hg he now hc
  | recordFailed p => exact recordFailed_follows he now hc
  | transfer newId r ledger broker => exact transfer_follows hg he now newId r ledger broker

theorem later_follows (hg : g.Sound) {s : Books} (h : g.books.Later s) : g.Follows s := by
  induction h with
  | refl => exact follows_self
  | step _ he now hc ih =>
    obtain ⟨g₁, hsteps, rfl⟩ := ih
    obtain ⟨g₂, hmore, hbooks⟩ := perform_follows (hg.run hsteps) he now hc
    exact ⟨g₂, hsteps.trans hmore, hbooks⟩

end TransferLedger.Register

namespace TransferLedger
set_option autoImplicit false

/-- Every run of the services is a run of the register. -/
theorem Books.Reachable.register {s : Books} (h : s.Reachable) :
    ∃ g : Register, g.Reachable ∧ s = g.books := by
  induction h with
  | start => exact ⟨.empty, .refl, rfl⟩
  | step _ he now hc ih =>
    obtain ⟨g, hg, rfl⟩ := ih
    obtain ⟨g', hsteps, hbooks⟩ := Register.perform_follows hg.sound he now hc
    exact ⟨g', hg.trans hsteps, hbooks⟩

end TransferLedger
