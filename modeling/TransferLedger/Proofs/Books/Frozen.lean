import TransferLedger.Proofs.Books.Currency
import TransferLedger.Proofs.Service.Absent

/-! # Closed and deleted accounts

No call opens a closed account again or brings a deleted one back, and the unit of a transfer looks at
both accounts itself, however long ago its plan was drawn. So a closed account keeps its balance and is
party to no further transfer (`ClosedSince`), and a deleted one keeps its whole row and is out of reach of
every call (`Bank.Deleted`), whatever calls follow (`Books.Reachable.frozen`).
-/

namespace TransferLedger
set_option autoImplicit false

/-- An account has kept its balance and is closed, and it is party to none of the transfers that were
carried out in the meantime. -/
structure ClosedSince (b b' : Bank) (id : String) : Prop where
  account : ∃ row row', b.account? id = some row ∧ b'.account? id = some row' ∧
    row'.balance = row.balance ∧ row'.status = AccountStatus.closed.name
  records : ∃ later, b'.transactions = b.transactions ++ later ∧
    ∀ r ∈ later, r.touches id = true → r.status ≠ TransactionStatus.success.name

/-- There is this row of an account that is deleted: nothing shows it and nothing that is asked of it is
done. -/
structure Bank.Deleted (b : Bank) (id : String) (row : AccountRow) : Prop where
  kept : b.account? id = some row
  get_fails : ∀ e, ∃ c, Accounts.get e id b = .error c
  not_listed : ∀ e q page, Accounts.list e q b = .ok page → ∀ a ∈ page.accounts, a.id ≠ id
  rename_fails : ∀ e now r, ∃ c, Accounts.rename e now id r b = (.error c, b)
  close_fails : ∀ e now, ∃ c, Accounts.close e now id b = (.error c, b)
  delete_fails : ∀ e now, ∃ c, Accounts.delete e now id b = (.error c, b)
  prepare_fails : ∀ r : TransferRequest, r.Names id → ∀ e newId,
    ∃ c, Transfer.prepare e newId r b = .error c
  commit_fails : ∀ p : TransferPlan, p.Names id → ∀ e now, e.KeepsInserts →
    ∃ c, Transfer.commit e now p b = (.error c, b)
  commit_notFound : ∀ p : TransferPlan, p.Names id → ∀ e now, e.NeverFails →
    ∃ c, Transfer.commit e now p b = (.error (.refused c), b) ∧ c.code = .notFound
  create_fails : ∀ newId (r : OpenAccount), r.effectiveId newId = id → ∀ e now, e.KeepsInserts →
    ∃ c, Accounts.create e now newId r b = (.error c, b)

theorem Bank.deleted_of_none {b : Bank} {id : String} {row : AccountRow}
    (hrow : b.account? id = some row) (h : b.liveAccount? id = none) : b.Deleted id row where
  kept := hrow
  get_fails := Accounts.get_of_none h
  not_listed := by
    rintro e q page hpage a ha rfl
    obtain ⟨r, hr⟩ := Accounts.list_live hpage ha
    rw [h] at hr
    cases hr
  rename_fails := Accounts.rename_of_none h
  close_fails := Accounts.close_of_none h
  delete_fails := Accounts.delete_of_none h
  prepare_fails := fun _ hr => Transfer.prepare_of_none h hr
  commit_fails := fun _ hp _ now he => Transfer.commit_of_none h hp he now
  commit_notFound := fun _ hp _ now he => Transfer.commit_notFound h hp he now
  create_fails := by
    rintro newId r rfl e now he
    exact Accounts.create_of_taken he (by rw [hrow]; exact nofun) now

/-! ## What every step keeps -/

namespace Register

variable {g g' g'' : Register} {id : String}

theorem Sound.eq_of_id (hg : g.Sound) {a a' : Account} (ha : a ∈ g.accounts) (ha' : a' ∈ g.accounts)
    (h : a.id = a'.id) : a = a' := List.inj_on_of_nodup_map hg.accountIds ha ha' h

/-- An account that is closed or deleted is named by no plan that is posted, and stays as it is. -/
theorem Posting.moved_eq_self {p : TransferPlan} (m : g.Posting p) (hg : g.Sound) {a : Account}
    (ha : a ∈ g.accounts) (h : a.transferable = false) (now : Instant) :
    a.id ≠ p.fromAccount ∧ a.id ≠ p.toAccount ∧ m.moved now a = a := by
  have hfrom : a.id ≠ p.fromAccount := by
    intro hid
    obtain rfl := hg.eq_of_id ha m.sender_live.mem (hid.trans m.sender_live.id_eq.symm)
    rw [Account.transferable, m.sender_active, m.sender_live.not_deleted] at h
    cases h
  have hto : a.id ≠ p.toAccount := by
    intro hid
    obtain rfl := hg.eq_of_id ha m.receiver_live.mem (hid.trans m.receiver_live.id_eq.symm)
    rw [Account.transferable, m.receiver_active, m.receiver_live.not_deleted] at h
    cases h
  exact ⟨hfrom, hto, by rw [Posting.moved, if_neg hfrom, if_neg hto]⟩

/-- Deleted accounts stay as they are. -/
theorem Step.deleted_kept (hg : g.Sound) (h : Step g g') {a : Account} (ha : a ∈ g.accounts)
    (hdeleted : a.deletedAt ≠ none) : a ∈ g'.accounts := by
  cases h with
  | planned => exact ha
  | opened => exact List.mem_append_left _ ha
  | amended id m now =>
    exact List.mem_map.2 ⟨a, ha, if_neg fun hlive => hdeleted hlive.2⟩
  | failed => exact ha
  | posted hp hnew m now =>
    have hidle : a.transferable = false := by
      rw [Account.transferable, Bool.and_eq_false_iff, Option.isNone_eq_false_iff,
        ← Option.ne_none_iff_isSome]
      exact .inr hdeleted
    exact List.mem_map.2 ⟨a, ha, (m.moved_eq_self hg ha hidle now).2.2⟩

/-- The account of an id is closed and has this balance, and it is party to no transfer that was carried
out since an earlier register. -/
structure Closed (g g' : Register) (id : String) (balance : Decimal) : Prop where
  account : ∃ a ∈ g'.accounts, a.id = id ∧ a.status = .closed ∧ a.balance = balance
  records : ∃ later, g'.records = g.records ++ later ∧
    ∀ t ∈ later, t.touches id = true → t.status ≠ .success

theorem Closed.step {balance : Decimal} (hc : g.Closed g' id balance) (hg : g'.Sound)
    (h : Step g' g'') : g.Closed g'' id balance := by
  obtain ⟨a, ha, hid, hstatus, hbalance⟩ := hc.account
  obtain ⟨later, hrecords, hlater⟩ := hc.records
  cases h with
  | planned => exact ⟨hc.account, hc.records⟩
  | opened => exact ⟨⟨a, List.mem_append_left _ ha, hid, hstatus, hbalance⟩, hc.records⟩
  | amended id' m now =>
    refine ⟨⟨_, List.mem_map_of_mem ha, ?_⟩, hc.records⟩
    split
    · exact ⟨(m.apply_id now a).trans hid, Amendment.apply_closed hstatus now m,
        (m.apply_balance now a).trans hbalance⟩
    · exact ⟨hid, hstatus, hbalance⟩
  | @failed p hp hnew hs hr now =>
    refine ⟨⟨a, ha, hid, hstatus, hbalance⟩, later ++ [p.record .failed now], ?_, ?_⟩
    · rw [hrecords, List.append_assoc]
    · intro t ht
      rcases List.mem_append.1 ht with ht | ht
      · exact hlater t ht
      · rw [List.mem_singleton.1 ht]
        exact fun _ => nofun
  | @posted p hp hnew m now =>
    have hidle : a.transferable = false := by
      rw [Account.transferable, hstatus]
      rfl
    obtain ⟨hfrom, hto, hsame⟩ := m.moved_eq_self hg ha hidle now
    refine ⟨⟨a, List.mem_map.2 ⟨a, ha, hsame⟩, hid, hstatus, hbalance⟩,
      later ++ [p.record .success now], ?_, ?_⟩
    · rw [hrecords, List.append_assoc]
    · intro t ht
      rcases List.mem_append.1 ht with ht | ht
      · exact hlater t ht
      · -- The plan names other accounts.
        rw [List.mem_singleton.1 ht]
        intro htouches
        subst hid
        simp only [Transaction.touches, TransferPlan.record, Bool.or_eq_true, beq_iff_eq] at htouches
        exact absurd htouches (not_or.2 ⟨hfrom.symm, hto.symm⟩)

/-! ## What every run keeps -/

theorem deleted_kept (hg : g.Sound) (h : Relation.ReflTransGen Step g g') {a : Account}
    (ha : a ∈ g.accounts) (hdeleted : a.deletedAt ≠ none) : a ∈ g'.accounts := by
  induction h with
  | refl => exact ha
  | tail hsteps hstep ih => exact hstep.deleted_kept (hg.run hsteps) ih hdeleted

theorem Closed.run {balance : Decimal} (hc : g.Closed g' id balance) (hg : g'.Sound)
    (h : Relation.ReflTransGen Step g' g'') : g.Closed g'' id balance := by
  induction h with
  | refl => exact hc
  | tail hsteps hstep ih => exact ih.step (hg.run hsteps) hstep

/-! ## In the tables -/

theorem Closed.since {a : Account} (hc : g.Closed g' id a.balance) (hg : g.Sound) (hg' : g'.Sound)
    (ha : g.Live id a) : ClosedSince g.books.bank g'.books.bank id where
  account := by
    obtain ⟨a', ha', hid, hstatus, hbalance⟩ := hc.account
    refine ⟨_, _, ha.id_eq ▸ hg.account? ha.mem, hid ▸ hg'.account? ha', ?_, ?_⟩
    · exact congrArg Decimal.text hbalance
    · exact congrArg AccountStatus.name hstatus
  records := by
    obtain ⟨later, hrecords, hlater⟩ := hc.records
    refine ⟨later.map .ofTransaction, ?_, ?_⟩
    · simp only [books, hrecords, List.map_append]
    · intro row hrow htouches hsuccess
      obtain ⟨t, ht, rfl⟩ := List.mem_map.1 hrow
      exact hlater t ht htouches (TransactionStatus.name_injective hsuccess)

theorem Sound.liveAccount?_deleted (hg : g.Sound) {a : Account} (ha : a ∈ g.accounts)
    (hdeleted : a.deletedAt ≠ none) : g.books.bank.liveAccount? a.id = none := by
  cases hfind : g.books.bank.liveAccount? a.id with
  | none => rfl
  | some row =>
    obtain ⟨a', hlive, -⟩ := liveAccount?_books hfind
    obtain rfl := hg.eq_of_id ha hlive.mem hlive.id_eq.symm
    exact absurd hlive.not_deleted hdeleted

/-- What amending a live account comes to. -/
theorem exists_amended (m : Amendment) (now : Instant) {f : AccountRow → AccountRow}
    (hf : ∀ a, f (.ofAccount a) = .ofAccount (m.apply now a)) {row : AccountRow}
    (hrow : g.books.bank.liveAccount? id = some row) :
    ∃ a g', g.Live id a ∧ row = .ofAccount a ∧ Step g g' ∧ m.apply now a ∈ g'.accounts ∧
      g'.records = g.records ∧
      { g.books with bank := g.books.bank.change id (fun _ => true) f } = g'.books := by
  obtain ⟨a, ha, rfl⟩ := liveAccount?_books hrow
  exact ⟨a, _, ha, rfl, .amended id m now,
    List.mem_map.2 ⟨a, ha.mem, if_pos ⟨ha.id_eq, ha.not_deleted⟩⟩, rfl, g.amended_books id m now hf⟩

theorem Sound.closed (hg : g.Sound) {row : AccountRow} {now : Instant}
    (hrow : g.books.bank.liveAccount? id = some row) {s : Books}
    (hlater : Books.Later { g.books with bank := g.books.bank.change id (fun _ => true) fun row =>
      { row with status := AccountStatus.closed.name, updatedAt := now } } s) :
    ClosedSince g.books.bank s.bank id := by
  obtain ⟨a, g₁, ha, -, hstep, hclosed, hrecords, hbooks⟩ := exists_amended .close now
    (f := fun row => { row with status := AccountStatus.closed.name, updatedAt := now })
    (fun _ => rfl) hrow
  rw [hbooks] at hlater
  have hg₁ := hg.step hstep
  obtain ⟨g', hsteps, rfl⟩ := later_follows hg₁ hlater
  have hstart : g.Closed g₁ id a.balance :=
    ⟨⟨_, hclosed, ha.id_eq, rfl, rfl⟩, [], by rw [hrecords, List.append_nil], nofun⟩
  exact (hstart.run hg₁ hsteps).since hg (hg₁.run hsteps) ha

theorem Sound.deleted (hg : g.Sound) {row : AccountRow} {now : Instant}
    (hrow : g.books.bank.liveAccount? id = some row) {s : Books}
    (hlater : Books.Later { g.books with bank := g.books.bank.change id (fun _ => true) fun row =>
      { row with deletedAt := some now, updatedAt := now } } s) :
    s.bank.Deleted id { row with deletedAt := some now, updatedAt := now } := by
  obtain ⟨a, g₁, ha, rfl, hstep, hdeleted, -, hbooks⟩ := exists_amended .delete now
    (f := fun row => { row with deletedAt := some now, updatedAt := now }) (fun _ => rfl) hrow
  rw [hbooks] at hlater
  have hg₁ := hg.step hstep
  obtain ⟨g', hsteps, rfl⟩ := later_follows hg₁ hlater
  have hg' := hg₁.run hsteps
  have hkept := deleted_kept hg₁ hsteps hdeleted nofun
  have hgone : g'.books.bank.liveAccount? (Amendment.delete.apply now a).id = none :=
    hg'.liveAccount?_deleted hkept nofun
  obtain rfl := ha.id_eq
  exact Bank.deleted_of_none (hg'.account? hkept) hgone

end Register

namespace Books

theorem Reachable.frozen {s : Books} (h : s.Reachable) (e : Engine) (now : Instant) (id : String) :
    (∀ a, (Accounts.close e now id s.bank).1 = .ok a →
      ∀ s', (s.perform e now (.close id)).Later s' → ClosedSince s.bank s'.bank id) ∧
    ((Accounts.delete e now id s.bank).1 = .ok () →
      ∃ row, s.bank.liveAccount? id = some row ∧
        ∀ s', (s.perform e now (.delete id)).Later s' →
          s'.bank.Deleted id { row with deletedAt := some now, updatedAt := now }) := by
  obtain ⟨g, hreach, rfl⟩ := h.register
  have hg := Register.Reachable.sound hreach
  refine ⟨?_, ?_⟩
  · intro a hclose s' hlater
    obtain ⟨⟨row, hrow⟩, hbank⟩ := Accounts.close_eq_ok (Prod.ext hclose rfl)
    simp only [perform, hbank] at hlater
    exact hg.closed hrow hlater
  · intro hdelete
    obtain ⟨⟨row, hrow⟩, hbank⟩ := Accounts.delete_eq_ok (Prod.ext hdelete rfl)
    refine ⟨row, hrow, ?_⟩
    intro s' hlater
    simp only [perform, hbank] at hlater
    exact hg.deleted hrow hlater

/-- The receiver of the plan is closed before the plan is committed. -/
def sampleClosed : Books :=
  (samplePlanned.perform .sound default (.close "bob")).perform .sound default (.commit samplePlan)

/-- The receiver of the plan is deleted before the plan is committed. -/
def sampleDeleted : Books :=
  (samplePlanned.perform .sound default (.delete "bob")).perform .sound default (.commit samplePlan)

theorem sample_frozen : ClosedSince samplePlanned.bank sampleClosed.bank "bob" ∧
    ∃ row, samplePlanned.bank.liveAccount? "bob" = some row ∧
      sampleDeleted.bank.Deleted "bob" { row with deletedAt := some default, updatedAt := default } := by
  have he := Engine.sound_keepsInserts
  have hclose : (Accounts.close .sound default "bob" samplePlanned.bank).1 =
      .ok ⟨"bob", "b", "", "EUR", .zero, .closed, default, default, none⟩ := by decide +kernel
  have hdelete : (Accounts.delete .sound default "bob" samplePlanned.bank).1 = .ok () := by
    decide +kernel
  have hlaterClosed : (samplePlanned.perform .sound default (.close "bob")).Later sampleClosed :=
    .step .refl he default (samplePlanned.plans_subset _ _ _ samplePlan_mem)
  have hlaterDeleted : (samplePlanned.perform .sound default (.delete "bob")).Later sampleDeleted :=
    .step .refl he default (samplePlanned.plans_subset _ _ _ samplePlan_mem)
  obtain ⟨hclosed, hdeleted⟩ := samplePlanned_reachable.frozen .sound default "bob"
  obtain ⟨row, hrow, hgone⟩ := hdeleted hdelete
  exact ⟨hclosed _ hclose sampleClosed hlaterClosed, row, hrow, hgone sampleDeleted hlaterDeleted⟩

end Books

end TransferLedger
