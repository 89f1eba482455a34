import TransferLedger.Proofs.Ledger.Listing

/-! # The two ledger stores agree

Asked the same things from the beginning, the store in memory and the store on a table answer the same
(`LedgerStore.stores_agree`). The table then lists the entries in memory, in their order (`SameContents`), and a
sum that fits does not depend on the order of its terms (`Decimal.sum_perm`).
-/

namespace TransferLedger
set_option autoImplicit false

/-! ## Calls and answers -/

inductive LedgerCall
  | insertEntries (batch : List Entry)
  | entriesByAccount (account : String)
  | entriesBySide (side : Side) (account : String)
  | entriesByTransaction (id : String)
  | accountBalance (account : String)
  | softDelete (now : Instant) (id : String)
deriving DecidableEq, Repr

inductive LedgerAnswer
  | inserted (outcome : Except StoreError Nat)
  | listed (outcome : Except StoreError (List Entry))
  | summed (outcome : Except (Halt StoreError) Decimal)
  | deleted (outcome : Except StoreError Unit)

/-- What is inserted is dated in the years 0000 to 9999. -/
def LedgerCall.Dated : LedgerCall → Prop
  | .insertEntries batch => ∀ e ∈ batch, e.createdAt.Writable
  | _ => True

instance : DecidablePred LedgerCall.Dated := fun call =>
  match call with
  | .insertEntries batch => inferInstanceAs (Decidable (∀ e ∈ batch, e.createdAt.Writable))
  | .entriesByAccount _ => isTrue trivial
  | .entriesBySide _ _ => isTrue trivial
  | .entriesByTransaction _ => isTrue trivial
  | .accountBalance _ => isTrue trivial
  | .softDelete _ _ => isTrue trivial

namespace LedgerStore

variable {σ : Type}

def perform (store : LedgerStore σ) (s : σ) : LedgerCall → LedgerAnswer × σ
  | .insertEntries batch =>
    (.inserted (store.insertEntries batch s).1, (store.insertEntries batch s).2)
  | .entriesByAccount account => (.listed (store.entriesByAccount account s), s)
  | .entriesBySide side account => (.listed (store.entriesBySide side account s), s)
  | .entriesByTransaction id => (.listed (store.entriesByTransaction id s), s)
  | .accountBalance account => (.summed (store.accountBalance account s), s)
  | .softDelete now id => (.deleted (store.softDelete now id s).1, (store.softDelete now id s).2)

def after (store : LedgerStore σ) (s : σ) (calls : List LedgerCall) : σ :=
  calls.foldl (fun s call => (store.perform s call).2) s

def answer (store : LedgerStore σ) (s : σ) (call : LedgerCall) : LedgerAnswer := (store.perform s call).1

end LedgerStore

/-! ## Sums -/

namespace Decimal

def topScale (ds : List Decimal) : ℕ := (ds.map (·.scale)).foldr max 0

/-- The magnitudes of the decimals, added up at their largest scale, are below 2^96. -/
def Fit (ds : List Decimal) : Prop := magnitude (topScale ds) ds < bound
deriving Decidable

theorem topScale_le (ds : List Decimal) : topScale ds ≤ 28 := by
  induction ds with
  | nil => exact Nat.zero_le 28
  | cons d ds ih => exact Nat.max_le.2 ⟨d.scale_le, ih⟩

theorem scale_le_topScale {ds : List Decimal} {d : Decimal} (h : d ∈ ds) : d.scale ≤ topScale ds := by
  induction ds with
  | nil => cases h
  | cons x ds ih =>
    rcases List.mem_cons.1 h with rfl | h
    · exact Nat.le_max_left ..
    · exact Nat.le_trans (ih h) (Nat.le_max_right ..)

/-- Decimals that fit have a sum, and in another order a sum of the same value. -/
theorem sum_perm {ds ds' : List Decimal} (hfit : Fit ds) (h : ds'.Perm ds) :
    ∃ d d', sum ds = .ok d ∧ sum ds' = .ok d' ∧ d.value = d'.value := by
  have hscale : ∀ d ∈ ds, d.scale ≤ topScale ds := fun d hd => scale_le_topScale hd
  have hfit' : magnitude (topScale ds) ds' < bound := magnitude_perm h ▸ hfit
  -- Neither sum is rounded, so each counts the units of its terms at the largest scale.
  obtain ⟨d, hsum, hd, hunits⟩ := sum_units (topScale_le ds) hscale hfit
  obtain ⟨d', hsum', hd', hunits'⟩ :=
    sum_units (topScale_le ds) (fun x hx => hscale x (h.subset hx)) hfit'
  refine ⟨d, d', hsum, hsum', ?_⟩
  rw [value_eq_units hd, value_eq_units hd', hunits, hunits', (h.map _).sum_eq]

end Decimal

/-- What the live entries of an account contribute to its balance. -/
def Entry.contributions (es : List Entry) (account : String) : List Decimal :=
  (liveOf es account).map (·.balance)

theorem accountBalance_agree {m : MemoryLedger} (h : m.Indexed) {account : String}
    (hfit : Decimal.Fit (Entry.contributions m.entries account)) :
    ∃ d d', MemoryLedger.store.accountBalance account m = .ok d ∧
      (TableLedger.store .sound).accountBalance account (.listing m.entries) = .ok d' ∧
      d.value = d'.value := by
  obtain ⟨sorted, hperm, htable⟩ := TableLedger.accountBalance_listing m.entries account
  obtain ⟨d, d', hsum, hsum', hvalue⟩ := Decimal.sum_perm hfit (hperm.map (·.balance))
  refine ⟨d, d', ?_, ?_, hvalue⟩
  · have hmemory : m.accountBalance account = .ok d := (h.accountBalance_eq account).trans hsum
    simp only [MemoryLedger.store, hmemory]
  · have hsound : TableLedger.accountBalance .sound account (.listing m.entries) = .ok d' := by
      rw [htable, hsum']
      rfl
    exact hsound

/-! ## The same contents -/

/-- The table lists the entries in memory, and these are indexed and dated. -/
structure SameContents (m : MemoryLedger) (t : TableLedger) : Prop where
  listing_eq : t = .listing m.entries
  indexed : m.Indexed
  dated : ∀ e ∈ m.entries, e.createdAt.Writable

theorem MemoryLedger.mem_addNew : ∀ {batch : List Entry} {m : MemoryLedger} {e : Entry},
    e ∈ (addNew batch m).2.entries → e ∈ m.entries ∨ e ∈ batch
  | [], _, _, h => .inl h
  | x :: xs, m, e, h => by
    rw [addNew] at h
    split at h
    · exact (mem_addNew h).imp_right (List.mem_cons_of_mem x)
    · rcases mem_addNew h with h | h
      · rcases List.mem_append.1 h with h | h
        · exact .inl h
        · exact .inr (List.mem_singleton.1 h ▸ List.mem_cons_self)
      · exact .inr (List.mem_cons_of_mem x h)

namespace SameContents

variable {m : MemoryLedger} {t : TableLedger} {call : LedgerCall}

theorem perform (h : SameContents m t) (hcall : call.Dated) :
    SameContents (MemoryLedger.store.perform m call).2 ((TableLedger.store .sound).perform t call).2 := by
  obtain ⟨rfl, hindexed, hdated⟩ := h
  cases call with
  | insertEntries batch =>
    refine ⟨congrArg Prod.snd (TableLedger.insertEntries_listing batch m), hindexed.insertEntries batch, ?_⟩
    intro e he
    have hmem : e ∈ (MemoryLedger.insertEntries batch m).2.entries := he
    unfold MemoryLedger.insertEntries at hmem
    split at hmem
    · exact hdated e hmem
    · exact (MemoryLedger.mem_addNew hmem).elim (hdated e) (hcall e)
  | softDelete now id =>
    refine ⟨congrArg Prod.snd (TableLedger.softDelete_listing hindexed now id),
      hindexed.softDelete now id, ?_⟩
    intro e he
    have hmem : e ∈ (MemoryLedger.softDelete now id m).2.entries := he
    unfold MemoryLedger.softDelete at hmem
    split at hmem
    · exact hdated e hmem
    split at hmem
    · exact hdated e hmem
    obtain ⟨x, hx, rfl⟩ := List.mem_map.1 hmem
    split
    · exact hdated x hx
    · exact hdated x hx
  | entriesByAccount account => exact ⟨rfl, hindexed, hdated⟩
  | entriesBySide side account => exact ⟨rfl, hindexed, hdated⟩
  | entriesByTransaction id => exact ⟨rfl, hindexed, hdated⟩
  | accountBalance account => exact ⟨rfl, hindexed, hdated⟩

theorem answer (h : SameContents m t) (hcall : ∀ account, call ≠ .accountBalance account) :
    MemoryLedger.store.answer m call = (TableLedger.store .sound).answer t call := by
  obtain ⟨rfl, hindexed, hdated⟩ := h
  cases call with
  | insertEntries batch =>
    exact congrArg (fun r => LedgerAnswer.inserted r.1) (TableLedger.insertEntries_listing batch m).symm
  | softDelete now id =>
    exact congrArg (fun r => LedgerAnswer.deleted r.1) (TableLedger.softDelete_listing hindexed now id).symm
  | entriesByAccount account =>
    refine congrArg LedgerAnswer.listed ((congrArg Except.ok (hindexed.entriesByAccount_eq account)).trans ?_)
    exact (TableLedger.entriesByAccount_listing hdated account).symm
  | entriesBySide side account =>
    refine congrArg LedgerAnswer.listed ((congrArg Except.ok (hindexed.entriesBySide_eq side account)).trans ?_)
    exact (TableLedger.entriesBySide_listing hdated side account).symm
  | entriesByTransaction id =>
    have htable := TableLedger.entriesByTransaction_listing m.entries id
    simp only [beq_eq_decide] at htable
    refine congrArg LedgerAnswer.listed ((congrArg Except.ok (hindexed.entriesByTransaction_eq id)).trans ?_)
    exact htable.symm
  | accountBalance account => exact absurd rfl (hcall account)

end SameContents

theorem SameContents.after {calls : List LedgerCall} {m : MemoryLedger} {t : TableLedger}
    (h : SameContents m t) (hcalls : ∀ call ∈ calls, call.Dated) :
    SameContents (MemoryLedger.store.after m calls) ((TableLedger.store .sound).after t calls) := by
  induction calls generalizing m t with
  | nil => exact h
  | cons call calls ih =>
    have hstep := h.perform (hcalls call List.mem_cons_self)
    exact ih hstep fun c hc => hcalls c (List.mem_cons_of_mem call hc)

theorem SameContents.empty : SameContents .empty .empty := ⟨rfl, MemoryLedger.empty_indexed, nofun⟩

/-- **The two ledger stores agree.** Asked the same from the beginning they answer the same, and have the
same balance of an account wherever its contributions fit. -/
theorem LedgerStore.stores_agree {calls : List LedgerCall} (h : ∀ call ∈ calls, call.Dated) :
    (∀ call, (∀ account, call ≠ .accountBalance account) →
      MemoryLedger.store.answer (MemoryLedger.store.after .empty calls) call =
        (TableLedger.store .sound).answer ((TableLedger.store .sound).after .empty calls) call) ∧
    ∀ account,
      Decimal.Fit (Entry.contributions (MemoryLedger.store.after .empty calls).entries account) →
      ∃ d d', MemoryLedger.store.answer (MemoryLedger.store.after .empty calls)
          (.accountBalance account) = .summed (.ok d) ∧
        (TableLedger.store .sound).answer ((TableLedger.store .sound).after .empty calls)
          (.accountBalance account) = .summed (.ok d') ∧ d.value = d'.value := by
  have hsame := SameContents.empty.after h
  refine ⟨fun call hcall => hsame.answer hcall, fun account hfit => ?_⟩
  obtain ⟨d, d', hmemory, htable, hvalue⟩ := accountBalance_agree hsame.indexed hfit
  rw [← hsame.listing_eq] at htable
  exact ⟨d, d', congrArg _ hmemory, congrArg _ htable, hvalue⟩

/-- Three entries of one account are inserted, two of them twice and a quarter of a second apart, and the third
is deleted. -/
def sampleCalls : List LedgerCall :=
  let entry (transaction : String) (createdAt : Instant) : Entry :=
    { id := transaction ++ ":credit", account := "A", transactionId := transaction, side := .credit
      amount := ⟨1500, 3, by decide, by decide⟩, balance := ⟨1500, 3, by decide, by decide⟩
      currency := "USD", description := "", createdAt := createdAt, updatedAt := createdAt, deletedAt := none }
  let first := entry "t" ⟨1700000000, 0⟩
  let second := entry "u" ⟨1700000000, 250000000⟩
  let third := entry "v" ⟨1700000000, 0⟩
  [.insertEntries [first, third, second], .insertEntries [second, first], .softDelete ⟨1700000001, 0⟩ third.id]

theorem sample_stores_agree : (∀ call ∈ sampleCalls, call.Dated) ∧
    MemoryLedger.store.answer (MemoryLedger.store.after .empty sampleCalls) (.entriesByAccount "A") =
      (TableLedger.store .sound).answer ((TableLedger.store .sound).after .empty sampleCalls)
        (.entriesByAccount "A") ∧
    Decimal.Fit (Entry.contributions (MemoryLedger.store.after .empty sampleCalls).entries "A") ∧
    ∃ d d', MemoryLedger.store.answer (MemoryLedger.store.after .empty sampleCalls)
        (.accountBalance "A") = .summed (.ok d) ∧
      (TableLedger.store .sound).answer ((TableLedger.store .sound).after .empty sampleCalls)
        (.accountBalance "A") = .summed (.ok d') ∧ d.value = d'.value := by
  have hdated : ∀ call ∈ sampleCalls, call.Dated := by decide +kernel
  have hfit : Decimal.Fit (Entry.contributions (MemoryLedger.store.after .empty sampleCalls).entries "A") := by
    decide +kernel
  have hagree := LedgerStore.stores_agree hdated
  exact ⟨hdated, hagree.1 _ nofun, hfit, hagree.2 "A" hfit⟩

end TransferLedger
