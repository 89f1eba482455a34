import TransferLedger.Bank.Row
import TransferLedger.Proofs.Decimal.Text
import TransferLedger.Proofs.Store.Engine

/-! # Rows read back

The row of an account is read back as that account and the row of a record as that record, whatever
their texts, balances and times (`toAccount_ofAccount`, `toTransaction_ofTransaction`), and so are
whole tables of such rows.
-/

namespace TransferLedger
set_option autoImplicit false

theorem AccountStatus.ofName?_name (s : AccountStatus) : ofName? s.name = some s := by
  cases s <;> decide

theorem AccountStatus.name_injective {s t : AccountStatus} (h : s.name = t.name) : s = t := by
  have := congrArg ofName? h
  rwa [ofName?_name, ofName?_name, Option.some.injEq] at this

theorem TransactionStatus.ofName?_name (s : TransactionStatus) : ofName? s.name = some s := by
  cases s <;> decide

theorem TransactionStatus.name_injective {s t : TransactionStatus} (h : s.name = t.name) : s = t := by
  have := congrArg ofName? h
  rwa [ofName?_name, ofName?_name, Option.some.injEq] at this

theorem readDecimalColumn_text (d : Decimal) : readDecimalColumn d.text = .ok d := by
  rw [readDecimalColumn, Decimal.read_text]
  rfl

theorem AccountRow.toAccount_ofAccount (a : Account) : (ofAccount a).toAccount = .ok a := by
  unfold toAccount
  simp only [ofAccount, AccountStatus.ofName?_name, readDecimalColumn_text]
  rfl

theorem AccountRow.ofAccount_injective {a b : Account} (h : ofAccount a = ofAccount b) : a = b := by
  have := congrArg toAccount h
  rwa [toAccount_ofAccount, toAccount_ofAccount, Except.ok.injEq] at this

theorem TransactionRow.toTransaction_ofTransaction (t : Transaction) :
    (ofTransaction t).toTransaction = .ok t := by
  unfold toTransaction
  simp only [ofTransaction, TransactionStatus.ofName?_name, readDecimalColumn_text]
  rfl

theorem TransactionRow.ofTransaction_injective {t t' : Transaction}
    (h : ofTransaction t = ofTransaction t') : t = t' := by
  have := congrArg toTransaction h
  rwa [toTransaction_ofTransaction, toTransaction_ofTransaction, Except.ok.injEq] at this

theorem AccountRow.mapM_toAccount (accounts : List Account) :
    (accounts.map ofAccount).mapM toAccount = .ok accounts := by
  induction accounts with
  | nil => rfl
  | cons a accounts ih =>
    rw [List.map_cons, List.mapM_cons, toAccount_ofAccount, ih]
    rfl

theorem TransactionRow.mapM_toTransaction (records : List Transaction) :
    (records.map ofTransaction).mapM toTransaction = .ok records := by
  induction records with
  | nil => rfl
  | cons t records ih =>
    rw [List.map_cons, List.mapM_cons, toTransaction_ofTransaction, ih]
    rfl

end TransferLedger
