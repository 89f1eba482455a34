import Mathlib.Data.List.Flatten
import TransferLedger.Proofs.Books.History
import TransferLedger.Proofs.Instant.Order
import TransferLedger.Proofs.Service.Absent
import TransferLedger.Proofs.Store.Keyed

/-! # Pages of accounts

The pages of one size cut the sorted list of the live accounts into pieces (`Paged`), which a listing of the
accounts gives one by one (`Accounts.pages_partition`). Rows are read one by one, so a page of rows is read as
the same page of the accounts. The order is strict because ids are unique, so every account has its place.
-/

namespace TransferLedger
set_option autoImplicit false

/-! ## Cutting a list into pages -/

/-- Together the pages are the whole; they are full up to the last that is not empty, and later ones are empty.
Pages are counted from one, and page zero is the first. -/
structure Paged {α : Type} (size : Nat) (whole : List α) (page : Nat → List α) (last : Nat) : Prop where
  zero : page 0 = page 1
  whole_eq : (List.range last).flatMap (fun k => page (k + 1)) = whole
  full : ∀ n, 1 ≤ n → n < last → (page n).length = size
  nonempty : ∀ n, 1 ≤ n → n ≤ last → page n ≠ []
  empty : ∀ n, last < n → page n = []

def pageOf {α : Type} (size : Nat) (whole : List α) (n : Nat) : List α :=
  (whole.drop (Bank.pageOffset n size)).take size

theorem take_pages {α : Type} (xs : List α) (size count : Nat) :
    (List.range count).flatMap (fun k => (xs.drop (k * size)).take size) = xs.take (count * size) := by
  induction count with
  | zero => simp
  | succ count ih => rw [List.range_succ, List.flatMap_append, ih, Nat.succ_mul, List.take_add, List.flatMap_singleton]

theorem paged_pageOf {α : Type} {size : Nat} (hsize : 0 < size) (whole : List α) :
    Paged size whole (pageOf size whole) ((whole.length + (size - 1)) / size) := by
  generalize hlast : (whole.length + (size - 1)) / size = last
  have hlow : last * size ≤ whole.length + (size - 1) := hlast ▸ Nat.div_mul_le_self ..
  have hhigh : whole.length + (size - 1) < (last + 1) * size := by
    rw [← hlast, Nat.mul_comm]
    exact Nat.lt_mul_div_succ _ hsize
  rw [Nat.succ_mul] at hhigh
  have hstep : ∀ n, 1 ≤ n → n * size = (n - 1) * size + size := by
    intro n hn
    rw [← Nat.succ_mul, Nat.succ_eq_add_one, Nat.sub_add_cancel hn]
  have hlength : ∀ n, (pageOf size whole n).length = min size (whole.length - (n - 1) * size) := by
    intro n
    rw [pageOf, List.length_take, List.length_drop, Bank.pageOffset]
  refine ⟨rfl, ?_, fun n hn hbefore => ?_, fun n hn hbefore hnil => ?_, fun n hafter => ?_⟩
  · rw [show (fun k => pageOf size whole (k + 1)) = fun k => (whole.drop (k * size)).take size from rfl, take_pages,
      List.take_of_length_le]
    omega
  · have hmul : (n + 1) * size ≤ last * size := Nat.mul_le_mul_right _ hbefore
    have hn := hstep n hn
    rw [Nat.succ_mul] at hmul
    rw [hlength]
    omega
  · have hmul : n * size ≤ last * size := Nat.mul_le_mul_right _ hbefore
    have hn := hstep n hn
    have hzero := hlength n
    rw [hnil, List.length_nil] at hzero
    omega
  · have hmul : (last + 1) * size ≤ n * size := Nat.mul_le_mul_right _ hafter
    have hn := hstep n (Nat.one_le_of_lt hafter)
    rw [Nat.succ_mul] at hmul
    have hzero := hlength n
    apply List.length_eq_zero_iff.1
    omega

/-! ## The order of the accounts -/

namespace AccountRow

theorem olderFirst_iff {a b : AccountRow} : olderFirst a b = true ↔
    a.createdAt.columnText < b.createdAt.columnText ∨
      a.createdAt.columnText = b.createdAt.columnText ∧ a.id ≤ b.id := by
  unfold olderFirst
  split
  · next heq => simp [heq]
  · next hne => simp [hne]

theorem olderFirst_trans (a b c : AccountRow) (hab : olderFirst a b = true) (hbc : olderFirst b c = true) :
    olderFirst a c = true := by
  rw [olderFirst_iff] at hab hbc ⊢
  obtain hab | ⟨hab, hid⟩ := hab
  · left
    obtain hbc | ⟨hbc, -⟩ := hbc
    · exact String.lt_trans hab hbc
    · exact hbc ▸ hab
  · rw [hab]
    exact hbc.imp_right fun ⟨h, hid'⟩ => ⟨h, String.le_trans hid hid'⟩

theorem olderFirst_total (a b : AccountRow) : (olderFirst a b || olderFirst b a) = true := by
  rw [Bool.or_eq_true, olderFirst_iff, olderFirst_iff]
  by_cases hlt : a.createdAt.columnText < b.createdAt.columnText
  · exact .inl (.inl hlt)
  by_cases hgt : b.createdAt.columnText < a.createdAt.columnText
  · exact .inr (.inl hgt)
  · have heq := String.le_antisymm (String.not_lt.1 hgt) (String.not_lt.1 hlt)
    exact (String.le_total a.id b.id).imp (fun h => .inr ⟨heq, h⟩) fun h => .inr ⟨heq.symm, h⟩

end AccountRow

/-- Created earlier, as the database compares the texts of the times, or of one time and with the smaller id. -/
def Account.Precedes (a b : Account) : Prop :=
  a.createdAt.columnText < b.createdAt.columnText ∨
    a.createdAt.columnText = b.createdAt.columnText ∧ a.id < b.id

theorem Account.precedes_iff {a b : Account} (ha : a.createdAt.Writable) (hb : b.createdAt.Writable) :
    a.Precedes b ↔ a.createdAt.cmp b.createdAt = .lt ∨ a.createdAt = b.createdAt ∧ a.id < b.id := by
  rw [Precedes, Instant.columnText_lt_iff ha hb, Instant.columnText_inj ha hb]

namespace Bank

/-- Ids are unique, and every live account is read back. -/
structure Readable (b : Bank) : Prop where
  ids_nodup : (b.accounts.map (·.id)).Nodup
  accounts_read : ∀ r ∈ b.accounts, r.isLive = true → ∃ a, r.toAccount = .ok a

theorem Written.readable {b : Bank} (h : b.Written) : b.Readable :=
  ⟨h.ids_nodup, fun _ hr _ => h.exists_account hr⟩

/-- The live accounts, each once, in the order of their creation. Where years have four digits, this is the order
of the times themselves. -/
structure Lists (b : Bank) (accounts : List Account) : Prop where
  mem_iff : ∀ a, a ∈ accounts ↔ ∃ r ∈ b.accounts, r.isLive = true ∧ r.toAccount = .ok a
  ids_nodup : (accounts.map (·.id)).Nodup
  sorted : accounts.Pairwise Account.Precedes
  sorted_times : (∀ a ∈ accounts, a.createdAt.Writable) → accounts.Pairwise fun a a' =>
    a.createdAt.cmp a'.createdAt = .lt ∨ a.createdAt = a'.createdAt ∧ a.id < a'.id

theorem toAccount_createdAt {r : AccountRow} {a : Account} (h : r.toAccount = .ok a) :
    a.createdAt = r.createdAt := by
  unfold AccountRow.toAccount at h
  split at h
  · cases h
  · obtain ⟨d, -, h⟩ := bind_eq_ok.1 h
    cases h
    rfl

variable {b : Bank}

theorem Readable.exists_lists (h : b.Readable) :
    ∃ accounts, b.liveAccounts.mapM AccountRow.toAccount = .ok accounts ∧ b.Lists accounts := by
  have hmem : ∀ r, r ∈ b.liveAccounts ↔ r ∈ b.accounts ∧ r.isLive = true := by
    intro r
    rw [liveAccounts, List.mem_mergeSort, List.mem_filter]
  obtain ⟨accounts, hread⟩ := exists_mapM fun r hr =>
    h.accounts_read r ((hmem r).1 hr).1 ((hmem r).1 hr).2
  have hids : (b.liveAccounts.map (·.id)).Nodup := by
    rw [liveAccounts, ((List.mergeSort_perm ..).map _).nodup_iff]
    exact h.ids_nodup.sublist (List.filter_sublist.map _)
  have hsorted : accounts.Pairwise Account.Precedes := by
    have hkeys : accounts.map (fun a => (a.createdAt, a.id)) = b.liveAccounts.map fun r => (r.createdAt, r.id) :=
      map_of_mapM hread fun r a ha => Prod.ext (toAccount_createdAt ha) (toAccount_id ha)
    have hrows : (b.liveAccounts.map fun r => (r.createdAt, r.id)).Pairwise fun x y =>
        x.1.columnText < y.1.columnText ∨ x.1.columnText = y.1.columnText ∧ x.2 < y.2 := by
      rw [List.pairwise_map]
      refine pairwise_mergeSort_of_key AccountRow.olderFirst_trans AccountRow.olderFirst_total
        (fun r r' hle hne => ?_) (h.ids_nodup.sublist (List.filter_sublist.map (·.id)))
      obtain holder | ⟨htime, hid⟩ := AccountRow.olderFirst_iff.1 hle
      · exact .inl holder
      · exact .inr ⟨htime, String.not_le.1 fun hle => hne (String.le_antisymm hid hle)⟩
    rwa [← hkeys, List.pairwise_map] at hrows
  refine ⟨accounts, hread, fun a => ?_, ?_, hsorted, fun hwritable => ?_⟩
  · rw [mem_of_mapM hread]
    simp only [hmem, and_assoc]
  · rw [map_of_mapM hread fun r a => toAccount_id]
    exact hids
  · exact hsorted.imp_of_mem fun ha ha' h => (Account.precedes_iff (hwritable _ ha) (hwritable _ ha')).1 h

/-- A page of rows is read as that page of the accounts. -/
theorem listAccounts_failing {accounts : List Account}
    (hread : b.liveAccounts.mapM AccountRow.toAccount = .ok accounts) (page size : Nat)
    (faults : Nat → Statement → Option EngineError) :
    b.listAccounts (.failing faults) page size = match faults 0 .read with
      | some cause => .error (.database cause)
      | none => .ok (pageOf size accounts page) := by
  have hpage : ((b.liveAccounts.drop (pageOffset page size)).take size).mapM AccountRow.toAccount =
      .ok (pageOf size accounts page) :=
    mapM_eq_ok.2 (List.forall₂_take _ (List.forall₂_drop _ (mapM_eq_ok.1 hread)))
  unfold listAccounts
  rw [hpage, askRead, Engine.ask, Engine.failing]
  cases faults 0 .read with
  | some cause => rfl
  | none => rfl

end Bank

/-- **Pages partition the live accounts.** This holds of every state of the tables that is reached, and the
offset of a page stays within 63 bits. -/
theorem Accounts.pages_partition (size : Nat) :
    let s := if size = 0 then 20 else min size 100
    (∀ n < 2 ^ 32, Bank.pageOffset (max n 1) s < 2 ^ 63) ∧
    (∀ turns, (Bank.history turns).Readable) ∧
    ∀ b : Bank, b.Readable → ∃ accounts page last, b.Lists accounts ∧ Paged s accounts page last ∧
      ∀ n faults, list (.failing faults) ⟨n, size⟩ b = match faults 0 .read with
        | some cause => .error (.tables "list accounts" (.database cause))
        | none => .ok ⟨page n, max n 1, s⟩ := by
  intro s
  have hbounds : 0 < s ∧ s ≤ 100 := by
    show 0 < (if size = 0 then 20 else min size 100) ∧ (if size = 0 then 20 else min size 100) ≤ 100
    split <;> omega
  refine ⟨fun n hn => ?_, fun turns => (Bank.history_written turns).readable, fun b hb => ?_⟩
  · have hmul : (max n 1 - 1) * s ≤ 2 ^ 32 * 100 := Nat.mul_le_mul (by omega) hbounds.2
    rw [Bank.pageOffset]
    omega
  · obtain ⟨accounts, hread, hlists⟩ := hb.exists_lists
    refine ⟨accounts, pageOf s accounts, _, hlists, paged_pageOf hbounds.1 accounts, fun n faults => ?_⟩
    have hpage : pageOf s accounts (max n 1) = pageOf s accounts n := by
      rw [pageOf, pageOf, Bank.pageOffset, Bank.pageOffset, show max n 1 - 1 = n - 1 by omega]
    have hlist := Bank.listAccounts_failing hread (max n 1) s faults
    rw [hpage] at hlist
    show ((b.listAccounts (.failing faults) (max n 1) s).mapError _ >>= _) = _
    rw [hlist]
    cases faults 0 .read with
    | some cause => rfl
    | none => rfl

end TransferLedger
