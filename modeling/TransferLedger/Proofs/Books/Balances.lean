import Mathlib.Algebra.BigOperators.Group.List.Basic
import TransferLedger.Proofs.Books.Simulation

/-! # Balances are explained by the records

As long as all opening balances together stay below `2^96` units of `10^-8`, no sum or difference of
a transfer is ever rounded, and

* the balance of an account is its opening balance, plus all it received, less all it sent
  (`Register.Explained`), and
* the total of the balances is the total of the opening balances.

The two are proved together: the total bounds every balance, so the arithmetic of the next transfer
is exact, so the total stays as it is (`Register.Explained.step`).
-/

namespace TransferLedger
set_option autoImplicit false

/-! ## Totals -/

/-- The units of `10^-8` on some accounts. -/
def totalUnits (accounts : List Account) : ℤ := (accounts.map fun a => a.balance.units 8).sum

/-- What the committed records move at an account, which stands at the named end of them. -/
def turnover {M : Type} [AddMonoid M] (amount : Transaction → M) (endpoint : Transaction → String)
    (records : List Transaction) (id : String) : M :=
  ((records.filter fun t => t.status = .success ∧ endpoint t = id).map amount).sum

theorem turnover_append {M : Type} [AddMonoid M] (amount : Transaction → M)
    (endpoint : Transaction → String) (records : List Transaction) (t : Transaction) (id : String) :
    turnover amount endpoint (records ++ [t]) id =
      turnover amount endpoint records id +
        if t.status = .success ∧ endpoint t = id then amount t else 0 := by
  unfold turnover
  rw [List.filter_append, List.map_append, List.sum_append]
  congr 1
  by_cases h : t.status = .success ∧ endpoint t = id
  · simp [h]
  · rw [if_neg h, List.filter_cons_of_neg (by simpa using h)]
    rfl

theorem turnover_eq_zero {M : Type} [AddMonoid M] (amount : Transaction → M)
    {endpoint : Transaction → String} {records : List Transaction} {id : String}
    (h : ∀ t ∈ records, endpoint t ≠ id) : turnover amount endpoint records id = 0 := by
  have hnone : records.filter (fun t => t.status = .success ∧ endpoint t = id) = [] := by
    rw [List.filter_eq_nil_iff]
    intro t ht hcond
    exact h t ht (of_decide_eq_true hcond).2
  rw [turnover, hnone]
  rfl

theorem sum_value {α : Type} (f : α → Decimal) : ∀ {l : List α}, (∀ x ∈ l, (f x).scale ≤ 8) →
    (l.map fun x => (f x).value).sum = ((l.map fun x => (f x).units 8).sum : ℤ) / (10 : ℚ) ^ 8
  | [], _ => by simp
  | x :: l, h => by
    have hl := sum_value f (l := l) fun y hy => h y (List.mem_cons_of_mem x hy)
    rw [List.map_cons, List.sum_cons, hl, Decimal.value_eq_units (h x List.mem_cons_self),
      List.map_cons, List.sum_cons, Int.cast_add, add_div]

theorem turnover_value {records : List Transaction} (h : ∀ t ∈ records, t.amount.scale ≤ 8)
    (endpoint : Transaction → String) (id : String) :
    turnover (·.amount.value) endpoint records id =
      (turnover (·.amount.units 8) endpoint records id : ℤ) / (10 : ℚ) ^ 8 :=
  sum_value Transaction.amount fun t ht => h t (List.mem_filter.1 ht).1

theorem totalUnits_append (accounts : List Account) (a : Account) :
    totalUnits (accounts ++ [a]) = totalUnits accounts + a.balance.units 8 := by
  simp [totalUnits]

/-- Writing another number for one of several accounts changes their sum by the difference. -/
theorem sum_replaced {f : Account → ℤ} {a : Account} (v : ℤ) : ∀ {accounts : List Account},
    (accounts.map (·.id)).Nodup → a ∈ accounts →
      (accounts.map fun x => if x.id = a.id then v else f x).sum = (accounts.map f).sum - f a + v
  | [], _, ha => nomatch ha
  | x :: accounts, hids, ha => by
    rw [List.map_cons, List.nodup_cons] at hids
    obtain ⟨hx, hids⟩ := hids
    simp only [List.map_cons, List.sum_cons]
    rcases List.mem_cons.1 ha with rfl | ha
    · have hrest : accounts.map (fun x => if x.id = a.id then v else f x) = accounts.map f := by
        apply List.map_congr_left
        intro y hy
        rw [if_neg]
        exact fun heq => hx (heq ▸ List.mem_map_of_mem hy)
      rw [hrest, if_pos rfl]
      omega
    · have hne : x.id ≠ a.id := fun heq => hx (heq ▸ List.mem_map_of_mem ha)
      rw [sum_replaced v hids ha, if_neg hne]
      omega

theorem sum_nonneg {f : Account → ℤ} {accounts : List Account} (h : ∀ a ∈ accounts, 0 ≤ f a) :
    0 ≤ (accounts.map f).sum := by
  induction accounts with
  | nil => exact le_refl _
  | cons a accounts ih =>
    rw [List.map_cons, List.sum_cons]
    have ha := h a List.mem_cons_self
    have hrest := ih fun x hx => h x (List.mem_cons_of_mem a hx)
    omega

namespace Register

variable {g g' : Register}

/-! ## Exact transfers -/

theorem Sound.units_nonneg (hg : g.Sound) {a : Account} (ha : a ∈ g.accounts) :
    0 ≤ a.balance.units 8 :=
  Decimal.units_nonneg (hg.balances a ha).1

/-- Two accounts of a register hold no more than all of them. -/
theorem Sound.pair_le (hg : g.Sound) {a c : Account} (ha : a ∈ g.accounts) (hc : c ∈ g.accounts)
    (hne : a.id ≠ c.id) : a.balance.units 8 + c.balance.units 8 ≤ totalUnits g.accounts := by
  have h₁ := sum_replaced (f := fun x => if x.id = c.id then 0 else x.balance.units 8) 0
    hg.accountIds ha
  have h₂ := sum_replaced (f := fun x => x.balance.units 8) 0 hg.accountIds hc
  have hrest : 0 ≤ (g.accounts.map fun x =>
      if x.id = a.id then 0 else if x.id = c.id then 0 else x.balance.units 8).sum := by
    apply sum_nonneg
    intro x hx
    split
    · exact le_refl _
    split
    · exact le_refl _
    · exact hg.units_nonneg hx
  rw [if_neg hne] at h₁
  unfold totalUnits
  omega

namespace Posting

variable {p : TransferPlan}

theorem ids_ne (m : g.Posting p) (hg : g.Sound) (hp : p ∈ g.plans) :
    m.sender.id ≠ m.receiver.id := by
  rw [m.sender_live.id_eq, m.receiver_live.id_eq]
  exact (hg.plans p hp).distinct

/-- Where all accounts together stay below the bound, a posting does not round. -/
theorem exact_units (m : g.Posting p) (hg : g.Sound) (hp : p ∈ g.plans)
    (hbound : totalUnits g.accounts < Decimal.bound) :
    m.debited.units 8 = m.sender.balance.units 8 - p.amount.units 8 ∧
      m.credited.units 8 = m.receiver.balance.units 8 + p.amount.units 8 := by
  have hs := hg.balances _ m.sender_live.mem
  have hr := hg.balances _ m.receiver_live.mem
  have hmov := hg.plans p hp
  have hamount := Decimal.units_pos (k := 8) hmov.positive
  have hfunds := (Decimal.below_eq_false_iff_units hs.2 hmov.scale_le).1 m.funded
  have hrnonneg := hg.units_nonneg m.receiver_live.mem
  have hpair := hg.pair_le m.sender_live.mem m.receiver_live.mem (m.ids_ne hg hp)
  obtain ⟨d, hd, -, hdu⟩ := Decimal.sub?_units (k := 8) (by decide) hs.2 hmov.scale_le (by omega)
  obtain ⟨c, hc, -, hcu⟩ := Decimal.add?_units (k := 8) (by decide) hr.2 hmov.scale_le (by omega)
  rw [m.debited_eq, Option.some.injEq] at hd
  rw [m.credited_eq, Option.some.injEq] at hc
  rw [hd, hc]
  exact ⟨hdu, hcu⟩

theorem moved_units (m : g.Posting p) (now : Instant) (a : Account) :
    (m.moved now a).balance.units 8 =
      if a.id = m.sender.id then m.debited.units 8
      else if a.id = m.receiver.id then m.credited.units 8
      else a.balance.units 8 := by
  rw [m.sender_live.id_eq, m.receiver_live.id_eq]
  unfold moved
  split
  · rfl
  split <;> rfl

/-- A posting that does not round leaves the total as it is. -/
theorem total_moved (m : g.Posting p) (now : Instant) (hg : g.Sound) (hp : p ∈ g.plans)
    (hbound : totalUnits g.accounts < Decimal.bound) :
    totalUnits (g.accounts.map (m.moved now)) = totalUnits g.accounts := by
  obtain ⟨hd, hc⟩ := m.exact_units hg hp hbound
  have h₁ := sum_replaced (f := fun x => if x.id = m.receiver.id then m.credited.units 8
    else x.balance.units 8) (m.debited.units 8) hg.accountIds m.sender_live.mem
  have h₂ := sum_replaced (f := fun x => x.balance.units 8) (m.credited.units 8) hg.accountIds
    m.receiver_live.mem
  rw [if_neg (m.ids_ne hg hp)] at h₁
  simp only [totalUnits, List.map_map, Function.comp_def, moved_units]
  omega

end Posting

/-! ## The invariant -/

/-- Opening balance, receipts and payments make up the balance of every account, and nothing is lost
on the whole. -/
structure Explained (g : Register) : Prop where
  total : totalUnits g.accounts = totalUnits g.opened
  each : ∀ o ∈ g.opened, ∀ a ∈ g.accounts, a.id = o.id →
    a.balance.units 8 = o.balance.units 8 +
      turnover (·.amount.units 8) (·.toAccount) g.records o.id -
      turnover (·.amount.units 8) (·.fromAccount) g.records o.id

/-- Openings only add to the total of the openings. -/
theorem Step.opened_le (h : Step g g') : totalUnits g.opened ≤ totalUnits g'.opened := by
  cases h with
  | @opened a hnew hpos hscale =>
    rw [totalUnits_append]
    have := Decimal.units_nonneg (k := 8) hpos
    omega
  | planned => exact le_refl _
  | amended => exact le_refl _
  | failed => exact le_refl _
  | posted => exact le_refl _

theorem Explained.step (hg : g.Sound) (hx : g.Explained)
    (hbound : totalUnits g.opened < Decimal.bound) (h : Step g g') : g'.Explained := by
  cases h with
  | planned => exact ⟨hx.total, hx.each⟩
  | @opened a hnew hpos hscale =>
    refine ⟨by rw [totalUnits_append, totalUnits_append, hx.total], ?_⟩
    have hnone : ∀ o ∈ g.opened, o.id ≠ a.id := by
      intro o ho heq
      rw [← hg.openedIds, ← heq] at hnew
      exact hnew (List.mem_map_of_mem ho)
    intro o ho x hx' hid
    rcases List.mem_append.1 ho with ho | ho <;> rcases List.mem_append.1 hx' with hx' | hx'
    · exact hx.each o ho x hx' hid
    · rw [List.mem_singleton.1 hx'] at hid
      exact absurd hid.symm (hnone o ho)
    · rw [List.mem_singleton.1 ho] at hid
      exact absurd (hid ▸ List.mem_map_of_mem hx') hnew
    · -- No record names an account before it is opened.
      have hto : ∀ t ∈ g.records, t.toAccount ≠ a.id :=
        fun t ht heq => hnew (heq ▸ (hg.named t ht).2)
      have hfrom : ∀ t ∈ g.records, t.fromAccount ≠ a.id :=
        fun t ht heq => hnew (heq ▸ (hg.named t ht).1)
      rw [List.mem_singleton.1 ho, List.mem_singleton.1 hx', turnover_eq_zero _ hto,
        turnover_eq_zero _ hfrom]
      omega
  | amended id m now =>
    have hbalance : ∀ a : Account,
        (if a.id = id ∧ a.deletedAt = none then m.apply now a else a).balance = a.balance := by
      intro a
      split
      · exact m.apply_balance now a
      · rfl
    refine ⟨?_, ?_⟩
    · rw [← hx.total]
      simp only [totalUnits, List.map_map, Function.comp_def, hbalance]
    · intro o ho x hmem hid
      obtain ⟨a, ha, rfl⟩ := List.mem_map.1 hmem
      rw [hbalance]
      refine hx.each o ho a ha ?_
      rw [← hid]
      split
      · exact (m.apply_id now a).symm
      · rfl
  | @failed p hp hnew hs hr now =>
    refine ⟨hx.total, ?_⟩
    intro o ho a ha hid
    have hnot : ¬ ((p.record .failed now).status = .success) := fun h => nomatch h
    rw [turnover_append, turnover_append, if_neg fun h => hnot h.1, if_neg fun h => hnot h.1,
      hx.each o ho a ha hid]
    omega
  | @posted p hp hnew m now =>
    have htotal : totalUnits g.accounts < Decimal.bound := by
      rw [hx.total]
      exact hbound
    refine ⟨(m.total_moved now hg hp htotal).trans hx.total, ?_⟩
    intro o ho x hmem hid
    obtain ⟨a, ha, rfl⟩ := List.mem_map.1 hmem
    rw [m.moved_id] at hid
    have hold := hx.each o ho a ha hid
    obtain ⟨hd, hc⟩ := m.exact_units hg hp htotal
    have hne := (hg.plans p hp).distinct
    have hsucc : (p.record .success now).status = .success := rfl
    rw [turnover_append, turnover_append]
    simp only [hsucc, true_and, Posting.moved_units, ← hid]
    show (if _ then _ else _) = o.balance.units 8 +
      (_ + if p.toAccount = a.id then p.amount.units 8 else 0) -
      (_ + if p.fromAccount = a.id then p.amount.units 8 else 0)
    rw [m.sender_live.id_eq, m.receiver_live.id_eq]
    by_cases hfrom : a.id = p.fromAccount
    · have heq : a = m.sender := List.inj_on_of_nodup_map hg.accountIds ha m.sender_live.mem
        (hfrom.trans m.sender_live.id_eq.symm)
      rw [if_pos hfrom, if_neg (fun h => hne (hfrom.symm.trans h.symm)), if_pos hfrom.symm, hd,
        ← heq, hold, hid]
      omega
    · by_cases hto : a.id = p.toAccount
      · have heq : a = m.receiver := List.inj_on_of_nodup_map hg.accountIds ha
          m.receiver_live.mem (hto.trans m.receiver_live.id_eq.symm)
        rw [if_neg hfrom, if_pos hto, if_pos hto.symm, if_neg (fun h => hfrom h.symm), hc, ← heq,
          hold, hid]
        omega
      · rw [if_neg hfrom, if_neg hto, if_neg (fun h => hto h.symm), if_neg (fun h => hfrom h.symm),
          hold, hid]
        omega

theorem Reachable.explained (h : g.Reachable) :
    totalUnits g.opened < Decimal.bound → g.Explained := by
  induction h with
  | refl => exact fun _ => ⟨rfl, fun _ ho => nomatch ho⟩
  | tail hg hstep ih =>
    intro hbound
    have hbefore := lt_of_le_of_lt hstep.opened_le hbound
    exact (ih hbefore).step (Reachable.sound hg) hbefore hstep

end Register

/-! ## The tables -/

/-- The tables hold these accounts and records, and the records explain the balances: exactly, as
numbers, each balance is its opening balance, plus what was received, less what was sent. -/
structure Books.Accounted (s : Books) (accounts : List Account) (records : List Transaction) :
    Prop where
  accounts_read : s.bank.accounts.mapM AccountRow.toAccount = .ok accounts
  records_read : s.bank.transactions.mapM TransactionRow.toTransaction = .ok records
  ids_distinct : (s.opened.map (·.id)).Nodup
  ids_opened : accounts.map (·.id) = s.opened.map (·.id)
  each : ∀ o ∈ s.opened, ∀ a ∈ accounts, a.id = o.id →
    a.balance.value = o.balance.value + turnover (·.amount.value) (·.toAccount) records o.id -
      turnover (·.amount.value) (·.fromAccount) records o.id
  total : (accounts.map (·.balance.value)).sum = (s.opened.map (·.balance.value)).sum

theorem Register.totalUnits_lt_bound {g : Register} (hg : g.Sound)
    (hsum : (g.opened.map (·.balance.value)).sum * 10 ^ 8 < 2 ^ 96) :
    totalUnits g.opened < Decimal.bound := by
  rw [sum_value Account.balance fun o ho => (hg.openings o ho).2,
    div_mul_cancel₀ _ (by norm_num)] at hsum
  have hbound : ((Decimal.bound : ℤ) : ℚ) = 2 ^ 96 := by norm_num [Decimal.bound]
  rw [← hbound] at hsum
  exact_mod_cast hsum

theorem Books.Reachable.balances_explained {s : Books} (h : s.Reachable)
    (hsum : (s.opened.map (·.balance.value)).sum * 10 ^ 8 < 2 ^ 96) :
    ∃ accounts records, s.Accounted accounts records := by
  obtain ⟨g, hreach, rfl⟩ := h.register
  have hg := Register.Reachable.sound hreach
  have hx := Register.Reachable.explained hreach (Register.totalUnits_lt_bound hg hsum)
  have hrecords : ∀ t ∈ g.records, t.amount.scale ≤ 8 := fun t ht => (hg.records t ht).scale_le
  refine ⟨g.accounts, g.records, AccountRow.mapM_toAccount _, TransactionRow.mapM_toTransaction _,
    ?_, hg.openedIds.symm, ?_, ?_⟩
  · show (g.opened.map (·.id)).Nodup
    rw [hg.openedIds]
    exact hg.accountIds
  · intro o ho a ha hid
    rw [turnover_value hrecords, turnover_value hrecords,
      Decimal.value_eq_units (hg.balances a ha).2, Decimal.value_eq_units (hg.openings o ho).2,
      hx.each o ho a ha hid]
    push_cast
    ring
  · have hopened := sum_value Account.balance fun o ho => (hg.openings o ho).2
    have haccounts := sum_value Account.balance fun a ha => (hg.balances a ha).2
    show _ = (g.opened.map (·.balance.value)).sum
    rw [haccounts, hopened]
    exact congrArg (fun n : ℤ => (n : ℚ) / 10 ^ 8) hx.total

theorem Books.sample_balances_explained :
    Books.sample.Reachable ∧ (Books.sample.opened.map (·.balance.value)).sum * 10 ^ 8 < 2 ^ 96 ∧
      ∃ accounts records, Books.sample.Accounted accounts records := by
  have hbalances : Books.sample.opened.map (·.balance) =
      [⟨1050, 2, by decide, by decide⟩, .zero] := by decide +kernel
  have hsum : (Books.sample.opened.map (·.balance.value)).sum * 10 ^ 8 < 2 ^ 96 := by
    have hvalues : Books.sample.opened.map (·.balance.value) =
        (Books.sample.opened.map (·.balance)).map Decimal.value := by rw [List.map_map]; rfl
    rw [hvalues, hbalances]
    norm_num [Decimal.value, Decimal.zero]
  exact ⟨Books.sample_reachable, hsum, Books.Reachable.balances_explained Books.sample_reachable hsum⟩

end TransferLedger
