import TransferLedger.Ledger.Entry
import TransferLedger.Proofs.Bank.Row
import TransferLedger.Proofs.Event

/-! # The entries of a record

* `idOf_inj`: entries of different transactions, and the two entries of one, have different ids.
* `pairOfEvent_ofTransaction`: the pair of the event of a record is made of the record's accounts, its
  texts and its very amount, scale included.
-/

namespace TransferLedger
set_option autoImplicit false

/-! ## Ids -/

theorem Side.name_append_inj {s t : Side} {cs ds : List Char}
    (h : cs ++ ':' :: s.name.toList = ds ++ ':' :: t.name.toList) : cs = ds ∧ s = t := by
  have hrev := congrArg List.reverse h
  simp only [List.reverse_append] at hrev
  cases s <;> cases t
  · exact ⟨List.append_cancel_right h, rfl⟩
  · exact absurd hrev (by simp [Side.name])
  · exact absurd hrev (by simp [Side.name])
  · exact ⟨List.append_cancel_right h, rfl⟩

theorem Entry.idOf_inj {t t' : String} {s s' : Side} (h : idOf t s = idOf t' s') :
    t = t' ∧ s = s' := by
  have hchars := congrArg String.toList h
  simp only [idOf, String.toList_append, List.append_assoc] at hchars
  obtain ⟨hids, hsides⟩ := Side.name_append_inj hchars
  exact ⟨String.toList_inj.1 hids, hsides⟩

/-! ## Amounts -/

theorem Text.trimChars_eq {cs : List Char} (h : ∀ c ∈ cs, isBlank c = false) :
    trimChars cs = cs := by
  have hdrop : ∀ {ds : List Char}, (∀ c ∈ ds, isBlank c = false) → ds.dropWhile isBlank = ds := by
    intro ds hds
    cases ds with
    | nil => rfl
    | cons c ds =>
      rw [List.dropWhile_cons_of_neg (by rw [hds c List.mem_cons_self]; exact Bool.false_ne_true)]
  rw [trimChars, hdrop h, hdrop fun c hc => h c (List.mem_reverse.1 hc), List.reverse_reverse]

theorem Decimal.trim_text (d : Decimal) : Text.trim d.text = d.text := by
  have hchars : ∀ c ∈ d.chars, Text.isBlank c = false := by
    intro c hc
    simp only [chars, List.mem_append] at hc
    rcases hc with (hc | hc) | hc
    · split at hc
      · rw [List.mem_singleton.1 hc]
        decide
      · cases hc
    · exact isBlank_of_isDigit (Nat.isDigit_of_mem_toDigits (by decide) (by decide) hc)
    · split at hc
      · cases hc
      rcases List.mem_cons.1 hc with rfl | hc
      · decide
      · exact isBlank_of_isDigit (isDigit_paddedDigits hc)
  rw [Text.trim, text, String.toList_ofList, Text.trimChars_eq hchars]

/-! ## Pairs -/

theorem Entry.pairOfEvent_eq_ok {e : Event} {now : Instant} {debit credit : Entry}
    (h : pairOfEvent e now = .ok (debit, credit)) :
    ∃ amount, Decimal.read (Text.trim e.amount) = .ok amount ∧ 0 < amount.mantissa ∧
      debit = ofEvent e amount now .debit ∧ credit = ofEvent e amount now .credit := by
  unfold pairOfEvent at h
  split at h
  · cases h
  split at h
  · cases h
  split at h
  · cases h
  split at h
  · cases h
  next amount hamount =>
  split at h
  · next hpos =>
    cases h
    exact ⟨amount, hamount, of_decide_eq_true hpos, rfl, rfl⟩
  · cases h

theorem Entry.pairOfEvent_ofTransaction {t : Transaction} {now : Instant} {debit credit : Entry}
    (h : pairOfEvent (.ofTransaction t) now = .ok (debit, credit)) :
    debit = ofEvent (.ofTransaction t) t.amount now .debit ∧
      credit = ofEvent (.ofTransaction t) t.amount now .credit := by
  obtain ⟨amount, hread, -, hdebit, hcredit⟩ := pairOfEvent_eq_ok h
  have hamount : amount = t.amount := by
    have htext : (Event.ofTransaction t).amount = t.amount.text := rfl
    rw [htext, Decimal.trim_text, Decimal.read_text, Except.ok.injEq] at hread
    exact hread.symm
  subst hamount
  exact ⟨hdebit, hcredit⟩

end TransferLedger
