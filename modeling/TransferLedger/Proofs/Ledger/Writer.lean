import TransferLedger.Ledger.Writer
import TransferLedger.Proofs.Ledger.Entry
import TransferLedger.Proofs.Ledger.Retry
import TransferLedger.Proofs.Ledger.Table

/-! # Writing an event

However the attempts of a write go, the ledger is left as it was or has the pair of the event added,
once (`writeEvent_ledger`); where the write succeeds, the pair is there (`writeEvent_eq_ok`). The
handler of committed transfers inherits both.
-/

namespace TransferLedger
set_option autoImplicit false

namespace TableLedger

/-- An attempt to insert a batch: what the caller is told and the table afterwards. The unit runs
under some engine; the caller may be told of an error although it went through. -/
inductive Attempted (batch : List Entry) (l : TableLedger) : Except StoreError Nat × TableLedger → Prop
  | ran {e : Engine} (he : e.KeepsEntries) : Attempted batch l (insertEntries e batch l)
  | lost {e : Engine} (he : e.KeepsEntries) (cause : StoreError) :
    Attempted batch l (.error cause, (insertEntries e batch l).2)

/-- An insertion each of whose attempts may fail before or after it has been applied. -/
def Faulty (insert : Nat → List Entry → TableLedger → Except StoreError Nat × TableLedger) : Prop :=
  ∀ n batch l, Attempted batch l (insert n batch l)

theorem insertEntries_snd {e : Engine} (he : e.KeepsEntries) (batch : List Entry) (l : TableLedger) :
    (insertEntries e batch l).2 = l ∨ (insertEntries e batch l).2 = l.adding batch := by
  cases h : insertEntries e batch l with
  | mk outcome l' =>
    cases outcome with
    | ok k => exact .inr (insertEntries_eq_ok he h).2.2
    | error cause => exact .inl (insertEntries_eq_error h)

theorem Attempted.snd {batch : List Entry} {l : TableLedger} {a : Except StoreError Nat × TableLedger}
    (h : Attempted batch l a) : a.2 = l ∨ a.2 = l.adding batch := by
  cases h with
  | ran he => exact insertEntries_snd he batch l
  | lost he cause => exact insertEntries_snd he batch l

theorem Attempted.eq_ok {batch : List Entry} {l l' : TableLedger} {k : Nat}
    (h : Attempted batch l (.ok k, l')) : l' = l.adding batch := by
  generalize ha : (Except.ok k, l') = a at h
  cases h with
  | ran he => exact (insertEntries_eq_ok he ha.symm).2.2
  | lost he cause => cases ha

theorem sound_faulty : Faulty fun _ => insertEntries .sound :=
  fun _ _ _ => .ran Engine.sound_keepsEntries

/-! ## Adding twice -/

theorem row?_adding_isSome (l : TableLedger) {batch : List Entry} {x : Entry} (hx : x ∈ batch) :
    ((l.adding batch).row? x.id).isSome = true := by
  obtain ⟨r, hr, hid⟩ := exists_row_adding l hx
  exact List.find?_isSome.2 ⟨r, hr, by simpa using hid⟩

theorem adding_of_stored {l : TableLedger} {batch : List Entry}
    (h : ∀ x ∈ batch, (l.row? x.id).isSome = true) : l.adding batch = l := by
  have hfresh : l.fresh batch = [] := by
    refine List.filter_eq_nil_iff.2 fun x hx hnone => ?_
    rw [Option.isNone_iff_eq_none] at hnone
    have hsome := h x hx
    rw [hnone] at hsome
    cases hsome
  rw [adding, hfresh, List.map_nil, List.append_nil]

theorem adding_adding (l : TableLedger) (batch : List Entry) :
    (l.adding batch).adding batch = l.adding batch :=
  adding_of_stored fun _ hx => row?_adding_isSome l hx

end TableLedger

/-! ## Events -/

/-- What every attempt to insert the pair of an event keeps is kept when the event is written. -/
theorem writeEvent_keeps {σ : Type} {policy : RetryPolicy} {cancelled : Nat → Bool} {now : Instant} {e : Event}
    {insert : Nat → List Entry → σ → Except StoreError Nat × σ} {P : σ → Prop}
    (hinsert : ∀ debit credit, Entry.pairOfEvent e now = .ok (debit, credit) →
      ∀ n s, P s → P (insert n [debit, credit] s).2) {s : σ} (hs : P s) :
    P (writeEvent policy insert cancelled now e s).2 := by
  unfold writeEvent
  split
  · exact hs
  · next debit credit hpair =>
    have hrun : P (Retry.run policy insertOperation cancelled (fun n => insert n [debit, credit]) s).2 :=
      Retry.attempt_keeps (hinsert debit credit hpair) hs
    split
    · next h =>
      rw [h] at hrun
      exact hrun
    · next h =>
      rw [h] at hrun
      exact hrun

/-- Where an insertion that fails changes nothing, an event is written by one insertion of its pair, or not at
all. -/
theorem writeEvent_cases {σ : Type} (policy : RetryPolicy) (cancelled : Nat → Bool) (now : Instant) (e : Event)
    {insert : Nat → List Entry → σ → Except StoreError Nat × σ}
    (hfailed : ∀ n batch s c s', insert n batch s = (.error c, s') → s' = s) (s : σ) :
    (∃ c, writeEvent policy insert cancelled now e s = (.error c, s)) ∨
      ∃ debit credit n k s', writeEvent policy insert cancelled now e s = (.ok (debit, credit), s') ∧
        insert k [debit, credit] s = (.ok n, s') := by
  unfold writeEvent
  split
  · exact .inl ⟨_, rfl⟩
  · next debit credit hpair =>
    obtain ⟨c, hrun⟩ | ⟨n, k, s', hrun, hcall⟩ :=
      Retry.run_one_call policy insertOperation cancelled (fun n => hfailed n [debit, credit]) s
    · exact .inl ⟨c, by rw [hrun]⟩
    · exact .inr ⟨debit, credit, n, k, s', by rw [hrun], hcall⟩

/-- An event that is written has yielded the pair that is answered. -/
theorem writeEvent_pair {σ : Type} {policy : RetryPolicy} {cancelled : Nat → Bool} {now : Instant} {e : Event}
    {insert : Nat → List Entry → σ → Except StoreError Nat × σ} {s s' : σ} {pair : Entry × Entry}
    (h : writeEvent policy insert cancelled now e s = (.ok pair, s')) : Entry.pairOfEvent e now = .ok pair := by
  unfold writeEvent at h
  split at h
  · cases h
  · next debit credit hpair =>
    split at h
    · cases h
      exact hpair
    · cases h

section

variable {policy : RetryPolicy} {cancelled : Nat → Bool} {now : Instant} {e : Event}
  {insert : Nat → List Entry → TableLedger → Except StoreError Nat × TableLedger}

/-- The ledger is as it was or has this batch added. -/
def TableLedger.SameOrAdding (l : TableLedger) (batch : List Entry) (l' : TableLedger) : Prop :=
  l' = l ∨ l' = l.adding batch

theorem TableLedger.Faulty.sameOrAdding (hi : Faulty insert) (l : TableLedger) (batch : List Entry)
    (n : Nat) (s : TableLedger) (hs : l.SameOrAdding batch s) :
    l.SameOrAdding batch (insert n batch s).2 := by
  rcases (hi n batch s).snd with h | h
  · rwa [h]
  rcases hs with rfl | rfl
  · exact .inr h
  · exact .inr (h.trans (adding_adding l batch))

theorem writeEvent_ledger (hi : TableLedger.Faulty insert) (l : TableLedger) :
    (writeEvent policy insert cancelled now e l).2 = l ∨
      ∃ debit credit, Entry.pairOfEvent e now = .ok (debit, credit) ∧
        (writeEvent policy insert cancelled now e l).2 = l.adding [debit, credit] := by
  refine writeEvent_keeps (P := fun s => s = l ∨ ∃ debit credit,
    Entry.pairOfEvent e now = .ok (debit, credit) ∧ s = l.adding [debit, credit]) ?_ (.inl rfl)
  intro debit credit hpair n s hs
  have hsame : l.SameOrAdding [debit, credit] s := by
    refine hs.imp_right ?_
    rintro ⟨debit', credit', hpair', rfl⟩
    cases hpair.symm.trans hpair'
    rfl
  exact (hi.sameOrAdding l [debit, credit] n s hsame).imp_right fun hl => ⟨debit, credit, hpair, hl⟩

theorem writeEvent_eq_ok (hi : TableLedger.Faulty insert) {l l' : TableLedger} {pair : Entry × Entry}
    (h : writeEvent policy insert cancelled now e l = (.ok pair, l')) :
    Entry.pairOfEvent e now = .ok pair ∧ l' = l.adding [pair.1, pair.2] := by
  unfold writeEvent at h
  split at h
  · cases h
  · next debit credit hpair =>
    split at h
    · next k l₁ hrun =>
      cases h
      obtain ⟨n, s₀, hs₀, hcall⟩ :=
        Retry.attempt_eq_ok (hi.sameOrAdding l [debit, credit]) (.inl rfl) hrun
      have hattempt := hi n [debit, credit] s₀
      rw [hcall] at hattempt
      refine ⟨hpair, hattempt.eq_ok.trans ?_⟩
      rcases hs₀ with rfl | rfl
      · rfl
      · exact TableLedger.adding_adding l [debit, credit]
    · cases h

/-! ## The handler -/

variable {clock : Clock} {stopped : Nat → Bool} {stopping : Bool} {readings : Nat}

theorem ledgerHandlerUntil_ledger (hi : TableLedger.Faulty insert) (l : TableLedger) :
    ((ledgerHandlerUntil policy insert clock stopped).handle e stopping (readings, l)).2.2 = l ∨
      ∃ now debit credit, Entry.pairOfEvent e now = .ok (debit, credit) ∧
        ((ledgerHandlerUntil policy insert clock stopped).handle e stopping (readings, l)).2.2 =
          l.adding [debit, credit] := by
  have hwrite : (writeEvent policy insert (fun n => stopping || stopped n) (clock readings) e l).2 = l ∨
      _ := writeEvent_ledger hi l
  unfold ledgerHandlerUntil
  simp only
  split
  · exact .inl rfl
  split
  · next h =>
    rw [h] at hwrite
    exact hwrite.imp_right fun hl => ⟨clock readings, hl⟩
  · next h =>
    rw [h] at hwrite
    exact hwrite.imp_right fun hl => ⟨clock readings, hl⟩

/-- An event of a committed transfer is reported as handled only once its pair is in the ledger. -/
theorem ledgerHandlerUntil_handled (hi : TableLedger.Faulty insert) {l : TableLedger}
    {w : Nat × TableLedger} (he : e.isSuccess = true)
    (h : (ledgerHandlerUntil policy insert clock stopped).handle e stopping (readings, l) =
      (.handled, w)) :
    ∃ now debit credit, Entry.pairOfEvent e now = .ok (debit, credit) ∧
      w.2 = l.adding [debit, credit] := by
  unfold ledgerHandlerUntil at h
  simp only [he, Bool.not_true, Bool.false_eq_true, if_false] at h
  split at h
  · next pair l' hwrite =>
    cases h
    obtain ⟨hpair, hl⟩ := writeEvent_eq_ok hi hwrite
    exact ⟨clock readings, pair.1, pair.2, hpair, hl⟩
  · next cause l' hwrite =>
    have hverdict : cause.verdict = .handled := congrArg Prod.fst h
    unfold LedgerError.verdict at hverdict
    split at hverdict
    · cases hverdict
    · cases hverdict

end

end TransferLedger
