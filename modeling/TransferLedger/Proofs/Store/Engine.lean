import Mathlib.Data.List.Forall2
import TransferLedger.Store.Engine

/-! # Units of work under an engine

* `bind_eq_ok`, `mapError_eq_ok`: a sequence of fallible steps answers only if every step does, so a
  unit of work is taken apart step by step without being unfolded as a whole.
* `mapM_eq_ok`: the same for a list of steps.
* `KeepsInserts`: an engine under which an insertion that succeeds takes effect. Statements may fail
  with any error at any point, and updates may find no row to change.
* `NeverFails`: an engine under which no statement fails.
* `NeverSkips`: an engine under which every statement fails or takes effect.
* `atomically_eq_error`: a unit that is refused leaves the contents as they were.
-/

namespace TransferLedger
set_option autoImplicit false

/-! ## Fallible steps -/

section Except
variable {ε φ α β : Type}

theorem bind_eq_ok {x : Except ε α} {f : α → Except ε β} {b : β} :
    (x >>= f) = .ok b ↔ ∃ a, x = .ok a ∧ f a = .ok b := by
  cases x with
  | error e => simp [bind, Except.bind]
  | ok a => simp [bind, Except.bind]

theorem mapError_eq_ok {x : Except ε α} {f : ε → φ} {a : α} :
    x.mapError f = .ok a ↔ x = .ok a := by
  cases x with
  | error e => exact ⟨nofun, nofun⟩
  | ok b =>
    constructor
    · intro h
      exact congrArg Except.ok (Except.ok.inj h)
    · intro h
      exact congrArg Except.ok (Except.ok.inj h)

theorem mapError_eq_error {x : Except ε α} {f : ε → φ} {c : φ} :
    x.mapError f = .error c ↔ ∃ e, x = .error e ∧ f e = c := by
  cases x with
  | error e =>
    constructor
    · intro h
      exact ⟨e, rfl, Except.error.inj h⟩
    · rintro ⟨e', he, rfl⟩
      exact congrArg (fun e => Except.error (f e)) (Except.error.inj he)
  | ok b =>
    constructor
    · exact nofun
    · rintro ⟨e, he, -⟩
      cases he

/-- A step for each element answers only if each step does, with their answers. -/
theorem mapM_eq_ok {f : α → Except ε β} {xs : List α} {ys : List β} :
    xs.mapM f = .ok ys ↔ List.Forall₂ (fun x y => f x = .ok y) xs ys := by
  induction xs generalizing ys with
  | nil =>
    rw [List.mapM_nil, List.forall₂_nil_left_iff]
    exact ⟨fun h => (Except.ok.inj h).symm, fun h => congrArg Except.ok h.symm⟩
  | cons x xs ih =>
    rw [List.mapM_cons, bind_eq_ok, List.forall₂_cons_left_iff]
    constructor
    · rintro ⟨y, hy, h⟩
      obtain ⟨rest, hrest, h⟩ := bind_eq_ok.1 h
      exact ⟨y, rest, hy, ih.1 hrest, (Except.ok.inj h).symm⟩
    · rintro ⟨y, rest, hy, hrest, rfl⟩
      exact ⟨y, hy, bind_eq_ok.2 ⟨rest, ih.2 hrest, rfl⟩⟩

theorem exists_mapM {f : α → Except ε β} {xs : List α} (h : ∀ x ∈ xs, ∃ y, f x = .ok y) :
    ∃ ys, xs.mapM f = .ok ys := by
  induction xs with
  | nil => exact ⟨[], rfl⟩
  | cons x xs ih =>
    obtain ⟨y, hy⟩ := h x List.mem_cons_self
    obtain ⟨ys, hys⟩ := ih fun z hz => h z (List.mem_cons_of_mem x hz)
    exact ⟨y :: ys, mapM_eq_ok.2 (.cons hy (mapM_eq_ok.1 hys))⟩

/-- Every answer is that of an element, and every element has its answer. -/
theorem mem_of_mapM {f : α → Except ε β} {xs : List α} {ys : List β} (h : xs.mapM f = .ok ys) (y : β) :
    y ∈ ys ↔ ∃ x ∈ xs, f x = .ok y := by
  rw [mapM_eq_ok] at h
  induction h with
  | nil => simp
  | cons hxy _ ih =>
    rw [List.mem_cons, ih, List.exists_mem_cons_iff, hxy, Except.ok.injEq, eq_comm]

/-- What the steps leave as it is can be seen on their answers. -/
theorem map_of_mapM {γ : Type} {f : α → Except ε β} {xs : List α} {ys : List β} {g : β → γ} {g' : α → γ}
    (h : xs.mapM f = .ok ys) (hg : ∀ x y, f x = .ok y → g y = g' x) : ys.map g = xs.map g' := by
  rw [mapM_eq_ok] at h
  induction h with
  | nil => rfl
  | cons hxy _ ih => rw [List.map_cons, List.map_cons, ih, hg _ _ hxy]

end Except

/-! ## Atomic units -/

section Atomic
variable {ε α σ : Type} {s s' : σ} {unit : Except ε (α × σ)}

theorem atomically_eq_ok {a : α} (h : atomically s unit = (.ok a, s')) : unit = .ok (a, s') := by
  cases unit with
  | error e => simp [atomically] at h
  | ok p =>
    simp only [atomically, Prod.mk.injEq, Except.ok.injEq] at h
    rw [← h.1, ← h.2]

theorem atomically_eq_error {e : ε} (h : atomically s unit = (.error e, s')) :
    unit = .error e ∧ s' = s := by
  cases unit with
  | error e => simpa [atomically, eq_comm] using h
  | ok p => simp [atomically] at h

end Atomic

/-! ## Engines -/

namespace Statement

/-- The statement adds a row to one of the two tables of the bank. -/
def addsRow : Statement → Bool
  | .insertAccount | .insertTransaction _ => true
  | _ => false

end Statement

namespace Engine

/-- An insertion of an account or a record that does not fail adds its row. -/
def KeepsInserts (e : Engine) : Prop := ∀ n s, s.addsRow = true → e n s ≠ .skip

theorem KeepsInserts.after {e : Engine} (h : e.KeepsInserts) (n : Nat) :
    (e.after n).KeepsInserts := fun k => h (n + k)

theorem sound_keepsInserts : sound.KeepsInserts := fun _ _ _ h => by cases h

theorem KeepsInserts.takesEffect {e : Engine} (h : e.KeepsInserts) {n : Nat} {s : Statement}
    (hs : s.addsRow = true) {b : Bool} (hb : e.askChange n s = .ok b) : b = true := by
  have hne := h n s hs
  unfold askChange at hb
  split at hb
  · cases hb
    rfl
  · contradiction
  · cases hb

def NeverFails (e : Engine) : Prop := ∀ n s cause, e n s ≠ .fail cause

theorem sound_neverFails : sound.NeverFails := fun _ _ _ h => by cases h

theorem NeverFails.ask {e : Engine} (h : e.NeverFails) (n : Nat) (s : Statement) :
    e.ask n s = .ok () := by
  unfold Engine.ask
  split
  · next cause hfail => exact absurd hfail (h n s cause)
  · rfl

/-- A statement that does not fail takes effect. -/
def NeverSkips (e : Engine) : Prop := ∀ n s, e n s ≠ .skip

namespace NeverSkips

variable {e : Engine}

theorem after (h : e.NeverSkips) (n : Nat) : NeverSkips (e.after n) := fun k => h (n + k)

theorem keepsInserts (h : e.NeverSkips) : e.KeepsInserts := fun n s _ => h n s

theorem takesEffect (h : e.NeverSkips) {n : Nat} {s : Statement} {effect : Bool}
    (hask : e.askChange n s = .ok effect) : effect = true := by
  unfold askChange at hask
  split at hask
  · exact (Except.ok.inj hask).symm
  · next hskip => exact absurd hskip (h n s)
  · cases hask

end NeverSkips

theorem failing_neverSkips (faults : Nat → Statement → Option EngineError) : (failing faults).NeverSkips := by
  intro n s
  unfold failing
  split
  · exact nofun
  · exact nofun

/-- Statements that fail, in any pattern whatsoever, break nothing else. -/
theorem failing_keepsInserts (faults : Nat → Statement → Option EngineError) :
    (failing faults).KeepsInserts := (failing_neverSkips faults).keepsInserts

end Engine

end TransferLedger
