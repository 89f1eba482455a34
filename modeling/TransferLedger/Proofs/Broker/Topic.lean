import Mathlib.Data.List.Infix
import TransferLedger.Broker.Topic

/-! # What a pattern stands for

The words of a key match a pattern when the key can be cut into consecutive segments, one for each word
of the pattern and in its order, such that every word covers its segment (`Topic.Covers`). The matcher
finds such a cut if there is one, wherever `#` stands in the pattern and however often.
-/

namespace TransferLedger
set_option autoImplicit false

theorem Text.split_eq_splitOn (separator : Char) (cs : List Char) :
    split separator cs = cs.splitOn separator := by
  induction cs with
  | nil => rfl
  | cons c cs ih =>
    rw [split, List.splitOn_cons_eq_if_modifyHead, ih]
    by_cases hc : c = separator
    · simp [hc]
    · cases hcs : cs.splitOn separator with
      | nil => exact absurd hcs (List.splitOn_ne_nil separator cs)
      | cons piece pieces => simp [hc]

namespace Topic

theorem words_eq_splitOn (s : String) : words s = s.toList.splitOn '.' :=
  Text.split_eq_splitOn '.' s.toList

/-! ## One word of a pattern -/

/-- What a word of a pattern may stand for in a key. -/
inductive Covers : Word → List Word → Prop
  | many (ws : List Word) : Covers ['#'] ws
  | one (w : Word) : Covers ['*'] [w]
  | itself {p : Word} (hmany : p ≠ ['#']) (hone : p ≠ ['*']) : Covers p [p]

theorem covers_iff_of_ne {p : Word} (hp : p ≠ ['#']) {segment : List Word} :
    Covers p segment ↔ ∃ w, segment = [w] ∧ (p = ['*'] ∨ p = w) := by
  constructor
  · intro h
    cases h with
    | many => exact absurd rfl hp
    | one w => exact ⟨w, rfl, .inl rfl⟩
    | itself => exact ⟨p, rfl, .inr rfl⟩
  · rintro ⟨w, rfl, hw⟩
    by_cases hstar : p = ['*']
    · subst hstar
      exact .one w
    · obtain rfl : p = w := hw.resolve_left hstar
      exact .itself hp hstar

/-! ## The matcher word by word -/

theorem tails_eq (ws : List Word) : tails ws = ws.tails := by
  induction ws with
  | nil => rfl
  | cons w ws ih => rw [tails, List.tails_cons, ih]

theorem matchesWords_many {ps key : List Word} :
    matchesWords (['#'] :: ps) key = true ↔ ∃ rest, rest <:+ key ∧ matchesWords ps rest = true := by
  simp only [matchesWords, if_true, List.any_eq_true, tails_eq, List.mem_tails]

theorem matchesWords_cons {p : Word} (hp : p ≠ ['#']) {ps key : List Word} :
    matchesWords (p :: ps) key = true ↔
      ∃ w rest, key = w :: rest ∧ (p = ['*'] ∨ p = w) ∧ matchesWords ps rest = true := by
  cases key with
  | nil => simp [matchesWords, hp]
  | cons k ks => simp [matchesWords, hp, and_assoc]

/-! ## Cuts -/

/-- The segments are a cut of the key for a pattern. -/
def Cut (pattern key : List Word) (segments : List (List Word)) : Prop :=
  List.Forall₂ Covers pattern segments ∧ segments.flatten = key

theorem exists_cut_nil {key : List Word} : (∃ segments, Cut [] key segments) ↔ key = [] := by
  constructor
  · rintro ⟨_, hcovers, hkey⟩
    cases hcovers
    exact hkey.symm
  · rintro rfl
    exact ⟨[], .nil, rfl⟩

theorem exists_cut_cons {p : Word} {ps key : List Word} :
    (∃ segments, Cut (p :: ps) key segments) ↔
      ∃ front rest, front ++ rest = key ∧ Covers p front ∧ ∃ segments, Cut ps rest segments := by
  constructor
  · rintro ⟨_, hcovers, hkey⟩
    cases hcovers with
    | @cons _ front _ segments hp hps =>
      exact ⟨front, segments.flatten, hkey, hp, segments, hps, rfl⟩
  · rintro ⟨front, rest, rfl, hp, segments, hps, rfl⟩
    exact ⟨front :: segments, .cons hp hps, rfl⟩

theorem matchesWords_iff (ps key : List Word) :
    matchesWords ps key = true ↔ ∃ segments, Cut ps key segments := by
  induction ps generalizing key with
  | nil => rw [exists_cut_nil, matchesWords, List.isEmpty_iff]
  | cons p ps ih =>
    rw [exists_cut_cons]
    by_cases hp : p = ['#']
    · -- Every rest of the key is tried, and whatever stands in front of it is covered.
      subst hp
      simp only [matchesWords_many, ih]
      constructor
      · rintro ⟨rest, ⟨front, hkey⟩, hrest⟩
        exact ⟨front, rest, hkey, .many front, hrest⟩
      · rintro ⟨front, rest, hkey, -, hrest⟩
        exact ⟨rest, ⟨front, hkey⟩, hrest⟩
    · simp only [matchesWords_cons hp, covers_iff_of_ne hp, ih]
      constructor
      · rintro ⟨w, rest, hkey, hw, hrest⟩
        exact ⟨[w], rest, hkey.symm, ⟨w, rfl, hw⟩, hrest⟩
      · rintro ⟨_, rest, hkey, ⟨w, rfl, hw⟩, hrest⟩
        exact ⟨w, rest, hkey.symm, hw, hrest⟩

/-- **A key matches a pattern exactly if it can be cut into what the words of the pattern stand for.** -/
theorem matchesKey_iff_exists_cut (pattern key : String) :
    matchesKey pattern key = true ↔ ∃ segments : List (List Word),
      List.Forall₂ Covers (pattern.toList.splitOn '.') segments ∧
        segments.flatten = key.toList.splitOn '.' := by
  rw [matchesKey, words_eq_splitOn, words_eq_splitOn]
  exact matchesWords_iff _ _

/-- Words may be empty, and `#` may stand for none. -/
example : matchesKey "#.a.#.*" "a." = true := by decide

end Topic

end TransferLedger
