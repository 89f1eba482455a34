import Mathlib.Data.List.Nodup

/-! # Lists with different keys

What is found under a key is what is there with it (`find?_key_eq_some`), so such a list is made up of its keys
and of what is found under them (`eq_of_find?`). Sorted by an order that leaves no two keys equal, it comes in a
strict order (`pairwise_mergeSort_of_key`).
-/

namespace TransferLedger
set_option autoImplicit false

variable {α κ : Type}

theorem find?_key_eq_some [DecidableEq κ] {key : α → κ} {xs : List α} (h : (xs.map key).Nodup) {a : α}
    {k : κ} : (xs.find? fun x => key x == k) = some a ↔ a ∈ xs ∧ key a = k := by
  refine ⟨fun hfind => ⟨List.mem_of_find?_eq_some hfind, by simpa using List.find?_some hfind⟩, ?_⟩
  rintro ⟨ha, rfl⟩
  cases hfind : xs.find? fun x => key x == key a with
  | none => exact absurd (beq_self_eq_true (key a)) (List.find?_eq_none.1 hfind a ha)
  | some b =>
    have hkey : key b = key a := by simpa using List.find?_some hfind
    rw [List.inj_on_of_nodup_map h (List.mem_of_find?_eq_some hfind) ha hkey]

theorem eq_of_find? [DecidableEq κ] (key : α → κ) {xs ys : List α} (hkeys : xs.map key = ys.map key)
    (hxs : (xs.map key).Nodup)
    (h : ∀ k, (xs.find? fun x => key x == k) = ys.find? fun x => key x == k) : xs = ys := by
  have hall : ∀ zs : List α, (zs.map key).Nodup →
      (zs.map key).filterMap (fun k => zs.find? fun x => key x == k) = zs := by
    intro zs hzs
    rw [List.filterMap_map]
    refine (List.filterMap_congr fun z hz => ?_).trans List.filterMap_some
    exact (find?_key_eq_some hzs).2 ⟨hz, rfl⟩
  rw [← hall xs hxs, ← hall ys (hkeys ▸ hxs), ← hkeys]
  exact List.filterMap_congr fun k _ => h k

theorem pairwise_mergeSort_of_key {le : α → α → Bool} {before : α → α → Prop} {key : α → κ}
    (htrans : ∀ a b c, le a b = true → le b c = true → le a c = true)
    (htotal : ∀ a b, (le a b || le b a) = true)
    (hbefore : ∀ a b, le a b = true → key a ≠ key b → before a b) {xs : List α}
    (hxs : (xs.map key).Nodup) : (xs.mergeSort le).Pairwise before := by
  have hsorted := List.pairwise_mergeSort htrans htotal xs
  have hkeys : ((xs.mergeSort le).map key).Nodup := ((List.mergeSort_perm xs le).map key).nodup_iff.2 hxs
  rw [List.nodup_iff_pairwise_ne, List.pairwise_map] at hkeys
  exact (hsorted.and hkeys).imp fun ⟨hle, hne⟩ => hbefore _ _ hle hne

end TransferLedger
