import TransferLedger.Proofs.Ledger.Listing

/-! # Inserting what is new

Both ledger stores keep what is inserted in one list, found by id (`Keeping`). A batch that is taken adds to
the list what it has under new ids, in its order; one that is refused, for an id that it carries twice or a
statement that fails, changes nothing (`Keeping.Inserts`). So what is stored stays as it is, and a batch that
comes again adds nothing (`Keeping.Inserts.ignoresExisting`).
-/

namespace TransferLedger
set_option autoImplicit false

/-! ## Batches that repeat an id -/

theorem repeatedId?_eq_some : ∀ {batch : List Entry} {seen : List String} {id : String},
    repeatedId? seen batch = some id → 2 ≤ (seen ++ batch.map (·.id)).count id
  | [], _, _, h => nomatch h
  | x :: xs, seen, id, h => by
    rw [repeatedId?] at h
    split at h
    · next hx =>
      cases h
      have hseen : 0 < seen.count x.id := List.count_pos_iff.2 (by simpa using hx)
      rw [List.map_cons, List.count_append, List.count_cons_self]
      omega
    · rw [List.map_cons, List.perm_middle.count_eq]
      exact repeatedId?_eq_some h

theorem checkDistinctIds_of_repeated {batch : List Entry} (h : ¬ (batch.map (·.id)).Nodup) :
    ∃ id, 2 ≤ (batch.map (·.id)).count id ∧
      checkDistinctIds batch = .error (.other s!"entry {id} appears twice in one insert") := by
  cases hid : repeatedId? [] batch with
  | none => exact absurd (repeatedId?_eq_none hid).1 h
  | some id => exact ⟨id, repeatedId?_eq_some hid, by rw [checkDistinctIds, hid]⟩

/-! ## What a store keeps -/

/-- How the contents `σ` of a store keep entries: in a list of some `ρ`, with these marked when they are
deleted. -/
structure Keeping (σ ρ : Type) where
  contents : σ → List ρ
  id : ρ → String
  form : Entry → ρ
  isLive : ρ → Bool
  mark : Instant → ρ → ρ
  id_form : ∀ x, id (form x) = x.id
  id_mark : ∀ now r, id (mark now r) = id r
  isLive_mark : ∀ now r, isLive (mark now r) = false

namespace Keeping

variable {ι σ ρ : Type} (k : Keeping σ ρ)

def find (s : σ) (id : String) : Option ρ := (k.contents s).find? fun r => k.id r == id

/-- The entries of a batch whose ids are not stored. -/
def fresh (s : σ) (batch : List Entry) : List Entry := batch.filter fun x => (k.find s x.id).isNone

/-- What a store does with a batch, whatever befalls it; `calm` says that nothing does. -/
structure Inserts (store : ι → LedgerStore σ) (calm : ι → Prop) : Prop where
  refused : ∀ i batch s s' c, (store i).insertEntries batch s = (.error c, s') → s' = s
  repeated : ∀ i batch s c, checkDistinctIds batch = .error c →
    (store i).insertEntries batch s = (.error c, s)
  taken : ∀ i batch s, calm i → (batch.map (·.id)).Nodup →
    ∃ n s', (store i).insertEntries batch s = (.ok n, s')
  added : ∀ i batch s n s', (store i).insertEntries batch s = (.ok n, s') →
    (batch.map (·.id)).Nodup ∧ n = (k.fresh s batch).length ∧
      k.contents s' = k.contents s ++ (k.fresh s batch).map k.form
  idle : ∀ i batch s, (∀ x ∈ batch, (k.find s x.id).isSome = true) →
    ((store i).insertEntries batch s).2 = s

/-- An insertion is atomic and ignores what is stored already. -/
structure IgnoresExisting (store : ι → LedgerStore σ) (calm : ι → Prop) : Prop where
  refused : ∀ i batch s s' c, (store i).insertEntries batch s = (.error c, s') → s' = s
  repeated : ∀ i batch s, ¬ (batch.map (·.id)).Nodup → ∃ id c, 2 ≤ (batch.map (·.id)).count id ∧
    c = .other s!"entry {id} appears twice in one insert" ∧ c.isTransient = false ∧
      (store i).insertEntries batch s = (.error c, s)
  taken : ∀ i batch s, calm i → (batch.map (·.id)).Nodup →
    ∃ n s', (store i).insertEntries batch s = (.ok n, s')
  counted : ∀ i batch s n s', (store i).insertEntries batch s = (.ok n, s') →
    n = (batch.map (·.id)).countP fun id => (k.find s id).isNone
  stored : ∀ i batch s n s', (store i).insertEntries batch s = (.ok n, s') →
    ∀ x ∈ batch, k.find s x.id = none → k.find s' x.id = some (k.form x)
  kept : ∀ i batch s n s', (store i).insertEntries batch s = (.ok n, s') →
    k.contents s <+: k.contents s' ∧ ∀ id r, k.find s id = some r → k.find s' id = some r
  others : ∀ i batch s n s', (store i).insertEntries batch s = (.ok n, s') →
    ∀ id, id ∉ batch.map (·.id) → k.find s' id = k.find s id
  again : ∀ i j batch s n s', (store i).insertEntries batch s = (.ok n, s') →
    ((store j).insertEntries batch s').2 = s' ∧
      (∀ m s'', (store j).insertEntries batch s' = (.ok m, s'') → m = 0) ∧
      (calm j → (store j).insertEntries batch s' = (.ok 0, s'))

variable {k} {store : ι → LedgerStore σ} {calm : ι → Prop} {batch : List Entry} {s s' : σ}

/-- What is found once the new entries of a batch are there. -/
theorem find_added (h : k.contents s' = k.contents s ++ (k.fresh s batch).map k.form) (id : String) :
    k.find s' id = (k.find s id).or ((batch.find? fun x => x.id == id).map k.form) := by
  have hfind : k.find s' id = (k.find s id).or (((k.fresh s batch).find? fun x => x.id == id).map k.form) := by
    rw [find, h, List.find?_append, List.find?_map]
    simp only [Function.comp_def, k.id_form]
    rfl
  rw [hfind]
  cases hold : k.find s id with
  | some r => rw [Option.some_or, Option.some_or]
  | none =>
    -- An entry with this id is new.
    rw [fresh, List.find?_filter]
    refine congrArg (fun p => Option.or none ((batch.find? p).map k.form)) (funext fun x => ?_)
    by_cases hid : x.id = id
    · simp [hid, hold]
    · simp [hid]

namespace Inserts

variable (hs : k.Inserts store calm) {i : ι} {n : Nat}

include hs

theorem find_eq (h : (store i).insertEntries batch s = (.ok n, s')) (id : String) :
    k.find s' id = (k.find s id).or ((batch.find? fun x => x.id == id).map k.form) :=
  find_added (hs.added i batch s n s' h).2.2 id

/-- Once a batch is in, all of it is found. -/
theorem find_isSome (h : (store i).insertEntries batch s = (.ok n, s')) {x : Entry} (hx : x ∈ batch) :
    (k.find s' x.id).isSome = true := by
  rw [hs.find_eq h, Entry.find?_of_mem (hs.added i batch s n s' h).1 hx, Option.isSome_or, Option.map_some,
    Option.isSome_some, Bool.or_true]

theorem again (h : (store i).insertEntries batch s = (.ok n, s')) (j : ι) :
    ((store j).insertEntries batch s').2 = s' ∧
      (∀ m s'', (store j).insertEntries batch s' = (.ok m, s'') → m = 0) ∧
      (calm j → (store j).insertEntries batch s' = (.ok 0, s')) := by
  have hidle := hs.idle j batch s' fun x hx => hs.find_isSome h hx
  have hnone : k.fresh s' batch = [] := by
    refine List.filter_eq_nil_iff.2 fun x hx => ?_
    rw [Option.isNone_iff_eq_none, ← Option.not_isSome_iff_eq_none, hs.find_isSome h hx]
    exact not_not_intro rfl
  have hzero : ∀ m s'', (store j).insertEntries batch s' = (.ok m, s'') → m = 0 := by
    intro m s'' hm
    rw [(hs.added j batch s' m s'' hm).2.1, hnone, List.length_nil]
  refine ⟨hidle, hzero, fun hcalm => ?_⟩
  obtain ⟨m, s'', hm⟩ := hs.taken j batch s' hcalm (hs.added i batch s n s' h).1
  rw [hm, hzero m s'' hm, ← hidle, hm]

theorem ignoresExisting : k.IgnoresExisting store calm where
  refused := hs.refused
  repeated i batch s hrepeated := by
    obtain ⟨id, hid, hcheck⟩ := checkDistinctIds_of_repeated hrepeated
    exact ⟨id, _, hid, rfl, rfl, hs.repeated i batch s _ hcheck⟩
  taken := hs.taken
  counted i batch s n s' h := by
    rw [(hs.added i batch s n s' h).2.1, fresh, List.countP_map, List.countP_eq_length_filter]
    rfl
  stored i batch s n s' h x hx hnew := by
    rw [hs.find_eq h, hnew, Entry.find?_of_mem (hs.added i batch s n s' h).1 hx]
    rfl
  kept i batch s n s' h := by
    refine ⟨⟨_, (hs.added i batch s n s' h).2.2.symm⟩, fun id r hr => ?_⟩
    rw [hs.find_eq h, hr, Option.some_or]
  others i batch s n s' h id hid := by
    have hnone : (batch.find? fun x => x.id == id) = none := by
      refine List.find?_eq_none.2 fun x hx hxid => hid ?_
      rw [← beq_iff_eq.1 hxid]
      exact List.mem_map_of_mem hx
    rw [hs.find_eq h, hnone, Option.map_none, Option.or_none]
  again i j batch s n s' h := hs.again h j

end Inserts

end Keeping

/-! ## The store in memory -/

namespace MemoryLedger

def keeping : Keeping MemoryLedger Entry where
  contents := entries
  id := Entry.id
  form := id
  isLive x := !x.isDeleted
  mark now x := x.markDeleted now
  id_form _ := rfl
  id_mark _ _ := rfl
  isLive_mark _ _ := rfl

variable {batch : List Entry}

theorem addNew_of_stored : ∀ {batch : List Entry} {l : MemoryLedger},
    (∀ x ∈ batch, (l.entry? x.id).isSome = true) → addNew batch l = (0, l)
  | [], _, _ => rfl
  | x :: xs, l, h => by
    rw [addNew, if_pos (h x List.mem_cons_self)]
    exact addNew_of_stored fun y hy => h y (List.mem_cons_of_mem x hy)

/-- The entries that are added are those whose rows a table would add. -/
theorem addNew_entries (h : (batch.map (·.id)).Nodup) (l : MemoryLedger) :
    (addNew batch l).1 = (keeping.fresh l batch).length ∧
      (addNew batch l).2.entries = l.entries ++ keeping.fresh l batch := by
  have hfresh : (TableLedger.listing l.entries).fresh batch = keeping.fresh l batch := by
    refine List.filter_congr fun x _ => ?_
    rw [TableLedger.row?_listing, Option.isNone_map]
    rfl
  obtain ⟨hcount, hrows⟩ := TableLedger.insertEach_eq_ok Engine.sound_keepsEntries h
    (TableLedger.insertEach_listing batch 1 l)
  rw [hfresh] at hcount
  rw [TableLedger.adding, hfresh] at hrows
  refine ⟨hcount, List.map_injective_iff.2 EntryRow.ofEntry_injective ?_⟩
  rw [List.map_append]
  exact congrArg TableLedger.rows hrows

theorem keeping_inserts : keeping.Inserts (fun _ : Unit => store) fun _ => True where
  refused _ batch s s' c h := by
    have hinsert : insertEntries batch s = (.error c, s') := h
    unfold insertEntries at hinsert
    split at hinsert
    · exact (Prod.mk.inj hinsert).2.symm
    · cases hinsert
  repeated _ batch s c h := by
    show insertEntries batch s = _
    rw [insertEntries, h]
  taken _ batch s _ h := by
    refine ⟨(addNew batch s).1, (addNew batch s).2, ?_⟩
    show insertEntries batch s = _
    rw [insertEntries, checkDistinctIds_of_nodup h]
  added _ batch s n s' h := by
    have hinsert : insertEntries batch s = (.ok n, s') := h
    unfold insertEntries at hinsert
    split at hinsert
    · cases hinsert
    · next hdistinct =>
      cases hinsert
      have hnodup := checkDistinctIds_eq_ok hdistinct
      exact ⟨hnodup, (addNew_entries hnodup s).1, (addNew_entries hnodup s).2.trans (by simp [keeping])⟩
  idle _ batch s h := by
    show (insertEntries batch s).2 = s
    unfold insertEntries
    split
    · rfl
    · rw [addNew_of_stored h]

end MemoryLedger

/-! ## The store on a table -/

/-- A pattern of statements that fail, by their place in an operation. -/
abbrev Faults := Nat → Statement → Option EngineError

/-- No statement fails. -/
def Faults.None (faults : Faults) : Prop := ∀ n s, faults n s = none

theorem Engine.failing_eq_sound {faults : Faults} (h : faults.None) : failing faults = sound := by
  funext n s
  rw [failing, h n s]
  rfl

namespace TableLedger

def keeping : Keeping TableLedger EntryRow where
  contents := rows
  id := EntryRow.id
  form := .ofEntry
  isLive := EntryRow.isLive
  mark now r := { r with deletedAt := some now, updatedAt := now }
  id_form _ := rfl
  id_mark _ _ := rfl
  isLive_mark _ _ := rfl

theorem keeping_inserts :
    keeping.Inserts (fun faults => store (.failing faults)) Faults.None where
  refused faults batch s s' c h := insertEntries_eq_error h
  repeated faults batch s c h := by
    show atomically s (insertUnit (.failing faults) batch s) = _
    rw [insertUnit, h]
    rfl
  taken faults batch s hnone h := by
    refine ⟨(s.fresh batch).length, s.adding batch, ?_⟩
    rw [Engine.failing_eq_sound hnone]
    exact insertEntries_sound h s
  added faults batch s n s' h := by
    obtain ⟨hnodup, hcount, hrows⟩ := insertEntries_eq_ok (Engine.failing_keepsEntries faults) h
    exact ⟨hnodup, hcount, congrArg rows hrows⟩
  idle faults batch s h := by
    obtain hsame | hadded := insertEntries_snd (Engine.failing_keepsEntries faults) batch s
    · exact hsame
    · exact hadded.trans (adding_of_stored h)

end TableLedger

/-- **Inserting is atomic and ignores what is stored.** -/
theorem LedgerStore.insertEntries_ignoresExisting :
    MemoryLedger.keeping.IgnoresExisting (fun _ : Unit => MemoryLedger.store) (fun _ => True) ∧
    (∀ batch (l : MemoryLedger), l.Indexed → (MemoryLedger.store.insertEntries batch l).2.Indexed) ∧
    TableLedger.keeping.IgnoresExisting (fun faults => TableLedger.store (.failing faults)) Faults.None ∧
    ∀ x, (EntryRow.ofEntry x).toEntry = .ok x :=
  ⟨MemoryLedger.keeping_inserts.ignoresExisting, fun batch _ h => h.insertEntries batch,
    TableLedger.keeping_inserts.ignoresExisting, EntryRow.toEntry_ofEntry⟩

/-- One of the two is stored. When the commit fails, after both statements, the other one is not. -/
example :
    let x : Entry :=
      { id := "t:debit", account := "A", transactionId := "t", side := .debit, amount := .zero, balance := .zero
        currency := "USD", description := "", createdAt := ⟨0, 0⟩, updatedAt := ⟨0, 0⟩, deletedAt := none }
    let y : Entry := { x with id := "t:credit", side := .credit }
    let l : TableLedger := .listing [x]
    let faults : Faults := fun n _ => if n = 3 then some .noConnection else none
    TableLedger.insertEntries (.failing faults) [x, y] l = (.error (.ofEngine .noConnection), l) ∧
      TableLedger.insertEntries .sound [x, y] l = (.ok 1, .listing [x, y]) := by
  decide +kernel

end TransferLedger
