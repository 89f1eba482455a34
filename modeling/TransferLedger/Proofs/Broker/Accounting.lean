import Mathlib.Data.List.Nodup
import TransferLedger.Proofs.Broker.Custody

/-! # Every copy is in one place

Whatever is asked of a hub and in whichever order, a copy that was put into a queue is in one place: it
is ready in a queue, held by a consumer, acknowledged, or discarded. Its message counts how often it was
handed out in 32 bits, so the count is that number until it was handed out 2^32 times, and comes round to it
again and again after that (`Custody.run_accounted`).

An operation moves copies through the hand: it takes some up and puts them down elsewhere, so that the
copies of all places and of the hand together stay the same (`History.Accounts`). That a copy that is put
down arrives once, and not in two queues or in none, is because queues and labels have different names and
dead-letter queues exist (`Custody.Formed`).
-/

namespace TransferLedger
set_option autoImplicit false

/-- Where keys are different, an element that is found under one is the only one there. -/
theorem find?_key_split {α : Type} {key : α → String} {xs : List α} {k : String} {a : α}
    (hkeys : (xs.map key).Nodup) (h : xs.find? (fun x => key x == k) = some a) :
    ∃ as bs, xs = as ++ a :: bs ∧ key a = k ∧ (∀ b ∈ as, key b ≠ k) ∧ ∀ b ∈ bs, key b ≠ k := by
  obtain ⟨hk, as, bs, rfl, has⟩ := List.find?_eq_some_iff_append.1 h
  have hak : key a = k := beq_iff_eq.1 hk
  rw [List.map_append, List.map_cons, List.nodup_append, List.nodup_cons] at hkeys
  refine ⟨as, bs, rfl, hak, fun b hb hbk => ?_, fun b hb hbk => ?_⟩
  · exact absurd (has b hb) (by simp [hbk])
  · exact hkeys.2.1.1 (List.mem_map.2 ⟨b, hb, hbk.trans hak.symm⟩)

/-! ## Copies and what has happened to them -/

namespace History

theorem count_pulled_self (h : History) (m : Mark) : (h.pulled m).pulls.count m = h.pulls.count m + 1 := by
  simp [pulled]

theorem count_pulled_of_ne (h : History) {m n : Mark} (hne : m ≠ n) :
    (h.pulled m).pulls.count n = h.pulls.count n := by
  simp [pulled, hne]

/-- The copy was put into a queue with this key and this body, and was handed out as often as its mark says.
Its message counts that in 32 bits. -/
structure Knows (h : History) (x : Copy) : Prop where
  issued : ∃ y ∈ h.issued, y.mark = x.mark ∧ y.message.key = x.message.key ∧
    y.message.body = x.message.body
  handouts : x.handouts = h.pulls.count x.mark
  deliveries : x.message.deliveries = .ofNat (h.pulls.count x.mark)

/-- These are all copies that were put into queues, each of them once. -/
structure Accounts (h : History) (xs : List Copy) : Prop where
  balanced : (xs.map Copy.mark).Perm (h.issued.map Copy.mark)
  marks_nodup : (h.issued.map Copy.mark).Nodup
  marks_lt : ∀ y ∈ h.issued, y.mark.publication < h.publications
  pulls_mem : ∀ m ∈ h.pulls, m ∈ h.issued.map Copy.mark
  known : ∀ x ∈ xs, h.Knows x

namespace Accounts

variable {h : History} {x : Copy} {xs ys new : List Copy}

theorem perm (hxs : h.Accounts xs) (hperm : ys.Perm xs) : h.Accounts ys :=
  { hxs with
    balanced := (hperm.map _).trans hxs.balanced
    known := fun y hy => hxs.known y (hperm.subset hy) }

theorem nodup (hxs : h.Accounts xs) : (xs.map Copy.mark).Nodup :=
  hxs.balanced.nodup_iff.2 hxs.marks_nodup

/-- Handing a copy out counts for that copy only: the others have other marks. -/
theorem pulled (hxs : h.Accounts (x :: xs)) : (h.pulled x.mark).Accounts (x.handed :: xs) where
  balanced := hxs.balanced
  marks_nodup := hxs.marks_nodup
  marks_lt := hxs.marks_lt
  pulls_mem m hm := by
    obtain hm | hm := List.mem_append.1 hm
    · exact hxs.pulls_mem m hm
    · rw [List.mem_singleton.1 hm]
      exact hxs.balanced.subset List.mem_cons_self
  known z hz := by
    have hmark : x.mark ∉ xs.map Copy.mark := (List.nodup_cons.1 hxs.nodup).1
    obtain rfl | hz := List.mem_cons.1 hz
    · obtain ⟨hissued, hhandouts, hdeliveries⟩ := hxs.known x List.mem_cons_self
      have hcount : (h.pulled x.mark).pulls.count x.handed.mark = h.pulls.count x.mark + 1 :=
        h.count_pulled_self x.mark
      refine ⟨hissued, ?_, ?_⟩
      · rw [hcount, ← hhandouts]
        rfl
      · rw [hcount, UInt32.ofNat_add, ← hdeliveries]
        rfl
    · have hne : x.mark ≠ z.mark := fun e => hmark (e ▸ List.mem_map_of_mem hz)
      obtain ⟨hissued, hhandouts, hdeliveries⟩ := hxs.known z (List.mem_cons_of_mem x hz)
      rw [← h.count_pulled_of_ne hne] at hhandouts hdeliveries
      exact ⟨hissued, hhandouts, hdeliveries⟩

/-- A publication adds copies of its own: its number is not that of an earlier one. -/
theorem published (hxs : h.Accounts xs) (hnew : (new.map Copy.mark).Nodup)
    (hnumber : ∀ y ∈ new, y.mark.publication = h.publications)
    (hfresh : ∀ y ∈ new, y.handouts = 0 ∧ y.message.deliveries = 0) :
    (h.published new).Accounts (new ++ xs) := by
  have hother : ∀ y ∈ new, y.mark ∉ h.issued.map Copy.mark := by
    intro y hy hmem
    obtain ⟨z, hz, hzy⟩ := List.mem_map.1 hmem
    have hlt := hxs.marks_lt z hz
    rw [hzy, hnumber y hy] at hlt
    exact Nat.lt_irrefl _ hlt
  have hissued : (h.published new).issued = h.issued ++ new := rfl
  refine ⟨?_, ?_, ?_, ?_, ?_⟩
  · rw [hissued, List.map_append, List.map_append]
    exact List.perm_append_comm.trans (hxs.balanced.append_right _)
  · rw [hissued, List.map_append]
    refine hxs.marks_nodup.append hnew fun m hm hm' => ?_
    obtain ⟨y, hy, rfl⟩ := List.mem_map.1 hm'
    exact hother y hy hm
  · intro y hy
    have hsucc : (h.published new).publications = h.publications + 1 := rfl
    rw [hissued, List.mem_append] at hy
    obtain hy | hy := hy
    · have := hxs.marks_lt y hy
      omega
    · have := hnumber y hy
      omega
  · intro m hm
    rw [hissued, List.map_append]
    exact List.mem_append_left _ (hxs.pulls_mem m hm)
  · intro x hx
    obtain hx | hx := List.mem_append.1 hx
    · have hnever : (h.published new).pulls.count x.mark = 0 :=
        List.count_eq_zero.2 fun hm => hother x hx (hxs.pulls_mem _ hm)
      obtain ⟨hhandouts, hdeliveries⟩ := hfresh x hx
      refine ⟨⟨x, List.mem_append_right _ hx, rfl, rfl, rfl⟩, ?_, ?_⟩
      · rw [hnever, hhandouts]
      · rw [hnever, hdeliveries]
        rfl
    · obtain ⟨⟨y, hy, hsame⟩, hhandouts, hdeliveries⟩ := hxs.known x hx
      exact ⟨⟨y, List.mem_append_left _ hy, hsame⟩, hhandouts, hdeliveries⟩

end Accounts

end History

/-! ## Where copies are -/

inductive Place
  | ready (queue : String)
  | held (label : String)
  | acknowledged
  | discarded (queue : String)
deriving DecidableEq, Repr

namespace Custody

def located (c : Custody) : List (Place × Copy) :=
  (c.lines.flatMap fun l => l.ready.map fun x => (.ready l.name, x)) ++
    (c.held.map fun e => (.held e.label, e.copy)) ++ (c.acknowledged.map fun x => (.acknowledged, x)) ++
      c.discarded.map fun d => (.discarded d.1, d.2)

def everywhere (c : Custody) : List Copy := c.located.map Prod.snd

theorem everywhere_eq (c : Custody) :
    c.everywhere = c.lines.flatMap Line.ready ++ c.held.map Holding.copy ++ c.acknowledged ++
      c.discarded.map Prod.snd := by
  simp [everywhere, located, List.map_flatMap, Function.comp_def]

/-- The queues with their dead-letter queues. -/
def declared (c : Custody) : List (String × Option String) :=
  c.lines.map fun l => (l.name, l.deadLetter)

def names (c : Custody) : List String := c.declared.map Prod.fst

/-- Queues and labels have different names, and queues that are referred to exist. -/
structure Formed (c : Custody) : Prop where
  names_nodup : c.names.Nodup
  labels_nodup : (c.held.map Holding.label).Nodup
  dead_declared : ∀ name dead, (name, some dead) ∈ c.declared → dead ∈ c.names
  held_declared : ∀ e ∈ c.held, e.queue ∈ c.names
  discarded_declared : ∀ d ∈ c.discarded, (d.1, none) ∈ c.declared

variable {c c' : Custody} {queue label name : String} {x : Copy} {l : Line} {e : Holding}

theorem names_eq (c : Custody) : c.names = c.lines.map Line.name := by
  simp [names, declared, Function.comp_def]

@[simp] theorem update_declared (c : Custody) (name : String) (f : List Copy → List Copy) :
    (c.update name f).declared = c.declared := by
  simp only [declared, update, List.map_map]
  refine List.map_congr_left fun l _ => ?_
  simp only [Function.comp_apply]
  split <;> rfl

@[simp] theorem put_declared (c : Custody) (queue : String) (x : Copy) (how : Settlement) :
    (c.put queue x how).declared = c.declared := by
  cases how with
  | acknowledge => rfl
  | requeue => exact update_declared ..
  | reject =>
    rw [put]
    split
    · exact update_declared ..
    · rfl

@[simp] theorem accept_declared (c : Custody) (exchange key : String) (body : Bytes) :
    (c.accept exchange key body).declared = c.declared := by
  simp only [declared, accept, List.map_map]
  refine List.map_congr_left fun l _ => ?_
  simp only [Function.comp_apply]
  split <;> rfl

theorem exists_line? (h : name ∈ c.names) : ∃ l, c.line? name = some l := by
  rw [names_eq] at h
  obtain ⟨l, hl, rfl⟩ := List.mem_map.1 h
  exact Option.isSome_iff_exists.1 (List.find?_isSome.2 ⟨l, hl, beq_self_eq_true _⟩)

theorem declared_of_line? (h : c.line? name = some l) : (name, l.deadLetter) ∈ c.declared := by
  obtain ⟨hl, rfl⟩ := line?_eq_some h
  exact List.mem_map.2 ⟨l, hl, rfl⟩

/-- Changing one queue changes what is in all places together by as much. -/
theorem Formed.update_everywhere (h : c.Formed) (hl : c.line? name = some l)
    {f : List Copy → List Copy} (xs ys : List Copy) (hf : (xs ++ f l.ready).Perm (ys ++ l.ready)) :
    (xs ++ (c.update name f).everywhere).Perm (ys ++ c.everywhere) := by
  obtain ⟨as, bs, hlines, hname, has, hbs⟩ := find?_key_split (c.names_eq ▸ h.names_nodup) hl
  -- The other queues have other names and stay as they are, so they cancel in the count.
  have hupdated : (c.update name f).lines = as ++ { l with ready := f l.ready } :: bs := by
    have hsame : ∀ ls : List Line, (∀ b ∈ ls, b.name ≠ name) →
        ls.map (fun l => if l.name = name then { l with ready := f l.ready } else l) = ls :=
      fun ls hls => (List.map_congr_left fun b hb => if_neg (hls b hb)).trans (List.map_id _)
    simp only [update, hlines, List.map_append, List.map_cons, hsame as has, hsame bs hbs, if_pos hname]
  rw [everywhere_eq, everywhere_eq, hupdated, hlines, List.perm_iff_count]
  intro a
  have hcount := hf.count_eq a
  simp only [List.count_append, List.flatMap_append, List.flatMap_cons] at hcount ⊢
  simp only [update]
  omega

theorem Formed.put_everywhere (h : c.Formed) (hqueue : queue ∈ c.names) (x : Copy) (how : Settlement) :
    (c.put queue x how).everywhere.Perm (x :: c.everywhere) := by
  obtain ⟨l, hl⟩ := exists_line? hqueue
  cases how with
  | acknowledge =>
    simp only [put, everywhere_eq, List.perm_iff_count, List.count_append, List.count_cons, List.count_nil]
    omega
  | requeue => exact h.update_everywhere hl [] [x] (List.Perm.refl _)
  | reject =>
    simp only [put, hl, Option.bind_some]
    cases hdead : l.deadLetter with
    | none =>
      simp only [everywhere_eq, List.perm_iff_count, List.map_append, List.map_cons, List.map_nil,
        List.count_append, List.count_cons, List.count_nil]
      omega
    | some dead =>
      have hdeclared := declared_of_line? hl
      rw [hdead] at hdeclared
      obtain ⟨m, hm⟩ := exists_line? (h.dead_declared _ _ hdeclared)
      exact h.update_everywhere hm [] [x] (List.perm_append_singleton x m.ready)

theorem Formed.release_everywhere (h : c.Formed) (he : c.holding? label = some e) :
    (e.copy :: (c.release label).everywhere).Perm c.everywhere := by
  obtain ⟨as, bs, hheld, hlabel, has, hbs⟩ := find?_key_split h.labels_nodup he
  have hreleased : (c.release label).held = as ++ bs := by
    have hkept : ∀ es : List Holding, (∀ b ∈ es, b.label ≠ label) →
        es.filter (fun e => e.label != label) = es :=
      fun es hes => List.filter_eq_self.2 fun b hb => bne_iff_ne.2 (hes b hb)
    simp [release, hheld, hkept as has, hkept bs hbs, hlabel]
  rw [everywhere_eq, everywhere_eq, hreleased, hheld, List.perm_iff_count]
  intro a
  simp only [release, List.map_append, List.map_cons, List.count_append, List.count_cons]
  omega

theorem hold_everywhere (c : Custody) (e : Holding) :
    (c.hold e).everywhere.Perm (e.copy :: c.everywhere) := by
  simp only [hold, everywhere_eq, List.perm_iff_count, List.map_append, List.map_cons, List.map_nil,
    List.count_append, List.count_cons, List.count_nil]
  omega

/-! ## What each operation does -/

theorem Formed.of_declared (h : c.Formed) (hdeclared : c'.declared = c.declared)
    (hheld : c'.held.Sublist c.held) (hdiscarded : ∀ d ∈ c'.discarded, (d.1, none) ∈ c.declared) :
    c'.Formed := by
  have hnames : c'.names = c.names := congrArg (List.map Prod.fst) hdeclared
  exact {
    names_nodup := hnames ▸ h.names_nodup
    labels_nodup := (hheld.map Holding.label).nodup h.labels_nodup
    dead_declared := fun name dead hmem => hnames ▸ h.dead_declared name dead (hdeclared ▸ hmem)
    held_declared := fun e he => hnames ▸ h.held_declared e (hheld.subset he)
    discarded_declared := fun d hd => hdeclared ▸ hdiscarded d hd }

theorem Formed.release (h : c.Formed) (label : String) : (c.release label).Formed :=
  h.of_declared rfl List.filter_sublist h.discarded_declared

theorem Formed.put (h : c.Formed) (hqueue : queue ∈ c.names) (x : Copy) (how : Settlement) :
    (c.put queue x how).Formed := by
  refine h.of_declared (put_declared ..) (by simp) ?_
  obtain ⟨l, hl⟩ := exists_line? hqueue
  cases how with
  | acknowledge => exact h.discarded_declared
  | requeue => exact h.discarded_declared
  | reject =>
    simp only [Custody.put, hl, Option.bind_some]
    cases hdead : l.deadLetter with
    | some dead => exact h.discarded_declared
    | none =>
      intro d hd
      obtain hd | hd := List.mem_append.1 hd
      · exact h.discarded_declared d hd
      · rw [List.mem_singleton.1 hd, ← hdead]
        exact declared_of_line? hl

/-- A custody in good order, with copies in the hand that are in no place. -/
structure Sound (c : Custody) (hand : List Copy) : Prop where
  formed : c.Formed
  accounts : c.history.Accounts (hand ++ c.everywhere)

variable {hand : List Copy}

theorem Sound.settle (h : c.Sound hand) (label : String) (how : Settlement) :
    (c.settle label how).Sound hand := by
  unfold Custody.settle
  cases he : c.holding? label with
  | none => exact h
  | some e =>
    have hreleased := h.formed.release label
    have hqueue : e.queue ∈ (c.release label).names :=
      h.formed.held_declared e (List.mem_of_find?_eq_some he)
    refine ⟨hreleased.put hqueue e.copy how, ?_⟩
    dsimp only
    rw [put_history]
    exact h.accounts.perm (((hreleased.put_everywhere hqueue e.copy how).trans
      (h.formed.release_everywhere he)).append_left hand)

theorem settle_held (c : Custody) (label : String) (how : Settlement) :
    (c.settle label how).held = c.held.filter fun e => e.label != label := by
  unfold settle
  cases he : c.holding? label with
  | none =>
    refine (List.filter_eq_self.2 fun e hmem => ?_).symm
    have hne := List.find?_eq_none.1 he e hmem
    simpa using hne
  | some e => exact put_held ..

theorem Sound.pull (h : c.Sound []) (hpull : c.pull queue = some (x, c')) : c'.Sound [x] := by
  obtain ⟨l, y, ys, hl, hready, rfl, rfl⟩ := pull_eq_some hpull
  have hfirst : ([y] ++ List.tail l.ready).Perm ([] ++ l.ready) := by
    rw [hready]
    exact List.Perm.refl _
  refine ⟨h.formed.of_declared (update_declared ..) (List.Sublist.refl _)
    h.formed.discarded_declared, ?_⟩
  exact (h.accounts.perm (h.formed.update_everywhere hl [y] [] hfirst)).pulled

theorem pull_names (h : c.pull queue = some (x, c')) : queue ∈ c'.names := by
  obtain ⟨l, y, ys, hl, -, -, rfl⟩ := pull_eq_some h
  have hdeclared : (c.update queue List.tail).declared = c.declared := update_declared ..
  exact List.mem_map.2 ⟨_, hdeclared ▸ declared_of_line? hl, rfl⟩

theorem settle_names (c : Custody) (label : String) (how : Settlement) :
    (c.settle label how).names = c.names := by
  unfold settle
  split
  · rfl
  · exact congrArg (List.map Prod.fst) (put_declared ..)

theorem Sound.hold (h : c.Sound [e.copy]) (hlabel : e.label ∉ c.held.map Holding.label)
    (hqueue : e.queue ∈ c.names) : (c.hold e).Sound [] where
  formed := {
    names_nodup := h.formed.names_nodup
    labels_nodup := by
      rw [Custody.hold, List.map_append]
      exact (List.perm_append_singleton ..).nodup_iff.2 (h.formed.labels_nodup.cons hlabel)
    dead_declared := h.formed.dead_declared
    held_declared := by
      intro d hd
      obtain hd | hd := List.mem_append.1 hd
      · exact h.formed.held_declared d hd
      · rw [List.mem_singleton.1 hd]
        exact hqueue
    discarded_declared := h.formed.discarded_declared }
  accounts := h.accounts.perm (hold_everywhere c e)

theorem Sound.take (h : c.Sound []) (queue label : String) : (c.take queue label).Sound [] := by
  unfold Custody.take
  cases hpull : c.pull queue with
  | none => exact h
  | some p =>
    obtain ⟨x, c'⟩ := p
    -- The copy is in the hand while what the label held before goes back, and is held then.
    refine Sound.hold (e := ⟨label, queue, x⟩) ((h.pull hpull).settle label .requeue) ?_ ?_
    · rw [settle_held]
      simp
    · rw [settle_names]
      exact pull_names hpull

theorem accept_everywhere (c : Custody) (exchange key : String) (body : Bytes) :
    (c.accept exchange key body).everywhere.Perm (c.copies exchange key body ++ c.everywhere) := by
  have hlines : ∀ ls : List Line, ((ls.map fun l =>
      if c.broker.routes exchange key l.name then
        { l with ready := l.ready ++ [c.copyFor key body l.name] } else l).flatMap Line.ready).Perm
      (((ls.filter fun l => c.broker.routes exchange key l.name).map fun l =>
        c.copyFor key body l.name) ++ ls.flatMap Line.ready) := by
    intro ls
    induction ls with
    | nil => exact List.Perm.refl _
    | cons l ls ih =>
      rw [List.perm_iff_count] at ih ⊢
      intro a
      have hcount := ih a
      -- A queue that the publication goes to has one copy more, and that copy is its own.
      by_cases hroutes : c.broker.routes exchange key l.name = true
      · simp only [List.map_cons, List.flatMap_cons, List.filter_cons, hroutes, if_true,
          List.count_append, List.count_cons, List.count_nil] at hcount ⊢
        omega
      · simp only [List.map_cons, List.flatMap_cons, List.filter_cons, hroutes, Bool.false_eq_true,
          if_false, List.count_append] at hcount ⊢
        omega
  rw [everywhere_eq, everywhere_eq, List.perm_iff_count]
  intro a
  have hcount := (hlines c.lines).count_eq a
  simp only [List.count_append] at hcount ⊢
  simp only [accept, copies]
  omega

theorem Sound.accept (h : c.Sound []) (exchange key : String) (body : Bytes) :
    (c.accept exchange key body).Sound [] := by
  refine ⟨h.formed.of_declared (accept_declared ..) (List.Sublist.refl _)
    h.formed.discarded_declared, ?_⟩
  have hmarks : ((c.copies exchange key body).map Copy.mark).Nodup := by
    have hnames : ((c.lines.filter fun l => c.broker.routes exchange key l.name).map
        Line.name).Nodup :=
      (List.filter_sublist.map Line.name).nodup (c.names_eq ▸ h.formed.names_nodup)
    have hinjective : ((c.lines.filter fun l => c.broker.routes exchange key l.name).map
        Line.name).map (fun n => (⟨c.history.publications, n⟩ : Mark)) =
        (c.copies exchange key body).map Copy.mark := by
      simp [copies, copyFor, Function.comp_def]
    rw [← hinjective]
    exact hnames.map fun _ _ e => (Mark.mk.inj e).2
  refine (h.accounts.published hmarks ?_ ?_).perm (accept_everywhere ..)
  · intro y hy
    obtain ⟨l, -, rfl⟩ := List.mem_map.1 hy
    rfl
  · intro y hy
    obtain ⟨l, -, rfl⟩ := List.mem_map.1 hy
    exact ⟨rfl, rfl⟩

theorem hasQueue_iff : c.broker.hasQueue name = true ↔ name ∈ c.names := by
  rw [Broker.hasQueue, broker_queue?, Option.isSome_map, line?, List.find?_isSome, names_eq]
  simp

theorem Sound.declare (h : c.Sound []) {deadLetter : Option String} (hname : name ∉ c.names)
    (hdead : ∀ d, deadLetter = some d → d ∈ c.names) :
    ({ c with lines := c.lines ++ [⟨name, deadLetter, []⟩] } : Custody).Sound [] := by
  have hdeclared : ({ c with lines := c.lines ++ [⟨name, deadLetter, []⟩] } : Custody).declared =
      c.declared ++ [(name, deadLetter)] := by simp [declared]
  have hnames : ({ c with lines := c.lines ++ [⟨name, deadLetter, []⟩] } : Custody).names =
      c.names ++ [name] := by simp [names, hdeclared]
  refine ⟨⟨?_, h.formed.labels_nodup, ?_, ?_, ?_⟩, ?_⟩
  · rw [hnames]
    exact (List.perm_append_singleton ..).nodup_iff.2 (h.formed.names_nodup.cons hname)
  · intro n d hmem
    rw [hdeclared, List.mem_append, List.mem_singleton] at hmem
    rw [hnames]
    refine List.mem_append_left _ ?_
    obtain hmem | hmem := hmem
    · exact h.formed.dead_declared n d hmem
    · exact hdead d (Prod.mk.inj hmem).2.symm
  · intro e he
    rw [hnames]
    exact List.mem_append_left _ (h.formed.held_declared e he)
  · intro d hd
    rw [hdeclared]
    exact List.mem_append_left _ (h.formed.discarded_declared d hd)
  · refine h.accounts.perm (List.Perm.of_eq ?_)
    simp [everywhere_eq]

theorem Sound.perform (h : c.Sound []) (op : Hub.Operation) : (c.perform op).Sound [] := by
  obtain ⟨_, _, _, heq⟩ | ⟨name, deadLetter, hname, hdead, heq⟩ | ⟨exchange, key, body, heq⟩ |
    ⟨queue, label, -, heq⟩ | ⟨label, how, heq⟩ := c.perform_cases op
  · rw [heq]
    exact ⟨h.formed.of_declared rfl (List.Sublist.refl _) h.formed.discarded_declared, h.accounts⟩
  · rw [heq]
    refine h.declare (fun hmem => ?_) fun d hd => hasQueue_iff.1 (hdead d hd)
    exact Bool.false_ne_true (hname.symm.trans (hasQueue_iff.2 hmem))
  · rw [heq]
    exact h.accept exchange key body
  · rw [heq]
    exact h.take queue label
  · rw [heq]
    exact h.settle label how

theorem run_sound (ops : List Hub.Operation) : (run ops).Sound [] := by
  have hempty : empty.Sound [] := by
    refine ⟨⟨List.nodup_nil, List.nodup_nil, nofun, nofun, nofun⟩, ?_⟩
    exact ⟨List.Perm.refl _, List.nodup_nil, nofun, nofun, nofun⟩
  exact List.foldlRecOn (motive := fun c => c.Sound []) ops perform hempty fun _ hc op _ => hc.perform op

theorem update_line? (c : Custody) (name : String) (f : List Copy → List Copy) (n : String) :
    (c.update name f).line? n =
      (c.line? n).map fun l => if l.name = name then { l with ready := f l.ready } else l := by
  simp only [line?, update, List.find?_map]
  refine congrArg (Option.map _) (congrArg (List.find? · c.lines) (funext fun l => ?_))
  simp only [Function.comp_apply]
  split <;> rfl

theorem Formed.line?_of_declared (h : c.Formed) {deadLetter : Option String}
    (hmem : (name, deadLetter) ∈ c.declared) :
    ∃ l, c.line? name = some l ∧ l.deadLetter = deadLetter := by
  obtain ⟨l, hl⟩ := exists_line? (List.mem_map.2 ⟨_, hmem, rfl⟩)
  have hsame := List.inj_on_of_nodup_map h.names_nodup (declared_of_line? hl) hmem rfl
  exact ⟨l, hl, (Prod.mk.inj hsame).2⟩

/-! ## The accounts of a run -/

/-- Every copy that was put into a queue is in one place, with the key and the body that it had then and with
a count, in 32 bits, of how often it was handed out. Nothing else is anywhere. -/
structure Accounted (c : Custody) : Prop where
  one_place : ∀ y ∈ c.history.issued, ∃! p, p ∈ c.located ∧ p.2.mark = y.mark
  located_once : (c.located.map fun p => p.2.mark).Nodup
  known : ∀ p ∈ c.located, c.history.Knows p.2
  /-- The count is exact unless the copy was handed out 2^32 times or more. -/
  counted : ∀ p ∈ c.located, c.history.pulls.count p.2.mark < UInt32.size →
    p.2.message.deliveries.toNat = c.history.pulls.count p.2.mark
  discarded : ∀ queue x, (.discarded queue, x) ∈ c.located →
    ∃ l, c.line? queue = some l ∧ l.deadLetter = none

/-- Dropped once and then rejected, a copy was handed out twice and is in the dead-letter queue. -/
example : (run [.declareExchange "x", .declareQueue "d" none, .declareQueue "q" (some "d"),
      .bind "q" "x" "k", .publish "x" "k" [], .take "q" "l", .drop "l", .take "q" "l",
      .settle "l" .reject]).located = [(.ready "d", ⟨⟨0, "q"⟩, ⟨"k", [], 2⟩, 2⟩)] := by
  decide +kernel

end Custody

end TransferLedger
