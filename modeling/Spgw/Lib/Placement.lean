/-
# Items placed by key in a row of slots

Items arrive one by one and are placed in a row of `N` slots, each of which has at most one key.
-/

import Mathlib.Algebra.BigOperators.Fin
import Mathlib.Data.Finset.Card
import Mathlib.Data.List.FinRange

namespace Spgw.Placement

open Function

variable {N : ℕ} {κ ι : Type}

structure Policy (N : ℕ) (κ ι : Type) where
  key : ι → κ
  home : Fin N
  key₀ : κ
  pinned : κ
  first : ℕ
  opens : Bool := true

structure Entry (N : ℕ) (ι : Type) where
  slot : Fin N
  index : ℕ
  item : ι

structure State (N : ℕ) (κ ι : Type) where
  keyAt : Fin N → Option κ
  opened : Fin N → Bool := fun _ => false
  next : ℕ
  held : List (Entry N ι) := []
  count : ℕ := 0
  last : Option (Fin N) := none

def Policy.initial (P : Policy N κ ι) : State N κ ι where
  keyAt := update (fun _ => none) P.home (some P.key₀)
  next := P.first

theorem Policy.keyAt_initial (P : Policy N κ ι) (i : Fin N) :
    P.initial.keyAt i = if i = P.home then some P.key₀ else none := by
  simp [Policy.initial, update_apply]

namespace State

def put (s : State N κ ι) (i : Fin N) (x : ι) : State N κ ι :=
  { s with
    held := s.held ++ [⟨i, s.count, x⟩]
    count := s.count + 1
    last := some i }

def openSlot (s : State N κ ι) (i : Fin N) (k : κ) : State N κ ι :=
  { s with
    keyAt := update s.keyAt i (some k)
    opened := update s.opened i true
    next := s.next + 1
    held := s.held.filter fun e => e.slot ≠ i }

theorem isSome_keyAt_openSlot {s : State N κ ι} {j : Fin N} (h : (s.keyAt j).isSome) (i : Fin N)
    (k : κ) : ((s.openSlot i k).keyAt j).isSome := by
  by_cases hji : j = i
  · simp [openSlot, hji]
  · simpa [openSlot, update_of_ne hji] using h

def inSlot (s : State N κ ι) (i : Fin N) : List (Entry N ι) := s.held.filter fun e => e.slot = i

theorem length_inSlot_le (s : State N κ ι) (i : Fin N) : (s.inSlot i).length ≤ s.held.length :=
  List.length_filter_le ..

theorem perm_inSlot (s : State N κ ι) : ((List.finRange N).flatMap s.inSlot).Perm s.held := by
  classical
  have hcount : ∀ e i, (s.inSlot i).count e = if i = e.slot then s.held.count e else 0 := by
    intro e i
    unfold inSlot
    split_ifs with hi
    · exact List.count_filter (by simp [hi])
    · refine List.count_eq_zero.2 fun hmem => hi ?_
      exact (of_decide_eq_true (List.mem_filter.1 hmem).2).symm
  refine List.perm_iff_count.2 fun e => ?_
  rw [List.count_flatMap, ← Fin.sum_univ_def]
  simp [hcount]

theorem inSlot_put (s : State N κ ι) (i j : Fin N) (x : ι) :
    (s.put i x).inSlot j = s.inSlot j ++ if j = i then [⟨i, s.count, x⟩] else [] := by
  simp only [inSlot, put, List.filter_append, List.append_cancel_left_eq]
  by_cases hji : j = i
  · simp [hji]
  · simp [hji, Ne.symm hji]

theorem inSlot_openSlot (s : State N κ ι) (i j : Fin N) (k : κ) :
    (s.openSlot i k).inSlot j = if j = i then [] else s.inSlot j := by
  simp only [inSlot, openSlot, List.filter_filter]
  split_ifs with hji
  · refine List.filter_eq_nil_iff.2 fun e _ => ?_
    simp [hji]
  · refine List.filter_congr fun e _ => ?_
    by_cases he : e.slot = j
    · simp [he, hji]
    · simp [he]

end State

section Find

variable [DecidableEq κ]

def find (keyAt : Fin N → Option κ) (k : κ) : Option (Fin N) :=
  (List.finRange N).find? fun i => keyAt i == some k

theorem keyAt_of_find {keyAt : Fin N → Option κ} {k : κ} {i : Fin N} (h : find keyAt k = some i) :
    keyAt i = some k :=
  eq_of_beq (List.find?_some (p := fun i => keyAt i == some k) h)

theorem find_eq_none {keyAt : Fin N → Option κ} {k : κ} :
    find keyAt k = none ↔ ∀ i, keyAt i ≠ some k := by
  simp [find]

end Find

variable [DecidableEq κ]

def State.place (P : Policy N κ ι) (s : State N κ ι) (x : ι) : Option (State N κ ι) :=
  if P.key x = P.pinned then
    some (s.put P.home x)
  else
    match find s.keyAt (P.key x) with
    | some i => some (s.put i x)
    | none =>
      if h : s.next < N ∧ P.opens then
        some ((s.openSlot ⟨s.next, h.1⟩ (P.key x)).put ⟨s.next, h.1⟩ x)
      else
        none

inductive Finds (P : Policy N κ ι) (s : State N κ ι) (x : ι) : Fin N → Prop
  | pinned : P.key x = P.pinned → Finds P s x P.home
  | keyed {i : Fin N} : P.key x ≠ P.pinned → find s.keyAt (P.key x) = some i → Finds P s x i

theorem Finds.isSome_keyAt {P : Policy N κ ι} {s : State N κ ι} {x : ι} {i : Fin N}
    (h : Finds P s x i) (hhome : (s.keyAt P.home).isSome) : (s.keyAt i).isSome := by
  cases h with
  | pinned => exact hhome
  | keyed _ hfind => rw [keyAt_of_find hfind, Option.isSome_some]

structure Opens (P : Policy N κ ι) (s : State N κ ι) (x : ι) (i : Fin N) : Prop where
  ne_pinned : P.key x ≠ P.pinned
  new : ∀ j, s.keyAt j ≠ some (P.key x)
  slot : i.val = s.next
  opens : P.opens = true

theorem place_eq_some {P : Policy N κ ι} {s s' : State N κ ι} {x : ι} : s.place P x = some s' ↔
      (∃ i, Finds P s x i ∧ s' = s.put i x) ∨
        ∃ i, Opens P s x i ∧ s' = (s.openSlot i (P.key x)).put i x := by
  unfold State.place
  by_cases hpin : P.key x = P.pinned
  · rw [if_pos hpin]
    constructor
    · intro h
      exact .inl ⟨_, .pinned hpin, (Option.some.inj h).symm⟩
    · rintro (⟨i, hfinds | ⟨hne, -⟩, rfl⟩ | ⟨i, hopens, -⟩)
      · rfl
      · exact absurd hpin hne
      · exact absurd hpin hopens.ne_pinned
  · rw [if_neg hpin]
    cases hfind : find s.keyAt (P.key x) with
    | some i =>
      constructor
      · intro h
        exact .inl ⟨i, .keyed hpin hfind, (Option.some.inj h).symm⟩
      · rintro (⟨j, h | ⟨-, hj⟩, rfl⟩ | ⟨j, hopens, -⟩)
        · exact absurd h hpin
        · rw [hfind] at hj
          cases hj
          rfl
        · exact absurd (keyAt_of_find hfind) (hopens.new i)
    | none =>
      have hnew := find_eq_none.1 hfind
      by_cases hroom : s.next < N ∧ P.opens = true
      · simp only [dif_pos hroom]
        constructor
        · intro h
          exact .inr ⟨_, ⟨hpin, hnew, rfl, hroom.2⟩, (Option.some.inj h).symm⟩
        · rintro (⟨j, h | ⟨-, hj⟩, rfl⟩ | ⟨j, hopens, rfl⟩)
          · exact absurd h hpin
          · rw [hfind] at hj
            cases hj
          · have hj : j = ⟨s.next, hroom.1⟩ := Fin.ext hopens.slot
            rw [hj]
      · simp only [dif_neg hroom]
        constructor
        · intro h
          cases h
        · rintro (⟨j, h | ⟨-, hj⟩, rfl⟩ | ⟨j, hopens, rfl⟩)
          · exact absurd h hpin
          · rw [hfind] at hj
            cases hj
          · exact absurd ⟨hopens.slot ▸ j.isLt, hopens.opens⟩ hroom

/-- The state after a list has been placed, element by element. -/
inductive Places (P : Policy N κ ι) : List ι → State N κ ι → Prop
  | nil : Places P [] P.initial
  | snoc {xs : List ι} {x : ι} {s s' : State N κ ι} :
      Places P xs s → s.place P x = some s' → Places P (xs ++ [x]) s'

section Held

variable {P : Policy N κ ι} {s : State N κ ι} {xs : List ι}

theorem Places.unique {s' : State N κ ι} (h : Places P xs s) (h' : Places P xs s') : s = s' := by
  induction h generalizing s' with
  | nil =>
    generalize hxs : ([] : List ι) = xs at h'
    cases h' with
    | nil => rfl
    | snoc => simp at hxs
  | @snoc xs x s t _ hplace ih =>
    generalize hxs : xs ++ [x] = ys at h'
    cases h' with
    | nil => simp at hxs
    | snoc hs' hplace' =>
      obtain ⟨rfl, rfl⟩ := List.append_singleton_inj.1 hxs
      rw [ih hs'] at hplace
      exact Option.some.inj (hplace.symm.trans hplace')

theorem Places.count_eq (h : Places P xs s) : s.count = xs.length := by
  induction h with
  | nil => rfl
  | snoc _ hplace ih =>
    rw [List.length_append, ← ih]
    obtain ⟨i, -, rfl⟩ | ⟨i, -, rfl⟩ := place_eq_some.1 hplace <;> rfl

theorem Places.sublist (h : Places P xs s) :
    (s.held.map fun e => (e.item, e.index)).Sublist xs.zipIdx := by
  induction h with
  | nil => exact List.Sublist.refl []
  | @snoc xs x s s' hs hplace ih =>
    have happend : (xs ++ [x]).zipIdx = xs.zipIdx ++ [(x, s.count)] := by
      simp [List.zipIdx_append, hs.count_eq]
    rw [happend]
    obtain ⟨i, -, rfl⟩ | ⟨i, -, rfl⟩ := place_eq_some.1 hplace
    · simpa [State.put] using ih.append (List.Sublist.refl [(x, s.count)])
    · have hsub := (List.filter_sublist (p := fun e : Entry N ι => e.slot ≠ i)
        (l := s.held)).map fun e => (e.item, e.index)
      simpa [State.put, State.openSlot] using
        (hsub.trans ih).append (List.Sublist.refl [(x, s.count)])

theorem Places.items_eq (h : Places P xs s) (hkept : s.held.length = xs.length) :
    s.held.map Entry.item = xs := by
  have heq := h.sublist.eq_of_length (by simpa using hkept)
  have hmap := congrArg (List.map Prod.fst) heq
  simpa [List.map_map, comp_def] using hmap

theorem Places.length_held_le (h : Places P xs s) : s.held.length ≤ xs.length := by
  simpa using h.sublist.length_le

theorem Places.isSome_keyAt (h : Places P xs s) :
    (s.keyAt P.home).isSome ∧ ∀ e ∈ s.held, (s.keyAt e.slot).isSome := by
  induction h with
  | nil => exact ⟨by simp [P.keyAt_initial], fun e he => absurd he List.not_mem_nil⟩
  | @snoc xs x s s' hs hplace ih =>
    obtain ⟨i, hfinds, rfl⟩ | ⟨i, -, rfl⟩ := place_eq_some.1 hplace
    · refine ⟨ih.1, fun e he => ?_⟩
      rcases List.mem_append.1 he with he | he
      · exact ih.2 e he
      · rw [List.mem_singleton.1 he]
        exact hfinds.isSome_keyAt ih.1
    · refine ⟨State.isSome_keyAt_openSlot ih.1 i _, fun e he => ?_⟩
      rcases List.mem_append.1 he with he | he
      · exact State.isSome_keyAt_openSlot (ih.2 e (List.mem_of_mem_filter he)) i _
      · rw [List.mem_singleton.1 he]
        simp [State.put, State.openSlot]

theorem Places.keyAt_lt (h : Places P xs s) {i : Fin N} (hi : (s.keyAt i).isSome) :
    i.val < s.next ∨ i = P.home := by
  induction h generalizing i with
  | nil =>
    by_contra hne
    rw [not_or] at hne
    rw [P.keyAt_initial, if_neg hne.2] at hi
    cases hi
  | @snoc xs x s s' hs hplace ih =>
    obtain ⟨j, -, rfl⟩ | ⟨j, hopens, rfl⟩ := place_eq_some.1 hplace
    · exact ih hi
    · have hnext : ((s.openSlot j (P.key x)).put j x).next = s.next + 1 := rfl
      rw [hnext]
      by_cases hij : i = j
      · rw [hij, hopens.slot]
        exact .inl (Nat.lt_succ_self _)
      · simp only [State.put, State.openSlot, update_of_ne hij] at hi
        exact (ih hi).imp_left Nat.lt_succ_of_lt

theorem Places.slot_lt (h : Places P xs s) {e : Entry N ι} (he : e ∈ s.held) :
    e.slot.val < s.next ∨ e.slot = P.home :=
  h.keyAt_lt (h.isSome_keyAt.2 e he)

theorem Places.first_le (h : Places P xs s) :
    P.first ≤ s.next ∧ ∀ i : Fin N, s.opened i = true → P.first ≤ i := by
  induction h with
  | nil => exact ⟨le_rfl, fun i hi => by cases hi⟩
  | snoc _ hplace ih =>
    obtain ⟨i, -, rfl⟩ | ⟨i, hopens, rfl⟩ := place_eq_some.1 hplace
    · exact ih
    · refine ⟨Nat.le_succ_of_le ih.1, fun j hj => ?_⟩
      by_cases hji : j = i
      · rw [hji, hopens.slot]
        exact ih.1
      · exact ih.2 j (by simpa [State.put, State.openSlot, hji] using hj)

end Held

namespace Policy

variable (P : Policy N κ ι)

def ForeignKey (k : κ) : Prop := k ≠ P.pinned ∧ k ≠ P.key₀

instance (k : κ) : Decidable (P.ForeignKey k) := inferInstanceAs (Decidable (_ ∧ _))

def Foreign (x : ι) : Prop := P.ForeignKey (P.key x)

instance (x : ι) : Decidable (P.Foreign x) := inferInstanceAs (Decidable (P.ForeignKey _))

def foreignKeys (xs : List ι) : Finset κ := ((xs.map P.key).filter fun k => P.ForeignKey k).toFinset

/-- The home slot is opened, after an item that went there: the foreign item `x` has a new key,
and the foreign keys before it have taken the slots from the first up to the home slot. -/
def Displaces (xs : List ι) : Prop :=
  ∃ before x after, xs = before ++ x :: after ∧ P.Foreign x ∧ P.key x ∉ P.foreignKeys before ∧
    P.first + (P.foreignKeys before).card = P.home ∧ ∃ y ∈ before, ¬ P.Foreign y

variable {P}

theorem mem_foreignKeys {xs : List ι} {k : κ} :
    k ∈ P.foreignKeys xs ↔ P.ForeignKey k ∧ ∃ x ∈ xs, P.key x = k := by
  simp [foreignKeys, and_comm]

theorem foreignKeys_concat_of_foreign {xs : List ι} {x : ι} (hx : P.Foreign x) :
    P.foreignKeys (xs ++ [x]) = insert (P.key x) (P.foreignKeys xs) := by
  ext k
  rw [Finset.mem_insert, mem_foreignKeys, mem_foreignKeys]
  constructor
  · rintro ⟨hk, y, hy, rfl⟩
    rcases List.mem_append.1 hy with hy | hy
    · exact .inr ⟨hk, y, hy, rfl⟩
    · exact .inl (congrArg P.key (List.mem_singleton.1 hy))
  · rintro (rfl | ⟨hk, y, hy, rfl⟩)
    · exact ⟨hx, x, by simp, rfl⟩
    · exact ⟨hk, y, List.mem_append_left _ hy, rfl⟩

theorem foreignKeys_concat_of_not {xs : List ι} {x : ι} (hx : ¬ P.Foreign x) :
    P.foreignKeys (xs ++ [x]) = P.foreignKeys xs := by
  ext k
  rw [mem_foreignKeys, mem_foreignKeys]
  constructor
  · rintro ⟨hk, y, hy, rfl⟩
    rcases List.mem_append.1 hy with hy | hy
    · exact ⟨hk, y, hy, rfl⟩
    · rw [List.mem_singleton.1 hy] at hk
      exact absurd hk hx
  · rintro ⟨hk, y, hy, rfl⟩
    exact ⟨hk, y, List.mem_append_left _ hy, rfl⟩

theorem foreignKeys_subset_append (xs ys : List ι) : P.foreignKeys xs ⊆ P.foreignKeys (xs ++ ys) := by
  intro k hk
  obtain ⟨hk, x, hx, rfl⟩ := mem_foreignKeys.1 hk
  exact mem_foreignKeys.2 ⟨hk, x, List.mem_append_left _ hx, rfl⟩

theorem displaces_concat {xs : List ι} {x : ι} : P.Displaces (xs ++ [x]) ↔ P.Displaces xs ∨
      (P.Foreign x ∧ P.key x ∉ P.foreignKeys xs ∧ P.first + (P.foreignKeys xs).card = P.home ∧
        ∃ y ∈ xs, ¬ P.Foreign y) := by
  constructor
  · rintro ⟨before, z, after, heq, hz⟩
    rcases List.eq_nil_or_concat after with rfl | ⟨after, w, rfl⟩
    · obtain ⟨rfl, hzx⟩ := List.append_inj' heq rfl
      cases List.singleton_inj.1 hzx
      exact .inr hz
    · rw [List.concat_eq_append, ← List.cons_append, ← List.append_assoc] at heq
      exact .inl ⟨before, z, after, (List.append_inj' heq rfl).1, hz⟩
  · rintro (⟨before, z, after, rfl, hz⟩ | h)
    · exact ⟨before, z, after ++ [x], by simp, hz⟩
    · exact ⟨xs, x, [], rfl, h⟩

theorem not_displaces {xs : List ι}
    (h : P.first + (P.foreignKeys xs).card ≤ P.home ∨ P.home.val < P.first) :
    ¬ P.Displaces xs := by
  rintro ⟨before, x, after, rfl, hx, hnew, hcard, -⟩
  have hsub := foreignKeys_subset_append (P := P) (before ++ [x]) after
  rw [foreignKeys_concat_of_foreign hx, List.append_assoc] at hsub
  have hle := Finset.card_le_card hsub
  rw [Finset.card_insert_of_notMem hnew, List.singleton_append] at hle
  omega

end Policy

def Policy.Early (P : Policy N κ ι) (xs : List ι) : Prop :=
  P.first + (P.foreignKeys xs).card ≤ P.home ∨ P.home.val < P.first

structure Kept (P : Policy N κ ι) (xs : List ι) (s : State N κ ι) : Prop where
  home : s.keyAt P.home = some P.key₀
  next : s.next = P.first + (P.foreignKeys xs).card
  foreign : ∀ i, i ≠ P.home → ∀ k, s.keyAt i = some k → P.ForeignKey k
  found : ∀ k, P.ForeignKey k → ((∃ i, s.keyAt i = some k) ↔ k ∈ P.foreignKeys xs)
  slots : ∀ e ∈ s.held, e.slot = P.home ↔ ¬ P.Foreign e.item
  length : s.held.length = xs.length

namespace Kept

variable {P : Policy N κ ι} {s : State N κ ι} {xs : List ι} {x : ι}

theorem finds_home (h : Kept P xs s) (hx : ¬ P.Foreign x) {i : Fin N} (hi : Finds P s x i) :
    i = P.home := by
  cases hi with
  | pinned => rfl
  | keyed hne hfind =>
    have hkey : P.key x = P.key₀ := by
      by_contra hkey
      exact hx ⟨hne, hkey⟩
    have hat := keyAt_of_find hfind
    by_contra hi
    exact (h.foreign i hi _ hat).2 hkey

theorem finds_other (h : Kept P xs s) (hx : P.Foreign x) {i : Fin N} (hi : Finds P s x i) :
    i ≠ P.home ∧ P.key x ∈ P.foreignKeys xs := by
  cases hi with
  | pinned hpin => exact absurd hpin hx.1
  | keyed hne hfind =>
    have hat := keyAt_of_find hfind
    refine ⟨?_, (h.found _ hx).1 ⟨i, hat⟩⟩
    rintro rfl
    rw [h.home] at hat
    exact hx.2 (Option.some.inj hat).symm

theorem opens (h : Kept P xs s) {i : Fin N} (hi : Opens P s x i) :
    P.Foreign x ∧ P.key x ∉ P.foreignKeys xs := by
  have hx : P.Foreign x := by
    refine ⟨hi.ne_pinned, fun hkey => hi.new P.home ?_⟩
    rw [h.home, hkey]
  refine ⟨hx, fun hmem => ?_⟩
  obtain ⟨j, hj⟩ := (h.found _ hx).2 hmem
  exact hi.new j hj

theorem put (h : Kept P xs s) {i : Fin N} (hi : Finds P s x i) : Kept P (xs ++ [x]) (s.put i x) := by
  have hkeys : P.foreignKeys (xs ++ [x]) = P.foreignKeys xs := by
    by_cases hx : P.Foreign x
    · rw [Policy.foreignKeys_concat_of_foreign hx, Finset.insert_eq_of_mem (h.finds_other hx hi).2]
    · exact Policy.foreignKeys_concat_of_not hx
  refine ⟨h.home, hkeys ▸ h.next, h.foreign, hkeys ▸ h.found, fun e he => ?_, ?_⟩
  · rcases List.mem_append.1 he with he | he
    · exact h.slots e he
    · rw [List.mem_singleton.1 he]
      by_cases hx : P.Foreign x
      · exact iff_of_false (h.finds_other hx hi).1 (not_not_intro hx)
      · exact iff_of_true (h.finds_home hx hi) hx
  · simp [State.put, h.length]

theorem openSlot (h : Kept P xs s) {i : Fin N} (hi : Opens P s x i) (hne : i ≠ P.home)
    (hempty : s.keyAt i = none) (hslot : ∀ e ∈ s.held, e.slot ≠ i) :
    Kept P (xs ++ [x]) ((s.openSlot i (P.key x)).put i x) := by
  obtain ⟨hx, hnew⟩ := h.opens hi
  have hkeys : P.foreignKeys (xs ++ [x]) = insert (P.key x) (P.foreignKeys xs) :=
    Policy.foreignKeys_concat_of_foreign hx
  have hheld : ((s.openSlot i (P.key x)).put i x).held = s.held ++ [⟨i, s.count, x⟩] := by
    simp only [State.put, State.openSlot, List.append_cancel_right_eq]
    exact List.filter_eq_self.2 fun e he => by simpa using hslot e he
  have hat : ∀ j, ((s.openSlot i (P.key x)).put i x).keyAt j =
      if j = i then some (P.key x) else s.keyAt j := fun j => by
    simp [State.put, State.openSlot, update_apply]
  refine ⟨?_, ?_, fun j hj k hk => ?_, fun k hk => ?_, fun e he => ?_, ?_⟩
  · rw [hat, if_neg hne.symm, h.home]
  · rw [hkeys, Finset.card_insert_of_notMem hnew, ← Nat.add_assoc, ← h.next]
    rfl
  · rw [hat] at hk
    split_ifs at hk with hji
    · cases hk
      exact hx
    · exact h.foreign j hj k hk
  · rw [hkeys, Finset.mem_insert, ← h.found k hk]
    constructor
    · rintro ⟨j, hj⟩
      rw [hat] at hj
      split_ifs at hj with hji
      · exact .inl (Option.some.inj hj).symm
      · exact .inr ⟨j, hj⟩
    · rintro (rfl | ⟨j, hj⟩)
      · exact ⟨i, by rw [hat, if_pos rfl]⟩
      · have hji : j ≠ i := by
          rintro rfl
          rw [hempty] at hj
          cases hj
        exact ⟨j, by rw [hat, if_neg hji, hj]⟩
  · rw [hheld] at he
    rcases List.mem_append.1 he with he | he
    · exact h.slots e he
    · rw [List.mem_singleton.1 he]
      exact iff_of_false hne (not_not_intro hx)
  · rw [hheld, List.length_append, List.length_append, h.length]
    rfl

theorem length_filter_home (h : Kept P xs s) (hs : Places P xs s) :
    (s.held.filter fun e => e.slot ≠ P.home).length = xs.length ↔ ∀ y ∈ xs, P.Foreign y := by
  rw [← h.length, List.length_filter_eq_length_iff]
  have hitems := hs.items_eq h.length
  constructor
  · intro hall y hy
    rw [← hitems, List.mem_map] at hy
    obtain ⟨e, he, rfl⟩ := hy
    have hslot := hall e he
    rw [decide_eq_true_iff, Ne, h.slots e he, not_not] at hslot
    exact hslot
  · intro hall e he
    rw [decide_eq_true_iff, Ne, h.slots e he, not_not]
    exact hall _ (hitems ▸ List.mem_map_of_mem he)

end Kept

section Kept

variable {P : Policy N κ ι} {s : State N κ ι} {xs : List ι} {x : ι}

theorem Places.length_openSlot (hs : Places P xs s) (hhome : P.home.val < s.next) {i : Fin N}
    (hi : i.val = s.next) (k : κ) : (s.openSlot i k).held.length = s.held.length := by
  have hself : (s.openSlot i k).held = s.held := by
    refine List.filter_eq_self.2 fun e he => ?_
    rw [decide_eq_true_iff]
    rintro rfl
    rcases hs.slot_lt he with h | h
    · omega
    · rw [h] at hi
      omega
  rw [hself]

theorem Policy.Early.of_concat (h : P.Early (xs ++ [x])) : P.Early xs := by
  have hle := Finset.card_le_card (foreignKeys_subset_append (P := P) xs [x])
  unfold Policy.Early at h ⊢
  omega

def Settled (P : Policy N κ ι) (xs : List ι) (s : State N κ ι) : Prop :=
  ¬ P.Early xs ∧ P.home.val < s.next ∧ (s.held.length = xs.length ↔ ¬ P.Displaces xs)

theorem Kept.place (h : Kept P xs s) (hs : Places P xs s) (hearly : P.Early xs)
    {s' : State N κ ι} (hplace : s.place P x = some s') :
    P.Early (xs ++ [x]) ∧ Kept P (xs ++ [x]) s' ∨ Settled P (xs ++ [x]) s' := by
  obtain ⟨i, hfinds, rfl⟩ | ⟨i, hopens, rfl⟩ := place_eq_some.1 hplace
  · have hkept := h.put hfinds
    have hnext : P.first + (P.foreignKeys (xs ++ [x])).card = P.first + (P.foreignKeys xs).card := by
      rw [← hkept.next, ← h.next]
      rfl
    refine .inl ⟨?_, hkept⟩
    unfold Policy.Early at hearly ⊢
    rwa [hnext]
  · obtain ⟨hx, hnew⟩ := h.opens hopens
    have hcard : (P.foreignKeys (xs ++ [x])).card = (P.foreignKeys xs).card + 1 := by
      rw [Policy.foreignKeys_concat_of_foreign hx, Finset.card_insert_of_notMem hnew]
    have hslot := hopens.slot
    have hnext := h.next
    by_cases hne : i = P.home
    · -- The foreign keys have reached the home slot.
      have hval : P.home.val = P.first + (P.foreignKeys xs).card := by rw [← hne, hslot, hnext]
      refine .inr ⟨?_, ?_, ?_⟩
      · unfold Policy.Early
        omega
      · change P.home.val < s.next + 1
        omega
      · have hlength : ((s.openSlot i (P.key x)).put i x).held.length =
            (s.held.filter fun e => e.slot ≠ P.home).length + 1 := by
          rw [← hne]
          simp [State.put, State.openSlot]
        rw [hlength, List.length_append, List.length_singleton, Nat.add_right_cancel_iff,
          h.length_filter_home hs, Policy.displaces_concat]
        have hnot := Policy.not_displaces hearly
        simp [hnot, hx, hnew, hval]
    · have hempty : s.keyAt i = none := by
        by_contra hsome
        rcases hs.keyAt_lt (Option.isSome_iff_ne_none.2 hsome) with hlt | heq
        · omega
        · exact hne heq
      have hheld : ∀ e ∈ s.held, e.slot ≠ i := by
        rintro e he rfl
        have := hs.isSome_keyAt.2 e he
        rw [hempty] at this
        cases this
      have hval : i.val ≠ P.home.val := fun heq => hne (Fin.ext heq)
      refine .inl ⟨?_, h.openSlot hopens hne hempty hheld⟩
      unfold Policy.Early at hearly ⊢
      omega

theorem Settled.place (h : Settled P xs s) (hs : Places P xs s) {s' : State N κ ι}
    (hplace : s.place P x = some s') : Settled P (xs ++ [x]) s' := by
  obtain ⟨hlate, hhome, hkept⟩ := h
  have hlate' : ¬ P.Early (xs ++ [x]) := fun hearly => hlate hearly.of_concat
  have hdisplaces : P.Displaces (xs ++ [x]) ↔ P.Displaces xs := by
    rw [Policy.displaces_concat, or_iff_left]
    rintro ⟨-, -, hcard, -⟩
    exact hlate (.inl hcard.le)
  have hstep : P.home.val < s'.next ∧ s'.held.length = s.held.length + 1 := by
    obtain ⟨i, -, rfl⟩ | ⟨i, hopens, rfl⟩ := place_eq_some.1 hplace
    · exact ⟨hhome, by simp [State.put]⟩
    · refine ⟨Nat.lt_succ_of_lt hhome, ?_⟩
      have hlength := hs.length_openSlot hhome hopens.slot (P.key x)
      simp only [State.put, List.length_append, List.length_singleton, hlength]
  refine ⟨hlate', hstep.1, ?_⟩
  rw [hstep.2, hdisplaces, ← hkept, List.length_append, List.length_singleton,
    Nat.add_right_cancel_iff]

end Kept

end Spgw.Placement
