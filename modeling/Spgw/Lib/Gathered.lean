/-
# When what is kept is all in one slot

`Spgw.Lib.Placement` puts items into slots. Three things can be the case after that.
-/

import Spgw.Lib.Placement

namespace Spgw.Placement

variable {N : ℕ} {κ ι : Type}

namespace Policy

variable (P : Policy N κ ι)

/-- The home slot is the first to be opened, for the key `k`, and every item after that has the
key `k` or the pinned key. -/
def TakenOver (k : κ) (xs : List ι) : Prop :=
  P.home.val = P.first ∧ ∃ before x after, xs = before ++ x :: after ∧
    (∀ y ∈ before, ¬ P.Foreign y) ∧ P.Foreign x ∧ P.key x = k ∧
      ∀ y ∈ after, P.key y = k ∨ P.key y = P.pinned

/-- All items that are kept go to a slot that is opened for the key `k`. -/
def OneOpened (k : κ) (xs : List ι) : Prop :=
  xs ≠ [] ∧ P.ForeignKey k ∧ (∀ x ∈ xs, P.key x = k) ∨ P.TakenOver k xs

variable {P} {xs : List ι} {x : ι} {k k' : κ}

theorem takenOver_concat : P.TakenOver k (xs ++ [x]) ↔
      (P.TakenOver k xs ∧ (P.key x = k ∨ P.key x = P.pinned)) ∨
        (P.home.val = P.first ∧ (∀ y ∈ xs, ¬ P.Foreign y) ∧ P.Foreign x ∧ P.key x = k) := by
  constructor
  · rintro ⟨hhome, before, z, after, heq, hbefore, hz, hk, hafter⟩
    rcases List.eq_nil_or_concat after with rfl | ⟨after, w, rfl⟩
    · obtain ⟨rfl, hzx⟩ := List.append_inj' heq rfl
      cases List.singleton_inj.1 hzx
      exact .inr ⟨hhome, hbefore, hz, hk⟩
    · rw [List.concat_eq_append, ← List.cons_append, ← List.append_assoc] at heq
      obtain ⟨hxs, hxw⟩ := List.append_inj' heq rfl
      cases List.singleton_inj.1 hxw
      refine .inl ⟨⟨hhome, before, z, after, hxs, hbefore, hz, hk, fun y hy => ?_⟩, ?_⟩
      · exact hafter y (by simp [hy])
      · exact hafter x (by simp)
  · rintro (⟨⟨hhome, before, z, after, rfl, hbefore, hz, hk, hafter⟩, hx⟩ | ⟨hhome, hxs, hx, hk⟩)
    · refine ⟨hhome, before, z, after ++ [x], by simp, hbefore, hz, hk, fun y hy => ?_⟩
      rcases List.mem_append.1 hy with hy | hy
      · exact hafter y hy
      · rwa [List.mem_singleton.1 hy]
    · exact ⟨hhome, xs, x, [], rfl, hxs, hx, hk, by simp⟩

theorem OneOpened.key_eq (h : P.OneOpened k xs) :
    (∃ x ∈ xs, P.Foreign x) ∧ ∀ x ∈ xs, P.Foreign x → P.key x = k := by
  rcases h with ⟨hne, hk, hall⟩ | ⟨-, before, z, after, rfl, hbefore, hz, rfl, hafter⟩
  · obtain ⟨x, hx⟩ := List.exists_mem_of_ne_nil xs hne
    refine ⟨⟨x, hx, ?_⟩, fun y hy _ => hall y hy⟩
    unfold Foreign
    rwa [hall x hx]
  · refine ⟨⟨z, by simp, hz⟩, fun y hy hforeign => ?_⟩
    rcases List.mem_append.1 hy with hy | hy
    · exact absurd hforeign (hbefore y hy)
    · rcases List.mem_cons.1 hy with rfl | hy
      · rfl
      · exact (hafter y hy).resolve_right hforeign.1

theorem OneOpened.foreignKey (h : P.OneOpened k xs) : P.ForeignKey k := by
  obtain ⟨⟨x, hx, hforeign⟩, hkey⟩ := h.key_eq
  rw [← hkey x hx hforeign]
  exact hforeign

theorem OneOpened.concat (h : P.OneOpened k xs)
    (hx : P.key x = k ∨ P.home.val = P.first ∧ P.key x = P.pinned) : P.OneOpened k (xs ++ [x]) := by
  rcases h with ⟨hne, hk, hall⟩ | htaken
  · rcases hx with hx | ⟨hhome, hx⟩
    · refine .inl ⟨by simp, hk, fun y hy => ?_⟩
      rcases List.mem_append.1 hy with hy | hy
      · exact hall y hy
      · rwa [List.mem_singleton.1 hy]
    · obtain ⟨z, zs, rfl⟩ := List.exists_cons_of_ne_nil hne
      have hz := hall z (by simp)
      refine .inr (takenOver_concat.2 (.inl ⟨⟨hhome, [], z, zs, rfl, by simp, ?_, hz, ?_⟩, .inr hx⟩))
      · unfold Foreign
        rwa [hz]
      · exact fun y hy => .inl (hall y (List.mem_cons_of_mem _ hy))
  · exact .inr (takenOver_concat.2 (.inl ⟨htaken, hx.imp_right And.right⟩))

theorem OneOpened.of_concat (h : P.OneOpened k (xs ++ [x])) :
    (P.OneOpened k xs ∧ (P.key x = k ∨ P.home.val = P.first ∧ P.key x = P.pinned)) ∨
      (∀ y ∈ xs, ¬ P.Foreign y) ∧ (xs = [] ∨ P.home.val = P.first) := by
  rcases h with ⟨-, hk, hall⟩ | htaken
  · rcases List.eq_nil_or_concat xs with rfl | ⟨ys, y, rfl⟩
    · exact .inr ⟨by simp, .inl rfl⟩
    · exact .inl ⟨.inl ⟨by simp, hk, fun z hz => hall z (List.mem_append_left _ hz)⟩,
        .inl (hall x (by simp))⟩
  · rcases takenOver_concat.1 htaken with ⟨h, hx⟩ | ⟨hhome, hxs, -⟩
    · exact .inl ⟨.inr h, hx.imp_right fun hx => ⟨h.1, hx⟩⟩
    · exact .inr ⟨hxs, .inr hhome⟩

end Policy

structure AtHome (P : Policy N κ ι) (xs : List ι) (s : State N κ ι) : Prop where
  items : ∀ x ∈ xs, ¬ P.Foreign x
  keyAt : s.keyAt = P.initial.keyAt
  next : s.next = P.first
  opened : s.opened P.home = false
  slots : ∀ e ∈ s.held, e.slot = P.home
  length : s.held.length = xs.length
  last : xs ≠ [] → s.last = some P.home

structure InOne (P : Policy N κ ι) (xs : List ι) (s : State N κ ι) (k : κ) (i : Fin N) : Prop where
  items : P.OneOpened k xs
  first : i.val = P.first
  keyAt : s.keyAt i = some k
  other : ∀ j, j ≠ i → ∀ k', s.keyAt j = some k' → j = P.home ∧ k' = P.key₀
  next : s.next = P.first + 1
  opened : s.opened i = true
  slots : ∀ e ∈ s.held, e.slot = i
  ne_nil : s.held ≠ []
  last : s.last = some i

structure Apart (P : Policy N κ ι) (xs : List ι) (s : State N κ ι) : Prop where
  foreign : ∃ x ∈ xs, P.Foreign x
  items : ∀ k, ¬ P.OneOpened k xs
  slots : ∃ e ∈ s.held, ∃ e' ∈ s.held, e.slot ≠ e'.slot

section Shape

variable {P : Policy N κ ι} {s : State N κ ι} {xs : List ι} {x : ι}

theorem mem_held_openSlot {i : Fin N} {k : κ} {e : Entry N ι} (he : e ∈ s.held) (hne : e.slot ≠ i) :
    e ∈ ((s.openSlot i k).put i x).held := by
  simp [State.put, State.openSlot, he, hne]

theorem mem_held_put_self {i : Fin N} : ⟨i, s.count, x⟩ ∈ (s.put i x).held := by simp [State.put]

theorem mem_held_openSlot_self {i : Fin N} {k : κ} :
    ⟨i, s.count, x⟩ ∈ ((s.openSlot i k).put i x).held := mem_held_put_self

theorem atHome_initial : AtHome P [] P.initial where
  items := by simp
  keyAt := rfl
  next := rfl
  opened := rfl
  slots e he := absurd he List.not_mem_nil
  length := rfl
  last h := absurd rfl h

theorem AtHome.keyAt_eq (h : AtHome P xs s) (j : Fin N) :
    s.keyAt j = if j = P.home then some P.key₀ else none := by
  rw [h.keyAt, P.keyAt_initial]

variable [DecidableEq κ]

theorem AtHome.put (h : AtHome P xs s) {i : Fin N} (hfinds : Finds P s x i) :
    AtHome P (xs ++ [x]) (s.put i x) := by
  have hslot : i = P.home ∧ ¬ P.Foreign x := by
    cases hfinds with
    | pinned hpin => exact ⟨rfl, fun hx => hx.1 hpin⟩
    | keyed _ hfind =>
      have hkey := keyAt_of_find hfind
      rw [h.keyAt_eq] at hkey
      split_ifs at hkey with hi
      exact ⟨hi, fun hx => hx.2 (Option.some.inj hkey).symm⟩
  refine ⟨fun y hy => ?_, h.keyAt, h.next, h.opened, fun e he => ?_, ?_, ?_⟩
  · rcases List.mem_append.1 hy with hy | hy
    · exact h.items y hy
    · rw [List.mem_singleton.1 hy]
      exact hslot.2
  · rcases List.mem_append.1 he with he | he
    · exact h.slots e he
    · rw [List.mem_singleton.1 he]
      exact hslot.1
  · simp [State.put, h.length]
  · exact fun _ => congrArg some hslot.1

omit [DecidableEq κ] in
theorem AtHome.openSlot (h : AtHome P xs s) {i : Fin N} (hopens : Opens P s x i) :
    InOne P (xs ++ [x]) ((s.openSlot i (P.key x)).put i x) (P.key x) i ∨
      Apart P (xs ++ [x]) ((s.openSlot i (P.key x)).put i x) := by
  have hx : P.Foreign x :=
    ⟨hopens.ne_pinned, fun hkey => hopens.new P.home (by rw [h.keyAt_eq, if_pos rfl, hkey])⟩
  have hfirst : i.val = P.first := hopens.slot.trans h.next
  by_cases hkeep : xs = [] ∨ i = P.home
  · have hnil : (s.openSlot i (P.key x)).held = [] := by
      refine List.filter_eq_nil_iff.2 fun e he => ?_
      rcases hkeep with rfl | rfl
      · exact absurd (List.length_pos_of_mem he) (by simp [h.length])
      · simpa using h.slots e he
    refine .inl ⟨?_, hfirst, ?_, fun j hj k' hk' => ?_, ?_, ?_, fun e he => ?_, ?_, rfl⟩
    · rcases hkeep with rfl | rfl
      · exact .inl ⟨by simp, hx, by simp⟩
      · exact .inr (Policy.takenOver_concat.2 (.inr ⟨hfirst, h.items, hx, rfl⟩))
    · simp [State.put, State.openSlot]
    · simp only [State.put, State.openSlot, Function.update_of_ne hj, h.keyAt_eq] at hk'
      split_ifs at hk' with hjhome
      exact ⟨hjhome, (Option.some.inj hk').symm⟩
    · simp [State.put, State.openSlot, h.next]
    · simp [State.put, State.openSlot]
    · simp only [State.put, hnil, List.nil_append, List.mem_singleton] at he
      rw [he]
    · simp [State.put]
  · rw [not_or] at hkeep
    have hhome : P.home.val ≠ P.first := fun heq => hkeep.2 (Fin.ext (hfirst.trans heq.symm))
    obtain ⟨e, he⟩ := List.exists_mem_of_ne_nil s.held fun hnil => hkeep.1
      (List.length_eq_zero_iff.1 (by rw [← h.length, hnil]; rfl))
    have hslot := (h.slots e he).trans_ne (Ne.symm hkeep.2)
    refine .inr ⟨⟨x, by simp, hx⟩, fun k hone => ?_, e, mem_held_openSlot he hslot, _,
      mem_held_openSlot_self, hslot⟩
    rcases hone.of_concat with ⟨hone, -⟩ | ⟨-, hnil | heq⟩
    · obtain ⟨y, hy, hforeign⟩ := hone.key_eq.1
      exact h.items y hy hforeign
    · exact hkeep.1 hnil
    · exact hhome heq

theorem InOne.place {k : κ} {i : Fin N} (h : InOne P xs s k i) {s' : State N κ ι}
    (hplace : s.place P x = some s') : InOne P (xs ++ [x]) s' k i ∨ Apart P (xs ++ [x]) s' := by
  obtain ⟨e, he⟩ := List.exists_mem_of_ne_nil s.held h.ne_nil
  have hslot := h.slots e he
  obtain ⟨⟨y, hy, hforeign⟩, hkey⟩ := h.items.key_eq
  -- An item that goes elsewhere is none of those that would stay together.
  have hapart : ∀ j, j ≠ i → (P.key x = k → i = j) → (P.key x = P.pinned → P.home = j) →
      ∀ k', ¬ P.OneOpened k' (xs ++ [x]) := by
    intro j hj hsame hpin k' hone
    rcases hone.of_concat with ⟨hone, hx⟩ | ⟨hnone, -⟩
    · have hk' : k' = k := by
        rw [← hkey y hy hforeign, ← hone.key_eq.2 y hy hforeign]
      rcases hx with hx | ⟨hhome, hx⟩
      · exact hj (hsame (hx.trans hk')).symm
      · exact hj ((hpin hx).symm.trans (Fin.ext (hhome.trans h.first.symm)))
    · exact hnone y hy hforeign
  have hmem : ∃ z ∈ xs ++ [x], P.Foreign z := ⟨y, List.mem_append_left _ hy, hforeign⟩
  obtain ⟨j, hfinds, rfl⟩ | ⟨j, hopens, rfl⟩ := place_eq_some.1 hplace
  · by_cases hj : j = i
    · subst hj
      refine .inl ⟨h.items.concat ?_, h.first, h.keyAt, h.other, h.next, h.opened, fun e he => ?_,
        by simp [State.put], rfl⟩
      · cases hfinds with
        | pinned hpin => exact .inr ⟨h.first, hpin⟩
        | keyed _ hfind => exact .inl (Option.some.inj ((keyAt_of_find hfind).symm.trans h.keyAt))
      · rcases List.mem_append.1 he with he | he
        · exact h.slots e he
        · rw [List.mem_singleton.1 he]
    · refine .inr ⟨hmem, hapart j hj ?_ ?_, e, List.mem_append_left _ he, _, mem_held_put_self, ?_⟩
      · intro hxk
        cases hfinds with
        | pinned hpin => exact absurd (hxk.symm.trans hpin) h.items.foreignKey.1
        | keyed _ hfind =>
          have hkey₀ := (h.other j hj _ (keyAt_of_find hfind)).2
          exact absurd (hxk.symm.trans hkey₀) h.items.foreignKey.2
      · intro hpin
        cases hfinds with
        | pinned => rfl
        | keyed hne => exact absurd hpin hne
      · exact hslot.trans_ne (Ne.symm hj)
  · have hj : j ≠ i := by
      rintro rfl
      have := hopens.slot
      have := h.next
      have := h.first
      omega
    refine .inr ⟨hmem, hapart j hj ?_ ?_, e, mem_held_openSlot he (hslot.trans_ne (Ne.symm hj)), _,
      mem_held_openSlot_self, hslot.trans_ne (Ne.symm hj)⟩
    · exact fun hxk => absurd (hxk ▸ h.keyAt) (hopens.new i)
    · exact fun hpin => absurd hpin hopens.ne_pinned

theorem Apart.place (h : Apart P xs s) {s' : State N κ ι} (hplace : s.place P x = some s') :
    Apart P (xs ++ [x]) s' := by
  obtain ⟨y, hy, hforeign⟩ := h.foreign
  obtain ⟨e, he, e', he', hne⟩ := h.slots
  refine ⟨⟨y, List.mem_append_left _ hy, hforeign⟩, fun k hone => ?_, ?_⟩
  · rcases hone.of_concat with ⟨hone, -⟩ | ⟨hnone, -⟩
    · exact h.items k hone
    · exact hnone y hy hforeign
  · obtain ⟨i, -, rfl⟩ | ⟨i, -, rfl⟩ := place_eq_some.1 hplace
    · exact ⟨e, List.mem_append_left _ he, e', List.mem_append_left _ he', hne⟩
    · -- One of the two entries is in another slot, and the new one is in this slot.
      by_cases hi : e.slot = i
      · have hi' : e'.slot ≠ i := fun heq => hne (hi.trans heq.symm)
        exact ⟨e', mem_held_openSlot he' hi', _, mem_held_openSlot_self, hi'⟩
      · exact ⟨e, mem_held_openSlot he hi, _, mem_held_openSlot_self, hi⟩

/-- **Where the items are kept.** -/
theorem Places.shape (h : Places P xs s) :
    AtHome P xs s ∨ (∃ k i, InOne P xs s k i) ∨ Apart P xs s := by
  induction h with
  | nil => exact .inl atHome_initial
  | snoc _ hplace ih =>
    rcases ih with hhome | ⟨k, i, hone⟩ | hapart
    · obtain ⟨i, hfinds, rfl⟩ | ⟨i, hopens, rfl⟩ := place_eq_some.1 hplace
      · exact .inl (hhome.put hfinds)
      · exact .inr ((hhome.openSlot hopens).imp_left fun hone => ⟨_, i, hone⟩)
    · rcases hone.place hplace with hone | hapart
      · exact .inr (.inl ⟨k, i, hone⟩)
      · exact .inr (.inr hapart)
    · exact .inr (.inr (hapart.place hplace))

/-- **When everything that is kept is in the slot of the last item.** -/
theorem Places.gathered_iff (h : Places P xs s) (hne : xs ≠ []) :
    (∀ e ∈ s.held, s.last = some e.slot) ↔ (∀ x ∈ xs, ¬ P.Foreign x) ∨ ∃ k, P.OneOpened k xs := by
  rcases h.shape with hhome | ⟨k, i, hone⟩ | hapart
  · refine iff_of_true (fun e he => ?_) (.inl hhome.items)
    rw [hhome.last hne, hhome.slots e he]
  · refine iff_of_true (fun e he => ?_) (.inr ⟨k, hone.items⟩)
    rw [hone.last, hone.slots e he]
  · obtain ⟨x, hx, hforeign⟩ := hapart.foreign
    obtain ⟨e, he, e', he', hslot⟩ := hapart.slots
    refine iff_of_false (fun hall => ?_) ?_
    · exact hslot (Option.some.inj ((hall e he).symm.trans (hall e' he')))
    · rintro (hnone | ⟨k, hk⟩)
      · exact hnone x hx hforeign
      · exact hapart.items k hk

end Shape

end Spgw.Placement
