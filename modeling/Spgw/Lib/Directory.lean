/-
# Addresses and the table that finds their owners

Each client has an address, or the null address, which means that it has none at the moment; beside
them stands a table from addresses to clients.
-/

import Mathlib.Logic.Function.Basic
import Mathlib.Data.Option.Basic
import Mathlib.Tactic.SplitIfs

variable {κ α : Type*}

/-- The addresses of the clients, and the owners of the addresses. -/
structure Directory (κ α : Type*) where
  addr : κ → Option α
  owner : α → Option κ

namespace Directory

open Function

/-- What an event does to the directory. -/
inductive Act (κ α : Type*)
  | stay
  | assign (k : κ) (a : α)
  | clear (k : κ)
  | transfer (k l : κ) (a : α)
  | release (k : κ)
  | strike (k : κ)

/-- The table finds the owner of every address but the null address, and nobody else. -/
def Exact (null : α) (d : Directory κ α) : Prop :=
  ∀ a k, d.owner a = some k ↔ d.addr k = some a ∧ a ≠ null

/-- Nobody owns the address. -/
def Free (null : α) (d : Directory κ α) (a : α) : Prop := a = null ∨ d.owner a = none

variable {null : α} {d : Directory κ α} {a b : α} {k l : κ}

theorem Exact.owner_null (h : d.Exact null) : d.owner null = none := by
  cases hk : d.owner null with
  | none => rfl
  | some k => exact absurd rfl ((h null k).mp hk).2

theorem not_exact_of_stale (howner : d.owner a = some k) (haddr : d.addr k ≠ some a) :
    ¬ d.Exact null :=
  fun h => haddr ((h a k).mp howner).1

theorem not_exact_of_unlisted (haddr : d.addr k = some a) (ha : a ≠ null)
    (howner : d.owner a ≠ some k) : ¬ d.Exact null :=
  fun h => howner ((h a k).mpr ⟨haddr, ha⟩)

theorem Exact.owner_ne (h : d.Exact null) (hk : d.addr k = none ∨ d.addr k = some null) (b : α) :
    d.owner b ≠ some k := by
  intro hb
  obtain ⟨haddr, hne⟩ := (h b k).mp hb
  rcases hk with hnone | hnull
  · rw [hnone] at haddr
    cases haddr
  · exact hne (Option.some.inj (hnull.symm.trans haddr)).symm

variable [DecidableEq α]

instance (null : α) (d : Directory κ α) (a : α) : Decidable (d.Free null a) :=
  have : Decidable (d.owner a = none) := decidable_of_iff (d.owner a).isNone Option.isNone_iff_eq_none
  inferInstanceAs (Decidable (_ ∨ _))

/-- The table with an entry for `a`, unless `a` is null. -/
def enter (null : α) (owner : α → Option κ) (a : α) (k : κ) : α → Option κ :=
  if a ≠ null then if (owner a).isSome then owner else update owner a (some k) else owner

theorem enter_null (owner : α → Option κ) (k : κ) : enter null owner null k = owner :=
  if_neg fun h => h rfl

theorem enter_some {owner : α → Option κ} (ha : owner a = some l) :
    enter null owner a k = owner := by
  unfold enter
  rw [ha]
  split_ifs with hnull hl
  · rfl
  · exact absurd rfl hl
  · rfl

theorem enter_none {owner : α → Option κ} (hnull : a ≠ null) (ha : owner a = none) :
    enter null owner a k = update owner a (some k) := by
  unfold enter
  rw [if_pos hnull, ha]
  rfl

theorem enter_of_some {owner : α → Option κ} (hb : owner b = some l) :
    enter null owner a k b = some l := by
  unfold enter
  split_ifs with hnull ha
  · exact hb
  · have hne : b ≠ a := by
      rintro rfl
      rw [hb] at ha
      exact ha rfl
    rw [update_of_ne hne]
    exact hb
  · exact hb

theorem enter_at_null {owner : α → Option κ} (h : owner null = none) :
    enter null owner a k null = none := by
  unfold enter
  split_ifs with hnull ha
  · exact h
  · rw [update_of_ne (Ne.symm hnull)]
    exact h
  · exact h

variable [DecidableEq κ]

/-- The directory after the change. -/
def act (null : α) (d : Directory κ α) : Act κ α → Directory κ α
  | .stay => d
  | .assign k a =>
    { addr := update d.addr k (some a)
      owner := enter null d.owner a k }
  | .clear k => { d with addr := update d.addr k (some null) }
  | .transfer k l a =>
    { addr := update (update d.addr k (some null)) l (some a)
      owner := enter null d.owner a l }
  | .release k =>
    match d.addr k with
    | none => d
    | some b =>
      { addr := update d.addr k (some null)
        owner := update d.owner b none }
  | .strike k =>
    match d.addr k with
    | none => d
    | some b => { d with owner := update d.owner b none }

/-- The change is about clients that are there, or new ones. -/
def Valid (null : α) (d : Directory κ α) : Act κ α → Prop
  | .assign k _ => d.addr k = none ∨ d.addr k = some null
  | .clear k => d.addr k ≠ none
  | .transfer k l _ => d.addr k ≠ none ∧ (l ≠ k → d.addr l = none ∨ d.addr l = some null)
  | _ => True

/-- The change leaves the directory exact. -/
def Allowed (null : α) (d : Directory κ α) : Act κ α → Prop
  | .assign _ a => d.Free null a
  | .clear k => d.addr k = some null
  | .transfer k l a =>
    if d.addr k = some null then d.Free null a else l = k ∧ d.addr k = some a
  | .strike k => d.addr k = none ∨ d.addr k = some null
  | _ => True

instance (null : α) (d : Directory κ α) : ∀ x, Decidable (d.Allowed null x)
  | .stay => isTrue trivial
  | .assign _ a => inferInstanceAs (Decidable (d.Free null a))
  | .clear k => inferInstanceAs (Decidable (d.addr k = some null))
  | .transfer _ _ _ => by unfold Allowed; infer_instance
  | .release _ => isTrue trivial
  | .strike _ => by unfold Allowed; infer_instance

theorem act_owner_null (h : d.owner null = none) (x : Act κ α) : (d.act null x).owner null = none := by
  have hstrike (b : α) : update d.owner b none null = none := by
    by_cases hb : null = b
    · rw [hb, update_self]
    · rw [update_of_ne hb]
      exact h
  cases x with
  | stay => exact h
  | assign k a => exact enter_at_null h
  | clear k => exact h
  | transfer k l a => exact enter_at_null h
  | release k =>
    cases hk : d.addr k with
    | none => simpa only [act, hk] using h
    | some b => simpa only [act, hk] using hstrike b
  | strike k =>
    cases hk : d.addr k with
    | none => simpa only [act, hk] using h
    | some b => simpa only [act, hk] using hstrike b

theorem clear_eq_self (hk : d.addr k = some null) : d.act null (.clear k) = d := by
  simp only [act]
  rw [← hk, update_eq_self]

theorem exact_assign_iff (h : d.Exact null) (hk : d.addr k = none ∨ d.addr k = some null) :
    (d.act null (.assign k a)).Exact null ↔ d.Free null a := by
  have hun := h.owner_ne hk
  constructor
  · intro hassign
    by_contra hfree
    have ha : a ≠ null := fun ha => hfree (Or.inl ha)
    obtain ⟨l, hl⟩ := Option.ne_none_iff_exists'.mp fun hnone => hfree (Or.inr hnone)
    refine not_exact_of_unlisted (a := a) (k := k) ?_ ha ?_ hassign
    · exact update_self ..
    · change enter null d.owner a k a ≠ some k
      rw [enter_some hl]
      exact hun a
  · intro hfree b l
    change enter null d.owner a k b = some l ↔ update d.addr k (some a) l = some b ∧ b ≠ null
    by_cases ha : a = null
    · -- The table stays, and the client is one without an address.
      rw [ha, enter_null]
      by_cases hl : l = k
      · rw [hl, update_self]
        constructor
        · exact fun hb => absurd hb (hun b)
        · exact fun hb => absurd (Option.some.inj hb.1).symm hb.2
      · rw [update_of_ne hl]
        exact h b l
    · have hnone : d.owner a = none := hfree.resolve_left ha
      rw [enter_none ha hnone]
      by_cases hl : l = k
      · rw [hl, update_self]
        by_cases hb : b = a
        · rw [hb, update_self]
          exact ⟨fun _ => ⟨rfl, ha⟩, fun _ => rfl⟩
        · rw [update_of_ne hb]
          constructor
          · exact fun hbk => absurd hbk (hun b)
          · exact fun hab => absurd (Option.some.inj hab.1).symm hb
      · rw [update_of_ne hl]
        by_cases hb : b = a
        · rw [hb, update_self]
          constructor
          · exact fun hkl => absurd (Option.some.inj hkl).symm hl
          · intro hal
            rw [(h a l).mpr hal] at hnone
            cases hnone
        · rw [update_of_ne hb]
          exact h b l

theorem exact_clear_iff (h : d.Exact null) (hk : d.addr k ≠ none) :
    (d.act null (.clear k)).Exact null ↔ d.addr k = some null := by
  obtain ⟨b, hb⟩ := Option.ne_none_iff_exists'.mp hk
  constructor
  · intro hclear
    by_contra hnull
    have hne : b ≠ null := fun heq => hnull (heq ▸ hb)
    have hold : (d.act null (.clear k)).owner b = some k := (h b k).mpr ⟨hb, hne⟩
    refine not_exact_of_stale hold ?_ hclear
    change update d.addr k (some null) k ≠ some b
    rw [update_self]
    exact fun heq => hne (Option.some.inj heq).symm
  · intro hnull
    rw [clear_eq_self hnull]
    exact h

theorem exact_transfer_iff (h : d.Exact null) (hk : d.addr k ≠ none)
    (hl : l ≠ k → d.addr l = none ∨ d.addr l = some null) :
    (d.act null (.transfer k l a)).Exact null ↔ d.Allowed null (.transfer k l a) := by
  simp only [Allowed]
  split_ifs with hnull
  · -- Nothing is cleared.
    have hassign : d.act null (.transfer k l a) = d.act null (.assign l a) := by
      simp only [act]
      rw [← hnull, update_eq_self]
    rw [hassign]
    refine exact_assign_iff h ?_
    by_cases hlk : l = k
    · exact Or.inr (hlk ▸ hnull)
    · exact hl hlk
  · obtain ⟨b, hb⟩ := Option.ne_none_iff_exists'.mp hk
    have hne : b ≠ null := fun heq => hnull (heq ▸ hb)
    have hlisted : d.owner b = some k := (h b k).mpr ⟨hb, hne⟩
    have hold : (d.act null (.transfer k l a)).owner b = some k := enter_of_some hlisted
    constructor
    · intro htransfer
      have haddr := ((htransfer b k).mp hold).1
      change update (update d.addr k (some null)) l (some a) k = some b at haddr
      by_cases hlk : l = k
      · rw [hlk, update_self] at haddr
        exact ⟨hlk, hb.trans haddr.symm⟩
      · rw [update_of_ne (Ne.symm hlk), update_self] at haddr
        exact absurd (Option.some.inj haddr).symm hne
    · rintro ⟨rfl, ha⟩
      obtain rfl := Option.some.inj (hb.symm.trans ha)
      have hsame : d.act null (.transfer l l b) = d := by
        simp only [act]
        rw [enter_some hlisted, update_idem, ← hb, update_eq_self]
      rw [hsame]
      exact h

theorem exact_release (h : d.Exact null) : (d.act null (.release k)).Exact null := by
  cases hk : d.addr k with
  | none =>
    simp only [act, hk]
    exact h
  | some b =>
    intro a l
    simp only [act, hk]
    by_cases hl : l = k
    · rw [hl, update_self]
      constructor
      · intro ha
        have hne : a ≠ b := by
          rintro rfl
          rw [update_self] at ha
          cases ha
        rw [update_of_ne hne, h a k, hk] at ha
        exact absurd (Option.some.inj ha.1).symm hne
      · exact fun ha => absurd (Option.some.inj ha.1).symm ha.2
    · rw [update_of_ne hl]
      by_cases ha : a = b
      · rw [ha, update_self]
        refine ⟨fun hnone => absurd hnone (by simp), fun hlb => ?_⟩
        have hown := (h b k).mpr ⟨hk, hlb.2⟩
        rw [(h b l).mpr hlb] at hown
        exact absurd (Option.some.inj hown) hl
      · rw [update_of_ne ha]
        exact h a l

theorem exact_strike_iff (h : d.Exact null) :
    (d.act null (.strike k)).Exact null ↔ d.addr k = none ∨ d.addr k = some null := by
  cases hk : d.addr k with
  | none =>
    have hsame : d.act null (.strike k) = d := by simp only [act, hk]
    rw [hsame]
    exact ⟨fun _ => Or.inl rfl, fun _ => h⟩
  | some b =>
    simp only [act, hk]
    constructor
    · intro hstrike
      right
      by_contra hnull
      have hne : b ≠ null := fun heq => hnull (congrArg some heq)
      have hlisted : update d.owner b none b = some k := (hstrike b k).mpr ⟨hk, hne⟩
      rw [update_self] at hlisted
      cases hlisted
    · rintro (hnone | hnull)
      · cases hnone
      · obtain rfl := Option.some.inj hnull
        have hsame : update d.owner b none = d.owner := by
          rw [← h.owner_null, update_eq_self]
        rw [hsame]
        exact h

/-- **A change keeps the directory exact if it is an allowed one, and only then.** -/
theorem exact_act_iff (h : d.Exact null) {x : Act κ α} (hx : d.Valid null x) :
    (d.act null x).Exact null ↔ d.Allowed null x := by
  cases x with
  | stay => exact ⟨fun _ => trivial, fun _ => h⟩
  | assign k a => exact exact_assign_iff h hx
  | clear k => exact exact_clear_iff h hx
  | transfer k l a => exact exact_transfer_iff h hx.1 hx.2
  | release k => exact ⟨fun _ => trivial, fun _ => exact_release h⟩
  | strike k => exact exact_strike_iff h

end Directory
