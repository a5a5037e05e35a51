/-
# The classes of QER and URR ids

`generate_qer_id` and `generate_urr_id` of `cp/pfcp/common/pfcp_init.c` put the class of an id into
the bits above a counter: 2 for ACCESS, 4 for CORE and 3 for anything else.
-/

import Spgw.Sx.Referenced

namespace Spgw.Sx

namespace Identifiers

inductive Kind
  | qer | urr
  deriving DecidableEq

/-- A call of `generate_qer_id` or `generate_urr_id` with its argument. -/
structure Allocation where
  kind : Kind
  iface : ℕ

/-- The bits for an interface: `SOURCE_INTERFACE_VALUE_ACCESS` is 0 and
`SOURCE_INTERFACE_VALUE_CORE` is 1. -/
def interfaceMark (iface : ℕ) : ℕ :=
  if iface = 0 then SourceInterface.access.mark
  else if iface = 1 then SourceInterface.core.mark
  else commonMark

/-- The id of a call, and the counters after it. -/
def allocate (ids : RuleIds) (a : Allocation) : ℕ × RuleIds :=
  match a.kind with
  | .qer => (ids.generateQerId (interfaceMark a.iface), { ids with qer := ids.qer + 1 })
  | .urr => (ids.generateUrrId (interfaceMark a.iface), { ids with urr := ids.urr + 1 })

/-- The calls with their ids. -/
def allocated : RuleIds → List Allocation → List (Allocation × ℕ)
  | _, [] => []
  | ids, a :: calls => (a, (allocate ids a).1) :: allocated (allocate ids a).2 calls

def counter (ids : RuleIds) : Kind → ℕ
  | .qer => ids.qer
  | .urr => ids.urr

theorem interfaceMark_cases (iface : ℕ) :
    (iface = 0 ∧ interfaceMark iface = 2 ^ 29) ∨ (iface = 1 ∧ interfaceMark iface = 2 ^ 30) ∨
      (iface ≠ 0 ∧ iface ≠ 1 ∧ interfaceMark iface = 2 ^ 28 + 2 ^ 29) := by
  by_cases h₀ : iface = 0
  · exact Or.inl ⟨h₀, by rw [interfaceMark, if_pos h₀]; rfl⟩
  · by_cases h₁ : iface = 1
    · exact Or.inr (Or.inl ⟨h₁, by rw [interfaceMark, if_neg h₀, if_pos h₁]; rfl⟩)
    · exact Or.inr (Or.inr ⟨h₀, h₁, by rw [interfaceMark, if_neg h₀, if_neg h₁]; rfl⟩)

theorem or_interfaceMark_mod {n : ℕ} (h : n < 2 ^ 28) (iface : ℕ) :
    (n ||| interfaceMark iface) % 2 ^ 28 = n := by
  have hmark : interfaceMark iface % 2 ^ 28 = 0 := by
    rcases interfaceMark_cases iface with ⟨-, h⟩ | ⟨-, h⟩ | ⟨-, -, h⟩ <;> rw [h] <;> rfl
  rw [Nat.or_mod_two_pow, hmark, Nat.or_zero, Nat.mod_eq_of_lt h]

theorem isCommon_or_interfaceMark {n : ℕ} (h : n < 2 ^ 28) (iface : ℕ) :
    isCommon (n ||| interfaceMark iface) = true ↔ iface ≠ 0 ∧ iface ≠ 1 := by
  have h28 : n.testBit 28 = false := Nat.testBit_lt_two_pow h
  have h29 : n.testBit 29 = false := Nat.testBit_lt_two_pow (Nat.lt_trans h (by decide))
  rw [isCommon_iff, Nat.testBit_or, Nat.testBit_or, h28, h29, Bool.false_or, Bool.false_or]
  rcases interfaceMark_cases iface with ⟨rfl, hm⟩ | ⟨rfl, hm⟩ | ⟨h₀, h₁, hm⟩
  · rw [hm]
    decide
  · rw [hm]
    decide
  · rw [hm]
    exact iff_of_true (by decide) ⟨h₀, h₁⟩

/-- One call: the id is made of the next value of its counter, and the other counter stays. -/
theorem allocate_spec (ids : RuleIds) (a : Allocation) :
    (allocate ids a).1 = (counter ids a.kind + 1) % 2 ^ 32 ||| interfaceMark a.iface ∧
      ∀ kind, counter (allocate ids a).2 kind =
        if kind = a.kind then counter ids kind + 1 else counter ids kind := by
  obtain ⟨kind, iface⟩ := a
  cases kind
  · refine ⟨rfl, fun kind => ?_⟩
    cases kind <;> rfl
  · refine ⟨rfl, fun kind => ?_⟩
    cases kind <;> rfl

/-- Every id of a run is made of a value that its counter has taken in the run. -/
theorem exists_value_of_mem {calls : List Allocation} {ids : RuleIds}
    (h : ∀ kind, counter ids kind + calls.length < 2 ^ 28) {x : Allocation × ℕ}
    (hx : x ∈ allocated ids calls) :
    ∃ n, counter ids x.1.kind < n ∧ n < 2 ^ 28 ∧ x.2 = n ||| interfaceMark x.1.iface := by
  induction calls generalizing ids with
  | nil => exact absurd hx List.not_mem_nil
  | cons a calls ih =>
    obtain ⟨hid, hcounter⟩ := allocate_spec ids a
    rw [List.length_cons] at h
    rcases List.mem_cons.mp hx with rfl | hx
    · have hlt := h a.kind
      refine ⟨counter ids a.kind + 1, Nat.lt_succ_self _, by omega, ?_⟩
      rw [hid, Nat.mod_eq_of_lt (by omega)]
    · have hnext : ∀ kind, counter (allocate ids a).2 kind + calls.length < 2 ^ 28 := by
        intro kind
        have := h kind
        rw [hcounter]
        split_ifs <;> omega
      obtain ⟨n, hn, hlt, heq⟩ := ih hnext hx
      refine ⟨n, ?_, hlt, heq⟩
      rw [hcounter] at hn
      split_ifs at hn <;> omega

theorem pairwise_allocated {calls : List Allocation} {ids : RuleIds}
    (h : ∀ kind, counter ids kind + calls.length < 2 ^ 28) :
    (allocated ids calls).Pairwise fun x y => x.1.kind = y.1.kind → x.2 ≠ y.2 := by
  induction calls generalizing ids with
  | nil => exact List.Pairwise.nil
  | cons a calls ih =>
    obtain ⟨hid, hcounter⟩ := allocate_spec ids a
    rw [List.length_cons] at h
    have hnext : ∀ kind, counter (allocate ids a).2 kind + calls.length < 2 ^ 28 := by
      intro kind
      have := h kind
      rw [hcounter]
      split_ifs <;> omega
    refine List.Pairwise.cons (fun y hy hkind heq => ?_) (ih hnext)
    obtain ⟨n, hn, hlt, hy⟩ := exists_value_of_mem hnext hy
    have ha := h a.kind
    -- The two ids have different values below their marks.
    have hvalue := congrArg (· % 2 ^ 28) heq
    simp only [hy, hid] at hvalue
    rw [Nat.mod_eq_of_lt (by omega : counter ids a.kind + 1 < 2 ^ 32),
      or_interfaceMark_mod (by omega), or_interfaceMark_mod hlt] at hvalue
    rw [hcounter, if_pos hkind.symm, ← hkind] at hn
    exact Nat.ne_of_lt hn hvalue

/-- **Fewer than `2 ^ 28` ids of one kind are different, and an id looks common exactly if it was
allocated neither for ACCESS nor for CORE.** -/
theorem distinct_and_classified (calls : List Allocation) (h : calls.length < 2 ^ 28) :
    ((allocated {} calls).Pairwise fun x y => x.1.kind = y.1.kind → x.2 ≠ y.2) ∧
      ∀ x ∈ allocated {} calls, isCommon x.2 = true ↔ x.1.iface ≠ 0 ∧ x.1.iface ≠ 1 := by
  have hcalls : ∀ kind, counter {} kind + calls.length < 2 ^ 28 := by
    intro kind
    cases kind <;> exact (Nat.zero_add _).symm ▸ h
  refine ⟨pairwise_allocated hcalls, fun x hx => ?_⟩
  obtain ⟨n, -, hlt, hid⟩ := exists_value_of_mem hcalls hx
  rw [hid]
  exact isCommon_or_interfaceMark hlt x.1.iface

/-- A QER for ACCESS and a common one. -/
theorem distinct_and_classified_pair :
    (allocated {} [⟨.qer, 0⟩, ⟨.qer, 3⟩]).map Prod.snd = [0x20000001, 0x30000002] ∧
      ∀ x ∈ allocated {} [⟨.qer, 0⟩, ⟨.qer, 3⟩],
        isCommon x.2 = true ↔ x.1.iface ≠ 0 ∧ x.1.iface ≠ 1 :=
  ⟨by decide, (distinct_and_classified [⟨.qer, 0⟩, ⟨.qer, 3⟩] (by decide)).2⟩

end Identifiers

end Spgw.Sx
