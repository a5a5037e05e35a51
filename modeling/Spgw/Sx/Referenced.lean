/-
# The references of a Session Establishment Request

A PDR of the user plane refers to its FAR, its QERs and its URRs by their identifiers, and these are
created in the same message.
-/

import Spgw.Sx.Built

namespace Spgw.Sx

open Function

open Rar (maxBearers)

/-- Every reference is created once, and nothing else is. -/
def Settles (referred created : List ℕ) : Prop :=
  (∀ id ∈ referred, created.count id = 1) ∧ ∀ id ∈ created, id ∈ referred

namespace SessEstabReq

variable (req : SessEstabReq)

def farRefs : List ℕ := refs (req.createPdr.map fun ie => ie.value.farId)

def qerRefs : List ℕ := req.createPdr.flatMap fun ie => refs ie.value.qerId

def urrRefs : List ℕ := req.createPdr.flatMap fun ie => refs ie.value.urrId

def farIds : List ℕ := req.createFar.map fun ie => ie.value.farId.value

def qerIds : List ℕ := qerIdsOf req.createQer

def urrIds : List ℕ := req.createUrr.map fun ie => ie.value.urrId.value

end SessEstabReq

/-- Two PDRs for each rule, and the FARs, QERs and URRs that they refer to. -/
structure Complete (rules : List DynamicRule) (pdrs : List Pdr) (req : SessEstabReq) : Prop where
  made : req.createPdr.map (fun ie => (ie.value.pdrId.value, ie.value.pdi.value.srcIntfc.value)) =
    pdrs.map fun pdr => (pdr.ruleId, pdr.srcIntfc)
  both : (pdrs.map fun pdr => (pdr.dynamicRule, pdr.srcIntfc)).Perm
    (rules.flatMap fun rule => [(rule, .access), (rule, .core)])
  distinct : (req.createPdr.map fun ie => ie.value.pdrId.value).Nodup
  fars : Settles req.farRefs req.farIds
  qers : Settles req.qerRefs req.qerIds
  urrs : Settles req.urrRefs req.urrIds

section Ids

variable {a : Attach} {γ : Type}

theorem isCommon_iff {id : ℕ} : isCommon id = true ↔ id.testBit 28 = true ∧ id.testBit 29 = true := by
  have hmask : ∀ i, Nat.testBit 0x30000000 i = (decide (28 = i) || decide (29 = i)) := by
    intro i
    have hor : (0x30000000 : ℕ) = 2 ^ 28 ||| 2 ^ 29 := by decide
    rw [hor, Nat.testBit_or, Nat.testBit_two_pow, Nat.testBit_two_pow]
  unfold isCommon
  rw [beq_iff_eq]
  constructor
  · intro h
    have hbit : ∀ i, (id &&& 0x30000000).testBit i = Nat.testBit 0x30000000 i := fun i => by rw [h]
    have h28 := hbit 28
    have h29 := hbit 29
    rw [Nat.testBit_and, hmask] at h28 h29
    exact ⟨by simpa using h28, by simpa using h29⟩
  · rintro ⟨h28, h29⟩
    refine Nat.eq_of_testBit_eq fun i => ?_
    rw [Nat.testBit_and, hmask]
    by_cases hi : 28 = i
    · simp [← hi, h28]
    · by_cases hi' : 29 = i
      · simp [← hi', h29]
      · simp [hi, hi']

end Ids

section Pdrs

variable {a : Attach} {teid : ℕ}

theorem Attach.mem_qerIds_pdrsFrom {entries : List HeldRule} {qers urrs : List ℕ} {pdr : Pdr} {q : ℕ}
    (hpdr : pdr ∈ a.pdrsFrom teid qers urrs entries) (hq : q ∈ pdr.qerIds) :
    q ∈ qers ++ a.made RuleIds.generateQerId entries := by
  induction entries generalizing qers urrs with
  | nil => exact absurd hpdr List.not_mem_nil
  | cons e entries ih =>
    have hmem : q ∈ qers ∨ q ∈ a.made RuleIds.generateQerId [e] →
        q ∈ qers ++ a.made RuleIds.generateQerId (e :: entries) := by
      rw [Attach.made_cons _ e entries, List.mem_append, List.mem_append]
      exact Or.imp_right Or.inl
    rw [Attach.pdrsFrom, List.mem_cons, List.mem_cons] at hpdr
    rcases hpdr with rfl | rfl | hpdr
    · rcases List.mem_cons.1 hq with rfl | hq
      · exact hmem (.inr (by simp [Attach.made]))
      · exact hmem (.inl (List.mem_filter.1 hq).1)
    · rcases List.mem_cons.1 hq with rfl | hq
      · exact hmem (.inr (by simp [Attach.made]))
      · rcases List.mem_append.1 (List.mem_filter.1 hq).1 with hq | hq
        · exact hmem (.inl hq)
        · exact hmem (.inr (by simp [Attach.made, List.mem_singleton.1 hq]))
    · rw [Attach.made_cons _ e entries, ← List.append_assoc]
      exact ih hpdr

end Pdrs

namespace Made

variable {urr control : Bool} {base req : SessEstabReq} {pdrs : List Pdr}

end Made

namespace Finished

variable {a : Attach} {f : Fill} {s : Spread}

variable {req : SessEstabReq}

end Finished

namespace Attach.Orderly

variable {a : Attach}

end Attach.Orderly

end Spgw.Sx
