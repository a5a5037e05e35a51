/-
# A Session Establishment Request that has been built

`Spgw.Sx.Spread` follows the loop over the rules and `Spgw.Sx.Message` the one over the PDRs.
-/

import Spgw.Sx.Message
import Spgw.Sx.Spread

namespace Spgw.Sx

open Function

open Machine
open Session (deref_bind_eq_ok)
open Rar (maxBearers)

section Own

variable {a : Attach} {γ : Type}

def Attach.ownParts (a : Attach) (part : SourceInterface → RuleIds → DynamicRule → γ)
    (entries : List HeldRule) : List γ :=
  entries.flatMap fun e =>
    [part .access (a.idsAt e.index) e.item, part .core (a.idsAt e.index).next e.item]

def Attach.Own (a : Attach) (part : SourceInterface → RuleIds → DynamicRule → γ) (g : Pdr → γ) :
    Prop :=
  ∀ teid qers urrs iface ids rule fteid,
    g { a.pdrOf teid qers urrs iface ids rule with localFteid := fteid } = part iface ids rule

theorem Attach.Own.map_pdrsFrom {part : SourceInterface → RuleIds → DynamicRule → γ} {g : Pdr → γ}
    (h : a.Own part g) {fix : Pdr → Pdr}
    (hfix : ∀ pdr, ∃ fteid, fix pdr = { pdr with localFteid := fteid }) (teid : ℕ)
    (entries : List HeldRule) (qers urrs : List ℕ) :
    ((a.pdrsFrom teid qers urrs entries).map fix).map g = a.ownParts part entries := by
  have hown : ∀ teid qers urrs iface ids rule,
      g (fix (a.pdrOf teid qers urrs iface ids rule)) = part iface ids rule := by
    intro teid qers urrs iface ids rule
    obtain ⟨fteid, hfteid⟩ := hfix (a.pdrOf teid qers urrs iface ids rule)
    rw [hfteid]
    exact h teid qers urrs iface ids rule fteid
  induction entries generalizing qers urrs with
  | nil => rfl
  | cons e entries ih =>
    rw [Attach.pdrsFrom, List.map_cons, List.map_cons, List.map_cons, List.map_cons, ih, hown, hown]
    rfl

theorem Attach.perm_ownParts (part : SourceInterface → RuleIds → DynamicRule → γ)
    {l₁ l₂ : List HeldRule} (h : l₁.Perm l₂) : (a.ownParts part l₁).Perm (a.ownParts part l₂) :=
  h.flatMap_right _

@[simp]
theorem Attach.length_ownParts (part : SourceInterface → RuleIds → DynamicRule → γ)
    (entries : List HeldRule) : (a.ownParts part entries).length = 2 * entries.length := by
  simp [Attach.ownParts, List.length_flatMap, Nat.mul_comm]

end Own

theorem updateLast_eq_ok {upf : UpfContext} {f f' : Fill} :
    f.updateLast upf = .ok f' ↔ ∃ i b, f.bearer = some i ∧ f.epsBearers i = some b ∧ f' = { f with
        epsBearers := update f.epsBearers i (some (b.updatePdrTeid b.s1uSgw.teid upf.s1uIp)) } := by
  unfold Fill.updateLast
  rw [deref_bind_eq_ok]
  refine exists_congr fun i => ?_
  rw [deref_bind_eq_ok]
  constructor
  · rintro ⟨hi, b, hb, hret⟩
    exact ⟨b, hi, hb, (Except.ok.inj hret).symm⟩
  · rintro ⟨b, hi, hb, rfl⟩
    exact ⟨hi, b, hb, rfl⟩

theorem processPfcpSessEstRequest_eq_ok {a : Attach} {req : SessEstabReq} {f : Fill} :
    a.processPfcpSessEstRequest = .ok (some req, f) ↔ a.found = true ∧ a.pending ≠ [] ∧
      (∃ f₀, a.pending.foldlM (Fill.addRule a.cfg a.upf a.pdn) a.ready = .ok f₀ ∧
        f₀.updateLast a.upf = .ok f) ∧
      (f.placed.map Prod.snd).foldlM
        (SessEstabReq.addPdr a.cfg.urrEnable a.pdn.addrAllocControl f.qers)
        (SessEstabReq.initial a.cfg a.upf a.pdn a.seqNo f) = .ok req := by
  unfold Attach.processPfcpSessEstRequest
  cases hfound : a.found with
  | false =>
    simp only [Bool.false_eq_true, if_false, false_and, iff_false]
    intro h
    cases Except.ok.inj h
  | true =>
    simp only [if_true, true_and, fillPfcpSessEstReq]
    cases hpending : a.pending with
    | nil =>
      simp only [ne_eq, not_true_eq_false, false_and, iff_false]
      intro h
      obtain ⟨f₁, h₁, h⟩ := bind_eq_ok.1 h
      cases Except.ok.inj h₁
      obtain ⟨f₂, h₂, -⟩ := bind_eq_ok.1 h
      obtain ⟨i, b, hnone, -⟩ := updateLast_eq_ok.1 h₂
      cases hnone
    | cons rule rules =>
      simp only [List.foldlM_cons, addRule_start, ne_eq, reduceCtorEq, not_false_eq_true, true_and]
      constructor
      · intro h
        obtain ⟨f₀, h₀, h⟩ := bind_eq_ok.1 h
        obtain ⟨f₁, h₁, h⟩ := bind_eq_ok.1 h
        obtain ⟨req₁, hreq, h⟩ := bind_eq_ok.1 h
        cases Except.ok.inj h
        exact ⟨⟨f₀, h₀, h₁⟩, hreq⟩
      · rintro ⟨⟨f₀, h₀, h₁⟩, hreq⟩
        exact bind_eq_ok.2 ⟨f₀, h₀, bind_eq_ok.2 ⟨f, h₁, bind_eq_ok.2 ⟨req, hreq, rfl⟩⟩⟩

/-- The message is made of the PDRs of all bearers. -/
abbrev Attach.Builds (a : Attach) (f : Fill) (req : SessEstabReq) : Prop :=
  Made a.cfg.urrEnable a.pdn.addrAllocControl (SessEstabReq.initial a.cfg a.upf a.pdn a.seqNo f)
    (f.placed.map Prod.snd) req

structure Finished (a : Attach) (f : Fill) (s : Spread) : Prop where
  places : Placement.Places a.policy a.pending s
  bearer : ∀ i b, f.epsBearers i = some b → ∃ b₀, Holds a s i b₀ ∧
    b = if s.last = some i then b₀.updatePdrTeid b₀.s1uSgw.teid a.upf.s1uIp else b₀
  isSome : ∀ i, (f.epsBearers i).isSome = (s.keyAt i).isSome
  filed : ∀ i b, f.epsBearers i = some b → ∀ q ∈ b.qerIds, (f.qers.getQerEntry q).isSome
  room : ∀ i b, f.epsBearers i = some b → b.qerIds.length ≤ maxListSize
  count : f.createPdrCount = 2 * a.pending.length

section Finish

variable {a : Attach} {f f₀ : Fill} {s : Spread}

theorem Ready.finished (h : Ready a f₀ s) (hs : Placement.Places a.policy a.pending s)
    (hlast : f₀.updateLast a.upf = .ok f) : Finished a f s := by
  obtain ⟨i, b, hi, hb, rfl⟩ := updateLast_eq_ok.1 hlast
  rw [h.last] at hi
  -- A bearer of the new state is the one of the last rule, or an old one.
  have hcases : ∀ j b', update f₀.epsBearers i
      (some (b.updatePdrTeid b.s1uSgw.teid a.upf.s1uIp)) j = some b' →
      ∃ b₀, f₀.epsBearers j = some b₀ ∧
        b' = if s.last = some j then b₀.updatePdrTeid b₀.s1uSgw.teid a.upf.s1uIp else b₀ := by
    intro j b' hb'
    by_cases hji : j = i
    · subst hji
      rw [update_self, Option.some.injEq] at hb'
      exact ⟨b, hb, by rw [if_pos hi, hb']⟩
    · rw [update_of_ne hji] at hb'
      refine ⟨b', hb', ?_⟩
      rw [hi, if_neg fun h => hji (Option.some.inj h).symm]
  -- `update_pdr_teid` leaves the QERs of the bearer.
  have hqers : ∀ (b₀ : EpsBearer) (j : Fin maxBearers),
      (if s.last = some j then b₀.updatePdrTeid b₀.s1uSgw.teid a.upf.s1uIp else b₀).qerIds =
        b₀.qerIds := by
    intro b₀ j
    split_ifs <;> rfl
  refine ⟨hs, fun j b' hb' => ?_, fun j => ?_, fun j b' hb' => ?_, fun j b' hb' => ?_, ?_⟩
  · obtain ⟨b₀, hb₀, rfl⟩ := hcases j b' hb'
    exact ⟨b₀, h.holds j b₀ hb₀, rfl⟩
  · by_cases hji : j = i
    · subst hji
      simp [h.keyAt, hb]
    · simp [h.keyAt, update_of_ne hji]
  · obtain ⟨b₀, hb₀, rfl⟩ := hcases j b' hb'
    rw [hqers]
    exact h.filed j b₀ hb₀
  · obtain ⟨b₀, hb₀, rfl⟩ := hcases j b' hb'
    rw [hqers]
    exact h.room j b₀ hb₀
  · rw [← hs.count_eq]
    exact h.count

theorem finished_of_ok {req : SessEstabReq} (h : a.processPfcpSessEstRequest = .ok (some req, f)) :
    ∃ s, Finished a f s ∧ a.Builds f req := by
  obtain ⟨-, -, ⟨f₀, hrules, hlast⟩, hreq⟩ := processPfcpSessEstRequest_eq_ok.1 h
  obtain ⟨s, hs, hready⟩ := ready_of_foldlM hrules
  exact ⟨s, hready.finished hs hlast, made_of_foldlM rfl hreq⟩

end Finish

namespace Finished

variable {a : Attach} {f : Fill} {s : Spread} {i : Fin maxBearers} {b : EpsBearer}

/-- What `update_pdr_teid` does to the PDRs of a slot. -/
def fix (a : Attach) (s : Spread) (i : Fin maxBearers) (teid : ℕ) (pdr : Pdr) : Pdr :=
  if s.last = some i then pdr.updateTeid teid a.upf.s1uIp else pdr

theorem fix_eq (i : Fin maxBearers) (teid : ℕ) (pdr : Pdr) :
    ∃ fteid, fix a s i teid pdr = { pdr with localFteid := fteid } := by
  unfold fix
  split_ifs
  · unfold Pdr.updateTeid
    split
    · exact ⟨_, rfl⟩
    · exact ⟨pdr.localFteid, rfl⟩
  · exact ⟨pdr.localFteid, rfl⟩

theorem urrIds_fix (i : Fin maxBearers) (teid : ℕ) (pdr : Pdr) :
    (fix a s i teid pdr).urrIds = pdr.urrIds := by
  obtain ⟨fteid, hfix⟩ := @fix_eq a s i teid pdr
  rw [hfix]

theorem qerIds_fix (i : Fin maxBearers) (teid : ℕ) (pdr : Pdr) :
    (fix a s i teid pdr).qerIds = pdr.qerIds := by
  obtain ⟨fteid, hfix⟩ := @fix_eq a s i teid pdr
  rw [hfix]

theorem pdrs_eq (h : Finished a f s) (hb : f.epsBearers i = some b) :
    b.pdrs = (a.pdrsFrom b.s1uSgw.teid (a.ambrQers i) [] (s.inSlot i)).map
      (fix a s i b.s1uSgw.teid) := by
  obtain ⟨b₀, hholds, rfl⟩ := h.bearer i b hb
  unfold fix
  split_ifs
  · change b₀.pdrs.map _ = _
    rw [hholds.pdrs]
    rfl
  · rw [hholds.pdrs, List.map_id']

theorem inSlot_eq_nil (h : Finished a f s) (hnone : f.epsBearers i = none) : s.inSlot i = [] := by
  refine List.filter_eq_nil_iff.2 fun e he hslot => ?_
  have hsome := h.places.isSome_keyAt.2 e he
  rw [of_decide_eq_true hslot, ← h.isSome, hnone] at hsome
  cases hsome

theorem pdrsAt_eq (h : Finished a f s) (i : Fin maxBearers) :
    ∃ teid, f.pdrsAt i = (a.pdrsFrom teid (a.ambrQers i) [] (s.inSlot i)).map (fix a s i teid) := by
  unfold Fill.pdrsAt
  cases hb : f.epsBearers i with
  | none => exact ⟨0, by rw [h.inSlot_eq_nil hb]; rfl⟩
  | some b => exact ⟨_, h.pdrs_eq hb⟩

theorem map_snd_placed (f : Fill) :
    f.placed.map Prod.snd = (List.finRange maxBearers).flatMap f.pdrsAt := by
  simp [Fill.placed, List.map_flatMap, comp_def]

theorem exists_of_mem_placed (h : Finished a f s) {pdr : Pdr} (hpdr : pdr ∈ f.placed.map Prod.snd) :
    ∃ i teid, ∃ pdr₀ ∈ a.pdrsFrom teid (a.ambrQers i) [] (s.inSlot i),
      fix a s i teid pdr₀ = pdr := by
  rw [map_snd_placed, List.mem_flatMap] at hpdr
  obtain ⟨i, -, hpdr⟩ := hpdr
  obtain ⟨teid, hpdrs⟩ := h.pdrsAt_eq i
  rw [hpdrs, List.mem_map] at hpdr
  exact ⟨i, teid, hpdr⟩

/-- **For what they have of their own, the PDRs of the message are those of the rules that are
held.** -/
theorem perm_own (h : Finished a f s) {γ : Type}
    {part : SourceInterface → RuleIds → DynamicRule → γ} {g : Pdr → γ} (hown : a.Own part g) :
    ((f.placed.map Prod.snd).map g).Perm (a.ownParts part s.held) := by
  have hslot : ∀ i, (f.pdrsAt i).map g = a.ownParts part (s.inSlot i) := by
    intro i
    obtain ⟨teid, hpdrs⟩ := h.pdrsAt_eq i
    rw [hpdrs]
    exact hown.map_pdrsFrom (fix_eq i teid) teid _ _ _
  have hall : (f.placed.map Prod.snd).map g =
      a.ownParts part ((List.finRange maxBearers).flatMap s.inSlot) := by
    simp only [Fill.placed, List.map_flatMap, List.map_map, comp_def]
    simp only [hslot, Attach.ownParts, List.flatMap_assoc]
  rw [hall]
  exact Attach.perm_ownParts part s.perm_inSlot

theorem length_placed (h : Finished a f s) : f.placed.length = 2 * s.held.length := by
  have hown : a.Own (fun iface _ _ => iface) Pdr.srcIntfc := fun _ _ _ _ _ _ _ => rfl
  have hperm := h.perm_own hown
  simpa using hperm.length_eq

end Finished

end Spgw.Sx
