/-
# A Create Bearer Response fills a cell that is not read

A Create Bearer Response finds its procedure by the transaction, and
`process_sgwc_create_bearer_rsp` (`cp/procedures/proc_bearer_create.c`) the bearer by the EPS bearer
identifier in it, which need not be the one the procedure has created.
-/

import Spgw.Sx.ReleaseAccess

namespace Spgw.Sx

open Function

open Rar (maxBearers)
open Bearer (slotIndex)

structure CreateBearerRsp where
  accepted : Bool := true
  ebi : Fin 16
  s1uEnbFteid : GtpFteid := {}
  s1uSgwFteid : GtpFteid := {}

theorem slotIndex_eq_ok {ebi : ℕ} {i : Fin maxBearers} :
    slotIndex ebi = .ok i ↔ ebi = i.val + 5 := by
  have hi := i.isLt
  unfold slotIndex
  split_ifs with h
  · constructor
    · intro heq
      have := congrArg Fin.val (Except.ok.inj heq)
      simp only at this
      omega
    · rintro rfl
      exact congrArg Except.ok (Fin.ext (by simp))
  · constructor
    · intro heq
      cases heq
    · intro heq
      omega

structure BearerUpdate where
  context : UeContext
  slot : Fin maxBearers
  request : SessModReq

def EpsBearer.takeResponse (bearer : EpsBearer) (rsp : CreateBearerRsp) : EpsBearer :=
  { bearer with
    epsBearerId := rsp.ebi
    s1uEnb := rsp.s1uEnbFteid.fteid
    s1uSgw := rsp.s1uSgwFteid.fteid }

/-- The array of the caller, and the number of its cells that are filled: the cell at
`update_far_count`, which is 0. -/
def createBearerParms (stack : ℕ → UpdateFar) (rsp : CreateBearerRsp) : (ℕ → UpdateFar) × ℕ :=
  if rsp.s1uEnbFteid.len = 0 then (stack, 0)
  else
    (update stack 0 ((stack 0).setParms rsp.s1uEnbFteid.fteid
      (checkInterfaceType rsp.s1uEnbFteid.interfaceType)), 1)

def processSgwcCreateBearerRsp (stack : ℕ → UpdateFar) (seqNo : ℕ) (c : UeContext)
    (rsp : CreateBearerRsp) : Except Fault (Option BearerUpdate) :=
  if rsp.accepted then do
    let i ← slotIndex rsp.ebi
    match c.epsBearers i with
    | none => return none
    | some bearer =>
      let bearer := bearer.takeResponse rsp
      let (parms, count) := createBearerParms stack rsp
      return some {
        context := { c with epsBearers := update c.epsBearers i (some bearer) }
        slot := i
        request := fillPfcpSessModReq { updateFarCount := count } seqNo bearer parms false }
  else
    return none

/-- The response completes the bearer it was created for, and no other. -/
structure BearerUpdate.Completes (c : UeContext) (created : Fin maxBearers) (bearer : EpsBearer)
    (rsp : CreateBearerRsp) (u : BearerUpdate) : Prop where
  slot : u.slot = created
  others : ∀ i, i ≠ created → u.context.epsBearers i = c.epsBearers i
  session : u.request.seid = bearer.pdn.dpSeid
  forwards : ∀ pdr ∈ bearer.corePdrs, ∃ far ∈ u.request.updateFars,
    far.farId = pdr.far.farIdValue ∧ far.applyAction = { forw := true } ∧
      far.updFrwdngParms.outerHdrCreation = rsp.s1uEnbFteid.fteid

section CreateBearer

variable {stack : ℕ → UpdateFar} {seqNo : ℕ} {c : UeContext} {rsp : CreateBearerRsp}
  {bearer : EpsBearer}

def createBearerRequest (stack : ℕ → UpdateFar) (seqNo : ℕ) (bearer : EpsBearer)
    (rsp : CreateBearerRsp) : SessModReq :=
  fillPfcpSessModReq { updateFarCount := (createBearerParms stack rsp).2 } seqNo
    (bearer.takeResponse rsp) (createBearerParms stack rsp).1 false

theorem updateFars_of_absent (h : rsp.s1uEnbFteid.len = 0) :
    (createBearerRequest stack seqNo bearer rsp).updateFars = [] := by
  simp [createBearerRequest, createBearerParms, h, SessModReq.updateFars, fillPfcpSessModReq]

theorem updateFars_of_present (h : rsp.s1uEnbFteid.len ≠ 0) {pdr : Pdr × ℕ}
    (hpdr : bearer.markedPdrs.head? = some pdr) :
    (createBearerRequest stack seqNo bearer rsp).updateFars =
      [fillUpdateFar (createBearerParms stack rsp).1 false pdr {}] := by
  have hcount : (createBearerRequest stack seqNo bearer rsp).updateFarCount = 1 := by
    simp [createBearerRequest, createBearerParms, h, fillPfcpSessModReq]
  have hcell : (createBearerRequest stack seqNo bearer rsp).updateFar 0 =
      fillUpdateFar (createBearerParms stack rsp).1 false pdr {} := by
    have hzero := updateFar_fill_zero (createBearerParms stack rsp).1 false
      { updateFarCount := (createBearerParms stack rsp).2 } seqNo (bearer.takeResponse rsp)
    have hmarked : (bearer.takeResponse rsp).markedPdrs.head? = some pdr := hpdr
    rw [hmarked] at hzero
    exact hzero
  rw [updateFars_of_len_ne_zero hcount (by rw [hcell]; exact fillUpdateFar_len_ne), hcell]

theorem process_eq_some {u : BearerUpdate} (hacc : rsp.accepted = true) :
    processSgwcCreateBearerRsp stack seqNo c rsp = .ok (some u) ↔
      ∃ i other, slotIndex rsp.ebi = .ok i ∧ c.epsBearers i = some other ∧ u = {
          context := { c with
            epsBearers := update c.epsBearers i (some (other.takeResponse rsp)) }
          slot := i
          request := createBearerRequest stack seqNo other rsp } := by
  rw [processSgwcCreateBearerRsp, if_pos hacc, Machine.bind_eq_ok]
  constructor
  · rintro ⟨i, hi, hrun⟩
    rcases hother : c.epsBearers i with _ | other
    · simp [hother, pure, Except.pure] at hrun
    · simp only [hother] at hrun
      exact ⟨i, other, hi, hother, (Option.some.inj (Except.ok.inj hrun)).symm⟩
  · rintro ⟨i, other, hi, hother, rfl⟩
    refine ⟨i, hi, ?_⟩
    simp only [hother]
    rfl

theorem parms_of_ne_zero {n : ℕ} (hn : n ≠ 0) : (createBearerParms stack rsp).1 n = stack n := by
  unfold createBearerParms
  split_ifs with h
  · rfl
  · exact update_of_ne hn ..

theorem exists_stack_of_ne_zero (rsp : CreateBearerRsp) : ∃ stack : ℕ → UpdateFar, ∀ n ≠ 0,
      ((createBearerParms stack rsp).1 n).updFrwdngParms.outerHdrCreation ≠
        rsp.s1uEnbFteid.fteid := by
  refine ⟨fun _ => { updFrwdngParms := { outerHdrCreation :=
    { teid := rsp.s1uEnbFteid.fteid.teid + 1 } } }, fun n hn heq => ?_⟩
  rw [parms_of_ne_zero hn] at heq
  exact absurd (congrArg Fteid.teid heq) (Nat.succ_ne_self _)

theorem exists_head?_markedPdrs (h : bearer.corePdrs ≠ []) :
    ∃ pdr, bearer.markedPdrs.head? = some pdr ∧ pdr.1 ∈ bearer.corePdrs := by
  rw [← map_fst_markedPdrs] at h ⊢
  obtain ⟨pdr, pdrs, hmarked⟩ := List.exists_cons_of_ne_nil fun hnil =>
    h (congrArg (List.map Prod.fst) hnil)
  rw [hmarked]
  exact ⟨pdr, rfl, List.mem_cons_self⟩

/-- The first PDR is one for CORE, and the PDRs for CORE share a FAR. -/
def EpsBearer.CoreFirst (bearer : EpsBearer) : Prop :=
  (∃ pdr pdrs, bearer.pdrs = pdr :: pdrs ∧ pdr.isCore) ∧
    ∀ p ∈ bearer.corePdrs, ∀ q ∈ bearer.corePdrs, p.far.farIdValue = q.far.farIdValue

theorem head?_markedPdrs_of_coreFirst (h : bearer.CoreFirst) :
    ∃ pdr, bearer.markedPdrs.head? = some (pdr, 0) ∧ pdr ∈ bearer.corePdrs := by
  obtain ⟨⟨pdr, pdrs, hpdrs, hcore⟩, -⟩ := h
  refine ⟨pdr, ?_, ?_⟩
  · rw [EpsBearer.markedPdrs, hpdrs, Cells.head?_marked_cons _ _ _ hcore]
  · rw [EpsBearer.corePdrs, hpdrs]
    exact List.mem_filter.mpr ⟨List.mem_cons_self, hcore⟩

theorem coreFirst_of_forwards (h : bearer.corePdrs ≠ [])
    (hforwards : ∀ stack, ∀ pdr ∈ bearer.corePdrs,
      ∃ far ∈ (createBearerRequest stack seqNo bearer rsp).updateFars,
        far.farId = pdr.far.farIdValue ∧ far.applyAction = { forw := true } ∧
          far.updFrwdngParms.outerHdrCreation = rsp.s1uEnbFteid.fteid) :
    rsp.s1uEnbFteid.len ≠ 0 ∧ bearer.CoreFirst := by
  obtain ⟨first, hfirst, hmem⟩ := exists_head?_markedPdrs h
  have hpresent : rsp.s1uEnbFteid.len ≠ 0 := by
    intro hlen
    obtain ⟨far, hfar, -⟩ := hforwards (fun _ => {}) first.1 hmem
    rw [updateFars_of_absent hlen] at hfar
    exact List.not_mem_nil hfar
  have hsole : ∀ (stack : ℕ → UpdateFar), ∀ pdr ∈ bearer.corePdrs,
      first.1.far.farIdValue = pdr.far.farIdValue ∧
        ((createBearerParms stack rsp).1 first.2).updFrwdngParms.outerHdrCreation =
          rsp.s1uEnbFteid.fteid := by
    intro stack pdr hpdr
    obtain ⟨far, hfar, hid, -, hfteid⟩ := hforwards stack pdr hpdr
    rw [updateFars_of_present hpresent hfirst, List.mem_singleton] at hfar
    rw [hfar] at hid hfteid
    exact ⟨hid, hfteid⟩
  refine ⟨hpresent, ?_, fun p hp q hq =>
    (hsole (fun _ => {}) p hp).1.symm.trans (hsole (fun _ => {}) q hq).1⟩
  -- cell 0 is the only one that does not depend on what the array held
  have hposition : first.2 = 0 := by
    by_contra hne
    obtain ⟨stack, hstack⟩ := exists_stack_of_ne_zero rsp
    exact hstack first.2 hne (hsole stack first.1 hmem).2
  rcases hpdrs : bearer.pdrs with _ | ⟨pdr, pdrs⟩
  · simp [EpsBearer.corePdrs, hpdrs] at h
  · refine ⟨pdr, pdrs, rfl, ?_⟩
    by_contra hcore
    have hmarked := List.mem_of_mem_head? hfirst
    rw [EpsBearer.markedPdrs, hpdrs] at hmarked
    have := Cells.position_pos_of_not Pdr.isCore pdr pdrs (by simpa using hcore) hmarked
    omega

/-- **A Create Bearer Response completes its procedure, whatever the array held before, exactly if it
names its bearer and, where that has downlink rules, carries an eNodeB F-TEID, the first rule is one
for downlink packets, and all of those share one FAR.** -/
theorem completes_iff (seqNo : ℕ) (c : UeContext) (created : Fin maxBearers) (bearer : EpsBearer)
    (rsp : CreateBearerRsp) (hcreated : c.epsBearers created = some bearer)
    (hacc : rsp.accepted = true) :
    (∀ stack, ∃ u, processSgwcCreateBearerRsp stack seqNo c rsp = .ok (some u) ∧
        u.Completes c created bearer rsp) ↔
      rsp.ebi.val = created.val + 5 ∧
        (bearer.corePdrs ≠ [] → rsp.s1uEnbFteid.len ≠ 0 ∧ bearer.CoreFirst) := by
  constructor
  · intro hcompletes
    have hrun : ∀ stack, slotIndex rsp.ebi = .ok created ∧ ∀ pdr ∈ bearer.corePdrs,
        ∃ far ∈ (createBearerRequest stack seqNo bearer rsp).updateFars,
          far.farId = pdr.far.farIdValue ∧ far.applyAction = { forw := true } ∧
            far.updFrwdngParms.outerHdrCreation = rsp.s1uEnbFteid.fteid := by
      intro stack
      obtain ⟨u, hu, hdone⟩ := hcompletes stack
      obtain ⟨i, other, hi, hother, rfl⟩ := (process_eq_some hacc).mp hu
      obtain rfl : i = created := hdone.slot
      cases hother.symm.trans hcreated
      exact ⟨hi, hdone.forwards⟩
    exact ⟨slotIndex_eq_ok.mp (hrun fun _ => {}).1,
      fun h => coreFirst_of_forwards h fun stack => (hrun stack).2⟩
  · rintro ⟨hebi, hrules⟩ stack
    refine ⟨_, (process_eq_some hacc).mpr
      ⟨created, bearer, slotIndex_eq_ok.mpr hebi, hcreated, rfl⟩, rfl, ?_, rfl, ?_⟩
    · exact fun i hi => update_of_ne hi ..
    · intro pdr hpdr
      obtain ⟨hpresent, hfirst⟩ := hrules (List.ne_nil_of_mem hpdr)
      obtain ⟨first, hhead, hmem⟩ := head?_markedPdrs_of_coreFirst hfirst
      rw [updateFars_of_present hpresent hhead]
      refine ⟨_, List.mem_singleton_self _, hfirst.2 first hmem pdr hpdr, rfl, ?_⟩
      rw [fillUpdateFar_outerHdrCreation, createBearerParms, if_neg hpresent]
      simp only [update_self]
      rfl

end CreateBearer

theorem enbEbi_lt : 6 < 16 := by decide

def enbResponse : CreateBearerRsp where
  ebi := ⟨6, enbEbi_lt⟩
  s1uEnbFteid := { len := 9, fteid := { teid := 7, ipv4Address := 10 } }

def downlinkFirst : UeContext where
  epsBearers i := if i.val = 1 then some {
      epsBearerId := 6
      pdrs := [{ ruleId := 1, srcIntfc := .core, far := { farIdValue := 1 }
                 dynamicRule := { ruleName := [] } }] }
    else none
  bearerBitmap := 2

/-- The response completes the procedure of such a bearer. -/
theorem completes_downlinkFirst : ∃ bearer,
    downlinkFirst.epsBearers ⟨1, by decide⟩ = some bearer ∧ ∀ stack, ∃ u,
      processSgwcCreateBearerRsp stack 1 downlinkFirst enbResponse = .ok (some u) ∧
      u.Completes downlinkFirst ⟨1, by decide⟩ bearer enbResponse := by
  refine ⟨_, rfl, fun stack => ?_⟩
  exact (completes_iff 1 downlinkFirst ⟨1, by decide⟩ _ enbResponse rfl rfl).mpr
    ⟨rfl, fun _ => ⟨by decide, ⟨_, _, rfl, rfl⟩, by decide⟩⟩ stack

/-- The bearer of the procedure has the rule for uplink packets in front, as every bearer that
`fill_pfcp_gx_sess_mod_req` creates: its FAR forwards to an address and a TEID that were never
written. -/
theorem not_completes_uplinkFirst :
    ¬∀ stack, ∃ u, processSgwcCreateBearerRsp stack 1 twoBearers enbResponse = .ok (some u) ∧
      u.Completes twoBearers ⟨1, by decide⟩ (twoRuleBearer 6 1) enbResponse := by
  intro hcompletes
  obtain ⟨u, hu, hdone⟩ := hcompletes fun _ => {}
  obtain rfl := Option.some.inj (Except.ok.inj hu)
  obtain ⟨far, hfar, -, -, hfteid⟩ := hdone.forwards _ (show _ ∈ [_] from List.mem_singleton_self _)
  have hall : ∀ far ∈ (createBearerRequest (fun _ => {}) 1 (twoRuleBearer 6 1)
      enbResponse).updateFars, far.updFrwdngParms.outerHdrCreation = {} := by decide
  have hzero := (hall far hfar).symm.trans hfteid
  exact absurd hzero (by decide)

end Spgw.Sx
