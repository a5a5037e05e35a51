/-
# A Modify Bearer Request updates every downlink FAR

`validate_mbreq_msg` finds the bearer of a Modify Bearer Request, and `process_mb_req_handler`
(`cp/procedures/proc_service_request.c`) sends the new end of its tunnel to the user plane.
-/

import Spgw.Sx.Modify

namespace Spgw.Sx

open Rar (maxBearers)

structure ModBearerReq where
  ebiLen : ℕ := 1
  ebi : Fin 16
  s1EnodebFteid : GtpFteid := {}
  s58USgwFteid : GtpFteid := {}

/-- `ebi - 5` in a `uint8_t`. -/
def ebiIndex (ebi : Fin 16) : ℕ := (ebi.val + 251) % 256

inductive Cause
  | contextNotFound
  | invalidLength
  deriving DecidableEq

def validateMbreqMsg (c : UeContext) (req : ModBearerReq) : Except Cause EpsBearer :=
  if req.ebiLen = 0 ∨ req.s1EnodebFteid.len = 0 then
    throw .invalidLength
  else if c.bearerBitmap.getLsbD (ebiIndex req.ebi % 32) = false then
    throw .contextNotFound
  else if h : ebiIndex req.ebi < maxBearers then
    match c.epsBearers ⟨ebiIndex req.ebi, h⟩ with
    | none => throw .contextNotFound
    | some bearer => pure bearer
  else
    throw .contextNotFound

/-- The state of the two loops of `process_mb_req_handler`. -/
structure MbFill where
  bearer : EpsBearer
  updateFar : ℕ → UpdateFar
  updateFarCount : ℕ := 0

def MbFill.s1uTurn (fteid : GtpFteid) (s : MbFill) (pdr : Pdr × ℕ) : MbFill where
  bearer := { s.bearer with s1uEnb := fteid.fteid }
  updateFar := Cells.mark (fun _ far => far.setParms fteid.fteid
    (checkInterfaceType fteid.interfaceType)) s.updateFar pdr
  updateFarCount := s.updateFarCount + 1

def MbFill.s58Turn (fteid : GtpFteid) (s : MbFill) (pdr : Pdr × ℕ) : MbFill where
  bearer := s.bearer
  updateFar := Cells.mark (fun _ far => far.setParms fteid.fteid
    (checkInterfaceType fteid.interfaceType)) s.updateFar pdr
  updateFarCount := s.updateFarCount + 1

def MbFill.loop (turn : GtpFteid → MbFill → Pdr × ℕ → MbFill) (fteid : GtpFteid) (s : MbFill) :
    MbFill :=
  if fteid.len = 0 then s
  else s.bearer.pdrs.zipIdx.foldl (fun s pdr => if pdr.1.isCore then turn fteid s pdr else s) s

def x2Handover (bearer : EpsBearer) (req : ModBearerReq) : Bool :=
  req.s1EnodebFteid.len ≠ 0 ∧ bearer.s1uEnb.ipv4Address ≠ 0 ∧
    req.s1EnodebFteid.fteid ≠ bearer.s1uEnb

def processMbReqHandler (stack : ℕ → UpdateFar) (seqNo : ℕ) (bearer : EpsBearer)
    (req : ModBearerReq) : EpsBearer × SessModReq :=
  let s : MbFill := { bearer, updateFar := stack }
  let s := s.loop .s1uTurn req.s1EnodebFteid
  let s := s.loop .s58Turn req.s58USgwFteid
  (s.bearer, fillPfcpSessModReq { updateFarCount := s.updateFarCount } seqNo s.bearer s.updateFar
    (x2Handover bearer req))

section ModifyBearer

theorem foldl_s1uTurn (fteid : GtpFteid) (pdrs : List (Pdr × ℕ)) (s : MbFill) :
    let t := pdrs.foldl (MbFill.s1uTurn fteid) s
    t.bearer.pdrs = s.bearer.pdrs ∧ t.bearer.pdn = s.bearer.pdn ∧
      t.updateFarCount = s.updateFarCount + pdrs.length ∧
        t.updateFar = pdrs.foldl (Cells.mark fun _ far => far.setParms fteid.fteid
          (checkInterfaceType fteid.interfaceType)) s.updateFar := by
  induction pdrs generalizing s with
  | nil => exact ⟨rfl, rfl, rfl, rfl⟩
  | cons pdr pdrs ih =>
    obtain ⟨hpdrs, hpdn, hcount, hcells⟩ := ih (MbFill.s1uTurn fteid s pdr)
    refine ⟨hpdrs, hpdn, hcount.trans ?_, hcells⟩
    change s.updateFarCount + 1 + pdrs.length = s.updateFarCount + (pdrs.length + 1)
    omega

theorem updateFars_processMbReqHandler (stack : ℕ → UpdateFar) (seqNo : ℕ) (bearer : EpsBearer)
    {req : ModBearerReq} (hs1 : req.s1EnodebFteid.len ≠ 0) (hs58 : req.s58USgwFteid.len = 0) :
    ∃ parms : ℕ → UpdateFar, (∀ pdr ∈ bearer.markedPdrs,
        (parms pdr.2).updFrwdngParms.outerHdrCreation = req.s1EnodebFteid.fteid) ∧
      (processMbReqHandler stack seqNo bearer req).2.updateFarCount = bearer.corePdrs.length ∧
      (processMbReqHandler stack seqNo bearer req).2.seid = bearer.pdn.dpSeid ∧
      (processMbReqHandler stack seqNo bearer req).2.updateFars =
        bearer.markedPdrs.map fun pdr => fillUpdateFar parms (x2Handover bearer req) pdr {} := by
  let start : MbFill := { bearer, updateFar := stack }
  let s := bearer.markedPdrs.foldl (MbFill.s1uTurn req.s1EnodebFteid) start
  obtain ⟨hpdrs, hpdn, hcount, hcells⟩ := foldl_s1uTurn req.s1EnodebFteid bearer.markedPdrs start
  have hrun : (processMbReqHandler stack seqNo bearer req).2 =
      fillPfcpSessModReq { updateFarCount := s.updateFarCount } seqNo s.bearer s.updateFar
        (x2Handover bearer req) := by
    have hloop : start.loop .s1uTurn req.s1EnodebFteid = s := by
      rw [MbFill.loop, if_neg hs1]
      exact Cells.foldl_marked Pdr.isCore (MbFill.s1uTurn req.s1EnodebFteid) bearer.pdrs start
    simp only [processMbReqHandler]
    rw [hloop, MbFill.loop, if_pos hs58]
  have hmarked : s.bearer.markedPdrs = bearer.markedPdrs := by
    unfold EpsBearer.markedPdrs
    rw [hpdrs]
  have hcore : s.updateFarCount = bearer.corePdrs.length := by
    rw [← map_fst_markedPdrs, List.length_map]
    exact hcount.trans (Nat.zero_add _)
  refine ⟨s.updateFar, ?_, ?_, ?_, ?_⟩
  · rw [hcells]
    refine (Cells.foldl_mark_holds
      (P := fun far => far.updFrwdngParms.outerHdrCreation = req.s1EnodebFteid.fteid)
      ?_ bearer.markedPdrs stack).1
    exact fun _ _ => rfl
  · rw [hrun]
    exact hcore
  · rw [hrun]
    exact congrArg Seids.dpSeid hpdn
  · rw [hrun, updateFars_fill _ _ _ _ _ rfl, hmarked]
    rw [hcore, ← map_fst_markedPdrs, ← map_fst_markedPdrs, hmarked]

/-- **An accepted Modify Bearer Request with an S1-U eNodeB F-TEID updates the FAR of every
PDR for downlink packets, once and in their order, and no other FAR; each then forwards to
the tunnel of the request.** -/
theorem updateFars_of_mbReq (stack : ℕ → UpdateFar) (seqNo : ℕ) (c : UeContext)
    (req : ModBearerReq) (bearer : EpsBearer) (hacc : validateMbreqMsg c req = .ok bearer)
    (hs58 : req.s58USgwFteid.len = 0) :
    let message := (processMbReqHandler stack seqNo bearer req).2
    message.seid = bearer.pdn.dpSeid ∧
      message.updateFars.map UpdateFar.farId = bearer.corePdrs.map (·.far.farIdValue) ∧
      message.updateFarCount = bearer.corePdrs.length ∧
      (∀ far ∈ message.updateFars, far.applyAction = { forw := true } ∧
        far.updFrwdngParms.outerHdrCreation = req.s1EnodebFteid.fteid) ∧
      ((bearer.pdrs.map (·.far.farIdValue)).Nodup → ∀ pdr ∈ bearer.pdrs,
        (message.updateFars.map UpdateFar.farId).count pdr.far.farIdValue =
          if pdr.isCore then 1 else 0) := by
  have hs1 : req.s1EnodebFteid.len ≠ 0 := by
    intro hlen
    simp [validateMbreqMsg, hlen] at hacc
  obtain ⟨parms, hparms, hcount, hseid, hfars⟩ :=
    updateFars_processMbReqHandler stack seqNo bearer hs1 hs58
  intro message
  have hids : message.updateFars.map UpdateFar.farId = bearer.corePdrs.map (·.far.farIdValue) := by
    rw [hfars, ← map_fst_markedPdrs]
    simp
  refine ⟨hseid, hids, hcount, ?_, ?_⟩
  · intro far hfar
    rw [hfars] at hfar
    obtain ⟨pdr, hpdr, rfl⟩ := List.mem_map.mp hfar
    exact ⟨fillUpdateFar_applyAction, fillUpdateFar_outerHdrCreation.trans (hparms pdr hpdr)⟩
  · intro hnodup pdr hpdr
    have hinj := List.inj_on_of_nodup_map hnodup
    rw [hids]
    split_ifs with hcore
    · have hsub : (bearer.corePdrs.map (·.far.farIdValue)).Nodup :=
        hnodup.sublist (List.filter_sublist.map _)
      exact List.count_eq_one_of_mem hsub (List.mem_map_of_mem (List.mem_filter.mpr ⟨hpdr, hcore⟩))
    · refine List.count_eq_zero_of_not_mem fun hmem => hcore ?_
      obtain ⟨other, hother, heq⟩ := List.mem_map.mp hmem
      obtain ⟨hmem, hdown⟩ := List.mem_filter.mp hother
      rwa [← hinj hmem hpdr heq]

end ModifyBearer

/-- The FAR of the downlink rule is updated; the other one is not. -/
theorem updateFars_of_mbReq_twoRules :
    let c : UeContext := {
      epsBearers := fun i => if i.val = 0 then some (twoRuleBearer 5 0) else none
      bearerBitmap := 1 }
    let req : ModBearerReq := {
      ebi := 5, s1EnodebFteid := { len := 9, fteid := { teid := 7, ipv4Address := 10 } } }
    validateMbreqMsg c req = .ok (twoRuleBearer 5 0) ∧
      (processMbReqHandler (fun _ => {}) 1 (twoRuleBearer 5 0) req).2.updateFars.map
        UpdateFar.farId = [2] := by
  intro c req
  have hacc : validateMbreqMsg c req = .ok (twoRuleBearer 5 0) := by decide
  exact ⟨hacc, (updateFars_of_mbReq (fun _ => {}) 1 c req _ hacc rfl).2.1⟩

end Spgw.Sx
