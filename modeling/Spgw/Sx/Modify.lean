/-
# The Update FARs of a PFCP Session Modification Request

`fill_pfcp_sess_mod_req` (`cp/pfcp/common/pfcp_cp_session.c`) fills one Update FAR for every PDR of
a bearer that does not detect uplink packets.
-/

import Spgw.Lib.Cells
import Spgw.Sx.State

namespace Spgw.Sx

structure ApplyAction where
  dupl : Bool := false
  nocp : Bool := false
  buff : Bool := false
  forw : Bool := false
  drop : Bool := false

structure UpdFrwdngParms where
  len : ℕ := 0
  dstIntfc : ℕ := 0
  outerHdrCreation : Fteid := {}
  sndem : Bool := false

structure UpdateFar where
  len : ℕ := 0
  farId : ℕ := 0
  applyAction : ApplyAction := {}
  updFrwdngParms : UpdFrwdngParms := {}

structure SessModReq where
  seid : ℕ := 0
  seqNo : ℕ := 0
  cpSeid : ℕ := 0
  updateFarCount : ℕ := 0
  updateFar : ℕ → UpdateFar := fun _ => {}

def SessModReq.updateFars (req : SessModReq) : List UpdateFar :=
  ((List.range req.updateFarCount).map req.updateFar).filter fun far => far.len ≠ 0

def updParamHeaderSize : ℕ := 4

def updatingFar (far : UpdateFar) : UpdateFar :=
  { far with len := 8 + 1 + 4, farId := 0, applyAction := {} }

def setUpdForwardingParam (parms : UpdFrwdngParms) : UpdFrwdngParms :=
  { parms with len := 1 + 10 + 8, dstIntfc := 5, outerHdrCreation := {} }

/-- `pfcpsmreq_flags` are added, and the lengths with them. -/
def UpdateFar.addFlags (far : UpdateFar) : UpdateFar :=
  { far with
    len := far.len + 5
    updFrwdngParms := { far.updFrwdngParms with
      len := far.updFrwdngParms.len + 5
      sndem := true } }

/-- The turn of one PDR: `parms` is the array of the caller. -/
def fillUpdateFar (parms : ℕ → UpdateFar) (x2Handover : Bool) (pdr : Pdr × ℕ) (far : UpdateFar) :
    UpdateFar :=
  let far := updatingFar far
  let updFrwdngParms := setUpdForwardingParam far.updFrwdngParms
  let far := { far with
    farId := pdr.1.far.farIdValue
    applyAction := { far.applyAction with forw := true }
    len := far.len + (updFrwdngParms.len + updParamHeaderSize)
    updFrwdngParms := { updFrwdngParms with
      outerHdrCreation := (parms pdr.2).updFrwdngParms.outerHdrCreation
      dstIntfc := (parms pdr.2).updFrwdngParms.dstIntfc } }
  if x2Handover then far.addFlags else far

def fillPfcpSessModReq (req : SessModReq) (seqNo : ℕ) (bearer : EpsBearer) (parms : ℕ → UpdateFar)
    (x2Handover : Bool) : SessModReq :=
  { req with
    seid := bearer.pdn.dpSeid
    seqNo
    cpSeid := bearer.pdn.seid
    updateFar := (bearer.pdrs.zipIdx.foldl
      (fun s pdr => if pdr.1.isCore then Cells.put (fillUpdateFar parms x2Handover) s pdr else s)
      (0, req.updateFar)).2 }

section Fill

variable {parms : ℕ → UpdateFar} {x2 : Bool} {pdr : Pdr × ℕ} {far : UpdateFar}

@[simp]
theorem fillUpdateFar_farId : (fillUpdateFar parms x2 pdr far).farId = pdr.1.far.farIdValue := by
  cases x2 <;> rfl

@[simp]
theorem fillUpdateFar_applyAction :
    (fillUpdateFar parms x2 pdr far).applyAction = { forw := true } := by
  cases x2 <;> rfl

@[simp]
theorem fillUpdateFar_outerHdrCreation :
    (fillUpdateFar parms x2 pdr far).updFrwdngParms.outerHdrCreation =
      (parms pdr.2).updFrwdngParms.outerHdrCreation := by
  cases x2 <;> rfl

@[simp]
theorem fillUpdateFar_len_ne : (fillUpdateFar parms x2 pdr far).len ≠ 0 := by
  cases x2 <;> exact Nat.succ_ne_zero _

variable (req : SessModReq) (seqNo : ℕ) (bearer : EpsBearer) (parms) (x2)

def EpsBearer.markedPdrs (bearer : EpsBearer) : List (Pdr × ℕ) := Cells.marked Pdr.isCore bearer.pdrs

theorem map_fst_markedPdrs : bearer.markedPdrs.map Prod.fst = bearer.corePdrs :=
  Cells.map_fst_marked ..

theorem updateFar_fill : (fillPfcpSessModReq req seqNo bearer parms x2).updateFar =
    (bearer.markedPdrs.foldl (Cells.put (fillUpdateFar parms x2)) (0, req.updateFar)).2 := by
  unfold fillPfcpSessModReq EpsBearer.markedPdrs
  rw [Cells.foldl_marked]

theorem updateFar_fill_zero : (fillPfcpSessModReq req seqNo bearer parms x2).updateFar 0 =
    bearer.markedPdrs.head?.elim (req.updateFar 0)
      fun pdr => fillUpdateFar parms x2 pdr (req.updateFar 0) := by
  rw [updateFar_fill, List.head?_eq_getElem?]
  exact Cells.foldl_put_add _ bearer.markedPdrs 0 0 req.updateFar

/-- **A message without earlier contents, whose count is the number of PDRs for downlink
packets, sends one Update FAR for each of them, in their order.** -/
theorem updateFars_fill (hcells : req.updateFar = fun _ => {})
    (hcount : req.updateFarCount = bearer.corePdrs.length) :
    (fillPfcpSessModReq req seqNo bearer parms x2).updateFars =
      bearer.markedPdrs.map fun pdr => fillUpdateFar parms x2 pdr {} := by
  have hlength : req.updateFarCount = bearer.markedPdrs.length := by
    rw [hcount, ← map_fst_markedPdrs, List.length_map]
  have hcontents : (List.range req.updateFarCount).map
      (fillPfcpSessModReq req seqNo bearer parms x2).updateFar =
        bearer.markedPdrs.map fun pdr => fillUpdateFar parms x2 pdr {} := by
    rw [updateFar_fill, hcells, hlength]
    exact Cells.map_range_foldl_put ..
  change ((List.range req.updateFarCount).map _).filter _ = _
  rw [hcontents]
  refine List.filter_eq_self.mpr fun far hfar => ?_
  obtain ⟨pdr, -, rfl⟩ := List.mem_map.mp hfar
  exact decide_eq_true fillUpdateFar_len_ne

end Fill

theorem updateFars_of_len_eq_zero {req : SessModReq} (hcount : req.updateFarCount = 1)
    (h : (req.updateFar 0).len = 0) : req.updateFars = [] := by
  simp [SessModReq.updateFars, hcount, h]

theorem updateFars_of_len_ne_zero {req : SessModReq} (hcount : req.updateFarCount = 1)
    (h : (req.updateFar 0).len ≠ 0) : req.updateFars = [req.updateFar 0] := by
  simp [SessModReq.updateFars, hcount, h]

def s1uEnodebGtpu : ℕ := 0

def checkInterfaceType (iface : ℕ) : ℕ := if iface = s1uEnodebGtpu then 0 else 15

/-- A fully qualified TEID of a GTPv2-C message; `len` is the length of its header. -/
structure GtpFteid where
  len : ℕ := 0
  interfaceType : ℕ := 0
  fteid : Fteid := {}

def UpdateFar.setParms (far : UpdateFar) (fteid : Fteid) (dstIntfc : ℕ) : UpdateFar :=
  { far with
    applyAction := { far.applyAction with forw := true }
    updFrwdngParms := { far.updFrwdngParms with outerHdrCreation := fteid, dstIntfc } }

def twoRuleBearer (epsBearerId farId : ℕ) : EpsBearer where
  epsBearerId := epsBearerId
  pdn := { seid := 1, dpSeid := 2 }
  pdrs :=
    [{ ruleId := 2 * farId + 1, srcIntfc := .access, far := { farIdValue := 2 * farId + 1 }
       dynamicRule := { ruleName := [] } },
     { ruleId := 2 * farId + 2, srcIntfc := .core, far := { farIdValue := 2 * farId + 2 }
       dynamicRule := { ruleName := [] } }]
  pdrs_le := Nat.le_of_ble_eq_true rfl

end Spgw.Sx
