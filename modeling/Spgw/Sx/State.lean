/-
# Bearers and the rules of the user plane

A bearer (`eps_bearer_t`, `cp/bearer.h`) has up to 16 PDRs (`pdr_t`,
`cp/pfcp/common/pfcp_cp_struct.h`), each with a FAR of its own, the identifiers of its QERs and
URRs, and the dynamic rule (`cp/policy.h`) it was made for.
-/

import Spgw.Bearer.State

namespace Spgw.Sx

open Rar (BearerQos)
open Bearer (Slots)

def maxListSize : ℕ := 16

/-- The octets of a PFCP message, and of `buf` in a transaction. -/
def maxPfcpMsgSize : ℕ := 4096

inductive SourceInterface
  | access
  | core
  deriving DecidableEq

/-- `SOURCE_INTERFACE_VALUE_ACCESS` and `SOURCE_INTERFACE_VALUE_CORE`. -/
def SourceInterface.value : SourceInterface → ℕ
  | .access => 0
  | .core => 1

structure Fteid where
  teid : ℕ := 0
  ipv4Address : ℕ := 0
  deriving DecidableEq

/-- `TFT_DIRECTION_NONE` … `TFT_DIRECTION_BIDIRECTIONAL`. -/
inductive TftDirection
  | none
  | downlinkOnly
  | uplinkOnly
  | bidirectional
  deriving DecidableEq

structure FlowDesc where
  direction : TftDirection := .bidirectional
  sdfFlowDescription : List UInt8 := []
  deriving DecidableEq

structure DynamicRule extends Rar.DynamicRule where
  precedence : ℕ := 0
  flowStatus : ℕ := 0
  ulMbr : ℕ := 0
  dlMbr : ℕ := 0
  ulGbr : ℕ := 0
  dlGbr : ℕ := 0
  flowDesc : List FlowDesc := []
  deriving DecidableEq

structure Far where
  farIdValue : ℕ
  dstIntfc : ℕ := 0
  outerHdrCreation : Fteid := {}
  deriving DecidableEq

structure Pdr where
  ruleId : ℕ
  prcdncVal : ℕ := 1
  srcIntfc : SourceInterface
  localFteid : Fteid := {}
  ueAddr : ℕ := 0
  ntwkInst : List UInt8 := []
  far : Far
  qerIds : List ℕ := []
  urrIds : List ℕ := []
  dynamicRule : DynamicRule
  deriving DecidableEq

def Pdr.isCore (pdr : Pdr) : Bool := pdr.srcIntfc = .core

structure Seids where
  seid : ℕ := 0
  dpSeid : ℕ := 0
  deriving DecidableEq

theorem no_pdrs_le : ([] : List Pdr).length ≤ maxListSize := Nat.zero_le _

structure EpsBearer where
  epsBearerId : ℕ := 0
  pdn : Seids := {}
  qos : BearerQos := {}
  s1uSgw : Fteid := {}
  s1uEnb : Fteid := {}
  pdrs : List Pdr := []
  qerIds : List ℕ := []
  urrIds : List ℕ := []
  numDynamicFilters : ℕ := 0
  ambrQerFlag : Bool := false
  pdrs_le : pdrs.length ≤ maxListSize := by first | exact Spgw.Sx.no_pdrs_le | decide
  deriving DecidableEq

def EpsBearer.corePdrs (bearer : EpsBearer) : List Pdr := bearer.pdrs.filter Pdr.isCore

structure UeContext where
  epsBearers : Slots EpsBearer := fun _ => none
  bearerBitmap : BitVec 16 := 0

end Spgw.Sx
