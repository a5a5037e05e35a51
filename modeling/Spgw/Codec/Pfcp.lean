/-
# The decoders of PFCP

The same for `libpfcp/src/pfcp_ies_decoder.c` and `libpfcp/src/pfcp_messages_decoder.c`: an element
is a type and a length, two octets each, and a value.
-/

import Spgw.Lib.Layout
import Spgw.Lib.Message

namespace Spgw.Codec.Pfcp

open Tlv

/-- The elements with a function of their own. -/
inductive Ie
  | addUsageRptsInfo | appInstId | applicationId | cause | cpFuncFeat | dnlnkDataSvcInfo | durMeas
  | endTime | evntTimeStmp | failedRuleId | flowInfo | fqcsid | fseid | fteid | macAddrsDetctd
  | macAddrsRmvd | metric | nodeId | ntwkInst | ociFlags | offendingIe | pdrId | queryUrrRef
  | rcvryTimeStmp | reportType | sequenceNumber | startTime | timeOfFrstPckt | timeOfLstPckt | timer
  | trafficEndptId | ueIpAddress | upFuncFeat | urrId | urseqn | usageInfo | usageRptTrig
  | userPlaneIpRsrcInfo | volMeas

/-- The fields that are always read, behind the header. -/
def Ie.widths : Ie → List ℕ
  | .offendingIe | .pdrId | .upFuncFeat => [16]
  | .ntwkInst => [256]
  | .durMeas | .endTime | .evntTimeStmp | .queryUrrRef | .rcvryTimeStmp | .sequenceNumber
  | .startTime | .timeOfFrstPckt | .timeOfLstPckt | .urrId | .urseqn => [32]
  | .applicationId => [64]
  | .appInstId | .cause | .cpFuncFeat | .metric | .trafficEndptId => [8]
  | .failedRuleId | .timer => [3, 5]
  | .nodeId => [4, 4]
  | .ociFlags => [7, 1]
  | .macAddrsDetctd | .macAddrsRmvd => [8, 64]
  | .addUsageRptsInfo => [1, 7, 8]
  | .fqcsid => [4, 4, 32]
  | .volMeas => [5, 1, 1, 1]
  | .flowInfo => [5, 3, 16, 8]
  | .fteid | .reportType | .ueIpAddress => [4, 1, 1, 1, 1]
  | .usageInfo => [5, 1, 1, 1, 1]
  | .userPlaneIpRsrcInfo => [1, 1, 1, 3, 1, 1]
  | .dnlnkDataSvcInfo => [6, 1, 1, 2, 6, 2, 6]
  | .fseid => [1, 1, 1, 1, 1, 1, 1, 1, 64]
  | .usageRptTrig => [1, 1, 1, 1, 1, 1, 1, 1, 1, 1, 1, 1, 1, 1, 1, 1, 7, 1]

def ieHeader : List ℕ := [16, 16]

def ifSet (flag : ℕ) (parts : List Part) : List Part := if flag ≠ 0 then parts else []

/-- What is read behind them, given the values read so far. -/
def Ie.rest : Ie → List ℕ → List Part
  | .nodeId, vs => [.bits (8 * lenMinusOne (lenOf vs))]
  | .upFuncFeat, vs =>
    (if 6 < lenOf vs + 4 then [.bits 16] else []) ++ if 8 < lenOf vs + 4 then [.bits 16] else []
  | .fqcsid, [_, _, _, numberOfCsids, _] => (List.replicate numberOfCsids 16).map .bits
  | .failedRuleId, [_, _, _, ruleIdType] =>
    [.bits (8 * if ruleIdType = 0 then 2 else if ruleIdType = 4 then 1 else 4)]
  | .fseid, [_, _, _, _, _, _, _, _, v4, v6, _] => ifSet v4 [.bits 32] ++ ifSet v6 [.bits 128]
  | .fteid, [_, _, _, _, ch, v6, v4] =>
    -- Sixteen octets are copied for an IPv4 address, and four counted.
    if ch = 0 then [.bits 32] ++ ifSet v4 [.octets 16 32] ++ ifSet v6 [.bits 128] else [.bits 8]
  | .ueIpAddress, [_, _, _, ipv6d, _, v4, v6] =>
    ifSet v4 [.bits 32] ++ ifSet v6 [.bits 128] ++ ifSet ipv6d [.bits 8]
  | .userPlaneIpRsrcInfo, [_, _, _, assosi, assoni, teidri, v6, v4] =>
    ifSet teidri [.bits 8] ++ ifSet v4 [.bits 32] ++ ifSet v6 [.bits 128] ++
      ifSet assoni [.counted 8] ++ [.bits 4] ++ ifSet assosi [.bits 4]
  | .volMeas, [_, _, _, dlvol, ulvol, tovol] =>
    [if tovol ≠ 0 then .bits 64 else .stale, if ulvol ≠ 0 then .bits 64 else .stale,
      if dlvol ≠ 0 then .bits 64 else .stale]
  | _, _ => []

def Ie.layout (i : Ie) : Layout where
  first := ieHeader ++ i.widths
  rest := i.rest

/-- The loops of grouped elements go up to the length, which does not include the header, or nowhere:
the counter starts with the 32 bits of the header and the limit is never set. -/
inductive Loop
  | toLength
  | nowhere

def Loop.group : Loop → Group
  | .toLength => { shift := 0, start := 4, limit := fun len => len }
  | .nowhere => { shift := 0, start := 32, limit := fun _ => 0 }

def format : Format Ie Loop where
  typeBits := 16
  instBits := 0
  header_eq := rfl
  leaf i := i.layout.leaf
  group := Loop.group

/-- `s`. -/
def seidFlag (b : Buffer) : Bool := b 7

def messageLen (b : Buffer) : ℕ := b.bits 16 16

/-- The fields of `pfcp_header_t`. -/
def headerFields (b : Buffer) : List (ℕ × ℕ) :=
  if seidFlag b then fieldsAt 0 [3, 3, 1, 1, 8, 16, 64, 24, 4, 4]
  else fieldsAt 0 [3, 3, 1, 1, 8, 16, 24, 8]

/-- The message header; `limit` is `buf_len`. -/
def protocol : Protocol Ie Loop where
  format := format
  headerFields := headerFields
  start b := if seidFlag b then 16 else 8
  limit b := (messageLen b + 65536 - if seidFlag b then 12 else 4) % 65536
  limit_lt b := Nat.mod_lt _ (by decide)
  congr := by
    intro b c avail hheader hagree
    have hflag : seidFlag b = seidFlag c := by
      have hmem := hheader (7, 1) (by unfold headerFields; split_ifs <;> decide)
      exact hagree 7 (hmem.resolve_left (by decide))
    have hlen : messageLen b = messageLen c := by
      have hmem := hheader (16, 16) (by unfold headerFields; split_ifs <;> decide)
      exact Buffer.bits_eq_of_agree hagree (hmem.resolve_left (by decide))
    unfold headerFields
    rw [hflag, hlen]
    exact ⟨rfl, rfl, rfl⟩

structure Entry where
  type : ℕ
  decoder : Decoder Ie Loop

def chain (entries : List Entry) (type _inst : ℕ) : Decoder Ie Loop :=
  match entries.find? fun e => e.type == type with
  | some e => e.decoder
  | none => .skip

def ethTrafficInfoIe : Decoder Ie Loop :=
  .group .nowhere (chain [⟨144, .leaf .macAddrsDetctd⟩, ⟨145, .leaf .macAddrsRmvd⟩])

def appDetInfoIe : Decoder Ie Loop :=
  .group .nowhere (chain
    [⟨24, .leaf .applicationId⟩, ⟨91, .leaf .appInstId⟩, ⟨92, .leaf .flowInfo⟩])

def createdPdrIe : Decoder Ie Loop :=
  .group .toLength (chain [⟨56, .leaf .pdrId⟩, ⟨21, .leaf .fteid⟩, ⟨93, .leaf .ueIpAddress⟩])

def dnlnkDataRptIe : Decoder Ie Loop :=
  .group .toLength (chain [⟨56, .leaf .pdrId⟩, ⟨45, .leaf .dnlnkDataSvcInfo⟩])

def usageRptSessRptReqIe : Decoder Ie Loop :=
  .group .toLength (chain [⟨81, .leaf .urrId⟩, ⟨104, .leaf .urseqn⟩, ⟨63, .leaf .usageRptTrig⟩,
     ⟨75, .leaf .startTime⟩, ⟨76, .leaf .endTime⟩, ⟨66, .leaf .volMeas⟩,
     ⟨67, .leaf .durMeas⟩, ⟨68, appDetInfoIe⟩, ⟨93, .leaf .ueIpAddress⟩,
     ⟨22, .leaf .ntwkInst⟩, ⟨69, .leaf .timeOfFrstPckt⟩, ⟨70, .leaf .timeOfLstPckt⟩,
     ⟨90, .leaf .usageInfo⟩, ⟨125, .leaf .queryUrrRef⟩, ⟨143, ethTrafficInfoIe⟩,
     ⟨156, .leaf .evntTimeStmp⟩])

def loadCtlInfoIe : Decoder Ie Loop :=
  .group .nowhere (chain [⟨52, .leaf .sequenceNumber⟩, ⟨53, .leaf .metric⟩])

def ovrldCtlInfoIe : Decoder Ie Loop :=
  .group .nowhere (chain [⟨52, .leaf .sequenceNumber⟩, ⟨53, .leaf .metric⟩, ⟨55, .leaf .timer⟩,
     ⟨110, .leaf .ociFlags⟩])

def createdTrafficEndptIe : Decoder Ie Loop :=
  .group .nowhere (chain [⟨131, .leaf .trafficEndptId⟩, ⟨21, .leaf .fteid⟩])

def errIndctnRptIe : Decoder Ie Loop := .group .nowhere (chain [⟨21, .leaf .fteid⟩])

def usageRptSessModRspIe : Decoder Ie Loop :=
  .group .nowhere (chain [⟨81, .leaf .urrId⟩, ⟨104, .leaf .urseqn⟩, ⟨63, .leaf .usageRptTrig⟩,
     ⟨75, .leaf .startTime⟩, ⟨76, .leaf .endTime⟩, ⟨66, .leaf .volMeas⟩,
     ⟨67, .leaf .durMeas⟩, ⟨69, .leaf .timeOfFrstPckt⟩, ⟨70, .leaf .timeOfLstPckt⟩,
     ⟨90, .leaf .usageInfo⟩, ⟨125, .leaf .queryUrrRef⟩, ⟨143, ethTrafficInfoIe⟩])

def usageRptSessDelRspIe : Decoder Ie Loop :=
  .group .nowhere (chain [⟨81, .leaf .urrId⟩, ⟨104, .leaf .urseqn⟩, ⟨63, .leaf .usageRptTrig⟩,
     ⟨75, .leaf .startTime⟩, ⟨76, .leaf .endTime⟩, ⟨66, .leaf .volMeas⟩,
     ⟨67, .leaf .durMeas⟩, ⟨69, .leaf .timeOfFrstPckt⟩, ⟨70, .leaf .timeOfLstPckt⟩,
     ⟨90, .leaf .usageInfo⟩, ⟨143, ethTrafficInfoIe⟩])

def sessEstabRsp : ℕ → ℕ → Decoder Ie Loop := chain
  [⟨60, .leaf .nodeId⟩, ⟨19, .leaf .cause⟩, ⟨40, .leaf .offendingIe⟩, ⟨57, .leaf .fseid⟩,
   ⟨8, createdPdrIe⟩, ⟨51, loadCtlInfoIe⟩, ⟨54, ovrldCtlInfoIe⟩, ⟨65, .leaf .fqcsid⟩,
   ⟨65, .leaf .fqcsid⟩, ⟨114, .leaf .failedRuleId⟩, ⟨128, createdTrafficEndptIe⟩]

def sessModRsp : ℕ → ℕ → Decoder Ie Loop := chain
  [⟨19, .leaf .cause⟩, ⟨40, .leaf .offendingIe⟩, ⟨8, createdPdrIe⟩, ⟨51, loadCtlInfoIe⟩,
   ⟨54, ovrldCtlInfoIe⟩, ⟨114, .leaf .failedRuleId⟩, ⟨126, .leaf .addUsageRptsInfo⟩,
   ⟨128, createdTrafficEndptIe⟩, ⟨78, usageRptSessModRspIe⟩]

def sessDelRsp : ℕ → ℕ → Decoder Ie Loop := chain
  [⟨19, .leaf .cause⟩, ⟨40, .leaf .offendingIe⟩, ⟨51, loadCtlInfoIe⟩, ⟨54, ovrldCtlInfoIe⟩,
   ⟨79, usageRptSessDelRspIe⟩]

def assnSetupRsp : ℕ → ℕ → Decoder Ie Loop := chain
  [⟨60, .leaf .nodeId⟩, ⟨19, .leaf .cause⟩, ⟨96, .leaf .rcvryTimeStmp⟩,
   ⟨43, .leaf .upFuncFeat⟩, ⟨89, .leaf .cpFuncFeat⟩, ⟨116, .leaf .userPlaneIpRsrcInfo⟩]

def assnUpdRsp : ℕ → ℕ → Decoder Ie Loop := chain
  [⟨60, .leaf .nodeId⟩, ⟨19, .leaf .cause⟩, ⟨43, .leaf .upFuncFeat⟩, ⟨89, .leaf .cpFuncFeat⟩]

def assnRelRsp : ℕ → ℕ → Decoder Ie Loop := chain [⟨60, .leaf .nodeId⟩, ⟨19, .leaf .cause⟩]

def sessRptReq : ℕ → ℕ → Decoder Ie Loop := chain
  [⟨39, .leaf .reportType⟩, ⟨83, dnlnkDataRptIe⟩, ⟨99, errIndctnRptIe⟩, ⟨51, loadCtlInfoIe⟩,
   ⟨54, ovrldCtlInfoIe⟩, ⟨126, .leaf .addUsageRptsInfo⟩, ⟨80, usageRptSessRptReqIe⟩]

inductive Message
  | sessEstabRsp
  | sessModRsp
  | sessDelRsp
  | assnSetupRsp
  | assnUpdRsp
  | assnRelRsp
  | sessRptReq

namespace Message

def table : Message → ℕ → ℕ → Decoder Ie Loop
  | .sessEstabRsp => Pfcp.sessEstabRsp
  | .sessModRsp => Pfcp.sessModRsp
  | .sessDelRsp => Pfcp.sessDelRsp
  | .assnSetupRsp => Pfcp.assnSetupRsp
  | .assnUpdRsp => Pfcp.assnUpdRsp
  | .assnRelRsp => Pfcp.assnRelRsp
  | .sessRptReq => Pfcp.sessRptReq

end Message

end Spgw.Codec.Pfcp
