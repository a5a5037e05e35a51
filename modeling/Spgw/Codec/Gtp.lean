/-
# The decoders of GTPv2-C

`libgtpv2c/src/gtp_ies_decoder.c` has one function for every information element, and
`libgtpv2c/src/gtp_messages_decoder.c` one for every message and every grouped element.
-/

import Spgw.Lib.Layout
import Spgw.Lib.Message

namespace Spgw.Codec.Gtp

open Tlv

/-- The elements with a function of their own. -/
inductive Ie
  | accPtName | addtlProtCfgOpts | aggMaxBitRate | apnRestriction | bearerQltyOfSvc | cause
  | chrgngChar | cnOperSelEntity | counter | delayValue | epsBearerId | epsBearerLvlTrafficFlowTmpl
  | extndedProtCfgOpts | fqcsid | fullQualCntnr | fullyQualDomainName | fullyQualTunnEndptIdnt
  | imsi | indication | integerNumber | ipAddress | localDistgsdName | mappedUeUsageType
  | mblEquipIdnty | msecTimeStmp | msisdn | nodeIdentifier | nodeType | ovrldCtlInfo | pco
  | pdnAddrAlloc | pdnType | portNumber | presRptngAreaInfo | privExt | protCfgOpts | ranNasCause
  | ratType | recovery | rmtUeCtxt | secdryRatUsageDataRpt | selectionMode | servingNetwork
  | sgnllngPriorityIndctn | srvngPlmnRateCtl | trcInfo | trstdWlanModeIndctn | twanIdentifier
  | twanIdntTs | ueTimeZone | uliTimestamp | upFuncSelIndctnFlgs | userCsgInfo | userLocInfo

/-- The fields that are always read, behind the header; a `memcpy` of `n` octets counts as one of
`8 * n` bits. -/
def Ie.widths : Ie → List ℕ
  | .chrgngChar | .mappedUeUsageType | .portNumber => [16]
  | .mblEquipIdnty | .ovrldCtlInfo | .rmtUeCtxt => [64]
  | .addtlProtCfgOpts | .apnRestriction | .delayValue | .extndedProtCfgOpts | .integerNumber
  | .ipAddress | .localDistgsdName | .msecTimeStmp | .nodeType | .pco | .protCfgOpts | .ratType
  | .recovery | .twanIdntTs | .uliTimestamp => [8]
  | .srvngPlmnRateCtl => [16, 16]
  | .privExt => [16, 8]
  | .aggMaxBitRate => [32, 32]
  | .counter => [32, 8]
  | .epsBearerId => [4, 4]
  | .pdnAddrAlloc | .pdnType => [5, 3]
  | .cnOperSelEntity | .selectionMode => [6, 2]
  | .sgnllngPriorityIndctn | .upFuncSelIndctnFlgs => [7, 1]
  | .fqcsid => [4, 4, 32]
  | .fullQualCntnr | .ranNasCause => [4, 4, 8]
  | .trstdWlanModeIndctn => [6, 2, 1]
  | .ueTimeZone => [8, 6, 2]
  | .fullyQualTunnEndptIdnt => [1, 1, 6, 32]
  | .nodeIdentifier => [8, 8, 8, 8]
  | .cause => [8, 5, 1, 1, 1]
  | .presRptngAreaInfo => [24, 4, 2, 1, 1, 1]
  | .servingNetwork => [4, 4, 4, 4, 4, 4]
  | .userLocInfo => [1, 1, 1, 1, 1, 1, 1, 1]
  | .bearerQltyOfSvc => [1, 1, 4, 1, 1, 8, 40, 40, 40, 40]
  | .secdryRatUsageDataRpt => [6, 1, 1, 8, 4, 4, 8, 8, 8, 8]
  | .trcInfo => [4, 4, 4, 4, 4, 4, 24, 72, 16, 8, 96, 8]
  | .userCsgInfo => [4, 4, 4, 4, 4, 4, 5, 24, 2, 4, 1, 1]
  | .twanIdentifier => [3, 1, 1, 1, 1, 2, 8, 8, 48, 8, 8, 24, 8, 8, 8, 8, 8, 8, 8]
  | _ => []

def ieHeader : List ℕ := [8, 16, 8]

def plmn : List ℕ := [4, 4, 4, 4, 4, 4]

def ifSet (flag : ℕ) (widths : List ℕ) : List ℕ := if flag ≠ 0 then widths else []

/-- The fields behind them, given the values read so far. -/
def Ie.more : Ie → List ℕ → List ℕ
  | .accPtName, vs | .epsBearerLvlTrafficFlowTmpl, vs | .fullyQualDomainName, vs | .msisdn, vs =>
    [8 * lenOf vs]
  | .pdnAddrAlloc, vs => [8 * lenMinusOne (lenOf vs)]
  | .cause, vs => if lenOf vs ≠ 2 then [8, 16, 8] else []
  | .indication, vs =>
    -- The length is put in a `uint8_t`; an octet of flags is read for each of the first six, and a
    -- seventh only if there are exactly seven.
    let indicLen := lenOf vs % 256
    List.replicate (8 * (min indicLen 6 + if indicLen = 7 then 1 else 0)) 1
  | .fqcsid, [_, _, _, _, numberOfCsids, _] => List.replicate numberOfCsids 16
  | .fullyQualTunnEndptIdnt, [_, _, _, v4, v6, _, _] => ifSet v4 [32] ++ ifSet v6 [128]
  | .userLocInfo, [_, _, _, extndedMacroEnbId, macroEnodebId, lai, ecgi, tai, rai, sai, cgi] =>
    ifSet cgi (plmn ++ [16, 16]) ++ ifSet sai (plmn ++ [16, 16]) ++ ifSet rai (plmn ++ [16, 16]) ++
      ifSet tai (plmn ++ [16]) ++ ifSet ecgi (plmn ++ [4, 28]) ++ ifSet lai (plmn ++ [16]) ++
      ifSet macroEnodebId (plmn ++ [4, 4, 16]) ++ ifSet extndedMacroEnbId (plmn ++ [1, 2, 5, 16])
  | _, _ => []

/-- `decode_gtp_imsi_ie` copies the element and reads its digits once more, fourteen or fifteen of
them. -/
def Ie.rest : Ie → List ℕ → List Part
  | .imsi, vs => [.octets (lenOf vs) 0, .octets (if lenOf vs = 8 then 8 else 7) (8 * lenOf vs)]
  | i, vs => (i.more vs).map .bits

/-- The functions for these read one octet and return the length in the header. -/
def Ie.byLength : Ie → Bool
  | .addtlProtCfgOpts | .extndedProtCfgOpts | .protCfgOpts => true
  | _ => false

def Ie.layout (i : Ie) : Layout where
  first := ieHeader ++ i.widths
  rest := i.rest
  byLength := i.byLength

/-- The loop of `decode_pco_ie_t` over at most `MAX_PCO_CONTAINERS` options: the type and the length
of an option, and as many octets as its length says, wherever the element ends. -/
def pcoOptions (b : Buffer) (len : ℕ) : ℕ → ℕ → List (ℕ × ℕ)
  | 0, _ => []
  | i + 1, count =>
    if count < len then
      let optLen := b.bits (8 * ((count + 2) % 65536)) 8
      [(8 * count, 16), (8 * ((count + 2) % 65536), 8), (8 * ((count + 3) % 65536), 8 * optLen)] ++
        pcoOptions b len i ((count + 3 + optLen) % 65536)
    else
      []

theorem pcoOptions_congr {b c : Buffer} {len i count : ℕ}
    (h : valuesOf b (pcoOptions b len i count) = valuesOf c (pcoOptions b len i count)) :
    pcoOptions c len i count = pcoOptions b len i count := by
  induction i generalizing count with
  | zero => rfl
  | succ i ih =>
    unfold pcoOptions at h ⊢
    split_ifs at h ⊢
    · simp only [valuesOf, List.cons_append, List.nil_append, List.map_cons, List.cons.injEq] at h
      obtain ⟨-, hlen, -, hrest⟩ := h
      rw [← hlen]
      exact congrArg (List.append _) (ih hrest)
    · rfl

/-- `decode_pco_ie_t`. -/
def pcoLeaf : Leaf where
  fields b := fieldsAt 0 (ieHeader ++ [8]) ++ pcoOptions b (b.bits 8 16) 16 5
  size b := 4 + b.bits 8 16
  congr := by
    intro b c h
    rw [valuesOf, valuesOf, List.map_append, List.map_append] at h
    obtain ⟨hfirst, hrest⟩ := List.append_inj h (by simp)
    have hlen : b.bits 8 16 = c.bits 8 16 := (List.cons.inj (List.cons.inj hfirst).2).1
    rw [← hlen, pcoOptions_congr hrest]
    exact ⟨rfl, rfl⟩

def Ie.leaf : Ie → Leaf
  | .pco => pcoLeaf
  | i => i.layout.leaf

/-- The functions for bearer contexts return the last counter, which does not include the header, or
add it. -/
inductive Ctxt
  | withoutHeader
  | withHeader

/-- The counter of a bearer context starts behind its header. -/
def Ctxt.group (c : Ctxt) : Group where
  shift := 4
  start := 0
  limit len := len
  extra :=
    match c with
    | .withoutHeader => 0
    | .withHeader => 4

def format : Format Ie Ctxt where
  typeBits := 8
  instBits := 8
  header_eq := rfl
  leaf := Ie.leaf
  group := Ctxt.group

def teidFlag (b : Buffer) : Bool := b 4

def messageLen (b : Buffer) : ℕ := b.bits 16 16

/-- The fields of `gtpv2c_header_t`. -/
def headerFields (b : Buffer) : List (ℕ × ℕ) :=
  if teidFlag b then [(0, 8), (8, 8), (16, 16), (32, 32), (64, 24)]
  else [(0, 8), (8, 8), (16, 16), (32, 24)]

/-- The message header; `limit` is `buf_len`. -/
def protocol : Protocol Ie Ctxt where
  format := format
  headerFields := headerFields
  start b := if teidFlag b then 12 else 8
  limit b := (messageLen b + 65536 - if teidFlag b then 8 else 4) % 65536
  limit_lt b := Nat.mod_lt _ (by decide)
  congr := by
    intro b c avail hheader hagree
    have hflag : teidFlag b = teidFlag c := by
      have hfirst := hheader (0, 8) (by unfold headerFields; split_ifs <;> simp)
      exact hagree 4 (by simp at hfirst; omega)
    have hlen : messageLen b = messageLen c := by
      have hmem := hheader (16, 16) (by unfold headerFields; split_ifs <;> simp)
      exact Buffer.bits_eq_of_agree hagree (by simpa using hmem)
    unfold headerFields
    rw [hflag, hlen]
    exact ⟨rfl, rfl, rfl⟩

structure Entry where
  type : ℕ
  inst : Option ℕ
  decoder : Decoder Ie Ctxt

def on (type : ℕ) (insts : List ℕ) (i : Ie) : List Entry :=
  insts.map fun inst => ⟨type, some inst, .leaf i⟩

/-- A chain of comparisons with the type and the instance of an element. -/
def chain (entries : List Entry) (type inst : ℕ) : Decoder Ie Ctxt :=
  match entries.find? fun e => e.type == type && (e.inst == none || e.inst == some inst) with
  | some e => e.decoder
  | none => .skip

def createSessRequestBearerCtxtToBeCreatedIe : Decoder Ie Ctxt :=
  .group .withoutHeader (chain ( on 73 [0] .epsBearerId ++ on 84 [0] .epsBearerLvlTrafficFlowTmpl ++
      on 87 [0, 1, 2, 3, 4, 5, 6] .fullyQualTunnEndptIdnt ++ on 80 [0] .bearerQltyOfSvc ++
      on 87 [7] .fullyQualTunnEndptIdnt))

def createSessRequestBearerCtxtToBeRemovedIe : Decoder Ie Ctxt :=
  .group .withoutHeader (chain ( on 73 [0] .epsBearerId ++ on 87 [0] .fullyQualTunnEndptIdnt))

def modBearerRequestBearerCtxtToBeModifiedIe : Decoder Ie Ctxt :=
  .group .withHeader (chain (
    on 73 [0] .epsBearerId ++ on 87 [0, 1, 2, 3, 4] .fullyQualTunnEndptIdnt))

def modBearerRequestBearerCtxtToBeRemovedIe : Decoder Ie Ctxt :=
  .group .withoutHeader (chain ( on 73 [0] .epsBearerId))

def createBearerResponseBearerCtxtIe : Decoder Ie Ctxt :=
  .group .withoutHeader (chain ( on 73 [0] .epsBearerId ++ on 2 [0] .cause ++
      on 87 [0, 1, 2, 3, 4, 5, 6, 7, 8, 9, 10, 11] .fullyQualTunnEndptIdnt ++
      on 78 [0] .protCfgOpts ++ on 172 [0] .ranNasCause ++ on 197 [0] .extndedProtCfgOpts))

def delBearerResponseBearerCtxtIe : Decoder Ie Ctxt :=
  .group .withHeader (chain ( on 73 [0] .epsBearerId ++ on 2 [0] .cause ++ on 78 [0] .protCfgOpts ++
      on 172 [0] .ranNasCause ++ on 197 [0] .extndedProtCfgOpts))

def createSessReq : ℕ → ℕ → Decoder Ie Ctxt := chain (
  on 1 [0] .imsi ++ on 76 [0] .msisdn ++ on 75 [0] .mblEquipIdnty ++ on 86 [0] .userLocInfo ++
    on 82 [0] .ratType ++ on 87 [0, 1] .fullyQualTunnEndptIdnt ++ on 71 [0] .accPtName ++
    on 128 [0] .selectionMode ++ on 99 [0] .pdnType ++ on 79 [0] .pdnAddrAlloc ++
    on 127 [0] .apnRestriction ++ on 72 [0] .aggMaxBitRate ++ on 73 [0] .epsBearerId ++
    on 174 [0] .trstdWlanModeIndctn ++ on 78 [0] .pco ++
    [⟨93, some 0, createSessRequestBearerCtxtToBeCreatedIe⟩] ++
    [⟨93, some 1, createSessRequestBearerCtxtToBeRemovedIe⟩] ++ on 96 [0] .trcInfo ++
    on 3 [0] .recovery ++ on 132 [0, 1, 2, 3] .fqcsid ++ on 114 [0] .ueTimeZone ++
    on 145 [0] .userCsgInfo ++ on 95 [0] .chrgngChar ++
    on 151 [0, 1, 2, 3] .localDistgsdName ++ on 157 [0] .sgnllngPriorityIndctn ++
    on 74 [0] .ipAddress ++ on 126 [0] .portNumber ++ on 163 [0] .addtlProtCfgOpts ++
    on 74 [1] .ipAddress ++ on 126 [1] .portNumber ++ on 74 [2] .ipAddress ++
    on 169 [0] .twanIdentifier ++ on 74 [3] .ipAddress ++ on 173 [0] .cnOperSelEntity ++
    on 178 [0] .presRptngAreaInfo ++ on 180 [0, 1, 2] .ovrldCtlInfo ++
    on 188 [0] .msecTimeStmp ++ on 187 [0] .integerNumber ++ on 169 [1] .twanIdentifier ++
    on 179 [0] .twanIdntTs ++ on 118 [0] .fullQualCntnr ++ on 191 [0] .rmtUeCtxt ++
    on 176 [0] .nodeIdentifier ++ on 197 [0] .extndedProtCfgOpts ++
    on 198 [0] .srvngPlmnRateCtl ++ on 199 [0] .counter ++ on 126 [2] .portNumber ++
    on 200 [0] .mappedUeUsageType ++ on 86 [1] .userLocInfo ++
    on 136 [0] .fullyQualDomainName ++ on 201 [0] .secdryRatUsageDataRpt ++
    on 202 [0] .upFuncSelIndctnFlgs ++ [⟨255, none, .leaf .privExt⟩] ++
    on 83 [0] .servingNetwork ++ on 77 [0] .indication)

def modBearerReq : ℕ → ℕ → Decoder Ie Ctxt := chain (
  on 75 [0] .mblEquipIdnty ++ on 86 [0] .userLocInfo ++ on 83 [0] .servingNetwork ++
    on 128 [0] .selectionMode ++ on 87 [0] .fullyQualTunnEndptIdnt ++
    on 72 [0] .aggMaxBitRate ++ on 92 [0] .delayValue ++
    [⟨93, some 0, modBearerRequestBearerCtxtToBeModifiedIe⟩] ++
    [⟨93, some 1, modBearerRequestBearerCtxtToBeRemovedIe⟩] ++ on 3 [0] .recovery ++
    on 114 [0] .ueTimeZone ++ on 132 [0, 1] .fqcsid ++ on 145 [0] .userCsgInfo ++
    on 74 [1] .ipAddress ++ on 126 [1] .portNumber ++ on 151 [0, 1] .localDistgsdName ++
    on 74 [0] .ipAddress ++ on 126 [0] .portNumber ++ on 74 [2] .ipAddress ++
    on 173 [0] .cnOperSelEntity ++ on 178 [0] .presRptngAreaInfo ++
    on 180 [0, 1, 2] .ovrldCtlInfo ++ on 198 [0] .srvngPlmnRateCtl ++ on 199 [0] .counter ++
    on 1 [0] .imsi ++ on 86 [1] .userLocInfo ++ on 169 [0] .twanIdentifier ++
    on 179 [0] .twanIdntTs ++ on 201 [0] .secdryRatUsageDataRpt ++
    [⟨255, none, .leaf .privExt⟩])

def delSessReq : ℕ → ℕ → Decoder Ie Ctxt := chain (
  on 73 [0] .epsBearerId ++ on 86 [0] .userLocInfo ++ on 77 [0] .indication ++
    on 78 [0] .protCfgOpts ++ on 135 [0] .nodeType ++ on 87 [0] .fullyQualTunnEndptIdnt ++
    on 114 [0] .ueTimeZone ++ on 170 [0] .uliTimestamp ++ on 172 [0] .ranNasCause ++
    on 169 [0] .twanIdentifier ++ on 179 [0] .twanIdntTs ++ on 180 [0, 1, 2] .ovrldCtlInfo ++
    on 169 [1] .twanIdentifier ++ on 179 [1] .twanIdntTs ++ on 74 [0] .ipAddress ++
    on 126 [0] .portNumber ++ on 197 [0] .extndedProtCfgOpts ++ on 126 [1] .portNumber ++
    on 201 [0] .secdryRatUsageDataRpt ++ [⟨255, none, .leaf .privExt⟩])

def createBearerRsp : ℕ → ℕ → Decoder Ie Ctxt := chain (
  on 2 [0] .cause ++ [⟨93, some 0, createBearerResponseBearerCtxtIe⟩] ++ on 3 [0] .recovery ++
    on 132 [0, 1, 2, 3] .fqcsid ++ on 78 [0] .protCfgOpts ++ on 114 [0] .ueTimeZone ++
    on 86 [0] .userLocInfo ++ on 169 [0] .twanIdentifier ++ on 180 [0, 1] .ovrldCtlInfo ++
    on 178 [0] .presRptngAreaInfo ++ on 74 [0] .ipAddress ++ on 180 [2] .ovrldCtlInfo ++
    on 169 [1] .twanIdentifier ++ on 179 [1] .twanIdntTs ++ on 74 [0] .ipAddress ++
    on 126 [0] .portNumber ++ on 118 [0] .fullQualCntnr ++ on 126 [1] .portNumber ++
    [⟨255, none, .leaf .privExt⟩])

def delBearerRsp : ℕ → ℕ → Decoder Ie Ctxt := chain (
  on 2 [0] .cause ++ on 73 [0] .epsBearerId ++ [⟨93, some 0, delBearerResponseBearerCtxtIe⟩] ++
    on 3 [0] .recovery ++ on 132 [0, 1, 2, 3] .fqcsid ++ on 78 [0] .protCfgOpts ++
    on 114 [0] .ueTimeZone ++ on 86 [0] .userLocInfo ++ on 170 [0] .uliTimestamp ++
    on 169 [0] .twanIdentifier ++ on 179 [0] .twanIdntTs ++ on 180 [0, 1] .ovrldCtlInfo ++
    on 74 [0] .ipAddress ++ on 180 [2] .ovrldCtlInfo ++ on 169 [1] .twanIdentifier ++
    on 179 [1] .twanIdntTs ++ on 74 [0] .ipAddress ++ on 126 [0] .portNumber ++
    on 118 [0] .fullQualCntnr ++ on 126 [1] .portNumber ++ on 201 [0] .secdryRatUsageDataRpt ++
    [⟨255, none, .leaf .privExt⟩])

inductive Message
  | createSessReq
  | modBearerReq
  | delSessReq
  | createBearerRsp
  | delBearerRsp

namespace Message

def table : Message → ℕ → ℕ → Decoder Ie Ctxt
  | .createSessReq => Gtp.createSessReq
  | .modBearerReq => Gtp.modBearerReq
  | .delSessReq => Gtp.delSessReq
  | .createBearerRsp => Gtp.createBearerRsp
  | .delBearerRsp => Gtp.delBearerRsp

end Message

end Spgw.Codec.Gtp
