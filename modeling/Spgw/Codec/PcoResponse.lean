/-
# The PCO of a Create Session Response

`build_pco_response` of `cp/gtpv2/msg/create_session_request.c` and what
`set_create_session_response` does with its result: the octets are written to a buffer of 260, and
`set_pco` takes their number as a `uint8_t`.
-/

import Spgw.Codec.GtpElements

namespace Spgw.Codec.GtpIe

/-- What is read of a decoded container: its type and the first octet of the array `data`. -/
structure RequestOpt where
  type : UInt16
  data0 : UInt8

structure PcoRequest where
  ext : Bool
  configProto : UInt8
  ids : List RequestOpt
  length_le : ids.length ≤ 16

/-- What is read of `sub_config_t`; the addresses as they are in memory. -/
structure SubConfig where
  dnsPrimary : Fin 4 → UInt8
  dnsSecondary : Fin 4 → UInt8
  mtu : UInt16

variable (sub : SubConfig)

def writeMtu : List UInt8 := putUint16 0x0010 ++ 2 :: putUint16 sub.mtu.toNat

def writeAnswer (opt : RequestOpt) : List UInt8 :=
  if opt.type = 0x8021 then
    -- The code of a Configure-Request; anything else is not answered.
    if opt.data0 = 1 then
      putUint16 opt.type.toNat ++ 16 :: 3 :: 0 :: putUint16 16 ++
        129 :: 6 :: List.ofFn sub.dnsPrimary ++ 131 :: 6 :: List.ofFn sub.dnsSecondary
    else []
  else if opt.type = 0x000d then putUint16 opt.type.toNat ++ 4 :: List.ofFn sub.dnsPrimary
  else if opt.type = 0x0010 then writeMtu sub
  else []

/-- `ipv4_link_mtu` at the end of the loop. -/
def ipv4LinkMtu (req : PcoRequest) : Bool := req.ids.any fun opt => opt.type = 0x0010

/-- The first octet: `(ext << 7) | (config_proto & 0x03)`. -/
def configByte (req : PcoRequest) : UInt8 :=
  (if req.ext then 0x80 else 0) ||| (req.configProto &&& 0x03)

def buildPcoResponse (req : PcoRequest) : List UInt8 :=
  configByte req :: req.ids.flatMap (writeAnswer sub) ++
    if ipv4LinkMtu req then [] else writeMtu sub

/-- The PCO that `set_create_session_response` puts in the message; none if the buffer of 260 octets
is left. -/
def setPco (octets : List UInt8) : Option (List UInt8) :=
  if octets.length ≤ 260 then some (octets.take (octets.length % 256)) else none

theorem mtu_lt : (putUint16 sub.mtu.toNat).length < 256 := by simp [putUint16]

def mtuContainer : Container := ⟨0x0010, putUint16 sub.mtu.toNat, mtu_lt sub⟩

def ipcpData : List UInt8 :=
  3 :: 0 :: putUint16 16 ++ 129 :: 6 :: List.ofFn sub.dnsPrimary ++
    131 :: 6 :: List.ofFn sub.dnsSecondary

theorem ipcpData_lt : (ipcpData sub).length < 256 := by simp [ipcpData, putUint16]

def ipcpContainer : Container := ⟨0x8021, ipcpData sub, ipcpData_lt sub⟩

theorem dns_lt : (List.ofFn sub.dnsPrimary).length < 256 := by simp

def dnsContainer : Container := ⟨0x000d, List.ofFn sub.dnsPrimary, dns_lt sub⟩

def answer (opt : RequestOpt) : Option Container :=
  if opt.type = 0x8021 ∧ opt.data0 = 1 then some (ipcpContainer sub)
  else if opt.type = 0x000d then some (dnsContainer sub)
  else if opt.type = 0x0010 then some (mtuContainer sub)
  else none

def answers (req : PcoRequest) : List Container :=
  req.ids.filterMap (answer sub) ++
    if req.ids.any (fun opt => opt.type = 0x0010) then [] else [mtuContainer sub]

/-- Every option is answered in the order of the request. -/
def Answered (req : PcoRequest) : Prop :=
  setPco (buildPcoResponse sub req) = some (configByte req :: (answers sub req).flatMap Container.put)

def answerSize (opt : RequestOpt) : ℕ :=
  if opt.type = 0x8021 ∧ opt.data0 = 1 then 19
  else if opt.type = 0x000d then 7
  else if opt.type = 0x0010 then 5
  else 0

def responseSize (req : PcoRequest) : ℕ :=
  1 + (req.ids.map answerSize).sum + if req.ids.any (fun opt => opt.type = 0x0010) then 0 else 5

theorem writeMtu_eq : writeMtu sub = (mtuContainer sub).put := rfl

theorem writeAnswer_eq (opt : RequestOpt) :
    writeAnswer sub opt = (answer sub opt).toList.flatMap Container.put := by
  obtain ⟨type, data0⟩ := opt
  unfold writeAnswer answer
  by_cases hipcp : type = 0x8021
  · subst hipcp
    by_cases hcode : data0 = 1
    · simp only [hcode, if_true, and_self, Option.toList_some, List.flatMap_singleton]
      simp [Container.put, ipcpContainer, ipcpData, putUint16]
    · simp [hcode]
  · by_cases hdns : type = 0x000d
    · subst hdns
      simp [Container.put, dnsContainer, putUint16]
    · by_cases hmtu : type = 0x0010
      · subst hmtu
        simp [writeMtu_eq]
      · simp [hipcp, hdns, hmtu]

theorem length_writeAnswer (opt : RequestOpt) : (writeAnswer sub opt).length = answerSize opt := by
  unfold writeAnswer answerSize writeMtu
  split_ifs <;> simp_all [putUint16]

theorem buildPcoResponse_eq (req : PcoRequest) :
    buildPcoResponse sub req = configByte req :: (answers sub req).flatMap Container.put := by
  have hloop : ∀ ids : List RequestOpt, ids.flatMap (writeAnswer sub) =
      (ids.filterMap (answer sub)).flatMap Container.put := by
    intro ids
    induction ids with
    | nil => rfl
    | cons opt ids ih =>
      rw [List.flatMap_cons, writeAnswer_eq, ih]
      cases hopt : answer sub opt <;> simp [hopt]
  rw [buildPcoResponse, hloop, answers, ipv4LinkMtu, List.flatMap_append, List.cons_append]
  split_ifs <;> simp [writeMtu_eq]

theorem length_buildPcoResponse (req : PcoRequest) :
    (buildPcoResponse sub req).length = responseSize req := by
  have hloop : ∀ ids : List RequestOpt,
      (ids.flatMap (writeAnswer sub)).length = (ids.map answerSize).sum := by
    intro ids
    induction ids with
    | nil => rfl
    | cons opt ids ih =>
      rw [List.flatMap_cons, List.length_append, length_writeAnswer, ih, List.map_cons, List.sum_cons]
  have hmtu : (writeMtu sub).length = 5 := rfl
  rw [buildPcoResponse, List.length_append, List.length_cons, hloop, responseSize, ipv4LinkMtu]
  split_ifs <;> simp only [List.length_nil, hmtu] <;> omega

/-- **The PCO of the response is the configuration octet and the answers exactly if it has at most
255 octets.** -/
theorem answered_iff (req : PcoRequest) : Answered sub req ↔ responseSize req ≤ 255 := by
  rw [Answered, ← buildPcoResponse_eq, setPco, ← length_buildPcoResponse sub]
  generalize buildPcoResponse sub req = octets
  constructor
  · intro h
    split_ifs at h
    rw [Option.some.injEq] at h
    -- What is left after the truncation is shorter than 256 octets.
    have hlen := congrArg List.length h
    rw [List.length_take] at hlen
    have := Nat.mod_lt octets.length (show 0 < 256 by decide)
    omega
  · intro hle
    rw [if_pos (by omega), Nat.mod_eq_of_lt (by omega), List.take_length]

theorem fourteen_le : (List.replicate 14 (⟨0x8021, 1⟩ : RequestOpt)).length ≤ 16 := by decide

def manyRequests : PcoRequest := ⟨true, 0, List.replicate 14 ⟨0x8021, 1⟩, fourteen_le⟩

/-- 272 octets are written to the buffer of 260. -/
theorem not_answered_manyRequests :
    setPco (buildPcoResponse ⟨fun _ => 8, fun _ => 8, 1500⟩ manyRequests) = none := by
  decide +kernel

end Spgw.Codec.GtpIe
