/-
# The configuration of subscribers

`spgwConfig::parse_json_doc` (`cpplib/spgw_config.cpp`) reads a JSON document into a store of
selection rules and of APN, user plane, QoS and access profiles, and makes it the current
configuration.
-/

import Spgw.Lib.Labels
import Spgw.Session.State
import Mathlib.Data.List.Sort

namespace Spgw.Config

open Octets
open Session (deref)

structure Str where
  bytes : List UInt8
  noNul : 0 ∉ bytes
  deriving DecidableEq

namespace Str

def ofBytes (bs : List UInt8) : Str := ⟨cstr bs, zero_notMem_cstr bs⟩

def empty : Str := ofBytes []

def strlen (s : Str) : ℕ := s.bytes.length

end Str

/-- `strcpy` into an array of 64 characters. -/
def strcpy (s : Str) : Except Fault Str :=
  if s.strlen < 64 then .ok s else .error .badPointer

theorem strcpy_eq_ok_iff {s t : Str} : strcpy s = .ok t ↔ s.strlen < 64 ∧ s = t := by
  rw [strcpy]
  split_ifs with h
  · exact ⟨fun heq => ⟨h, Except.ok.inj heq⟩, fun heq => congrArg _ heq.2⟩
  · constructor
    · intro heq
      cases heq
    · exact fun heq => absurd heq.1 h

/-- `"imsi-range"`. -/
structure ImsiRange where
  fromImsi : UInt64
  toImsi : UInt64
  deriving DecidableEq

/-- `"serving-plmn"`. -/
structure PlmnSection where
  mcc : Int32
  mnc : Int32
  tac : Int32
  deriving DecidableEq

/-- `"keys"` of a selection rule. -/
structure KeySection where
  imsiRange : Option ImsiRange := none
  servingPlmn : Option PlmnSection := none
  requestedApn : Option Str := none
  deriving DecidableEq

/-- A member of `"subscriber-selection-rules"`. -/
structure RuleSection where
  priority : Int32
  keys : Option KeySection := none
  selectedApnProfile : Option Str := none
  selectedUserPlaneProfile : Option Str := none
  selectedQosProfile : Option Str := none
  selectedAccessProfile : List Str := []
  deriving DecidableEq

/-- A member of `"apn-profiles"`. -/
structure ApnSection where
  apnName : Option Str := none
  usage : Option Int32 := none
  network : Option Str := none
  gxEnabled : Option Bool := none
  mtu : Option Int32 := none
  dnsPrimary : Option Ipv4 := none
  dnsSecondary : Option Ipv4 := none

/-- A member of `"user-plane-profiles"`. -/
structure UserPlaneSection where
  userPlane : Option Str := none
  globalAddress : Option Bool := none

/-- A member of `"qos-profiles"`. -/
structure QosSection where
  apnAmbrUl : Int64
  apnAmbrDl : Int64
  qci : Option UInt32 := none

/-- The configuration as it is written down. -/
structure Document where
  rules : List RuleSection := []
  apnProfiles : List (Str × Option ApnSection) := []
  userPlaneProfiles : List (Str × UserPlaneSection) := []
  qosProfiles : List (Str × QosSection) := []
  accessProfiles : List Str := []

structure ServingPlmn where
  plmn : UInt8 × UInt8 × UInt8
  tac : UInt16

structure SubSelectionKeys where
  imsi : Option ImsiRange := none
  plmn : Option ServingPlmn := none
  apn : Option Memory := none

structure SubSelectionRule where
  rulePriority : UInt32
  keys : Option SubSelectionKeys := none
  selectedApnProfile : Option Str := none
  selectedUserPlaneProfile : Option Str := none
  selectedQosProfile : Option Str := none
  selectedAccessProfile : List Str := []

structure ApnProfile where
  apnProfileName : Str
  apnName : Memory := fun _ => 0
  apnNameLength : UInt8 := 0
  apnUsageType : Int32 := 0
  apnNetCap : Str := .empty
  gxEnabled : Bool := false
  dnsPrimary : Ipv4 := 0
  dnsSecondary : Ipv4 := 0
  mtu : UInt16 := 0

structure UserPlaneProfile where
  userPlaneProfileName : Str
  userPlaneService : Option Str
  globalAddress : Bool

structure QosProfile where
  qosProfileName : Str
  apnAmbrUl : UInt32
  apnAmbrDl : UInt32
  qci : UInt8
  arp : UInt8

structure Store where
  subSelRules : List SubSelectionRule
  apnProfileList : List ApnProfile
  userPlaneList : List UserPlaneProfile
  qosProfileList : List QosProfile
  accessProfileList : List Str

/-- The loop over `apn_name`: the text is copied without its end to `&apn_name[1]` of an array of
zeros, and the length of the result is read back. -/
def encodeApnName (s : Str) : Except Fault (Memory × UInt8) :=
  if s.strlen ≤ 63 then
    let apnName := Labels.inPlace Labels.dot (write (fun _ => 0) 1 s.bytes) s.strlen
    match Octets.strlen 64 apnName with
    | some n => .ok (apnName, .ofNat n)
    | none => .error .badPointer
  else .error .badPointer

/-- The same loop over `requested_apn`, where `strcpy` copies the end of the text as well. -/
def encodeRequestedApn (s : Str) : Except Fault Memory :=
  if s.strlen ≤ 62 then .ok (Labels.inPlace Labels.dot (write (fun _ => 0) 1 (s.bytes ++ [0])) s.strlen)
  else .error .badPointer

def packPlmn (p : PlmnSection) : UInt8 × UInt8 × UInt8 :=
  let mcc := UInt16.ofInt p.mcc.toInt
  let mnc := UInt16.ofInt p.mnc.toInt
  let mccDig1 := mcc / 100
  let mccDig2 := mcc % 100 / 10
  let mccDig3 := mcc % 100 % 10
  let mncDig1 := if mnc > 99 then mnc / 100 else mnc / 10
  let mncDig2 := if mnc > 99 then mnc % 100 / 10 else mnc % 10
  let mncDig3 := if mnc > 99 then mnc % 10 else 0xf
  ((mccDig2 <<< 4 ||| mccDig1).toUInt8, (mncDig1 <<< 4 ||| mccDig3).toUInt8,
    (mncDig3 <<< 4 ||| mncDig2).toUInt8)

def parsePlmn (p : PlmnSection) : ServingPlmn where
  plmn := packPlmn p
  tac := .ofInt p.tac.toInt

def parseKeys (k : KeySection) : Except Fault SubSelectionKeys :=
  match k.requestedApn with
  | none => .ok { imsi := k.imsiRange, plmn := k.servingPlmn.map parsePlmn }
  | some s => do
    let apn ← encodeRequestedApn s
    .ok { imsi := k.imsiRange, plmn := k.servingPlmn.map parsePlmn, apn := some apn }

def withKeys (sec : RuleSection) (keys : Option SubSelectionKeys) : SubSelectionRule where
  rulePriority := sec.priority.toUInt32
  keys := keys
  selectedApnProfile := sec.selectedApnProfile
  selectedUserPlaneProfile := sec.selectedUserPlaneProfile
  selectedQosProfile := sec.selectedQosProfile
  selectedAccessProfile := sec.selectedAccessProfile.take 4

def parseRule (sec : RuleSection) : Except Fault SubSelectionRule :=
  match sec.keys with
  | none => .ok (withKeys sec none)
  | some k => do
    let keys ← parseKeys k
    .ok (withKeys sec (some keys))

def parseApnName : Option Str → Except Fault (Memory × UInt8)
  | none => .ok (fun _ => 0, 0)
  | some s => encodeApnName s

def parseApnProfile (key : Str) (sec : ApnSection) : Except Fault ApnProfile := do
  let name ← strcpy key
  let apnName ← parseApnName sec.apnName
  let netCap ← strcpy (sec.network.getD .empty)
  .ok {
    apnProfileName := name
    apnName := apnName.1
    apnNameLength := apnName.2
    apnUsageType := sec.usage.getD 0
    apnNetCap := netCap
    gxEnabled := sec.gxEnabled.getD false
    dnsPrimary := sec.dnsPrimary.getD 0
    dnsSecondary := sec.dnsSecondary.getD 0
    mtu := (sec.mtu.map fun n => UInt16.ofInt n.toInt).getD 0 }

/-- The members of `"apn-profiles"` that are objects. -/
def apnSections (doc : Document) : List (Str × ApnSection) :=
  doc.apnProfiles.filterMap fun p => p.2.map (Prod.mk p.1)

def parseApnProfiles (doc : Document) : Except Fault (List ApnProfile) :=
  (apnSections doc).mapM fun p => parseApnProfile p.1 p.2

def copyService : Option Str → Except Fault (Option Str)
  | none => .ok none
  | some s => do
    let t ← strcpy s
    .ok (some t)

def parseUserPlane (key : Str) (sec : UserPlaneSection) : Except Fault UserPlaneProfile := do
  let name ← strcpy key
  let service ← copyService sec.userPlane
  .ok {
    userPlaneProfileName := name
    userPlaneService := service
    globalAddress := sec.globalAddress.getD true }

def parseQos (key : Str) (sec : QosSection) : Except Fault QosProfile := do
  let name ← strcpy key
  .ok {
    qosProfileName := name
    apnAmbrUl := .ofInt sec.apnAmbrUl.toInt
    apnAmbrDl := .ofInt sec.apnAmbrDl.toInt
    qci := (sec.qci.map UInt32.toUInt8).getD 9
    arp := 1 }

/-- `compare_sub_rules`. -/
def notAfter (r r' : SubSelectionRule) : Prop := r.rulePriority ≤ r'.rulePriority

instance : DecidableRel notAfter := fun r r' =>
  inferInstanceAs (Decidable (r.rulePriority ≤ r'.rulePriority))

/-- `spgwConfig::parse_json_doc` up to the lock. -/
def parseJsonDoc (doc : Document) : Except Fault Store := do
  let rules ← doc.rules.mapM parseRule
  let apns ← parseApnProfiles doc
  let userPlanes ← doc.userPlaneProfiles.mapM fun p => parseUserPlane p.1 p.2
  let qos ← doc.qosProfiles.mapM fun p => parseQos p.1 p.2
  let access ← doc.accessProfiles.mapM strcpy
  .ok {
    subSelRules := rules.insertionSort notAfter
    apnProfileList := apns
    userPlaneList := userPlanes
    qosProfileList := qos
    accessProfileList := access }

/-- `get_apn_profile`, `get_user_plane_profile` and `get_qos_profile`. -/
def getProfile {α : Type} (nameOf : α → Str) (profiles : List α) (name : Option Str) :
    Except Fault α := do
  let name ← deref name
  deref (profiles.find? fun p => nameOf p = name)

/-- `spgwConfig::match_apn_profile_cpp`. -/
def matchApnProfile (profiles : List ApnProfile) (name : List UInt8) :
    Except Fault (Option ApnProfile) :=
  match profiles with
  | [] => .ok none
  | p :: rest => do
    let n ← deref (Octets.strlen 64 p.apnName)
    if n ≠ name.length then matchApnProfile rest name
    else if read p.apnName 0 n ≠ name then matchApnProfile rest name
    else .ok (some p)

structure SubConfig where
  dnsPrimary : Ipv4
  dnsSecondary : Ipv4
  mtu : UInt16
  globalAddress : Bool
  userPlaneService : Str
  apnAmbrUl : UInt32
  apnAmbrDl : UInt32
  qci : UInt8
  arp : UInt8

def imsiKeyMatches (key ruleKeys : SubSelectionKeys) : Bool :=
  match ruleKeys.imsi with
  | none => true
  | some range =>
    match key.imsi with
    | none => false
    | some k => range.fromImsi ≤ k.fromImsi && k.fromImsi ≤ range.toImsi

/-- The comparison of the PLMN keys. -/
def plmnKeyMatches (key ruleKeys : SubSelectionKeys) : Bool :=
  match ruleKeys.plmn with
  | none => true
  | some p =>
    match key.plmn with
    | none => false
    | some k => p.plmn == p.plmn && p.tac == k.tac

def apnKeyMatches (key ruleKeys : SubSelectionKeys) : Except Fault Bool :=
  match ruleKeys.apn with
  | none => .ok true
  | some name =>
    match key.apn with
    | none => .ok false
    | some k => deref (strcmp k name 0 64)

/-- Whether the loop of `match_sub_selection_cpp` stops at a rule. -/
def ruleMatches (key : SubSelectionKeys) (rule : SubSelectionRule) : Except Fault Bool :=
  match rule.keys with
  | none => .ok true
  | some keys =>
    if imsiKeyMatches key keys && plmnKeyMatches key keys then apnKeyMatches key keys
    else .ok false

/-- The loop of `match_sub_selection_cpp`. -/
def findRule (key : SubSelectionKeys) : List SubSelectionRule → Except Fault (Option SubSelectionRule)
  | [] => .ok none
  | rule :: rest => do
    if ← ruleMatches key rule then .ok (some rule) else findRule key rest

def selectedProfiles (store : Store) (apn userPlane qos : Option Str) : Except Fault SubConfig := do
  let apnProfile ← getProfile ApnProfile.apnProfileName store.apnProfileList apn
  let upProfile ← getProfile UserPlaneProfile.userPlaneProfileName store.userPlaneList userPlane
  let service ← deref upProfile.userPlaneService
  let qosProfile ← getProfile QosProfile.qosProfileName store.qosProfileList qos
  .ok {
    dnsPrimary := apnProfile.dnsPrimary
    dnsSecondary := apnProfile.dnsSecondary
    mtu := apnProfile.mtu
    globalAddress := upProfile.globalAddress
    userPlaneService := service
    apnAmbrUl := qosProfile.apnAmbrUl
    apnAmbrDl := qosProfile.apnAmbrDl
    qci := qosProfile.qci
    arp := qosProfile.arp }

/-- `spgwConfig::match_sub_selection_cpp`. -/
def matchSubSelection (subClassifierConfig : Option Store) (key : SubSelectionKeys) :
    Except Fault (Option SubConfig) :=
  match subClassifierConfig with
  | none => .ok none
  | some store => do
    match ← findRule key store.subSelRules with
    | none => .ok none
    | some rule => do
      let config ← selectedProfiles store rule.selectedApnProfile
        rule.selectedUserPlaneProfile rule.selectedQosProfile
      .ok (some config)

/-- Whether the inner loop of `clearOldUpfProfiles` finds a profile of the same name. -/
def stillNamed (newCfg : Store) (upOld : UserPlaneProfile) : Bool :=
  newCfg.userPlaneList.any fun upNew => upOld.userPlaneProfileName = upNew.userPlaneProfileName

/-- A turn of `clearOldUpfProfiles`, with the services requested so far. -/
def clearOldUpfProfile (func : Bool) (newCfg : Store) (requests : List Str)
    (upOld : UserPlaneProfile) : Except Fault (List Str) :=
  if stillNamed newCfg upOld then .ok requests
  else if func then do
    let service ← deref upOld.userPlaneService
    .ok (requests ++ [service])
  else .ok requests

def clearOldUpfProfiles (func : Bool) (oldCfg newCfg : Store) : Except Fault (List Str) :=
  oldCfg.userPlaneList.foldlM (clearOldUpfProfile func newCfg) []

/-- `spgwConfig::parse_json_doc`. -/
def installConfig (subClassifierConfig : Option Store) (doc : Document) :
    Except Fault (Store × List Str) := do
  let store ← parseJsonDoc doc
  match subClassifierConfig with
  | none => .ok (store, [])
  | some oldCfg => do
    let requests ← clearOldUpfProfiles true oldCfg store
    .ok (store, requests)

end Spgw.Config
