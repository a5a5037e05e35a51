/-
# Rules, bearers and the policy of a PDN

A Re-Auth-Request puts its rules on the list `policy.pending_pcc_rules` (`cp/gx/pfcp_gx.c`), and
`fill_pfcp_gx_sess_mod_req` (`cp/procedures/proc_bearer_create.c`) takes them off, with `get_bearer`
(`cp/pdn.c`) and the table of rule names (`cpplib/rule_tables.h`).
-/

import Spgw.Session.State

namespace Spgw.Rar

open Session (deref)

abbrev RuleName := List Char

/-- `%d` of a `uint32_t`. -/
def decimal (n : ℕ) : RuleName :=
  if n < 2 ^ 31 then Nat.toDigits 10 n else '-' :: Nat.toDigits 10 (2 ^ 32 - n)

def ruleKey (callId : ℕ) (name : RuleName) : RuleName := name ++ decimal callId

/-- `rulename_bearerid_hash`. -/
abbrev RuleTable := List (RuleName × ℕ)

namespace RuleTable

def getRuleNameEntry (table : RuleTable) (key : RuleName) : ℤ :=
  match table.lookup key with
  | none => -1
  | some id => if id < 128 then id else (id : ℤ) - 256

def addRuleNameEntry (table : RuleTable) (key : RuleName) (id : ℕ) : RuleTable :=
  if (table.lookup key).isSome then table else (key, id) :: table

def delRuleNameEntry (table : RuleTable) (key : RuleName) : RuleTable :=
  table.filter fun e => e.1 ≠ key

def addRuleNameEntries (table : RuleTable) (keys : List RuleName) (id : ℕ) : RuleTable :=
  keys.foldl (fun table key => table.addRuleNameEntry key id) table

end RuleTable

/-- The part of `bearer_qos_ie` that identifies a bearer: the QCI and the ARP. -/
structure BearerQos where
  qci : ℕ := 0
  priorityLevel : ℕ := 0
  preemptionCapability : ℕ := 0
  preemptionVulnerability : ℕ := 0
  deriving DecidableEq

structure DynamicRule where
  ruleName : RuleName
  qos : BearerQos := {}
  deriving DecidableEq

theorem no_rules_le : 2 * ([] : List DynamicRule).length ≤ 0 := Nat.le_refl 0

structure EpsBearer where
  epsBearerId : ℕ := 0
  qos : BearerQos
  pdrCount : ℕ := 0
  dynamicRules : List DynamicRule := []
  rules_le : 2 * dynamicRules.length ≤ pdrCount := by first | exact Spgw.Rar.no_rules_le | decide

def maxBearers : ℕ := 15

theorem zero_lt_maxBearers : 0 < maxBearers := by decide

/-- `pdn->eps_bearers`. -/
abbrev Bearers := Fin maxBearers → Option EpsBearer

def getBearer (bearers : Bearers) (qos : BearerQos) : Option (Fin maxBearers) :=
  (List.finRange maxBearers).find? fun i =>
    match bearers i with
    | some bearer => bearer.qos == qos
    | none => false

/-- `eps_bearers[i]`. -/
def bearerAt (bearers : Bearers) (i : ℤ) : Except Fault (Option EpsBearer) :=
  if h : 0 ≤ i ∧ i < maxBearers then
    pure (bearers ⟨i.toNat, by omega⟩)
  else
    throw .badPointer

/-- `enum rule_action_t`. -/
inductive RuleAction
  | add
  | modify
  | delete
  deriving DecidableEq

structure PccRule where
  opPending : Bool := false
  action : RuleAction
  dynRule : DynamicRule
  deriving DecidableEq

/-- `pdn_connection_t`. -/
structure Pdn where
  callId : ℕ
  defaultBearerId : ℕ
  numBearer : ℕ
  epsBearers : Bearers
  pendingPccRules : List PccRule := []

structure QosInformation where
  qosClassIdentifier : ℕ
  priorityLevel : ℕ
  preEmptionCapability : ℕ
  preEmptionVulnerability : ℕ

def QosInformation.toBearerQos (q : QosInformation) : BearerQos where
  qci := q.qosClassIdentifier % 256
  priorityLevel := q.priorityLevel % 16
  preemptionCapability := q.preEmptionCapability % 2
  preemptionVulnerability := q.preEmptionVulnerability % 2

structure ChargingRuleDefinition where
  chargingRuleName : Option RuleName
  qosInformation : Option QosInformation := none

structure GxRar where
  sessionReleaseCause : Bool := false
  chargingRuleInstall : List (List ChargingRuleDefinition) := []
  chargingRuleRemove : List (Option (RuleName × List RuleName)) := []

def fillChargingRuleDefinition (name : RuleName) (definition : ChargingRuleDefinition) :
    DynamicRule where
  ruleName := name
  qos :=
    match definition.qosInformation with
    | some q => q.toBearerQos
    | none => {}

def installRule (callId : ℕ) (table : RuleTable) (definition : ChargingRuleDefinition) :
    Option PccRule :=
  definition.chargingRuleName.map fun name =>
    { action := if table.getRuleNameEntry (ruleKey callId name) = -1 then .add else .modify
      dynRule := fillChargingRuleDefinition name definition }

/-- The rule that is stored for one entry of `charging_rule_remove`: only the first
name is read, and only a rule with an entry in the table is stored. -/
def removeRule (callId : ℕ) (table : RuleTable) (names : Option (RuleName × List RuleName)) :
    Option PccRule :=
  match names with
  | none => none
  | some (name, _) =>
    if 0 ≤ table.getRuleNameEntry (ruleKey callId name) then
      some { action := .delete, dynRule := { ruleName := name } }
    else
      none

def storeDynamicRulesInPolicy (pdn : Pdn) (table : RuleTable) (rar : GxRar) : Pdn :=
  { pdn with
    pendingPccRules := pdn.pendingPccRules ++
      rar.chargingRuleInstall.flatten.filterMap (installRule pdn.callId table) ++
      rar.chargingRuleRemove.filterMap (removeRule pdn.callId table) }

/-- The rule becomes `dynamic_rules[num_dynamic_filters++]`, `fill_pfcp_entry` gives it two PDRs, and
`fill_create_pfcp_info` reads `dyn_rule->pdr[i]` for every PDR of the bearer, past the two. -/
def EpsBearer.attach (bearer : EpsBearer) (rule : DynamicRule) : Except Fault EpsBearer :=
  if bearer.pdrCount = 0 then
    pure { bearer with
      pdrCount := bearer.pdrCount + 2
      dynamicRules := bearer.dynamicRules ++ [rule]
      rules_le := by have := bearer.rules_le; simp; omega }
  else
    throw .badPointer

/-- The variables of `fill_pfcp_gx_sess_mod_req`. -/
structure Fill where
  bearers : Bearers
  numBearer : ℕ
  table : RuleTable
  bearerId : ℕ := 0
  newBearer : Option (Fin maxBearers) := none

/-- A dedicated bearer for the QoS. -/
def Fill.createBearer (gxEnabled : Bool) (f : Fill) (defaultBearerId : ℕ) (qos : BearerQos) :
    Except Fault (Fill × Fin maxBearers) :=
  if h : f.numBearer < maxBearers then do
    let slot : Fin maxBearers := ⟨f.numBearer, h⟩
    let bearers := Function.update f.bearers slot (some { qos })
    let _ ← deref (← bearerAt bearers ((defaultBearerId : ℤ) - 5))
    -- With Gx, `fill_qer_entry` reads the bit rates of a rule that is `NULL`.
    if gxEnabled then
      throw .badPointer
    return ({ f with
      bearers
      numBearer := (f.numBearer + 1) % 256
      bearerId := f.numBearer
      newBearer := some slot }, slot)
  else
    throw .badPointer

/-- The rule is attached to the bearer of the slot, and its name gets the identifier
that `bearer_id` has at this point. -/
def Fill.attachRule (f : Fill) (callId : ℕ) (slot : Fin maxBearers) (rule : DynamicRule) :
    Except Fault Fill := do
  let bearer ← (← deref (f.bearers slot)).attach rule
  return { f with
    bearers := Function.update f.bearers slot (some bearer)
    table := f.table.addRuleNameEntry (ruleKey callId rule.ruleName) f.bearerId }

/-- The slot of the bearer for a rule to add; a second new bearer fails `assert(0)`. -/
def Fill.findBearer (gxEnabled : Bool) (f : Fill) (defaultBearerId : ℕ) (qos : BearerQos) :
    Except Fault (Fill × Fin maxBearers) :=
  match getBearer f.bearers qos with
  | some slot => pure (f, slot)
  | none =>
    if f.newBearer.isSome then throw .assertion
    else f.createBearer gxEnabled defaultBearerId qos

/-- The loop of `fill_pfcp_gx_sess_mod_req`, with the rules it leaves on the list. -/
def Fill.takeRules (gxEnabled : Bool) (callId defaultBearerId : ℕ) :
    Fill → List PccRule → Except Fault (Fill × List PccRule)
  | f, [] => pure (f, [])
  | f, rule :: rules =>
    match rule.action with
    | .add => do
      let (f, slot) ← f.findBearer gxEnabled defaultBearerId rule.dynRule.qos
      let f ← f.attachRule callId slot rule.dynRule
      f.takeRules gxEnabled callId defaultBearerId rules
    | .modify =>
      if (getBearer f.bearers rule.dynRule.qos).isSome then
        f.takeRules gxEnabled callId defaultBearerId rules
      else
        pure (f, rule :: rules)
    | .delete => f.takeRules gxEnabled callId defaultBearerId rules

def fillPfcpGxSessModReq (gxEnabled : Bool) (pdn : Pdn) (table : RuleTable) :
    Except Fault (Pdn × RuleTable) := do
  let f : Fill := { bearers := pdn.epsBearers, numBearer := pdn.numBearer, table }
  let (f, rules) ← f.takeRules gxEnabled pdn.callId pdn.defaultBearerId pdn.pendingPccRules
  return ({ pdn with
    epsBearers := f.bearers
    numBearer := f.numBearer
    pendingPccRules := rules }, f.table)

end Spgw.Rar
