/-
# The role of the gateway

`cp_config->cp_type` says whether the gateway is an SGW, a PGW or both.
-/

import Spgw.Sx.Spread
import Spgw.Rar.Fill
import Spgw.Lib.Frame

namespace Spgw.Role

open Function

open Session (deref)
open Rar (maxBearers BearerQos RuleTable PccRule)
open Sx (Config UpfContext PdnConnection SourceInterface Ie CreatePdr SessEstabReq Attach)
open Frame (Leaves lift leaves_lift leaves_pure run_bind_of_error)
open Machine

/-- `enum cp_mode`. -/
inductive CpType
  | sgwc
  | pgwc
  | saegwc
  deriving DecidableEq

abbrev RoleM := ExceptT Fault (StateM CpType)

/-- `(cp_type == SAEGWC) || (cp_type = PGWC)`. -/
def isSaegwcOrAssignPgwc : RoleM Bool := do
  if (← get) = CpType.saegwc then
    return true
  else
    set CpType.pgwc
    return true

/-- `(cp_type = PGWC) || (cp_type == SAEGWC)`. -/
def assignPgwc : RoleM Bool := do
  set CpType.pgwc
  return true

/-- `(cp_type = SAEGWC) || (cp_type == PGWC)`. -/
def assignSaegwc : RoleM Bool := do
  set CpType.saegwc
  return true

def creatingPdr (iface : SourceInterface) (control : Bool) (qerIdCount urrIdCount : ℕ) :
    RoleM (Ie CreatePdr) := do
  let removal := (← isSaegwcOrAssignPgwc) && iface = .access
  let counted ← isSaegwcOrAssignPgwc
  return {
    ieType := .createPdr
    len := Sx.setPdrId.size + Sx.setPrecedence.size + (Sx.setPdi control).size +
      (if removal then Sx.setOuterHdrRemoval.size else 0) + Sx.setFarId.size +
      (if counted then qerIdCount * Sx.setQerId.size + urrIdCount * Sx.setUrrId.size else 0)
    value :=
      { pdrId := Sx.setPdrId
        precedence := Sx.setPrecedence
        pdi := Sx.setPdi control
        outerHdrRemoval := if removal then Sx.setOuterHdrRemoval else { value := 0 }
        farId := Sx.setFarId
        qerId := if counted then List.replicate qerIdCount Sx.setQerId else []
        urrId := if counted then List.replicate urrIdCount Sx.setUrrId else [] } }

def updatingPdr (gxEnabled : Bool) (iface : SourceInterface) : RoleM ℕ := do
  let removal := (← isSaegwcOrAssignPgwc) && iface = .access
  let counted ← if gxEnabled then isSaegwcOrAssignPgwc else pure false
  return Sx.setPdrId.size + Sx.setPrecedence.size + (Sx.setPdi false).size +
    (if removal then Sx.setOuterHdrRemoval.size else 0) + Sx.setFarId.size +
    (if counted then Sx.setQerId.size else 0)

/-- **A Create PDR does not depend on the role, but makes a PGWC of what is not an SAEGWC.** -/
theorem run_creatingPdr (iface : SourceInterface) (control : Bool) (qerIdCount urrIdCount : ℕ)
    (r : CpType) :
    (creatingPdr iface control qerIdCount urrIdCount).run.run r =
      (.ok (Sx.creatingPdr iface control qerIdCount urrIdCount),
        if r = .saegwc then .saegwc else .pgwc) := by
  cases r <;> cases iface <;>
    simp [creatingPdr, isSaegwcOrAssignPgwc, Sx.creatingPdr, add_assoc] <;> rfl

theorem creatingPdr_leaves (iface : SourceInterface) (control : Bool) (qerIdCount urrIdCount : ℕ) :
    Leaves (creatingPdr iface control qerIdCount urrIdCount) .saegwc
      (.ok (Sx.creatingPdr iface control qerIdCount urrIdCount)) :=
  run_creatingPdr iface control qerIdCount urrIdCount .saegwc

theorem updatingPdr_leaves (gxEnabled : Bool) (iface : SourceInterface) :
    ∃ size, Leaves (updatingPdr gxEnabled iface) .saegwc (.ok size) := by
  cases gxEnabled <;> exact ⟨_, rfl⟩

def fillPdrFarQerUsingBearer (bearer : Sx.EpsBearer) : RoleM (List (Ie CreatePdr)) :=
  bearer.pdrs.foldlM (fun ies pdr => do return ies ++ [← creatingPdr pdr.srcIntfc false 1 0]) []

theorem fillPdrFarQerUsingBearer_leaves (bearer : Sx.EpsBearer) :
    Leaves (fillPdrFarQerUsingBearer bearer) .saegwc (bearer.pdrs.foldlM
        (fun ies pdr => .ok (ies ++ [Sx.creatingPdr pdr.srcIntfc false 1 0])) []) := by
  refine (Leaves.foldlM (Q := fun _ => True) (fun ies _ pdr _ => ⟨?_, fun _ _ => trivial⟩)
    trivial).1
  exact (creatingPdr_leaves ..).seq (leaves_pure _)

def fillDedicatedBearerInfo (gxEnabled : Bool) : RoleM Unit := do
  if gxEnabled then
    if ← assignPgwc then
      throw .badPointer

theorem fillDedicatedBearerInfo_leaves {r : CpType} :
    Leaves (fillDedicatedBearerInfo false) r (.ok ()) := rfl

def createBearer (cfg : Config) (upf : UpfContext) (pdn : PdnConnection) (f : Sx.Fill)
    (qos : BearerQos) : RoleM (Sx.Fill × Fin maxBearers) := do
  let made ← lift (f.createBearer { cfg with gxEnabled := false } upf pdn qos)
  fillDedicatedBearerInfo cfg.gxEnabled
  return made

def findBearer (cfg : Config) (upf : UpfContext) (pdn : PdnConnection) (f : Sx.Fill)
    (qos : BearerQos) : RoleM (Sx.Fill × Fin maxBearers) :=
  if pdn.defaultBearerQos = qos then
    pure (f, pdn.defaultBearer)
  else
    match Sx.getBearer f.epsBearers qos with
    | some slot => pure (f, slot)
    | none => createBearer cfg upf pdn f qos

def useBearer (cfg : Config) (pdn : PdnConnection) (rule : Sx.DynamicRule) (f : Sx.Fill)
    (slot : Fin maxBearers) : Except Fault Sx.Fill := do
  let bearer ← deref (f.epsBearers slot)
  Sx.inBounds bearer.numDynamicFilters
  let f ← f.addAmbrQer cfg pdn
  f.install cfg pdn slot rule

def addRule (cfg : Config) (upf : UpfContext) (pdn : PdnConnection) (f : Sx.Fill)
    (rule : Sx.DynamicRule) : RoleM Sx.Fill := do
  let (f, slot) ← findBearer cfg upf pdn f rule.qos
  lift (useBearer cfg pdn rule f slot)

/-- The turn of one PDR: the Create PDR is made by `creating_pdr`, and filled in. -/
def addPdr (cfg : Config) (control : Bool) (table : Sx.QerTable) (req : SessEstabReq)
    (pdr : Sx.Pdr) : RoleM SessEstabReq := do
  let _ ← creatingPdr pdr.srcIntfc control pdr.qerIds.length (if cfg.urrEnable then 1 else 0)
  lift (req.addPdr cfg.urrEnable control table pdr)

def takePolicy (cfg : Config) (upf : UpfContext) (pdn : PdnConnection)
    (rules : List Sx.DynamicRule) (f : Sx.Fill) : RoleM Sx.Fill := do
  if (← get) = CpType.sgwc then
    return f
  else
    let f ← rules.foldlM (addRule cfg upf pdn) f
    lift (f.updateLast upf)

def fillPfcpSessEstReq (cfg : Config) (upf : Option UpfContext) (pdn : PdnConnection)
    (seqNo : ℕ) (rules : List Sx.DynamicRule) (f : Sx.Fill) :
    RoleM (Option SessEstabReq × Sx.Fill) :=
  match upf with
  | none => pure (none, f)
  | some upf => do
    let f ← takePolicy cfg upf pdn rules f
    let req ← (f.placed.map Prod.snd).foldlM (addPdr cfg pdn.addrAllocControl f.qers)
      (SessEstabReq.initial cfg upf pdn seqNo f)
    return (some req, f)

def processPfcpSessEstRequest (a : Attach) : RoleM (Option SessEstabReq × Sx.Fill) :=
  fillPfcpSessEstReq a.cfg (if a.found then some a.upf else none) a.pdn a.seqNo a.pending a.start

def createBearerGx (gxEnabled : Bool) (f : Rar.Fill) (defaultBearerId : ℕ) (qos : BearerQos) :
    RoleM (Rar.Fill × Fin maxBearers) := do
  let made ← lift (f.createBearer false defaultBearerId qos)
  fillDedicatedBearerInfo gxEnabled
  return made

def findBearerGx (gxEnabled : Bool) (f : Rar.Fill) (defaultBearerId : ℕ) (qos : BearerQos) :
    RoleM (Rar.Fill × Fin maxBearers) :=
  match Rar.getBearer f.bearers qos with
  | some slot => pure (f, slot)
  | none =>
    if f.newBearer.isSome then throw .assertion
    else createBearerGx gxEnabled f defaultBearerId qos

/-- The rule gets its two PDRs. -/
def attachRule (cfg : Config) (f : Rar.Fill) (callId : ℕ) (slot : Fin maxBearers)
    (rule : Rar.DynamicRule) : RoleM Rar.Fill := do
  let _ ← creatingPdr .access false 1 (if cfg.urrEnable then 1 else 0)
  let _ ← creatingPdr .core false 1 (if cfg.urrEnable then 1 else 0)
  lift (f.attachRule callId slot rule)

/-- The loop of `fill_pfcp_gx_sess_mod_req`. -/
def takeRules (cfg : Config) (callId defaultBearerId : ℕ) :
    Rar.Fill → List PccRule → RoleM (Rar.Fill × List PccRule)
  | f, [] => pure (f, [])
  | f, rule :: rules =>
    match rule.action with
    | .add => do
      let (f, slot) ← findBearerGx cfg.gxEnabled f defaultBearerId rule.dynRule.qos
      let f ← attachRule cfg f callId slot rule.dynRule
      takeRules cfg callId defaultBearerId f rules
    | .modify =>
      if (Rar.getBearer f.bearers rule.dynRule.qos).isSome then do
        let _ ← updatingPdr cfg.gxEnabled .access
        let _ ← updatingPdr cfg.gxEnabled .core
        takeRules cfg callId defaultBearerId f rules
      else
        pure (f, rule :: rules)
    | .delete => takeRules cfg callId defaultBearerId f rules

def fillPfcpGxSessModReq (cfg : Config) (pdn : Rar.Pdn) (table : RuleTable) :
    RoleM (Rar.Pdn × RuleTable) := do
  if (← get) = CpType.sgwc then
    return (pdn, table)
  else
    let (f, rules) ← takeRules cfg pdn.callId pdn.defaultBearerId
      { bearers := pdn.epsBearers, numBearer := pdn.numBearer, table } pdn.pendingPccRules
    return ({ pdn with
      epsBearers := f.bearers
      numBearer := f.numBearer
      pendingPccRules := rules }, f.table)

/-- The default bearer is the only one. -/
structure OnlyDefault (pdn : PdnConnection) (qos : BearerQos) (f : Sx.Fill) : Prop where
  numBearer : f.numBearer = 1
  slots : ∀ i, (f.epsBearers i).map Sx.EpsBearer.qos =
    if i = pdn.defaultBearer then some qos else none

section Establishment

variable {cfg : Config} {upf : UpfContext} {pdn : PdnConnection} {f f' : Sx.Fill}
  {qos qos' : BearerQos} {slot : Fin maxBearers} {rule : Sx.DynamicRule}

theorem OnlyDefault.getBearer_eq_none_iff (h : OnlyDefault pdn qos f) :
    Sx.getBearer f.epsBearers qos' = none ↔ qos ≠ qos' := by
  unfold Sx.getBearer
  simp only [List.find?_eq_none, h.slots, beq_iff_eq, List.mem_finRange, forall_const]
  constructor
  · rintro hnone rfl
    exact hnone pdn.defaultBearer (if_pos rfl)
  · intro hne i hi
    split_ifs at hi
    exact hne (Option.some.inj hi)

theorem OnlyDefault.update {b b' : Sx.EpsBearer} (h : OnlyDefault pdn qos f)
    (hslot : f.epsBearers slot = some b) (hqos : b'.qos = b.qos)
    (hf : f'.epsBearers = update f.epsBearers slot (some b'))
    (hnum : f'.numBearer = f.numBearer) : OnlyDefault pdn qos f' where
  numBearer := hnum.trans h.numBearer
  slots i := by
    rw [hf, ← h.slots i]
    by_cases hi : i = slot
    · subst hi
      rw [update_self, hslot, Option.map_some, Option.map_some, hqos]
    · rw [update_of_ne hi]

theorem OnlyDefault.addAmbrQer (h : OnlyDefault pdn qos f)
    (hok : f.addAmbrQer cfg pdn = .ok f') : OnlyDefault pdn qos f' := by
  unfold Sx.Fill.addAmbrQer at hok
  split_ifs at hok
  · obtain ⟨b, hb, hok⟩ := Session.deref_bind_eq_ok.1 hok
    split_ifs at hok
    · exact Except.ok.inj hok ▸ h
    · obtain ⟨-, hok⟩ := Sx.inBounds_bind_eq_ok.1 hok
      cases hok
      have hqos : ({ b with
          qerIds := b.qerIds ++ [f.ids.generateQerId Sx.commonMark]
          ambrQerFlag := true } : Sx.EpsBearer).qos = b.qos := rfl
      exact h.update hb hqos rfl rfl
  · exact Except.ok.inj hok ▸ h

theorem OnlyDefault.useBearer (h : OnlyDefault pdn qos f)
    (hok : useBearer cfg pdn rule f slot = .ok f') : OnlyDefault pdn qos f' := by
  obtain ⟨_, -, hok⟩ := bind_eq_ok.1 hok
  obtain ⟨-, hok⟩ := Sx.inBounds_bind_eq_ok.1 hok
  obtain ⟨g, hambr, hok⟩ := bind_eq_ok.1 hok
  obtain ⟨b, hb, hok⟩ := Session.deref_bind_eq_ok.1 hok
  obtain ⟨b', hb', hok⟩ := bind_eq_ok.1 hok
  cases hok
  exact (h.addAmbrQer hambr).update hb (Sx.EpsBearer.added_of_addRule hb').1.qos rfl rfl

theorem eq_of_findBearer (hgx : cfg.gxEnabled = true)
    (h : f.findBearer cfg upf pdn qos = .ok (f', slot)) : f' = f := by
  unfold Sx.Fill.findBearer at h
  split_ifs at h
  · exact (congrArg Prod.fst (Except.ok.inj h)).symm
  · cases hfound : Sx.getBearer f.epsBearers qos with
    | some i =>
      rw [hfound] at h
      exact (congrArg Prod.fst (Except.ok.inj h)).symm
    | none =>
      rw [hfound] at h
      simp [Sx.Fill.createBearer, hgx, throw, throwThe, MonadExceptOf.throw] at h

theorem createBearer_leaves (hgx : cfg.gxEnabled = false) :
    Leaves (createBearer cfg upf pdn f qos) .saegwc (f.createBearer cfg upf pdn qos) := by
  have hcfg : { cfg with gxEnabled := false } = cfg := by rw [← hgx]
  unfold createBearer
  rw [hgx, hcfg]
  exact (leaves_lift _).andThen fun made => fillDedicatedBearerInfo_leaves.seq (leaves_pure made)

theorem findBearer_leaves (h : cfg.gxEnabled = true →
      pdn.defaultBearerQos = qos ∨ Sx.getBearer f.epsBearers qos ≠ none) :
    Leaves (findBearer cfg upf pdn f qos) .saegwc (f.findBearer cfg upf pdn qos) := by
  unfold findBearer Sx.Fill.findBearer
  split_ifs with hdefault
  · exact leaves_pure _
  · cases hfound : Sx.getBearer f.epsBearers qos with
    | some i => exact leaves_pure _
    | none =>
      refine createBearer_leaves (Bool.eq_false_iff.2 fun hgx => ?_)
      exact (h hgx).elim hdefault fun hsome => hsome hfound

theorem addRule_leaves (h : cfg.gxEnabled = true → OnlyDefault pdn qos f)
    (hrule : cfg.gxEnabled = true → pdn.defaultBearerQos = rule.qos ∨ qos = rule.qos) :
    Leaves (addRule cfg upf pdn f rule) .saegwc (f.addRule cfg upf pdn rule) ∧
      ∀ f', f.addRule cfg upf pdn rule = .ok f' → cfg.gxEnabled = true → OnlyDefault pdn qos f' := by
  constructor
  · refine (findBearer_leaves fun hgx => (hrule hgx).imp_right ?_).bind fun found _ => leaves_lift _
    exact fun heq hnone => (h hgx).getBearer_eq_none_iff.1 hnone heq
  · intro f' hok hgx
    obtain ⟨⟨g, slot⟩, hfound, huse⟩ := bind_eq_ok.1 hok
    obtain rfl := eq_of_findBearer hgx hfound
    exact (h hgx).useBearer huse

/-- **With Gx, the turn of a rule that needs a bearer of its own makes a PGWC of the gateway** -/
theorem run_addRule_of_dedicated (hgx : cfg.gxEnabled = true) (h : OnlyDefault pdn qos f)
    (hdefault : pdn.defaultBearerQos ≠ rule.qos) (hqos : qos ≠ rule.qos) (r : CpType) :
    (addRule cfg upf pdn f rule).run.run r = (.error .badPointer, .pgwc) := by
  have hnone : Sx.getBearer f.epsBearers rule.qos = none := h.getBearer_eq_none_iff.2 hqos
  have hroom : f.numBearer < maxBearers := by
    rw [h.numBearer]
    decide
  simp [addRule, findBearer, hdefault, hnone, createBearer, Sx.Fill.createBearer, hroom, hgx]
  rfl

theorem takePolicy_leaves {rules : List Sx.DynamicRule}
    (h : cfg.gxEnabled = true → OnlyDefault pdn qos f)
    (hrules : cfg.gxEnabled = true →
      ∀ rule ∈ rules, pdn.defaultBearerQos = rule.qos ∨ qos = rule.qos) :
    Leaves (takePolicy cfg upf pdn rules f) .saegwc
      (rules.foldlM (Sx.Fill.addRule cfg upf pdn) f >>= fun f => f.updateLast upf) := by
  have hloop : Leaves (rules.foldlM (addRule cfg upf pdn) f) .saegwc
      (rules.foldlM (Sx.Fill.addRule cfg upf pdn) f) :=
    (Leaves.foldlM (fun f hf rule hmem => addRule_leaves hf fun hgx => hrules hgx rule hmem) h).1
  exact hloop.bind fun f _ => leaves_lift _

/-- **Without a dedicated bearer, a session establishment is that of an SAEGWC, which stays
one.** -/
theorem fillPfcpSessEstReq_leaves {upf : Option UpfContext} {rules : List Sx.DynamicRule}
    {seqNo : ℕ} (h : cfg.gxEnabled = true → OnlyDefault pdn qos f)
    (hrules : cfg.gxEnabled = true → upf.isSome →
      ∀ rule ∈ rules, pdn.defaultBearerQos = rule.qos ∨ qos = rule.qos) :
    Leaves (fillPfcpSessEstReq cfg upf pdn seqNo rules f) .saegwc
      (Sx.fillPfcpSessEstReq cfg upf pdn seqNo rules f) := by
  cases upf with
  | none => exact leaves_pure _
  | some upf =>
    simp only [fillPfcpSessEstReq, Sx.fillPfcpSessEstReq]
    rw [← bind_assoc]
    refine (takePolicy_leaves h fun hgx => hrules hgx rfl).bind fun f _ => ?_
    refine Leaves.bind (Leaves.foldlM (Q := fun _ => True) ?_ trivial).1 fun req _ => leaves_pure _
    exact fun req _ pdr _ => ⟨(creatingPdr_leaves ..).seq (leaves_lift _), fun _ _ => trivial⟩

end Establishment

/-- The walk over the rules does not stop at a rule to add. -/
def AddsServed (bearers : Rar.Bearers) (rules : List PccRule) : Prop :=
  ∀ rule ∈ rules.find? fun rule => !Rar.served bearers rule, rule.action ≠ .add

instance (bearers : Rar.Bearers) (rules : List PccRule) : Decidable (AddsServed bearers rules) :=
  inferInstanceAs (Decidable (∀ rule ∈ rules.find? fun rule => !Rar.served bearers rule, _))

section Modification

variable {cfg : Config} {f f' : Rar.Fill} {callId defaultBearerId : ℕ} {qos : BearerQos}
  {slot : Fin maxBearers} {bearers bearers' : Rar.Bearers} {rule : PccRule} {rules : List PccRule}

theorem AddsServed.of_sameQos (h : AddsServed bearers rules) (hq : Rar.SameQos bearers' bearers) :
    AddsServed bearers' rules := by
  have hserved : Rar.served bearers' = Rar.served bearers := funext hq.served
  unfold AddsServed
  rwa [hserved]

theorem AddsServed.tail (h : AddsServed bearers (rule :: rules))
    (hserved : Rar.served bearers rule = true) : AddsServed bearers rules := by
  unfold AddsServed at h
  rwa [List.find?_cons_of_neg (by simp [hserved])] at h

theorem AddsServed.served_of_add (h : AddsServed bearers (rule :: rules))
    (hadd : rule.action = .add) : Rar.served bearers rule = true := by
  by_contra hserved
  have hfirst : (rule :: rules).find? (fun rule => !Rar.served bearers rule) = some rule :=
    List.find?_cons_of_pos (by simpa using hserved)
  exact h rule hfirst hadd

theorem eq_of_findBearerGx (h : f.findBearer true defaultBearerId qos = .ok (f', slot)) :
    f' = f := by
  unfold Rar.Fill.findBearer at h
  cases hfound : Rar.getBearer f.bearers qos with
  | some i =>
    rw [hfound] at h
    exact (congrArg Prod.fst (Except.ok.inj h)).symm
  | none =>
    rw [hfound] at h
    simp only at h
    split_ifs at h
    unfold Rar.Fill.createBearer at h
    split at h
    · obtain ⟨_, -, h⟩ := bind_eq_ok.1 h
      obtain ⟨_, -, h⟩ := bind_eq_ok.1 h
      cases h
    · cases h

theorem sameQos_attachRule {rule : Rar.DynamicRule}
    (h : f.attachRule callId slot rule = .ok f') : Rar.SameQos f'.bearers f.bearers := by
  obtain ⟨b, hb, h⟩ := Session.deref_bind_eq_ok.1 h
  obtain ⟨b', hattach, h⟩ := bind_eq_ok.1 h
  cases h
  unfold Rar.EpsBearer.attach at hattach
  split_ifs at hattach
  exact Rar.sameQos_update hb (congrArg Rar.EpsBearer.qos (Except.ok.inj hattach)).symm

theorem findBearerGx_leaves (h : cfg.gxEnabled = true → (Rar.getBearer f.bearers qos).isSome) :
    Leaves (findBearerGx cfg.gxEnabled f defaultBearerId qos) .saegwc
      (f.findBearer cfg.gxEnabled defaultBearerId qos) := by
  unfold findBearerGx Rar.Fill.findBearer
  cases hfound : Rar.getBearer f.bearers qos with
  | some i => exact leaves_pure _
  | none =>
    have hgx : cfg.gxEnabled = false := by
      refine Bool.eq_false_iff.2 fun hgx => ?_
      have hsome := h hgx
      rw [hfound] at hsome
      cases hsome
    simp only [hgx]
    split_ifs
    · rfl
    · exact (leaves_lift _).andThen fun made =>
        fillDedicatedBearerInfo_leaves.seq (leaves_pure made)

theorem takeRules_leaves (h : cfg.gxEnabled = true → AddsServed f.bearers rules) :
    Leaves (takeRules cfg callId defaultBearerId f rules) .saegwc
      (f.takeRules cfg.gxEnabled callId defaultBearerId rules) := by
  induction rules generalizing f with
  | nil => exact leaves_pure _
  | cons rule rules ih =>
    cases haction : rule.action with
    | add =>
      simp only [takeRules, Rar.Fill.takeRules, haction]
      have hserved (hgx : cfg.gxEnabled = true) := (h hgx).served_of_add haction
      have hfound (hgx : cfg.gxEnabled = true) :
          (Rar.getBearer f.bearers rule.dynRule.qos).isSome := by
        simpa [Rar.served, haction] using hserved hgx
      refine (findBearerGx_leaves hfound).bind fun found hg => ?_
      obtain ⟨g, slot⟩ := found
      refine Leaves.bind ?_ fun f' hf' => ih fun hgx => ?_
      · exact (creatingPdr_leaves ..).seq ((creatingPdr_leaves ..).seq (leaves_lift _))
      · rw [hgx] at hg
        obtain rfl := eq_of_findBearerGx hg
        exact ((h hgx).tail (hserved hgx)).of_sameQos (sameQos_attachRule hf')
    | modify =>
      simp only [takeRules, Rar.Fill.takeRules, haction]
      split_ifs with hfound
      · obtain ⟨_, haccess⟩ := updatingPdr_leaves cfg.gxEnabled .access
        obtain ⟨_, hcore⟩ := updatingPdr_leaves cfg.gxEnabled .core
        refine haccess.seq (hcore.seq (ih fun hgx => (h hgx).tail ?_))
        simp [Rar.served, hfound]
      · exact leaves_pure _
    | delete =>
      simp only [takeRules, Rar.Fill.takeRules, haction]
      exact ih fun hgx => (h hgx).tail (by simp [Rar.served, haction])

/-- **Without a dedicated bearer, a modification is that of an SAEGWC, which stays one.** -/
theorem fillPfcpGxSessModReq_leaves {pdn : Rar.Pdn} {table : RuleTable}
    (h : cfg.gxEnabled = true → AddsServed pdn.epsBearers pdn.pendingPccRules) :
    Leaves (fillPfcpGxSessModReq cfg pdn table) .saegwc
      (Rar.fillPfcpGxSessModReq cfg.gxEnabled pdn table) :=
  (takeRules_leaves h).bind fun _ _ => leaves_pure _

end Modification

structure Gateway where
  cpType : CpType
  running : Bool := true

/-- What assigns the role: the thread for Gx starts, an attach gets to its session establishment, a
Re-Auth-Request to its session modification, or another one creates the PDRs of a bearer. -/
inductive Event
  | msgHandlerGx
  | attach (a : Attach)
  | gxSessMod (pdn : Rar.Pdn) (table : RuleTable)
  | sessMod (bearer : Sx.EpsBearer)

/-- `config_cp_ip_port`. -/
def Gateway.configured : Gateway := { cpType := .saegwc }

@[inherit_doc Event]
def handle (cfg : Config) : Event → RoleM Unit
  | .msgHandlerGx => do let _ ← assignSaegwc; return ()
  | .attach a => do let _ ← processPfcpSessEstRequest { a with cfg }; return ()
  | .gxSessMod pdn table => do let _ ← fillPfcpGxSessModReq cfg pdn table; return ()
  | .sessMod bearer => do let _ ← fillPdrFarQerUsingBearer bearer; return ()

/-- An event comes with the configuration it meets, as `gx_enabled` can be switched. -/
def next (g : Gateway) (e : Config × Event) : Option Gateway :=
  if g.running then
    let (result, cpType) := (handle e.1 e.2).run.run g.cpType
    some { cpType, running := result.toBool }
  else
    none

/-- With Gx on, no rule needs a bearer that is not there. -/
def RoleOk (cfg : Config) : Event → Prop
  | .msgHandlerGx => True
  | .attach a => cfg.gxEnabled = true → a.found = true →
      ∀ rule ∈ a.pending, a.pdn.defaultBearerQos = rule.qos ∨ a.qos = rule.qos
  | .gxSessMod pdn _ => cfg.gxEnabled = true → AddsServed pdn.epsBearers pdn.pendingPccRules
  | .sessMod _ => True

instance (cfg : Config) (e : Event) : Decidable (RoleOk cfg e) :=
  match e with
  | .msgHandlerGx => isTrue trivial
  | .attach a => inferInstanceAs (Decidable (cfg.gxEnabled = true → a.found = true →
      ∀ rule ∈ a.pending, a.pdn.defaultBearerQos = rule.qos ∨ a.qos = rule.qos))
  | .gxSessMod pdn _ => inferInstanceAs (Decidable (cfg.gxEnabled = true →
      AddsServed pdn.epsBearers pdn.pendingPccRules))
  | .sessMod _ => isTrue trivial

theorem leaves_handled {α : Type} {m : RoleM α} {r : CpType} {x : Except Fault α}
    (h : Leaves m r x) : ∃ y, Leaves (do let _ ← m; return ()) r y :=
  ⟨x >>= fun _ => .ok (), h.bind fun _ _ => leaves_pure ()⟩

theorem onlyDefault_start (a : Attach) : OnlyDefault a.pdn a.qos a.start where
  numBearer := rfl
  slots i := by
    by_cases hi : i = a.pdn.defaultBearer
    · simp [Attach.start, Attach.defaultBearer, hi]
    · simp [Attach.start, hi]

theorem handle_leaves {cfg : Config} {e : Event} (h : RoleOk cfg e) :
    ∃ x, Leaves (handle cfg e) .saegwc x := by
  cases e with
  | msgHandlerGx => exact ⟨_, rfl⟩
  | attach a =>
    refine leaves_handled (fillPfcpSessEstReq_leaves (fun _ => onlyDefault_start a) ?_)
    intro hgx hfound
    refine h hgx ?_
    by_contra hnot
    simp [hnot] at hfound
  | gxSessMod pdn table => exact leaves_handled (fillPfcpGxSessModReq_leaves h)
  | sessMod bearer => exact leaves_handled (fillPdrFarQerUsingBearer_leaves bearer)

theorem cpType_next {g g' : Gateway} {e : Config × Event} (hg : g.cpType = .saegwc)
    (he : RoleOk e.1 e.2) (h : next g e = some g') : g'.cpType = .saegwc := by
  obtain ⟨x, hx⟩ := handle_leaves he
  unfold next at h
  rw [hg, hx] at h
  split_ifs at h
  exact Option.some.inj h ▸ rfl

/-- **With Gx, an attach that gets to a rule that needs a dedicated bearer makes a PGWC of the
gateway** -/
theorem next_attach_of_dedicated {cfg : Config} (hgx : cfg.gxEnabled = true) {a : Attach}
    (hfound : a.found = true) {pre rest : List Sx.DynamicRule} {rule : Sx.DynamicRule}
    (hpending : a.pending = pre ++ rule :: rest)
    (hpre : ∀ rule ∈ pre, a.pdn.defaultBearerQos = rule.qos ∨ a.qos = rule.qos) {f : Sx.Fill}
    (hf : pre.foldlM (Sx.Fill.addRule cfg a.upf a.pdn) a.start = .ok f)
    (hdefault : a.pdn.defaultBearerQos ≠ rule.qos) (hqos : a.qos ≠ rule.qos) :
    next .configured (cfg, .attach a) = some { cpType := .pgwc, running := false } := by
  have hturn (g : Sx.Fill) (hg : cfg.gxEnabled = true → OnlyDefault a.pdn a.qos g)
      (r : Sx.DynamicRule) (hr : r ∈ pre) :
      Leaves (addRule cfg a.upf a.pdn g r) .saegwc (g.addRule cfg a.upf a.pdn r) ∧ _ :=
    addRule_leaves hg fun _ => hpre r hr
  obtain ⟨hloop, honly⟩ := Leaves.foldlM hturn fun _ => onlyDefault_start a
  rw [hf] at hloop
  have hrule (r : CpType) : (addRule cfg a.upf a.pdn f rule).run.run r =
      (.error .badPointer, .pgwc) :=
    run_addRule_of_dedicated hgx (honly f hf hgx) hdefault hqos r
  have hrules : (a.pending.foldlM (addRule cfg a.upf a.pdn) a.start).run.run .saegwc =
      (.error .badPointer, .pgwc) := by
    rw [hpending, List.foldlM_append, hloop.run_bind, List.foldlM_cons]
    exact run_bind_of_error (hrule _)
  have hpolicy : (takePolicy cfg a.upf a.pdn a.pending a.start).run.run .saegwc =
      (.error .badPointer, .pgwc) :=
    run_bind_of_error (f := fun f : Sx.Fill => lift (f.updateLast a.upf)) hrules
  have hhandle : (handle cfg (.attach a)).run.run .saegwc = (.error .badPointer, .pgwc) := by
    simp only [handle, processPfcpSessEstRequest, hfound, if_true, fillPfcpSessEstReq]
    exact run_bind_of_error (run_bind_of_error hpolicy)
  simp only [next, Gateway.configured, hhandle, if_true]
  rfl

/-- **The role keeps its configured value while, with Gx, no rule needs a bearer that is not
there.** -/
theorem cpType_of_roleOk (run : List (Config × Event)) (h : ∀ e ∈ run, RoleOk e.1 e.2) :
    ∀ g ∈ trace next .configured run, g.cpType = Gateway.configured.cpType := by
  have hguarded : Guarded next (fun _ e => RoleOk e.1 e.2) .configured run := guarded_of_forall h _
  exact trace_invariant (fun g e g' hg he hnext => cpType_next hg he hnext) rfl hguarded

def gxConfig : Config := { gxEnabled := true }

def servedEvents : List Event :=
  [.msgHandlerGx, .attach {
      pdn := { defaultBearer := ⟨0, Rar.zero_lt_maxBearers⟩, defaultBearerQos := { qci := 9 } }
      qos := { qci := 9 }
      pending := [{ ruleName := ['a'], qos := { qci := 9 } }] },
    .gxSessMod {
      callId := 1
      defaultBearerId := 5
      numBearer := 1
      epsBearers := fun i => if (i : ℕ) = 0 then some { qos := { qci := 9 } } else none
      pendingPccRules :=
        [{ action := .add, dynRule := { ruleName := ['b'], qos := { qci := 9 } } },
          { action := .modify, dynRule := { ruleName := ['a'], qos := { qci := 9 } } }] } [],
    .sessMod { qos := { qci := 9 }, pdrs := [] }]

def servedRun : List (Config × Event) := servedEvents.map (gxConfig, ·)

theorem cpType_servedRun : (∀ e ∈ servedRun, RoleOk e.1 e.2) ∧
    ∀ g ∈ trace next .configured servedRun, g.cpType = Gateway.configured.cpType := by
  have hok : ∀ e ∈ servedRun, RoleOk e.1 e.2 := by decide
  exact ⟨hok, cpType_of_roleOk servedRun hok⟩

def dedicatedAttach : Attach where
  pdn := { defaultBearer := ⟨0, Rar.zero_lt_maxBearers⟩, defaultBearerQos := { qci := 9 } }
  qos := { qci := 9 }
  pending := [{ ruleName := ['a'], qos := { qci := 5 } }]

/-- The gateway becomes a PGWC and crashes. -/
theorem exists_cpType_ne_dedicatedAttach :
    ∃ g ∈ trace next .configured [(gxConfig, .msgHandlerGx), (gxConfig, .attach dedicatedAttach)],
      g.cpType ≠ Gateway.configured.cpType := by
  have hattach : next .configured (gxConfig, .attach dedicatedAttach) =
      some { cpType := .pgwc, running := false } :=
    next_attach_of_dedicated rfl rfl rfl (List.forall_mem_nil _) rfl (by decide) (by decide)
  refine ⟨{ cpType := .pgwc, running := false }, mem_trace_of_final ?_, by decide⟩
  exact Option.bind_eq_some_iff.2 ⟨.configured, rfl, Option.bind_eq_some_iff.2 ⟨_, hattach, rfl⟩⟩

end Spgw.Role
