/-
# Rule names along a run

`Spgw.Bearer.RuleNames` says what the table of rule names should be, and that a release keeps it so.
-/

import Spgw.Bearer.RuleNames

namespace Spgw.Bearer

open Machine Function
open Session (UePtr PdnPtr CreateSessReq deref_some sat_deref_bind)
open Rar (BearerQos RuleName RuleTable DynamicRule PccRule maxBearers ruleKey decimal)
open Spgw.Trans (TransKey)

variable {s s' : State} {c c' c'' : UeContext} {p : PdnPtr} {pdn pdn' : Pdn} {u u' : UePtr}
  {b : BearerPtr} {bearer bearer' : EpsBearer} {t t' : RuleTable} {n : ℕ} {k name : RuleName}
  {i slot : Fin maxBearers} {qos : BearerQos}

theorem UeContext.getBearer_eq_some (h : c.getBearer pdn qos = some b) :
    ∃ i bearer, pdn.epsBearers i = some b ∧ c.bearerHeap.get b = some bearer ∧ bearer.qos = qos := by
  obtain ⟨i, hfind, hb⟩ := Option.bind_eq_some_iff.mp h
  have hi := List.find?_some hfind
  unfold rarBearers at hi
  rw [hb, Option.bind_some] at hi
  cases hget : c.bearerHeap.get b with
  | none => simp [hget] at hi
  | some bearer =>
    simp only [hget, Option.map_some, beq_iff_eq] at hi
    exact ⟨i, bearer, hb, rfl, hi⟩

theorem UeContext.qos_ne_of_getBearer_eq_none (h : c.getBearer pdn qos = none)
    (hb : pdn.epsBearers i = some b) (hget : c.bearerHeap.get b = some bearer) :
    bearer.qos ≠ qos := by
  have hnone : Rar.getBearer (c.rarBearers pdn) qos = none := by
    rw [← Option.isNone_iff_eq_none, c.rarGetBearer_isNone]
    exact h
  have hi := List.find?_eq_none.mp hnone i (List.mem_finRange i)
  unfold rarBearers at hi
  rw [hb, Option.bind_some, hget, Option.map_some] at hi
  simpa using hi

def UeContext.opened (c : UeContext) (p : PdnPtr) (pdn : Pdn) (slot : Fin maxBearers)
    (qos : BearerQos) (bearer : EpsBearer) : UeContext :=
  { c.addBearer p pdn slot qos with
    bearerHeap := (c.addBearer p pdn slot qos).bearerHeap.set c.bearerHeap.next bearer }

namespace UeContext

theorem pdnHeap_opened (h : c.Tied p pdn) {q : PdnPtr}
    (hq : (c.opened p pdn slot qos bearer).pdnHeap.get q = some pdn') :
    q = p ∧ pdn'.callId = pdn.callId ∧
      pdn'.epsBearers = update pdn.epsBearers slot (some c.bearerHeap.next) := by
  change (c.pdnHeap.set p _).get q = some pdn' at hq
  rw [Heap.get_set h.get] at hq
  split_ifs at hq with hqp
  · cases hq
    exact ⟨hqp, rfl, rfl⟩
  · exact absurd (h.only q pdn' hq) hqp

theorem bearerHeap_opened (b : BearerPtr) : (c.opened p pdn slot qos bearer).bearerHeap.get b =
      if b = c.bearerHeap.next then some bearer else c.bearerHeap.get b := by
  have hnew : (c.addBearer p pdn slot qos).bearerHeap.get c.bearerHeap.next =
      some { qos, pdn := p } := by
    change (c.bearerHeap.alloc _).get _ = _
    rw [Heap.get_alloc, if_pos rfl]
  change ((c.addBearer p pdn slot qos).bearerHeap.set _ _).get b = _
  rw [Heap.get_set hnew]
  split_ifs with hb
  · rfl
  · change (c.bearerHeap.alloc _).get b = _
    rw [Heap.get_alloc, if_neg hb]

theorem Tied.ne_next (h : c.Tied p pdn) (hb : pdn.epsBearers i = some b) : b ≠ c.bearerHeap.next := by
  obtain ⟨bearer, hget, -⟩ := h.bearers i b (h.slots ▸ hb)
  exact Nat.ne_of_lt (Heap.lt_next_of_get hget)

/-- **A free slot holds the rule that has opened its bearer** -/
theorem holdsAt_opened {rule : DynamicRule} (h : c.Tied p pdn) (hfree : c.epsBearers slot = none)
    (hrules : bearer.dynamicRules = [rule])
    (hslots : pdn'.epsBearers = update pdn.epsBearers slot (some c.bearerHeap.next))
    (i : Fin maxBearers) (name : RuleName) :
    (c.opened p pdn slot qos bearer).HoldsAt pdn' i name ↔
      (i = slot ∧ name = rule.ruleName) ∨ c.HoldsAt pdn i name := by
  unfold HoldsAt
  simp only [hslots, bearerHeap_opened]
  by_cases hi : i = slot
  · subst hi
    have hnone : pdn.epsBearers i = none := by rw [h.slots, hfree]
    constructor
    · rintro ⟨b, bearer', hb, hget, rule', hmem, rfl⟩
      rw [update_self] at hb
      rw [if_pos (Option.some.inj hb).symm] at hget
      cases hget
      rw [hrules, List.mem_singleton] at hmem
      exact .inl ⟨rfl, by rw [hmem]⟩
    · rintro (⟨-, rfl⟩ | ⟨b, bearer', hb, -⟩)
      · refine ⟨c.bearerHeap.next, bearer, update_self .., if_pos rfl, rule, ?_, rfl⟩
        rw [hrules]
        exact List.mem_singleton_self rule
      · rw [hnone] at hb
        cases hb
  · rw [update_of_ne hi]
    constructor
    · rintro ⟨b, bearer', hb, hget, hrule⟩
      rw [if_neg (h.ne_next hb)] at hget
      exact .inr ⟨b, bearer', hb, hget, hrule⟩
    · rintro (⟨hslot, -⟩ | ⟨b, bearer', hb, hget, hrule⟩)
      · exact absurd hslot hi
      · exact ⟨b, bearer', hb, by rw [if_neg (h.ne_next hb), hget], hrule⟩

end UeContext

theorem sat_createBearer_eq (gx : Bool) (qos : BearerQos) (hp : c.pdnHeap.get p = some pdn) :
    Sat (createBearer gx c p qos) (fun cb => ∃ hn : pdn.numBearer < maxBearers,
      cb = (c.addBearer p pdn ⟨pdn.numBearer, hn⟩ qos, c.bearerHeap.next)) AnyFault := by
  unfold createBearer
  rw [hp, deref_some, pure_bind]
  split_ifs with hn
  · exact (sat_true _).bind fun i _ => (sat_true _).bind fun b _ => trivial
  · exact (sat_true _).bind fun i _ => (sat_true _).bind fun b _ => ⟨hn, rfl⟩
  · trivial

theorem takeRules_stuck (gx : Bool) (rules : List PccRule) {f : Fill}
    (hp : f.context.pdnHeap.get p = some pdn) (hnew : f.newBearer = true)
    (hstuck : ∀ rule ∈ rules, rule.action = .add → ∀ b bearer,
      f.context.getBearer pdn rule.dynRule.qos = some b → f.context.bearerHeap.get b = some bearer →
      bearer.pdrCount ≠ 0) :
    Sat (f.takeRules gx u p rules) (fun out => out.1 = f) AnyFault := by
  induction rules with
  | nil => exact rfl
  | cons rule rules ih =>
    have hrest := ih fun rule' hmem => hstuck rule' (List.mem_cons_of_mem rule hmem)
    unfold Fill.takeRules
    rw [hp, deref_some, pure_bind]
    cases haction : rule.action with
    | add =>
      cases hbearer : f.context.getBearer pdn rule.dynRule.qos with
      | some b =>
        unfold attachRule
        simp only [bind_assoc]
        refine sat_deref_bind fun bearer hget => ?_
        have hne := hstuck rule (List.mem_cons_self ..) haction b bearer hbearer hget
        unfold Rar.EpsBearer.attach
        rw [if_neg hne]
        trivial
      | none =>
        dsimp only
        rw [if_pos hnew]
        trivial
    | modify =>
      dsimp only
      split_ifs
      · exact hrest
      · exact rfl
    | delete => exact hrest

/-- The rule has opened a bearer: what `fill_pfcp_gx_sess_mod_req` then has in its variables. -/
def Fill.Opens (f : Fill) (p : PdnPtr) (pdn : Pdn) (rule : PccRule) (f' : Fill) : Prop :=
  ∃ hn : pdn.numBearer < maxBearers, ∃ bearer : EpsBearer, bearer.dynamicRules = [rule.dynRule] ∧
    f'.context = f.context.opened p pdn ⟨pdn.numBearer, hn⟩ rule.dynRule.qos bearer ∧
    f'.rules.ruleNames = f.rules.ruleNames.addRuleNameEntry
      (ruleKey pdn.callId rule.dynRule.ruleName) pdn.numBearer

theorem sat_attachRule_new (f : Fill) (hn : pdn.numBearer < maxBearers) (rule : PccRule) :
    Sat (attachRule u pdn (f.rules, f.context.addBearer p pdn ⟨pdn.numBearer, hn⟩ rule.dynRule.qos)
        f.context.bearerHeap.next pdn.numBearer rule.dynRule)
      (fun rc => ∃ bearer : EpsBearer, bearer.dynamicRules = [rule.dynRule] ∧ bearer.pdrCount ≠ 0 ∧
        rc.2 = f.context.opened p pdn ⟨pdn.numBearer, hn⟩ rule.dynRule.qos bearer ∧
        rc.1.ruleNames = f.rules.ruleNames.addRuleNameEntry
          (ruleKey pdn.callId rule.dynRule.ruleName) pdn.numBearer) AnyFault := by
  have hget : (f.context.addBearer p pdn ⟨pdn.numBearer, hn⟩ rule.dynRule.qos).bearerHeap.get
      f.context.bearerHeap.next = some { qos := rule.dynRule.qos, pdn := p } := by
    change (f.context.bearerHeap.alloc _).get _ = _
    rw [Heap.get_alloc, if_pos rfl]
  unfold attachRule
  rw [hget, deref_some, pure_bind]
  exact ⟨_, rfl, Nat.succ_ne_zero 1, rfl, rfl⟩

theorem takeRules_opens (gx : Bool) (rules : List PccRule) {f : Fill}
    (h : f.context.Tied p pdn) (hnew : f.newBearer = false)
    (hlacks : ∀ rule ∈ rules, rule.action = .add →
      f.context.getBearer pdn rule.dynRule.qos = none) :
    Sat (f.takeRules gx u p rules) (fun out => out.1 = f ∨
      ∃ rule ∈ rules, rule.action = .add ∧ f.Opens p pdn rule out.1) AnyFault := by
  induction rules with
  | nil => exact .inl rfl
  | cons rule rules ih =>
    have hlater : Sat (f.takeRules gx u p rules) (fun out => out.1 = f ∨
        ∃ rule' ∈ rule :: rules, rule'.action = .add ∧ f.Opens p pdn rule' out.1) AnyFault := by
      refine (ih fun rule' hmem => hlacks rule' (List.mem_cons_of_mem rule hmem)).mono ?_
      rintro out (hsame | ⟨rule', hmem, hopens⟩)
      · exact .inl hsame
      · exact .inr ⟨rule', List.mem_cons_of_mem rule hmem, hopens⟩
    unfold Fill.takeRules
    rw [h.get, deref_some, pure_bind]
    cases haction : rule.action with
    | add =>
      rw [hlacks rule (List.mem_cons_self ..) haction]
      dsimp only
      rw [if_neg (by simp [hnew])]
      refine (sat_createBearer_eq gx rule.dynRule.qos h.get).bind ?_
      rintro _ ⟨hn, rfl⟩
      refine (sat_attachRule_new f hn rule).bind ?_
      rintro ⟨r, c⟩ ⟨bearer, hrules, hpdrs, hctx, hnames⟩
      have hopens : f.Opens p pdn rule
          { rules := r, context := c, bearerId := pdn.numBearer, newBearer := true } :=
        ⟨hn, bearer, hrules, hctx, hnames⟩
      simp only at hctx
      obtain ⟨pdn', hp'⟩ : ∃ pdn', c.pdnHeap.get p = some pdn' := by
        rw [hctx]
        change ∃ pdn', (f.context.pdnHeap.set p _).get p = some pdn'
        rw [Heap.get_set h.get, if_pos rfl]
        exact ⟨_, rfl⟩
      obtain ⟨-, -, hslots⟩ := UeContext.pdnHeap_opened h (hctx ▸ hp')
      -- A rule behind it finds the new bearer, or none.
      refine (takeRules_stuck gx rules hp' rfl ?_).mono fun out hout => ?_
      · intro rule' hmem hadd b bearer' hbearer hget
        obtain ⟨i, bearer₁, hb, hget₁, hqos⟩ := UeContext.getBearer_eq_some hbearer
        cases hget.symm.trans hget₁
        simp only [hctx, UeContext.bearerHeap_opened] at hget
        split_ifs at hget with hnext
        · exact Option.some.inj hget ▸ hpdrs
        · rw [hslots, update_apply] at hb
          split_ifs at hb
          · exact absurd (Option.some.inj hb).symm hnext
          · have hnone := hlacks rule' (List.mem_cons_of_mem rule hmem) hadd
            exact absurd hqos (UeContext.qos_ne_of_getBearer_eq_none hnone hb hget)
      · exact .inr ⟨rule, List.mem_cons_self .., haction, hout ▸ hopens⟩
    | modify =>
      dsimp only
      split_ifs
      · exact hlater
      · exact .inl rfl
    | delete => exact hlater

structure Opened (c : UeContext) (t : RuleTable) (p : PdnPtr) (pdn : Pdn) (rule : PccRule)
    (c' : UeContext) (t' : RuleTable) : Prop where
  slot : ∃ hn : pdn.numBearer < maxBearers, ∀ q pdn', c'.pdnHeap.get q = some pdn' →
    pdn'.callId = pdn.callId ∧ (c.epsBearers ⟨pdn.numBearer, hn⟩ = none → ∀ i name,
      c'.HoldsAt pdn' i name ↔
        ((i : ℕ) = pdn.numBearer ∧ name = rule.dynRule.ruleName) ∨ c.HoldsAt pdn i name)
  table : t' = t.addRuleNameEntry (ruleKey pdn.callId rule.dynRule.ruleName) pdn.numBearer

theorem sat_activateBearers_opens (gx admitted : Bool) (rc : Rules × UeContext)
    (h : rc.2.Tied p pdn)
    (hlacks : ∀ rule ∈ pdn.pendingPccRules, rule.action = .add →
      rc.2.getBearer pdn rule.dynRule.qos = none) :
    Sat (activateBearers gx admitted u p rc) (fun rc' =>
      (rc'.1.ruleNames = rc.1.ruleNames ∧ rc.2.SameRules rc'.2) ∨
      ∃ rule ∈ pdn.pendingPccRules, rule.action = .add ∧
        Opened rc.2 rc.1.ruleNames p pdn rule rc'.2 rc'.1.ruleNames) AnyFault := by
  have hsame {c : UeContext} {pdn₁ : Pdn} (hp₁ : c.pdnHeap.get p = some pdn₁)
      (left : List PccRule) : c.SameRules (c.setPending p pdn₁ left) :=
    .of_maps (fun q => Heap.map_get_set hp₁ rfl) fun _ => rfl
  unfold activateBearers
  rw [h.get, deref_some, pure_bind]
  split_ifs
  · exact .inl ⟨rfl, .of_maps (fun _ => rfl) fun _ => rfl⟩
  · trivial
  · unfold fillPfcpGxSessModReq
    simp only [bind_assoc, pure_bind, h.get, deref_some]
    refine (takeRules_opens gx _ (f := { rules := rc.1, context := rc.2 }) h rfl hlacks).bind ?_
    rintro ⟨f, left⟩ hout
    refine sat_deref_bind fun pdn₁ hp₁ => (sat_true _).bind fun pdn₂ _ => ?_
    split_ifs
    · trivial
    · rcases hout with rfl | ⟨rule, hmem, hadd, hn, bearer, hrules, hctx, hnames⟩
      · exact .inl ⟨rfl, hsame hp₁ left⟩
      · refine .inr ⟨rule, hmem, hadd, ⟨hn, fun q pdn' hq => ?_⟩, hnames⟩
        obtain ⟨pdn₃, hp₃, hcall, hholds⟩ := hsame hp₁ left q pdn' hq
        simp only at hctx
        obtain ⟨-, hcall₃, hslots⟩ := UeContext.pdnHeap_opened h (hctx ▸ hp₃)
        refine ⟨hcall.trans hcall₃, fun hfree i name => (hholds i name).trans ?_⟩
        simp only [hctx]
        rw [UeContext.holdsAt_opened h hfree hrules hslots, Fin.ext_iff]

def State.nextCallId (s : State) : ℕ :=
  if s.gxEnabled then (s.callIdOffset + 1) % 2 ^ 32 else 0

def State.Replaced (s : State) (csr : CreateSessReq) : Prop :=
  ∀ u ∈ s.ueByImsi csr.imsiDigits, ∀ c ∈ s.ues.get u, ∀ v ∈ s.ueByTeid c.s11SgwGtpcTeid,
    ∀ d ∈ s.ues.get v, ∀ p < d.pdnHeap.next, ∀ pdn ∈ d.pdnHeap.get p,
      pdn.numBearer ≤ occupied d.epsBearers

def UeContext.EndsNot (d : UeContext) (k : RuleName) : Prop :=
  ∀ q < d.pdnHeap.next, ∀ pdn ∈ d.pdnHeap.get q, ¬ decimal pdn.callId <:+ k

def State.OpensFree (s : State) (u : UePtr) (p : PdnPtr) (rules : List PccRule) : Prop :=
  ∀ c ∈ s.ues.get u, ∀ pdn ∈ c.pdnHeap.get p, ∀ rule ∈ pdn.pendingPccRules ++ rules,
    rule.action = .add → c.getBearer pdn rule.dynRule.qos = none ∧
      (∀ hn : pdn.numBearer < maxBearers, c.epsBearers ⟨pdn.numBearer, hn⟩ = none) ∧
      s.rules.ruleNames.lookup (ruleKey pdn.callId rule.dynRule.ruleName) = none ∧
      ∀ v < s.ues.next, v ≠ u → ∀ d ∈ s.ues.get v,
        d.EndsNot (ruleKey pdn.callId rule.dynRule.ruleName)

/-- The event enters no name that is in the table, and loses none. -/
def Exactly (s : State) : Event → Prop
  | .createSessionRequest _ _ csr =>
    s.Replaced csr ∧ ∀ e ∈ s.rules.ruleNames, ¬ decimal s.nextCallId <:+ e.1
  | .policy _ _ update => update.named = none
  | .sessionEstablishment _ _ upfFound => upfFound = false
  | .reAuthRequest u p release _ rules => release = false → s.OpensFree u p rules
  | _ => True

instance (d : UeContext) (k : RuleName) : Decidable (d.EndsNot k) :=
  inferInstanceAs (Decidable (∀ q < d.pdnHeap.next, ∀ pdn ∈ d.pdnHeap.get q, _))

instance (s : State) : DecidablePred (Exactly s)
  | .createSessionRequest _ _ csr => inferInstanceAs (Decidable ((∀ u ∈ s.ueByImsi csr.imsiDigits,
      ∀ c ∈ s.ues.get u, ∀ v ∈ s.ueByTeid c.s11SgwGtpcTeid, ∀ d ∈ s.ues.get v,
        ∀ p < d.pdnHeap.next, ∀ pdn ∈ d.pdnHeap.get p, _) ∧ ∀ e ∈ s.rules.ruleNames, _))
  | .policy _ _ update => inferInstanceAs (Decidable (update.named = none))
  | .sessionEstablishment _ _ upfFound => inferInstanceAs (Decidable (upfFound = false))
  | .reAuthRequest u p _ _ rules => inferInstanceAs (Decidable (_ → ∀ c ∈ s.ues.get u,
      ∀ pdn ∈ c.pdnHeap.get p, ∀ rule ∈ pdn.pendingPccRules ++ rules, _ → _ ∧ _ ∧ _ ∧
        ∀ v < s.ues.next, _ → ∀ d ∈ s.ues.get v, _))
  | .config _ | .procedures _ | .queue .. | .createBearerResponse .. | .release .. =>
    instDecidableTrue

theorem UeContext.EndsNot.not_hasKey (h : c.EndsNot k) : ¬ c.HasKey k := by
  rintro ⟨p, pdn, name, hp, rfl⟩
  exact h p (Heap.lt_next_of_get hp) pdn hp (List.suffix_append name _)

theorem State.RuleNamesExact.of_opened {rule : PccRule} (hs : s.RuleNamesExact)
    (hues : s'.ues = s.ues.set u c') (hc : s.ues.get u = some c) (hp : c.pdnHeap.get p = some pdn)
    (hopened : Opened c s.rules.ruleNames p pdn rule c' s'.rules.ruleNames)
    (hfree : ∀ hn : pdn.numBearer < maxBearers, c.epsBearers ⟨pdn.numBearer, hn⟩ = none)
    (hnone : s.rules.ruleNames.lookup (ruleKey pdn.callId rule.dynRule.ruleName) = none)
    (hothers : ∀ v d, v ≠ u → s.ues.get v = some d →
      ¬ d.HasKey (ruleKey pdn.callId rule.dynRule.ruleName)) : s'.RuleNamesExact := by
  obtain ⟨hn, hslot⟩ := hopened.slot
  have hlookup := lookup_addRuleNameEntry hnone pdn.numBearer
  rw [← hopened.table] at hlookup
  have hold : ∀ v d, s'.ues.get v = some d → (v = u ∧ d = c') ∨ (v ≠ u ∧ s.ues.get v = some d) := by
    intro v d hd
    rw [hues, Heap.get_set hc] at hd
    split_ifs at hd with hv
    · exact .inl ⟨hv, (Option.some.inj hd).symm⟩
    · exact .inr ⟨hv, hd⟩
  have hkey {k : RuleName} (hk : c'.HasKey k) : c.HasKey k := by
    obtain ⟨q, pdn', name, hq, rfl⟩ := hk
    exact ⟨p, pdn, name, hp, by rw [(hslot q pdn' hq).1]⟩
  -- The keys of the other contexts are looked up as before.
  have hother {v : UePtr} {d : UeContext} (hv : v ≠ u) (hd : s.ues.get v = some d) {k : RuleName}
      (hk : d.HasKey k) : s'.rules.ruleNames.lookup k = s.rules.ruleNames.lookup k := by
    rw [hlookup, if_neg]
    rintro rfl
    exact hothers v d hv hd hk
  constructor
  · intro v d hd q pdn' hq name n
    rcases hold v d hd with ⟨rfl, rfl⟩ | ⟨hv, hd⟩
    · obtain ⟨hcall, hholds⟩ := hslot q pdn' hq
      have hexact := hs.exact v c hc p pdn hp
      simp only [hcall, hholds (hfree hn), hlookup]
      by_cases hname : name = rule.dynRule.ruleName
      · -- The new entry; no bearer has held the rule before.
        subst hname
        rw [if_pos rfl]
        constructor
        · intro heq
          exact ⟨⟨pdn.numBearer, hn⟩, Option.some.inj heq, .inl ⟨rfl, rfl⟩⟩
        · rintro ⟨i, rfl, ⟨hi, -⟩ | hholds⟩
          · rw [hi]
          · rw [(hexact _ _).mpr ⟨i, rfl, hholds⟩] at hnone
            cases hnone
      · rw [if_neg fun h => hname (ruleKey_inj h), hexact]
        constructor
        · rintro ⟨i, hi, hholds⟩
          exact ⟨i, hi, .inr hholds⟩
        · rintro ⟨i, hi, ⟨-, heq⟩ | hholds⟩
          · exact absurd heq hname
          · exact ⟨i, hi, hholds⟩
    · rw [hother hv hd ⟨q, pdn', name, hq, rfl⟩]
      exact hs.exact v d hd q pdn' hq name n
  · intro v d v' e hd he hne k hk hk'
    rcases hold v d hd with ⟨rfl, rfl⟩ | ⟨hv, hd⟩
    · rcases hold v' e he with ⟨rfl, -⟩ | ⟨hv', he⟩
      · exact absurd rfl hne
      · rw [hother hv' he hk']
        exact hs.apart v c v' e hc he hne k (hkey hk) hk'
    · rw [hother hv hd hk]
      rcases hold v' e he with ⟨rfl, rfl⟩ | ⟨-, he⟩
      · exact hs.apart v d v' c hd hc hne k hk (hkey hk')
      · exact hs.apart v d v' e hd he hne k hk hk'

theorem lookup_ruleKey_eq_none {callId : ℕ} (h : ∀ e ∈ t, ¬ decimal callId <:+ e.1)
    (name : RuleName) : t.lookup (ruleKey callId name) = none := by
  cases hlookup : t.lookup (ruleKey callId name) with
  | none => rfl
  | some v =>
    obtain ⟨l₁, l₂, rfl, -⟩ := List.lookup_eq_some_iff.mp hlookup
    exact absurd (List.suffix_append name _) (h (ruleKey callId name, v) (by simp))

theorem State.RuleNamesExact.of_new (hs : s.RuleNamesExact) (hues : s'.ues = s.ues.alloc c)
    (hrules : s'.rules = s.rules)
    (hfresh : ∀ e ∈ s.rules.ruleNames, ¬ decimal s.nextCallId <:+ e.1)
    (hpdns : c.pdnHeap = ({} : Heap Pdn).alloc pdn) (hcall : pdn.callId = s.nextCallId)
    (hbearers : c.bearerHeap = ({} : Heap EpsBearer).alloc bearer)
    (hnone : bearer.dynamicRules = []) : s'.RuleNamesExact := by
  refine hs.of_alloc hues (by rw [hrules]) ?_ ?_
  · rintro k ⟨p, pdn', name, hp, rfl⟩
    rw [hpdns, Heap.get_alloc] at hp
    split_ifs at hp
    · rw [← Option.some.inj hp, hcall]
      exact lookup_ruleKey_eq_none hfresh name
    · cases hp
  · rintro pdn' i name ⟨b, bearer', -, hget, rule, hmem, -⟩
    rw [hbearers, Heap.get_alloc] at hget
    split_ifs at hget
    · rw [← Option.some.inj hget, hnone] at hmem
      cases hmem
    · cases hget

theorem exact_startGx (env : Env) (hs : s.RuleNamesExact)
    (hfresh : ∀ e ∈ s.rules.ruleNames, ¬ decimal s.nextCallId <:+ e.1)
    (hues : s'.ues = s.ues.alloc c) (hrules : s'.rules = s.rules)
    (hgx : s'.gxEnabled = s.gxEnabled) (hoffset : s'.callIdOffset = s.callIdOffset)
    (hpdns : c.pdnHeap = ({} : Heap Pdn).alloc pdn) (hcall : pdn.callId = 0)
    (hbearers : c.bearerHeap = ({} : Heap EpsBearer).alloc bearer)
    (hnone : bearer.dynamicRules = []) :
    Sat (startGx env s' s.ues.next) State.RuleNamesExact AnyFault := by
  have hget : s'.ues.get s.ues.next = some c := by rw [hues, Heap.get_alloc, if_pos rfl]
  have hp : c.pdnHeap.get 0 = some pdn := by rw [hpdns]; rfl
  unfold startGx
  split_ifs with hoff
  · have hnext : pdn.callId = s.nextCallId := by
      rw [hcall, State.nextCallId, ← hgx, hoff]
      rfl
    exact hs.of_new hues hrules hfresh hpdns hnext hbearers hnone
  · rw [hget, deref_some, pure_bind, hp, deref_some, pure_bind]
    obtain ⟨gxSessId, hset⟩ := genCcrRequest_ues env s' s.ues.next c pdn
    rw [hues, Heap.set_alloc] at hset
    have hkept : (genCcrRequest env s' s.ues.next c pdn).rules = s.rules := by
      rw [genCcrRequest_rules, hrules]
    have hnext : (s'.callIdOffset + 1) % 2 ^ 32 = s.nextCallId := by
      rw [State.nextCallId, if_pos (by rw [← hgx]; simpa using hoff), hoffset]
    have hpdns' : c.pdnHeap.set 0 { pdn with
        callId := (s'.callIdOffset + 1) % 2 ^ 32
        gxSessId } = ({} : Heap Pdn).alloc { pdn with
        callId := (s'.callIdOffset + 1) % 2 ^ 32
        gxSessId } := by
      rw [hpdns]
      rfl
    exact hs.of_new hset hkept hfresh hpdns' hnext hbearers hnone

theorem exact_startAttach (env : Env) (key : TransKey) (csr : CreateSessReq)
    (hs : s.RuleNamesExact) (hfresh : ∀ e ∈ s.rules.ruleNames, ¬ decimal s.nextCallId <:+ e.1) :
    Sat (startAttach env s key csr) State.RuleNamesExact AnyFault := by
  unfold startAttach
  simp only
  split_ifs
  · exact ⟨hs.exact, hs.apart⟩
  · refine (sat_processCreateSessReq env s csr).bind ?_
    rintro _ (rfl | ⟨imsi, -, rfl | ⟨i, -, rfl⟩⟩)
    · exact ⟨hs.exact, hs.apart⟩
    · refine hs.of_alloc rfl rfl ?_ ?_
      · rintro k ⟨p, pdn, name, hp, -⟩
        cases hp
      · rintro pdn i name ⟨b, bearer, -, hget, -⟩
        cases hget
    · have hget : (s.openContext env imsi csr.ebi i).ues.get s.ues.next =
          some (newContext imsi s.nextTeid csr.ebi i env.upf env.qos) := by
        change (s.ues.alloc _).get s.ues.next = _
        rw [Heap.get_alloc, if_pos rfl]
      simp only [hget, deref_some, pure_bind]
      have hues : ((s.openContext env imsi csr.ebi i).setUe s.ues.next
          { newContext imsi s.nextTeid csr.ebi i env.upf env.qos with
            pendingSubProcs := [s.procedures.procs.next] }).ues =
          s.ues.alloc { newContext imsi s.nextTeid csr.ebi i env.upf env.qos with
            pendingSubProcs := [s.procedures.procs.next] } := Heap.set_alloc
      exact exact_startGx env hs hfresh hues rfl rfl rfl rfl rfl rfl rfl

theorem exact_replaceOldContext {csr : CreateSessReq} (hlinked : s.Linked) (hs : s.RuleNamesExact)
    (hreplaced : s.Replaced csr) :
    Sat (replaceOldContext s csr) (fun s' => s'.RuleNamesExact ∧ s'.rules = s.rules ∧
      s'.nextCallId = s.nextCallId) AnyFault := by
  unfold replaceOldContext
  cases himsi : s.ueByImsi csr.imsiDigits with
  | none => exact ⟨hs, rfl, rfl⟩
  | some u =>
    refine sat_deref_bind fun c hc => (sat_true _).bind fun _ _ => ?_
    cases hteid : s.ueByTeid c.s11SgwGtpcTeid with
    | none =>
      simp only [processErrorOccuredHandlerNew, hteid]
      exact ⟨hs, rfl, rfl⟩
    | some v =>
      refine sat_iff.mpr ⟨fun s' hs' => ?_, fun _ _ => trivial⟩
      obtain ⟨d, p, pdn, hd, hp, htied⟩ :=
        exists_tied_of_processErrorOccuredHandlerNew hlinked hteid hs'
      obtain ⟨bearers, hok⟩ := processErrorOccuredHandlerNew_eq_ok hteid hd hp htied
      obtain ⟨-, w, -, ⟨-, -, rfl⟩ | ⟨hlt, -⟩⟩ := (hok s').mp hs'
      · exact ⟨hs.of_free rfl hd fun k => .inl rfl, rfl, rfl⟩
      · have hle := hreplaced u himsi c hc v hteid d hd p (Heap.lt_next_of_get htied.get) pdn
          htied.get
        exact absurd hlt (Nat.not_lt.mpr hle)

theorem exact_processRarRequestHandler {release admitted : Bool} {rules : List PccRule}
    (hlinked : s.Linked) (hs : s.RuleNamesExact)
    (he : release = false → s.OpensFree u p rules) :
    Sat (processRarRequestHandler s u p release admitted rules) State.RuleNamesExact AnyFault := by
  unfold processRarRequestHandler
  refine sat_deref_bind fun c hc => ?_
  refine sat_deref_bind fun pdn hp => ?_
  -- The rules are on the list of the policy, and the bearers are still the old ones.
  set c₀ := c.setPending p pdn (pdn.pendingPccRules ++ rules) with hc₀
  set pdn₀ : Pdn := { pdn with pendingPccRules := pdn.pendingPccRules ++ rules } with hpdn₀
  have hsame : c.SameRules c₀ := .of_maps (fun q => Heap.map_get_set hp rfl) fun _ => rfl
  have hs₀ : (s.setUe u c₀).RuleNamesExact := hs.of_set rfl hc rfl hsame
  have hget₀ : (s.setUe u c₀).ues.get u = some c₀ := by
    change (s.ues.set u c₀).get u = _
    rw [Heap.get_set hc, if_pos rfl]
  have hp₀ : c₀.pdnHeap.get p = some pdn₀ := by
    change (c.pdnHeap.set p _).get p = _
    rw [Heap.get_set hp, if_pos rfl]
  have htied : c₀.Tied p pdn₀ :=
    ((UeContext.rulesOnly_setPending hp _).keeps.wellFormed (hlinked.context u c hc)).tied hp₀
  split_ifs with hrelease
  · exact hs₀
  · have hopens := he (Bool.eq_false_of_not_eq_true hrelease) c hc pdn hp
    have hlacks : ∀ rule ∈ pdn₀.pendingPccRules, rule.action = .add →
        c₀.getBearer pdn₀ rule.dynRule.qos = none :=
      fun rule hmem hadd => (hopens rule hmem hadd).1
    refine (sat_activateBearers_opens s.gxEnabled admitted (s.rules, c₀) htied hlacks).bind ?_
    rintro ⟨r, c'⟩ hout
    refine (sat_true _).bind fun pdn₂ _ => (sat_true _).bind fun found _ => ?_
    cases found with
    | false => trivial
    | true =>
      have hues : (s.setUe u c').ues = (s.setUe u c₀).ues.set u c' :=
        (Heap.set_set (h := s.ues)).symm
      rcases hout with ⟨hnames, hsame'⟩ | ⟨rule, hmem, hadd, hopened⟩
      · exact hs₀.of_set hues hget₀ hnames hsame'
      · obtain ⟨-, hfree, hnone, hothers⟩ := hopens rule hmem hadd
        refine hs₀.of_opened hues hget₀ hp₀ hopened hfree hnone fun v d hv hd => ?_
        change (s.ues.set u c₀).get v = some d at hd
        rw [Heap.get_set hc, if_neg hv] at hd
        exact (hothers v (Heap.lt_next_of_get hd) hv d hd).not_hasKey

theorem exact_step (e : Event) (hlinked : s.Linked) (hs : s.RuleNamesExact) (he : Exactly s e) :
    Sat (step s e) State.RuleNamesExact AnyFault := by
  cases e with
  | config gx => exact ⟨hs.exact, hs.apart⟩
  | procedures w => exact ⟨hs.exact, hs.apart⟩
  | queue u queue =>
    refine sat_deref_bind fun c hc => ?_
    exact hs.of_set rfl hc rfl (.of_maps (fun _ => rfl) fun _ => rfl)
  | createSessionRequest env key csr =>
    refine (exact_replaceOldContext hlinked hs he.1).bind ?_
    rintro s₁ ⟨hs₁, hrules, hcall⟩
    exact exact_startAttach env key csr hs₁ (by rw [hrules, hcall]; exact he.2)
  | policy u p update =>
    have hnamed : update.named = none := he
    refine sat_deref_bind fun c hc => ?_
    refine sat_deref_bind fun pdn hp => ?_
    refine (sat_true _).bind fun i _ => (sat_true _).bind fun b _ => ?_
    refine sat_deref_bind fun bearer hb => ?_
    rw [hnamed]
    exact hs.of_set rfl hc rfl
      (.of_maps (fun _ => Heap.map_get_set hp rfl) fun _ => Heap.map_get_set hb rfl)
  | sessionEstablishment u p upfFound =>
    have hupf : upfFound = false := he
    subst hupf
    change Sat (processPfcpSessEstRequest s u p false) _ _
    unfold processPfcpSessEstRequest
    refine sat_deref_bind fun c hc => (sat_true _).bind fun pdn _ => ?_
    refine (sat_true _).bind fun i _ => (sat_true _).bind fun b _ => ?_
    exact hs.of_set rfl hc rfl (.of_maps (fun _ => rfl) fun _ => rfl)
  | reAuthRequest u p release admitted rules => exact exact_processRarRequestHandler hlinked hs he
  | createBearerResponse u ebi =>
    change Sat (processCreateBearerRsp s u ebi) _ _
    unfold processCreateBearerRsp
    refine sat_deref_bind fun c hc => (sat_true _).bind fun i _ => ?_
    cases c.epsBearers i with
    | none => exact hs
    | some b =>
      refine sat_deref_bind fun bearer hb => ?_
      exact hs.of_set rfl hc rfl (.of_maps (fun _ => rfl) fun _ => Heap.map_get_set hb rfl)
  | release u p =>
    refine ((sat_releaseSession fun c hc => hlinked.context u c hc).and
      (ruleNames_releaseSession hlinked)).mono ?_
    rintro s' ⟨⟨c, pdn, r, hc, htied, rfl⟩, hentries⟩
    exact hs.of_free rfl hc (hentries c pdn hc htied)

/-- A name is in the table exactly if a bearer has the rule, with the place of that bearer. -/
structure State.RuleNamesSound (s : State) : Prop where
  entry_iff : ∀ u c p pdn name, s.ues.get u = some c → c.pdnHeap.get p = some pdn →
    ((s.rules.ruleNames.lookup (ruleKey pdn.callId name)).isSome ↔ ∃ i, c.HoldsAt pdn i name)
  value : ∀ u c p pdn name v i, s.ues.get u = some c → c.pdnHeap.get p = some pdn →
    s.rules.ruleNames.lookup (ruleKey pdn.callId name) = some v → c.HoldsAt pdn i name → v = i
  distinct : ∀ u c p pdn name u' c' p' pdn' name', s.ues.get u = some c →
    c.pdnHeap.get p = some pdn → s.ues.get u' = some c' → c'.pdnHeap.get p' = some pdn' →
    (s.rules.ruleNames.lookup (ruleKey pdn.callId name)).isSome →
    (s.rules.ruleNames.lookup (ruleKey pdn'.callId name')).isSome →
    ruleKey pdn.callId name = ruleKey pdn'.callId name' →
    (name, pdn.callId) = (name', pdn'.callId)

theorem State.RuleNamesExact.sound (hs : s.RuleNamesExact) (hlinked : s.Linked) :
    s.RuleNamesSound where
  entry_iff u c p pdn name hc hp := by
    rw [Option.isSome_iff_exists]
    constructor
    · rintro ⟨v, hv⟩
      obtain ⟨i, -, hi⟩ := (hs.exact u c hc p pdn hp name v).mp hv
      exact ⟨i, hi⟩
    · rintro ⟨i, hi⟩
      exact ⟨i, (hs.exact u c hc p pdn hp name i).mpr ⟨i, rfl, hi⟩⟩
  value u c p pdn name v i hc hp hv hi := by
    rw [(hs.exact u c hc p pdn hp name i).mpr ⟨i, rfl, hi⟩] at hv
    exact (Option.some.inj hv).symm
  distinct u c p pdn name u' c' p' pdn' name' hc hp hc' hp' hentry _ heq := by
    by_cases huu : u = u'
    · subst huu
      cases hc.symm.trans hc'
      have htied := (hlinked.context u c hc).tied hp
      obtain rfl := htied.only p' pdn' hp'
      cases hp.symm.trans hp'
      rw [ruleKey_inj heq]
    · have hnone := hs.apart u c u' c' hc hc' huu _ ⟨p, pdn, name, hp, rfl⟩
        ⟨p', pdn', name', hp', heq⟩
      rw [hnone] at hentry
      cases hentry

/-- **In every state of a run whose events are of these kinds, the table of rule names has exactly
the rules of the bearers, with their indexes, under different keys.** -/
theorem ruleNamesSound_of_guarded (gx : Bool) {es : List Event}
    (h : Guarded next Exactly (initial gx) es) :
    ∀ s ∈ trace next (initial gx) es, s.RuleNamesSound := by
  have hboth : ∀ s ∈ trace next (initial gx) es, s.Linked ∧ s.RuleNamesExact := by
    refine linked_and_of_guarded ?_ ⟨fun u c hc => (nomatch hc), fun u c u' c' hc => (nomatch hc)⟩ h
    exact fun s e t hlinked hs he ht => of_next (exact_step e hlinked hs he) ht
  exact fun s hs => (hboth s hs).2.sound (hboth s hs).1

/-- A Re-Auth-Request opens a bearer for the rule `a` and then asks for its removal. -/
def Demo.opening : List Event :=
  [attach 5, .config false, .reAuthRequest 0 0 false true
      [rule .add 'a' ⟨5, 2, 1, 0⟩, rule .modify 'm' ⟨6, 3, 1, 0⟩, rule .delete 'a' {}],
    .createBearerResponse 0 6, .release 0 0]

theorem ruleNamesSound_opening : (final next (initial true) Demo.opening).isSome ∧
      ∀ s ∈ trace next (initial true) Demo.opening, s.RuleNamesSound :=
  ⟨by decide +kernel, ruleNamesSound_of_guarded true (by decide +kernel)⟩

def Demo.withoutGx : List Event :=
  [attach 5, .policy 0 0 { rules := [rule .add 'd' {}] }, .sessionEstablishment 0 0 true]

/-- **The establishment of a session enters the identifier 5 for the bearer with the index 0.** -/
theorem not_ruleNamesSound_established :
    ∃ s, final next (initial false) Demo.withoutGx = some s ∧ ¬ s.RuleNamesSound := by
  have hrun : ∃ s c pdn b bearer, final next (initial false) Demo.withoutGx = some s ∧
      s.ues.get 0 = some c ∧ c.pdnHeap.get 0 = some pdn ∧
      pdn.epsBearers ⟨0, by decide⟩ = some b ∧ c.bearerHeap.get b = some bearer ∧
      bearer.dynamicRules = [{ ruleName := ['d'], qos := {} }] ∧
      s.rules.ruleNames.lookup (ruleKey pdn.callId ['d']) = some 5 :=
    ⟨_, _, _, _, _, rfl, rfl, rfl, rfl, rfl, rfl, rfl⟩
  obtain ⟨s, c, pdn, b, bearer, hfinal, hc, hp, hb, hget, hrules, hentry⟩ := hrun
  refine ⟨s, hfinal, fun hsound => ?_⟩
  have hholds : c.HoldsAt pdn ⟨0, by decide⟩ ['d'] :=
    ⟨b, bearer, hb, hget, _, hrules ▸ List.mem_singleton_self _, rfl⟩
  exact absurd (hsound.value 0 c 0 pdn _ 5 _ hc hp hentry hholds) (by decide)

end Spgw.Bearer
