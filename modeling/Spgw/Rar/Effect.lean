/-
# What an answered Re-Auth-Request has done to the PDN

`RulesApplied` is what a Re-Auth-Request asks for: its rules to install are on the bearer
of their QoS, its rules to remove are on no bearer, and whatever it does not concern is
as it was.
-/

import Spgw.Rar.Answer

namespace Spgw.Rar

def Waiting.bearers (s : Waiting) : Bearers :=
  match s.pdn with
  | some pdn => pdn.epsBearers
  | none => fun _ => none

/-- The rules of `charging_rule_install` that have a name. -/
def GxRar.Installs (msg : GxRar) (rule : DynamicRule) : Prop :=
  ∃ definition ∈ msg.chargingRuleInstall.flatten, definition.chargingRuleName = some rule.ruleName ∧
      rule = fillChargingRuleDefinition rule.ruleName definition

/-- The names in `charging_rule_remove`, all of them. -/
def GxRar.Removes (msg : GxRar) (name : RuleName) : Prop :=
  ∃ first others, some (first, others) ∈ msg.chargingRuleRemove ∧ name ∈ first :: others

/-- The rule is released, installed anew or removed. -/
def GxRar.ConcernsRule (msg : GxRar) (rule : DynamicRule) : Prop :=
  msg.sessionReleaseCause = true ∨
    (∃ installed, msg.Installs installed ∧ installed.ruleName = rule.ruleName) ∨
    msg.Removes rule.ruleName

/-- The bearer is released, or has or gets a rule of the request. -/
def GxRar.ConcernsBearer (msg : GxRar) (bearer : EpsBearer) : Prop :=
  msg.sessionReleaseCause = true ∨ (∃ rule ∈ bearer.dynamicRules, msg.ConcernsRule rule) ∨
    ∃ installed, msg.Installs installed ∧ installed.qos = bearer.qos

/-- The bearer in the slot has the rule. -/
def AttachedAt (bearers : Bearers) (slot : Fin maxBearers) (rule : DynamicRule) : Prop :=
  ∃ bearer, bearers slot = some bearer ∧ rule ∈ bearer.dynamicRules

/-- The request has been applied, and nothing else has changed. -/
structure RulesApplied (msg : GxRar) (before after : Bearers) : Prop where
  installed : ∀ rule, msg.Installs rule →
    ∃ slot bearer, after slot = some bearer ∧ bearer.qos = rule.qos ∧ rule ∈ bearer.dynamicRules
  removed : ∀ rule, msg.Removes rule.ruleName → ∀ slot, ¬ AttachedAt after slot rule
  bearersKept : ∀ slot bearer, before slot = some bearer → ¬ msg.ConcernsBearer bearer →
    after slot = some bearer
  rulesKept : ∀ slot rule, AttachedAt before slot rule → ¬ msg.ConcernsRule rule →
    AttachedAt after slot rule
  bearersNew : ∀ slot bearer, after slot = some bearer → ¬ msg.ConcernsBearer bearer →
    before slot = some bearer
  rulesNew : ∀ slot rule, AttachedAt after slot rule → ¬ msg.ConcernsRule rule →
    AttachedAt before slot rule

/-- Nothing is installed, and all there is is concerned. -/
structure ConcernsAll (msg : GxRar) (before : Bearers) : Prop where
  installs : ∀ rule, ¬ msg.Installs rule
  bearers : ∀ slot bearer, before slot = some bearer → msg.ConcernsBearer bearer
  rules : ∀ slot rule, AttachedAt before slot rule → msg.ConcernsRule rule

theorem not_attachedAt_none {slot : Fin maxBearers} {rule : DynamicRule} :
    ¬ AttachedAt (fun _ => none) slot rule := by
  rintro ⟨bearer, hbearer, _⟩
  cases hbearer

theorem rulesApplied_none_iff {msg : GxRar} {before : Bearers} :
    RulesApplied msg before (fun _ => none) ↔ ConcernsAll msg before := by
  constructor
  · intro h
    refine ⟨?_, ?_, ?_⟩
    · intro rule hrule
      obtain ⟨_, _, hnone, _⟩ := h.installed rule hrule
      cases hnone
    · intro slot bearer hbearer
      by_contra hconcerns
      cases h.bearersKept slot bearer hbearer hconcerns
    · intro slot rule hrule
      by_contra hconcerns
      exact not_attachedAt_none (h.rulesKept slot rule hrule hconcerns)
  · intro h
    refine ⟨?_, ?_, ?_, ?_, ?_, ?_⟩
    · exact fun rule hrule => (h.installs rule hrule).elim
    · exact fun rule _ slot => not_attachedAt_none
    · exact fun slot bearer hbearer hconcerns => (hconcerns (h.bearers slot bearer hbearer)).elim
    · exact fun slot rule hrule hconcerns => (hconcerns (h.rules slot rule hrule)).elim
    · exact fun slot bearer hbearer => by cases hbearer
    · exact fun slot rule hrule => (not_attachedAt_none hrule).elim

theorem Waiting.pdn_afterEnd {s t : Waiting} {child : Proc} (h : s.afterEnd child = .ok t) :
    (child.procType = .nwInitDetach ∧ t.pdn = none) ∨
      (child.procType ≠ .nwInitDetach ∧ t.pdn = s.pdn) := by
  rw [Waiting.afterEnd_eq_ok] at h
  by_cases htype : child.procType = .nwInitDetach
  · rw [if_pos htype] at h
    obtain ⟨_, _, _, _, rfl⟩ := h
    exact .inl ⟨htype, rfl⟩
  · rw [if_neg htype] at h
    exact .inr ⟨htype, congrArg Waiting.pdn h⟩

/-- **The end of a detach, and of nothing else, releases the PDN.** -/
theorem Waiting.pdn_endProcedure {s t : Waiting} {e : ChildEnd} {answers : List Raa}
    (hend : s.endProcedure e = (answers, .ok t)) :
    ∃ child, s.children.find? (·.id = e.id) = some child ∧
      (child.procType = .nwInitDetach ∧ t.pdn = none ∨
        child.procType ≠ .nwInitDetach ∧ t.pdn = s.pdn) := by
  unfold Waiting.endProcedure at hend
  split at hend
  · next child rar hfind hrar =>
      refine ⟨child, hfind, ?_⟩
      by_cases hdone : rar.childrenDone (ended child e.succeeded) = true
      · simp only [hdone, if_true] at hend
        split at hend
        · have hpdn := Waiting.pdn_afterEnd (Prod.mk.inj hend).2
          exact hpdn
        · cases (Prod.mk.inj hend).2
      · rw [if_neg hdone] at hend
        have hpdn := Waiting.pdn_afterEnd (Prod.mk.inj hend).2
        exact hpdn
  · cases (Prod.mk.inj hend).2

theorem Waiting.pdn_eq_none_of_finish {s t : Waiting} {es : List ChildEnd} {answers : List Raa}
    (hpdn : s.pdn = none) (hfinish : s.finish es = (answers, .ok t)) : t.pdn = none := by
  induction es generalizing s answers with
  | nil =>
    obtain ⟨-, hs⟩ := Prod.mk.inj hfinish
    exact Except.ok.inj hs ▸ hpdn
  | cons e es ih =>
    rcases hend : s.endProcedure e with ⟨sent, r⟩
    cases r with
    | error f => simp [Waiting.finish, hend] at hfinish
    | ok u =>
      simp only [Waiting.finish, hend, Prod.mk.injEq] at hfinish
      obtain ⟨_, _, ⟨_, hu⟩ | ⟨_, hu⟩⟩ := Waiting.pdn_endProcedure hend
      · exact ih hu (Prod.ext rfl hfinish.2)
      · exact ih (hu.trans hpdn) (Prod.ext rfl hfinish.2)

/-- **Once a request that has created a detach is answered, the PDN is gone** -/
theorem Awaits.finish_released {s t : Waiting} {kids : List Proc} {seq : ℕ} {es : List ChildEnd}
    {answers : List Raa} (h : Awaits s kids seq)
    (hdetach : ∃ nwd ∈ kids, nwd.procType = .nwInitDetach)
    (hfinish : s.finish es = (answers, .ok t)) (hanswers : answers ≠ []) : t.pdn = none := by
  induction es generalizing s kids answers with
  | nil => exact (hanswers (Prod.mk.inj hfinish).1.symm).elim
  | cons e es ih =>
    obtain ⟨child, hchild, hid⟩ : ∃ child ∈ kids, child.id = e.id := by
      by_contra hnone
      have hnot : e.id ∉ kids.map Proc.id := by
        intro hmem
        obtain ⟨child, hchild, hid⟩ := List.mem_map.mp hmem
        exact hnone ⟨child, hchild, hid⟩
      simp [Waiting.finish, h.endProcedure_of_not_mem hnot] at hfinish
    rcases hend : s.endProcedure e with ⟨sent, r⟩
    cases r with
    | error f => simp [Waiting.finish, hend] at hfinish
    | ok u =>
      simp only [Waiting.finish, hend, Prod.mk.injEq] at hfinish
      obtain ⟨hsent, hrest⟩ := hfinish
      by_cases htype : child.procType = .nwInitDetach
      · obtain ⟨child', hfind, ⟨_, hu⟩ | ⟨htype', _⟩⟩ := Waiting.pdn_endProcedure hend
        · exact Waiting.pdn_eq_none_of_finish hu (Prod.ext rfl hrest)
        · cases (h.find hchild hid).symm.trans hfind
          exact (htype' htype).elim
      · -- The detach is still among the others, so no answer has been sent yet.
        obtain ⟨nwd, hnwd, hnwdType⟩ := hdetach
        obtain ⟨rar, -, hkids, -⟩ := h.rar
        have hkept : nwd ∈ kids.filter (·.id ≠ e.id) := by
          refine List.mem_filter.mpr ⟨hnwd, ?_⟩
          simp only [ne_eq, decide_not, Bool.not_eq_eq_eq_not, Bool.not_true, decide_eq_false_iff_not]
          intro hsame
          have := List.inj_on_of_nodup_map hkids.nodup hnwd hchild (hsame.trans hid.symm)
          exact htype (this ▸ hnwdType)
        obtain ⟨rar', hawaits, hend'⟩ := h.endProcedure_of_more hchild hid
          (List.ne_nil_of_mem hkept)
        rw [hend, Prod.mk.injEq] at hend'
        obtain ⟨rfl, hafter⟩ := hend'
        have hu := Waiting.afterEnd_eq_ok.mp hafter.symm
        rw [if_neg (by simpa using htype)] at hu
        subst hu
        rw [List.nil_append] at hsent
        exact ih hawaits ⟨nwd, hkept, hnwdType⟩ (Prod.ext hsent hrest) hanswers

/-- **An answered request has done what it asks for exactly if it installs no rule and concerns all
there is.** -/
theorem Arrival.rulesApplied_iff (a : Arrival) {t : Handling} (ht : a.Returns t)
    {es : List ChildEnd} {raa : Raa} {u : Waiting}
    (hfinish : t.waiting.finish es = ([raa], .ok u)) :
    RulesApplied a.msg a.pdn.epsBearers u.bearers ↔ ConcernsAll a.msg a.pdn.epsBearers := by
  have hreleased : u.pdn = none := by
    obtain ⟨_, n, hawaits⟩ | ⟨_, d, n, hawaits⟩ := Arrival.returns_cases ht
    · exact hawaits.finish_released ⟨_, List.mem_singleton_self _, rfl⟩ hfinish
        (List.cons_ne_nil _ _)
    · exact hawaits.finish_released ⟨_, List.mem_cons_of_mem _ (List.mem_singleton_self _), rfl⟩
        hfinish (List.cons_ne_nil _ _)
  have hbearers : u.bearers = fun _ => none := by simp [Waiting.bearers, hreleased]
  rw [hbearers, rulesApplied_none_iff]

namespace Demo

/-- A default bearer with the rules `d` and `k`. -/
def twoRules : EpsBearer :=
  { epsBearerId := 5
    qos := qos.toBearerQos
    pdrCount := 4
    dynamicRules := [{ ruleName := ['d'] }, { ruleName := ['k'] }] }

/-- A request that removes the rule `d`. -/
def removeOne : Arrival :=
  { msg := { chargingRuleRemove := [some (['d'], [])] }
    seq := 7
    pdn := { pdn with epsBearers := fun i => if (i : ℕ) = 0 then some twoRules else none }
    table := [(['d', '1'], 0), (['k', '1'], 0)] }

/-- The same bearer without the rule `k`. -/
def oneRule : EpsBearer :=
  { epsBearerId := 5
    qos := qos.toBearerQos
    pdrCount := 2
    dynamicRules := [{ ruleName := ['d'] }] }

def removeOnly : Arrival :=
  { removeOne with
    pdn := { pdn with epsBearers := fun i => if (i : ℕ) = 0 then some oneRule else none }
    table := [(['d', '1'], 0)] }

end Demo

/-- Removing the only rule is done as asked. -/
theorem rulesApplied_removeOnly :
    ∃ t u, Demo.removeOnly.Returns t ∧
      t.waiting.finish [⟨1, true⟩] = ([{ seqNum := 7, resultCode := some 2001 }], .ok u) ∧
      RulesApplied Demo.removeOnly.msg Demo.removeOnly.pdn.epsBearers u.bearers := by
  have hremoves : Demo.removeOnly.msg.Removes ['d'] :=
    ⟨_, _, List.mem_singleton_self _, List.mem_cons_self⟩
  have honly {slot : Fin maxBearers} {bearer : EpsBearer}
      (h : Demo.removeOnly.pdn.epsBearers slot = some bearer) :
      bearer.dynamicRules = [{ ruleName := ['d'] }] := by
    simp only [Demo.removeOnly] at h
    split_ifs at h
    cases h
    rfl
  have hall : ConcernsAll Demo.removeOnly.msg Demo.removeOnly.pdn.epsBearers := by
    refine ⟨?_, fun slot bearer h => ?_, ?_⟩
    · rintro rule ⟨definition, hmem, _⟩
      cases hmem
    · exact .inr (.inl ⟨_, honly h ▸ List.mem_singleton_self _, .inr (.inr hremoves)⟩)
    · rintro slot rule ⟨bearer, h, hmem⟩
      obtain rfl := List.mem_singleton.mp (honly h ▸ hmem)
      exact .inr (.inr hremoves)
  obtain ⟨t, u, ht, hfinish⟩ : ∃ t u, Demo.removeOnly.Returns t ∧
      t.waiting.finish [⟨1, true⟩] = ([{ seqNum := 7, resultCode := some 2001 }], .ok u) :=
    ⟨_, _, ⟨3, rfl⟩, rfl⟩
  exact ⟨t, u, ht, hfinish, (Demo.removeOnly.rulesApplied_iff ht hfinish).mpr hall⟩

/-- **Removing one of two rules takes the other one away too** -/
theorem not_rulesApplied_removeOne : ∃ t u, Demo.removeOne.Returns t ∧
      t.waiting.finish [⟨1, true⟩] = ([{ seqNum := 7, resultCode := some 2001 }], .ok u) ∧
      ¬ RulesApplied Demo.removeOne.msg Demo.removeOne.pdn.epsBearers u.bearers := by
  refine ⟨_, _, ⟨3, rfl⟩, rfl, fun h => ?_⟩
  have hkept : AttachedAt Demo.removeOne.pdn.epsBearers ⟨0, by decide⟩ { ruleName := ['k'] } :=
    ⟨Demo.twoRules, rfl, by decide⟩
  refine not_attachedAt_none (h.rulesKept _ _ hkept ?_)
  rintro (hrelease | ⟨_, ⟨_, hmem, _⟩, _⟩ | ⟨first, others, hmem, hname⟩)
  · cases hrelease
  · cases hmem
  · obtain ⟨rfl, rfl⟩ : first = ['d'] ∧ others = [] := by
      simpa [Demo.removeOne] using hmem
    simp at hname

end Spgw.Rar
