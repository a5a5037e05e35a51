/-
# The table of rule names

`rulename_bearerid_hash` leads from the name of a rule to the bearer that holds it.
-/

import Spgw.Bearer.Seid

namespace Spgw.Bearer

open Machine
open Session (UePtr PdnPtr sat_deref_bind)
open Rar (RuleName RuleTable DynamicRule maxBearers ruleKey)
open Spgw.Trans (TransKey)

variable {s s' : State} {c c' c'' : UeContext} {p : PdnPtr} {pdn pdn' : Pdn} {u u' : UePtr}
  {b : BearerPtr} {bearer bearer' : EpsBearer} {t t' : RuleTable} {n : ℕ} {k name : RuleName}
  {i : Fin maxBearers}

theorem lookup_delRuleNameEntry (t : RuleTable) (key k : RuleName) :
    (t.delRuleNameEntry key).lookup k = if k = key then none else t.lookup k := by
  induction t with
  | nil => simp [RuleTable.delRuleNameEntry]
  | cons e t ih =>
    obtain ⟨l, v⟩ := e
    unfold RuleTable.delRuleNameEntry at ih ⊢
    by_cases hl : l = key
    · subst hl
      rw [List.filter_cons_of_neg (by simp), ih]
      split_ifs with hk
      · rfl
      · rw [List.lookup_cons, beq_eq_false_iff_ne.mpr hk]
    · rw [List.filter_cons_of_pos (by simpa using hl), List.lookup_cons, List.lookup_cons, ih]
      by_cases hk : k = l
      · subst hk
        simp only [beq_self_eq_true, if_neg hl]
      · rw [beq_eq_false_iff_ne.mpr hk]

theorem lookup_addRuleNameEntry (hnone : t.lookup name = none) (n : ℕ) (k : RuleName) :
    (t.addRuleNameEntry name n).lookup k = if k = name then some n else t.lookup k := by
  rw [RuleTable.addRuleNameEntry, hnone]
  change List.lookup k ((name, n) :: t) = _
  rw [List.lookup_cons]
  by_cases hk : k = name
  · rw [hk, beq_self_eq_true, if_pos rfl]
  · rw [beq_eq_false_iff_ne.mpr hk, if_neg hk]

theorem ruleKey_inj {callId : ℕ} {name name' : RuleName}
    (h : ruleKey callId name = ruleKey callId name') : name = name' :=
  List.append_cancel_right h

/-- The bearer in the slot `i` of the PDN connection holds the rule. -/
def UeContext.HoldsAt (c : UeContext) (pdn : Pdn) (i : Fin maxBearers) (name : RuleName) : Prop :=
  ∃ b bearer, pdn.epsBearers i = some b ∧ c.bearerHeap.get b = some bearer ∧
    ∃ rule ∈ bearer.dynamicRules, rule.ruleName = name

/-- The table has each rule name of the context with its slot. -/
def UeContext.Exact (t : RuleTable) (c : UeContext) : Prop :=
  ∀ p pdn, c.pdnHeap.get p = some pdn → ∀ name (v : ℕ),
    t.lookup (ruleKey pdn.callId name) = some v ↔
      ∃ i : Fin maxBearers, (i : ℕ) = v ∧ c.HoldsAt pdn i name

def UeContext.HasKey (c : UeContext) (k : RuleName) : Prop :=
  ∃ p pdn name, c.pdnHeap.get p = some pdn ∧ k = ruleKey pdn.callId name

/-- The table of rule names has the rules of the bearers, and contexts do not share an entry. -/
structure State.RuleNamesExact (s : State) : Prop where
  exact : ∀ u c, s.ues.get u = some c → c.Exact s.rules.ruleNames
  apart : ∀ u c u' c', s.ues.get u = some c → s.ues.get u' = some c' → u ≠ u' →
    ∀ k, c.HasKey k → c'.HasKey k → s.rules.ruleNames.lookup k = none

def UeContext.SameRules (c c' : UeContext) : Prop :=
  ∀ p pdn', c'.pdnHeap.get p = some pdn' → ∃ pdn, c.pdnHeap.get p = some pdn ∧
    pdn'.callId = pdn.callId ∧ ∀ i name, c'.HoldsAt pdn' i name ↔ c.HoldsAt pdn i name

namespace UeContext

theorem holdsAt_congr (hslots : pdn'.epsBearers = pdn.epsBearers)
    (hrules : ∀ b, (c'.bearerHeap.get b).map (·.dynamicRules) =
      (c.bearerHeap.get b).map (·.dynamicRules)) (i : Fin maxBearers) (name : RuleName) :
    c'.HoldsAt pdn' i name ↔ c.HoldsAt pdn i name := by
  have hmap {c c' : UeContext} {bearer : EpsBearer}
      (hrules : ∀ b, (c'.bearerHeap.get b).map (·.dynamicRules) =
        (c.bearerHeap.get b).map (·.dynamicRules)) {b : BearerPtr}
      (hb : c.bearerHeap.get b = some bearer) :
      ∃ bearer', c'.bearerHeap.get b = some bearer' ∧
        bearer'.dynamicRules = bearer.dynamicRules := by
    have h := hrules b
    rw [hb, Option.map_some] at h
    exact Option.map_eq_some_iff.mp h
  constructor
  · rintro ⟨b, bearer', hb, hget, hrule⟩
    obtain ⟨bearer, hget', heq⟩ := hmap (fun b => (hrules b).symm) hget
    exact ⟨b, bearer, hslots ▸ hb, hget', heq ▸ hrule⟩
  · rintro ⟨b, bearer, hb, hget, hrule⟩
    obtain ⟨bearer', hget', heq⟩ := hmap hrules hget
    exact ⟨b, bearer', hslots ▸ hb, hget', heq ▸ hrule⟩

theorem SameRules.of_maps
    (hpdns : ∀ p, (c'.pdnHeap.get p).map (fun pdn => (pdn.callId, pdn.epsBearers)) =
      (c.pdnHeap.get p).map fun pdn => (pdn.callId, pdn.epsBearers))
    (hrules : ∀ b, (c'.bearerHeap.get b).map (·.dynamicRules) =
      (c.bearerHeap.get b).map (·.dynamicRules)) : c.SameRules c' := by
  intro p pdn' hp'
  have h := hpdns p
  rw [hp', Option.map_some] at h
  obtain ⟨pdn, hp, heq⟩ := Option.map_eq_some_iff.mp h.symm
  obtain ⟨hcall, hslots⟩ := Prod.mk.inj heq
  exact ⟨pdn, hp, hcall.symm, holdsAt_congr hslots.symm hrules⟩

theorem SameRules.exact (h : c.SameRules c') (hc : c.Exact t) : c'.Exact t := by
  intro p pdn' hp' name v
  obtain ⟨pdn, hp, hcall, hholds⟩ := h p pdn' hp'
  simp only [hcall, hholds]
  exact hc p pdn hp name v

theorem SameRules.hasKey (h : c.SameRules c') (hk : c'.HasKey k) : c.HasKey k := by
  obtain ⟨p, pdn', name, hp', rfl⟩ := hk
  obtain ⟨pdn, hp, hcall, -⟩ := h p pdn' hp'
  exact ⟨p, pdn, name, hp, by rw [hcall]⟩

end UeContext

namespace State.RuleNamesExact

theorem of_set (hs : s.RuleNamesExact) (hues : s'.ues = s.ues.set u c')
    (hc : s.ues.get u = some c) (hrules : s'.rules.ruleNames = s.rules.ruleNames)
    (h : c.SameRules c') : s'.RuleNamesExact := by
  have hold : ∀ v d', s'.ues.get v = some d' → ∃ d, s.ues.get v = some d ∧ d.SameRules d' := by
    intro v d' hd'
    rw [hues, Heap.get_set hc] at hd'
    split_ifs at hd' with hv
    · cases hd'
      exact ⟨c, hv ▸ hc, h⟩
    · exact ⟨d', hd', .of_maps (fun _ => rfl) fun _ => rfl⟩
  constructor
  · intro v d' hd'
    obtain ⟨d, hd, hsame⟩ := hold v d' hd'
    rw [hrules]
    exact hsame.exact (hs.exact v d hd)
  · intro v d' v' e' hd' he' hne k hk hk'
    obtain ⟨d, hd, hsame⟩ := hold v d' hd'
    obtain ⟨e, he, hsame'⟩ := hold v' e' he'
    rw [hrules]
    exact hs.apart v d v' e hd he hne k (hsame.hasKey hk) (hsame'.hasKey hk')

theorem of_free (hs : s.RuleNamesExact) (hues : s'.ues = s.ues.free u) (hc : s.ues.get u = some c)
    (hrules : ∀ k, s'.rules.ruleNames.lookup k = s.rules.ruleNames.lookup k ∨
      (s'.rules.ruleNames.lookup k = none ∧ c.HasKey k)) : s'.RuleNamesExact := by
  have hold : ∀ v d, s'.ues.get v = some d → v ≠ u ∧ s.ues.get v = some d := by
    intro v d hd
    rw [hues, Heap.get_free] at hd
    split_ifs at hd with hv
    exact ⟨hv, hd⟩
  -- An entry of another context is under no key of this one.
  have hkept : ∀ v d, s'.ues.get v = some d → ∀ k, d.HasKey k →
      s'.rules.ruleNames.lookup k = s.rules.ruleNames.lookup k := by
    intro v d hd k hk
    obtain ⟨hv, hd⟩ := hold v d hd
    rcases hrules k with h | ⟨hnone, hkey⟩
    · exact h
    · rw [hnone, hs.apart v d u c hd hc hv k hk hkey]
  constructor
  · intro v d hd p pdn hp name n
    rw [hkept v d hd _ ⟨p, pdn, name, hp, rfl⟩]
    exact hs.exact v d (hold v d hd).2 p pdn hp name n
  · intro v d v' e hd he hne k hk hk'
    rw [hkept v d hd k hk]
    exact hs.apart v d v' e (hold v d hd).2 (hold v' e he).2 hne k hk hk'

theorem of_alloc (hs : s.RuleNamesExact) (hues : s'.ues = s.ues.alloc c)
    (hrules : s'.rules.ruleNames = s.rules.ruleNames)
    (hnone : ∀ k, c.HasKey k → s.rules.ruleNames.lookup k = none)
    (hfree : ∀ pdn i name, ¬ c.HoldsAt pdn i name) : s'.RuleNamesExact := by
  have hold : ∀ v d, s'.ues.get v = some d → d = c ∨ v ≠ s.ues.next ∧ s.ues.get v = some d := by
    intro v d hd
    rw [hues, Heap.get_alloc] at hd
    split_ifs at hd with hv
    · exact .inl (Option.some.inj hd).symm
    · exact .inr ⟨hv, hd⟩
  constructor
  · intro v d hd p pdn hp name n
    rw [hrules]
    rcases hold v d hd with rfl | ⟨-, hd⟩
    · rw [hnone _ ⟨p, pdn, name, hp, rfl⟩]
      exact ⟨fun h => (nomatch h), fun ⟨i, _, hi⟩ => (hfree pdn i name hi).elim⟩
    · exact hs.exact v d hd p pdn hp name n
  · intro v d v' e hd he hne k hk hk'
    rw [hrules]
    rcases hold v d hd with rfl | ⟨-, hd⟩
    · exact hnone k hk
    · rcases hold v' e he with rfl | ⟨-, he⟩
      · exact hnone k hk'
      · exact hs.apart v d v' e hd he hne k hk hk'

end State.RuleNamesExact

theorem ruleNames_cleanupSlots (h : c.Tied p pdn) (r : Rules) (l : List (Fin maxBearers)) :
    Sat (l.foldlM (cleanupSlot p) (r, c))
      (fun rc => ∀ k, rc.1.ruleNames.lookup k = r.ruleNames.lookup k ∨
        (rc.1.ruleNames.lookup k = none ∧ ∃ name, k = ruleKey pdn.callId name)) AnyFault := by
  have hnames (rules : List DynamicRule) (r₁ : Rules) (k : RuleName) :
      (rules.foldl (fun r rule => r.delRuleName (ruleKey pdn.callId rule.ruleName)) r₁).ruleNames.lookup
          k = r₁.ruleNames.lookup k ∨
        ((rules.foldl (fun r rule => r.delRuleName (ruleKey pdn.callId rule.ruleName))
          r₁).ruleNames.lookup k = none ∧ ∃ name, k = ruleKey pdn.callId name) := by
    induction rules generalizing r₁ with
    | nil => exact .inl rfl
    | cons rule rules ih =>
      have hdel := lookup_delRuleNameEntry r₁.ruleNames (ruleKey pdn.callId rule.ruleName) k
      rcases ih (r₁.delRuleName (ruleKey pdn.callId rule.ruleName)) with hsame | hgone
      · split_ifs at hdel with hk
        · exact .inr ⟨hsame.trans hdel, rule.ruleName, hk⟩
        · exact .inl (hsame.trans hdel)
      · exact .inr hgone
  -- Every PDN connection the loop can meet has this call identifier.
  have hloop : Sat (l.foldlM (cleanupSlot p) (r, c))
      (fun rc => (∀ q pdn', rc.2.pdnHeap.get q = some pdn' → pdn'.callId = pdn.callId) ∧
        ∀ k, rc.1.ruleNames.lookup k = r.ruleNames.lookup k ∨
          (rc.1.ruleNames.lookup k = none ∧ ∃ name, k = ruleKey pdn.callId name)) AnyFault := by
    refine Sat.foldlM ?_ ⟨?_, fun k => .inl rfl⟩
    · rintro rc i - ⟨hcalls, hentries⟩
      unfold cleanupSlot
      refine (sat_true _).bind fun pdn₁ _ => ?_
      cases pdn₁.epsBearers i with
      | none => exact ⟨hcalls, hentries⟩
      | some b =>
        unfold cleanupBearerContext
        simp only [bind_assoc]
        refine (sat_true _).bind fun bearer _ => ?_
        refine sat_deref_bind fun pdn₂ hp₂ => ?_
        refine (sat_true _).bind fun j _ => (sat_true _).bind fun b' _ => ?_
        refine (sat_true _).bind fun found _ => ⟨fun q pdn' hq => ?_, fun k => ?_⟩
        · change (rc.2.pdnHeap.set _ _).get q = some pdn' at hq
          rw [Heap.get_set hp₂] at hq
          split_ifs at hq
          · rw [← Option.some.inj hq]
            exact hcalls _ pdn₂ hp₂
          · exact hcalls q pdn' hq
        · have hcall : pdn₂.callId = pdn.callId := hcalls _ pdn₂ hp₂
          rcases hnames bearer.dynamicRules rc.1 k with hsame | hgone
          · rw [← hcall] at hsame
            rcases hentries k with hsame' | ⟨hnone, hkey⟩
            · exact .inl (hsame.trans hsame')
            · exact .inr ⟨hsame.trans hnone, hkey⟩
          · rw [← hcall] at hgone
            exact .inr (hcall ▸ hgone)
    · intro q pdn' hq
      obtain rfl := h.only q pdn' hq
      rw [Option.some.inj (h.get.symm.trans hq)]
  exact hloop.mono fun _ h => h.2

theorem ruleNames_releaseSession (hlinked : s.Linked) :
    Sat (releaseSession s u p) (fun s' => ∀ c pdn, s.ues.get u = some c → c.Tied p pdn →
      ∀ k, s'.rules.ruleNames.lookup k = s.rules.ruleNames.lookup k ∨
        (s'.rules.ruleNames.lookup k = none ∧ c.HasKey k)) AnyFault := by
  unfold releaseSession cleanupPdnContext
  simp only [bind_assoc]
  refine sat_deref_bind fun c hc => ?_
  refine sat_deref_bind fun pdn hp => (sat_true _).bind fun _ _ => ?_
  have htied := (hlinked.context u c hc).tied hp
  refine (ruleNames_cleanupSlots htied s.rules _).bind ?_
  rintro ⟨r, c'⟩ hentries
  simp only [pure_bind]
  refine (sat_true _).bind fun c₁ _ => sat_pure ?_
  intro d pdn' hd _ k
  cases hc.symm.trans hd
  have hkept : (if c₁.numPdns = 0 then
      State.freeUe { s.freePdn u c' p pdn with rules := r } u c₁
        else { s.freePdn u c' p pdn with rules := r }).rules = r := by
    split_ifs <;> rfl
  rw [hkept]
  rcases hentries k with hsame | ⟨hnone, name, hk⟩
  · exact .inl hsame
  · exact .inr ⟨hnone, p, pdn, name, hp, hk⟩

end Spgw.Bearer
