/-
# The PDRs of new rules in a Session Modification Request

`fill_create_pfcp_info` of `cp/pfcp/common/pfcp_cp_session.c`, which is called for every rule that is
added after `fill_pfcp_entry` has given the rule its two PDRs and counted them in the bearer.
-/

import Mathlib.Logic.Function.Basic
import Mathlib.Data.List.Basic
import Mathlib.Data.Fin.VecNotation

namespace Spgw.Bearer.CreateInfo

open Function

/-- `TFT_DIRECTION_*`. -/
inductive Direction
  | none | downlinkOnly | uplinkOnly | bidirectional
  deriving DecidableEq

structure Flow where
  description : List UInt8
  direction : Direction

/-- What is read of `dynamic_rule_t`: the ids of its PDRs, for ACCESS and for CORE, its flows, and
the texts in the filters of the PDRs. -/
structure Rule where
  ruleId : Fin 2 → ℕ
  flows : List Flow
  sdfText : Fin 2 → ℕ → List UInt8

inductive Filter
  | flow (f : Flow) (direction : Direction)
  | text (t : List UInt8)

structure CreatePdr where
  ruleId : ℕ
  srcIntfc : Fin 2
  sdfFilter : ℕ → Option Filter
  sdfFilterCount : ℕ

/-- `pfcp_sess_mod_req_t`. -/
structure Request where
  createPdr : ℕ → Option CreatePdr := fun _ => none
  createPdrCount : ℕ := 0

def pdrDirection (i : Fin 2) : Direction := if i = 0 then .uplinkOnly else .downlinkOnly

def inDirection (i : Fin 2) (f : Flow) : Bool :=
  f.direction = pdrDirection i ∨ f.direction = .bidirectional

/-- The loop over the flows, with `sdf_filter_count`; none if the array of filters is left. -/
def addFlows (i : Fin 2) : List Flow → (ℕ → Option Filter) → ℕ → Option ((ℕ → Option Filter) × ℕ)
  | [], filters, n => some (filters, n)
  | f :: flows, filters, n =>
    if inDirection i f then
      if n < 16 then addFlows i flows (update filters n (some (.flow f (pdrDirection i)))) (n + 1)
      else none
    else addFlows i flows filters n

def fillPdr (rule : Rule) (i : Fin 2) (old : Option CreatePdr) (n : ℕ) : Option CreatePdr :=
  let filters := (old.map (·.sdfFilter)).getD fun _ => none
  let count := (old.map (·.sdfFilterCount)).getD 0
  if count < 16 then
    (addFlows i rule.flows (update filters count (some (.text (rule.sdfText i count)))) n).map
      fun p => ⟨rule.ruleId i, i, p.1, p.2⟩
  else none

/-- The loop over the PDRs from `i` on; none if `dyn_rule->pdr` is left. -/
def fillPdrs (rule : Rule) : ℕ → ℕ → ℕ → Request → Option Request
  | 0, _, _, req => some req
  | left + 1, i, n, req =>
    if h : i < 2 then
      (fillPdr rule ⟨i, h⟩ (req.createPdr i) n).bind fun pdr =>
        fillPdrs rule left (i + 1) pdr.sdfFilterCount
          ⟨update req.createPdr i (some pdr), req.createPdrCount + 1⟩
    else none

def fillCreatePfcpInfo (req : Request) (rule : Rule) (pdrCount : ℕ) : Option Request :=
  fillPdrs rule pdrCount 0 0 req

/-- The rules that are added in one request, each with its bearer; `pdrCount` is that of the
bearers. -/
def addRules (pdrCount : ℕ → ℕ) (req : Request) : List (ℕ × Rule) → Option Request
  | [] => some req
  | (bearer, rule) :: rules =>
    -- `fill_pfcp_entry` adds the two PDRs of the rule to the bearer.
    let pdrCount := update pdrCount bearer (pdrCount bearer + 2)
    (fillCreatePfcpInfo req rule (pdrCount bearer)).bind fun req => addRules pdrCount req rules

/-- The PDR is that of the rule for the interface, with its flows and no other filter. -/
def IsPdrOf (rule : Rule) (i : Fin 2) (pdr : CreatePdr) : Prop :=
  pdr.ruleId = rule.ruleId i ∧ pdr.srcIntfc = i ∧
    (List.range pdr.sdfFilterCount).map pdr.sdfFilter =
      (rule.flows.filter (inDirection i)).map fun f => some (.flow f (pdrDirection i))

/-- Every PDR that is counted is there, and every rule has its two. -/
def Complete (rules : List (ℕ × Rule)) (req : Request) : Prop :=
  (∀ k < req.createPdrCount, (req.createPdr k).isSome) ∧
    ∀ r ∈ rules, ∀ i : Fin 2, ∃ k < req.createPdrCount, ∃ pdr ∈ req.createPdr k, IsPdrOf r.2 i pdr

theorem addFlows_eq {i : Fin 2} {flows : List Flow} {filters : ℕ → Option Filter} {n : ℕ}
    (hn : n ≤ 16) :
    (n + (flows.filter (inDirection i)).length ≤ 16 → ∃ filters', addFlows i flows filters n =
          some (filters', n + (flows.filter (inDirection i)).length) ∧
        (∀ k < n, filters' k = filters k) ∧
        (List.range' n (flows.filter (inDirection i)).length).map filters' =
          (flows.filter (inDirection i)).map fun f => some (.flow f (pdrDirection i))) ∧
    (16 < n + (flows.filter (inDirection i)).length → addFlows i flows filters n = none) := by
  induction flows generalizing filters n with
  | nil => exact ⟨fun _ => ⟨filters, rfl, fun _ _ => rfl, rfl⟩, fun h => absurd hn (Nat.not_le.mpr h)⟩
  | cons f flows ih =>
    by_cases hf : inDirection i f = true
    · rw [List.filter_cons_of_pos hf, List.length_cons, addFlows, if_pos hf]
      by_cases hlt : n < 16
      · rw [if_pos hlt]
        obtain ⟨hfit, hout⟩ := @ih (update filters n (some (.flow f (pdrDirection i)))) (n + 1) hlt
        refine ⟨fun hle => ?_, fun hgt => hout (by omega)⟩
        obtain ⟨filters', heq, hold, hnew⟩ := hfit (by omega)
        refine ⟨filters', ?_, fun k hk => ?_, ?_⟩
        · rw [heq, Nat.add_assoc, Nat.add_comm 1]
        · rw [hold k (by omega), update_of_ne (by omega)]
        · rw [List.range'_succ, List.map_cons, hold n (by omega), update_self, hnew,
            List.map_cons]
      · exact ⟨fun hle => by omega, fun _ => if_neg hlt⟩
    · rw [List.filter_cons_of_neg hf, addFlows, if_neg hf]
      exact ih hn

theorem count_of_addFlows {i : Fin 2} {flows : List Flow} {filters filters' : ℕ → Option Filter}
    {n n' : ℕ} (hn : n ≤ 16) (h : addFlows i flows filters n = some (filters', n')) :
    n' = n + (flows.filter (inDirection i)).length ∧
      n + (flows.filter (inDirection i)).length ≤ 16 := by
  obtain ⟨hfit, hout⟩ := @addFlows_eq i flows filters n hn
  have hle : n + (flows.filter (inDirection i)).length ≤ 16 := by
    by_contra hgt
    rw [hout (by omega)] at h
    cases h
  obtain ⟨_, heq, -, -⟩ := hfit hle
  rw [heq] at h
  cases h
  exact ⟨rfl, hle⟩

theorem fillPdrs_frame {rule : Rule} {left i n : ℕ} {req req' : Request}
    (h : fillPdrs rule left i n req = some req') :
    (∀ k, 2 ≤ k → req'.createPdr k = req.createPdr k) ∧
      req'.createPdrCount = req.createPdrCount + left := by
  induction left generalizing i n req with
  | zero =>
    cases h
    exact ⟨fun _ _ => rfl, rfl⟩
  | succ left ih =>
    unfold fillPdrs at h
    split_ifs at h with hi
    obtain ⟨pdr, -, hrest⟩ := Option.bind_eq_some_iff.mp h
    obtain ⟨hframe, hcount⟩ := ih hrest
    refine ⟨fun k hk => ?_, ?_⟩
    · rw [hframe k hk]
      exact update_of_ne (by omega) ..
    · rw [hcount, Nat.add_assoc, Nat.add_comm 1]

theorem addRules_frame {rules : List (ℕ × Rule)} {pdrCount : ℕ → ℕ} {req req' : Request}
    (h : addRules pdrCount req rules = some req') :
    (∀ k, 2 ≤ k → req'.createPdr k = req.createPdr k) ∧
      req.createPdrCount + 2 * rules.length ≤ req'.createPdrCount := by
  induction rules generalizing pdrCount req with
  | nil =>
    cases h
    exact ⟨fun _ _ => rfl, Nat.le_refl _⟩
  | cons r rules ih =>
    obtain ⟨mid, hmid, hrest⟩ := Option.bind_eq_some_iff.mp h
    obtain ⟨hframe, hcount⟩ := fillPdrs_frame hmid
    obtain ⟨hframe', hcount'⟩ := ih hrest
    refine ⟨fun k hk => (hframe' k hk).trans (hframe k hk), ?_⟩
    rw [update_self] at hcount
    rw [List.length_cons]
    omega

theorem fillPdrs_none {rule : Rule} {left i n : ℕ} {req : Request} (h : 2 < i + left) (hi : i ≤ 2) :
    fillPdrs rule left i n req = none := by
  induction left generalizing i n req with
  | zero => omega
  | succ left ih =>
    unfold fillPdrs
    split_ifs with hlt
    · rw [Option.bind_eq_none_iff]
      exact fun pdr _ => ih (by omega) (by omega)
    · rfl

theorem fillPdrs_two {rule : Rule} {req : Request} (h : fillPdrs rule 2 0 0 {} = some req) :
    ∃ f₀ f₁, req.createPdr 0 = some ⟨rule.ruleId 0, 0, f₀, (rule.flows.filter (inDirection 0)).length⟩ ∧
      req.createPdr 1 = some ⟨rule.ruleId 1, 1, f₁, (rule.flows.filter (inDirection 0)).length +
        (rule.flows.filter (inDirection 1)).length⟩ ∧
      (rule.flows.filter (inDirection 0)).length + (rule.flows.filter (inDirection 1)).length ≤ 16 := by
  unfold fillPdrs at h
  rw [dif_pos (by decide)] at h
  obtain ⟨pdr₀, h₀, h⟩ := Option.bind_eq_some_iff.mp h
  unfold fillPdrs at h
  rw [dif_pos (by decide)] at h
  obtain ⟨pdr₁, h₁, h⟩ := Option.bind_eq_some_iff.mp h
  cases h
  obtain ⟨⟨f₀, n₀⟩, hadd₀, rfl⟩ := Option.map_eq_some_iff.mp h₀
  obtain ⟨⟨f₁, n₁⟩, hadd₁, rfl⟩ := Option.map_eq_some_iff.mp h₁
  obtain ⟨hn₀, hle₀⟩ := count_of_addFlows (Nat.zero_le 16) hadd₀
  obtain ⟨hn₁, hle₁⟩ := count_of_addFlows (hn₀ ▸ hle₀) hadd₁
  have hcount : n₀ = 0 + (rule.flows.filter (inDirection 0)).length := hn₀
  have hfit : n₀ + (rule.flows.filter (inDirection 1)).length ≤ 16 := hle₁
  refine ⟨f₀, f₁, ?_, ?_, by omega⟩
  · simp [hn₀]
  · simp [hn₁, hn₀]

theorem fillPdrs_of_no_uplink {rule : Rule} (hnone : rule.flows.filter (inDirection 0) = [])
    (hle : (rule.flows.filter (inDirection 1)).length ≤ 16) :
    ∃ req pdr₀ pdr₁, fillPdrs rule 2 0 0 {} = some req ∧ req.createPdrCount = 2 ∧
      req.createPdr 0 = some pdr₀ ∧ req.createPdr 1 = some pdr₁ ∧
      IsPdrOf rule 0 pdr₀ ∧ IsPdrOf rule 1 pdr₁ := by
  have hzero : (rule.flows.filter (inDirection 0)).length = 0 := by rw [hnone, List.length_nil]
  obtain ⟨f₀, hadd₀, -, -⟩ := (@addFlows_eq 0 rule.flows
    (update (fun _ => none) 0 (some (.text (rule.sdfText 0 0)))) 0 (Nat.zero_le 16)).1
    (by omega)
  obtain ⟨f₁, hadd₁, -, hflows₁⟩ := (@addFlows_eq 1 rule.flows
    (update (fun _ => none) 0 (some (.text (rule.sdfText 1 0)))) 0 (Nat.zero_le 16)).1
    (by omega)
  rw [hzero] at hadd₀
  rw [Nat.zero_add] at hadd₁
  let pdr₀ : CreatePdr := ⟨rule.ruleId 0, 0, f₀, 0⟩
  let pdr₁ : CreatePdr := ⟨rule.ruleId 1, 1, f₁, (rule.flows.filter (inDirection 1)).length⟩
  have hpdr₀ : fillPdr rule 0 none 0 = some pdr₀ := by
    simp [fillPdr, hadd₀, pdr₀]
  have hpdr₁ : fillPdr rule 1 none 0 = some pdr₁ := by
    simp [fillPdr, hadd₁, pdr₁]
  refine ⟨⟨update (update (fun _ => none) 0 (some pdr₀)) 1 (some pdr₁), 2⟩, pdr₀,
    pdr₁, ?_, rfl, rfl, rfl, ⟨rfl, rfl, ?_⟩, ⟨rfl, rfl, ?_⟩⟩
  · have hsecond : fillPdr rule 1 (update (fun _ => none) 0 (some pdr₀) 1)
        pdr₀.sdfFilterCount = some pdr₁ := hpdr₁
    unfold fillPdrs
    rw [dif_pos (by decide)]
    refine Option.bind_eq_some_iff.mpr ⟨pdr₀, hpdr₀, ?_⟩
    unfold fillPdrs
    rw [dif_pos (by decide)]
    exact Option.bind_eq_some_iff.mpr ⟨pdr₁, hsecond, rfl⟩
  · rw [hnone]
    rfl
  · rw [List.range_eq_range']
    exact hflows₁

/-- **The request has the PDRs of all rules, each with its filters, exactly if there is at most one
rule, its bearer had no PDR before, and none of its flows is for the uplink** -/
theorem complete_iff (pdrCount : ℕ → ℕ) (rules : List (ℕ × Rule)) :
    (∃ req, addRules pdrCount {} rules = some req ∧ Complete rules req) ↔
      rules = [] ∨ ∃ bearer rule, rules = [(bearer, rule)] ∧ pdrCount bearer = 0 ∧
        rule.flows.filter (inDirection 0) = [] ∧
        (rule.flows.filter (inDirection 1)).length ≤ 16 := by
  constructor
  · rintro ⟨req, hreq, hcomplete⟩
    match rules with
    | [] => exact Or.inl rfl
    | _ :: _ :: _ =>
      -- The third entry is counted, and has not been written.
      obtain ⟨hframe, hcount⟩ := addRules_frame hreq
      simp only [List.length_cons] at hcount
      have hsome := hcomplete.1 2 (by omega)
      rw [hframe 2 (Nat.le_refl 2)] at hsome
      exact absurd hsome (by simp)
    | [(bearer, rule)] =>
      obtain ⟨req', hfill, hrest⟩ := Option.bind_eq_some_iff.mp hreq
      cases hrest
      rw [update_self] at hfill
      have hfresh : pdrCount bearer = 0 := by
        by_contra hne
        rw [fillCreatePfcpInfo, fillPdrs_none (by omega) (by omega)] at hfill
        simp at hfill
      rw [hfresh] at hfill
      obtain ⟨f₀, f₁, h₀, h₁, hfit⟩ := fillPdrs_two hfill
      have hcount := (fillPdrs_frame hfill).2
      obtain ⟨k, hk, pdr, hpdr, -, hintfc, hflows⟩ := hcomplete.2 _ List.mem_cons_self 1
      -- The entry for CORE is the second one.
      have hk1 : k = 1 := by
        by_contra hne
        have hk0 : k = 0 := by
          rw [hcount] at hk
          change k < 0 + 2 at hk
          omega
        rw [hk0, h₀] at hpdr
        cases hpdr
        exact absurd hintfc Fin.zero_ne_one
      rw [hk1, h₁] at hpdr
      cases hpdr
      have hlen := congrArg List.length hflows
      simp only [List.length_map, List.length_range] at hlen
      exact Or.inr ⟨bearer, rule, rfl, hfresh, List.length_eq_zero_iff.mp (by omega), by omega⟩
  · rintro (rfl | ⟨bearer, rule, rfl, hfresh, hnone, hle⟩)
    · exact ⟨{}, rfl, fun k hk => absurd hk (Nat.not_lt_zero k), by simp⟩
    · obtain ⟨req, pdr₀, pdr₁, hfill, hcount, h₀, h₁, hpdr₀, hpdr₁⟩ := fillPdrs_of_no_uplink hnone hle
      refine ⟨req, ?_, fun k hk => ?_, fun r hr i => ?_⟩
      · simp [addRules, fillCreatePfcpInfo, hfresh, hfill]
      · rw [hcount] at hk
        rcases (by omega : k = 0 ∨ k = 1) with rfl | rfl
        · rw [h₀, Option.isSome_some]
        · rw [h₁, Option.isSome_some]
      · rw [List.mem_singleton.mp hr, hcount]
        rcases (by omega : i = 0 ∨ i = 1) with rfl | rfl
        · exact ⟨0, by decide, pdr₀, h₀, hpdr₀⟩
        · exact ⟨1, by decide, pdr₁, h₁, hpdr₁⟩

/-- A rule with one flow in both directions, and its PDRs `1` and `2`. -/
def webRule : Rule := ⟨![1, 2], [⟨[], .bidirectional⟩], fun _ _ => []⟩

/-- The PDR for CORE counts two filters, and a second rule takes the place of the first one. -/
theorem not_complete_webRule :
    (¬ ∃ req, addRules (fun _ => 0) {} [(0, webRule)] = some req ∧ Complete [(0, webRule)] req) ∧
    ((addRules (fun _ => 0) {} [(0, webRule)]).bind (·.createPdr 1)).map (·.sdfFilterCount) = some 2 ∧
    (addRules (fun _ => 0) {} [(0, webRule), (1, webRule)]).map
      (fun req => (req.createPdrCount, (req.createPdr 2).isSome)) = some (4, false) := by
  refine ⟨?_, by decide⟩
  rintro ⟨req, hreq, hcomplete⟩
  cases hreq
  obtain ⟨k, hk, pdr, hpdr, -, hintfc, hflows⟩ := hcomplete.2 _ List.mem_cons_self 1
  have hk2 : k < 2 := hk
  rcases (by omega : k = 0 ∨ k = 1) with rfl | rfl <;> cases hpdr
  · exact absurd hintfc (by decide)
  · exact absurd (congrArg List.length hflows) (by decide)

end Spgw.Bearer.CreateInfo
