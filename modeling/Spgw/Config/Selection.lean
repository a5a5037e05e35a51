/-
# The rule for a subscriber

`process_create_sess_req` fills a key with the IMSI, the TAI and the APN of the request, and
`match_sub_selection_cpp` takes the first rule, in the order of priorities, whose keys all match.
-/

import Spgw.Config.Apn
import Spgw.Config.Services

namespace Spgw.Config

open Octets Labels Machine
open Session (deref_some)

/-- `tai_field_t`. -/
structure Tai where
  mccDigit1 : Fin 16
  mccDigit2 : Fin 16
  mccDigit3 : Fin 16
  mncDigit1 : Fin 16
  mncDigit2 : Fin 16
  mncDigit3 : Fin 16
  tac : UInt16

def Tai.mcc (t : Tai) : ℕ := 100 * t.mccDigit1 + 10 * t.mccDigit2 + t.mccDigit3

def Tai.mnc (t : Tai) : ℕ :=
  if t.mncDigit3 = 15 then 10 * t.mncDigit1 + t.mncDigit2
  else 100 * t.mncDigit1 + 10 * t.mncDigit2 + t.mncDigit3

structure Subscriber where
  imsi : UInt64
  tai : Tai
  apn : List UInt8

def nibbles (low high : Fin 16) : UInt8 := .ofNat (low + 16 * high)

/-- `dpkey`. -/
def subKeys (sub : Subscriber) : SubSelectionKeys where
  imsi := some ⟨sub.imsi, sub.imsi⟩
  plmn := some {
    plmn := (nibbles sub.tai.mccDigit2 sub.tai.mccDigit1,
      nibbles sub.tai.mncDigit3 sub.tai.mccDigit3, nibbles sub.tai.mncDigit2 sub.tai.mncDigit1)
    tac := sub.tai.tac }
  apn := some (padded sub.apn)

/-- `process_create_sess_req` up to the key: a request whose APN has no profile is rejected, and the
APN of any other is copied to an array of 64 octets. -/
def requestKeys (store : Store) (sub : Subscriber) : Except Fault (Option SubSelectionKeys) := do
  match ← matchApnProfile store.apnProfileList sub.apn with
  | none => .ok none
  | some _ => if sub.apn.length ≤ 64 then .ok (some (subKeys sub)) else .error .badPointer

theorem length_lt_of_matchApnProfile {profiles : List ApnProfile} {name : List UInt8}
    {p : ApnProfile} (h : matchApnProfile profiles name = .ok (some p)) : name.length < 64 := by
  induction profiles with
  | nil => cases h
  | cons q rest ih =>
    rw [matchApnProfile] at h
    obtain ⟨n, hn, h⟩ := bind_eq_ok.mp h
    split_ifs at h with hlen hread
    · exact ih h
    · exact ih h
    · have hcap : Octets.strlen 64 q.apnName = some n := by
        cases hstr : Octets.strlen 64 q.apnName with
        | none => rw [hstr] at hn; cases hn
        | some k => rw [hstr] at hn; exact congrArg some (Except.ok.inj hn)
      exact Decidable.not_not.mp hlen ▸ (strlen_eq_some_iff.mp hcap).1

/-- The APN of a request with a profile is not too long for the key. -/
theorem requestKeys_eq (store : Store) (sub : Subscriber) : requestKeys store sub =
    (matchApnProfile store.apnProfileList sub.apn).map (Option.map fun _ => subKeys sub) := by
  rw [requestKeys]
  cases hprofile : matchApnProfile store.apnProfileList sub.apn with
  | error e => rfl
  | ok found =>
    cases found with
    | none => rfl
    | some p => exact if_pos (length_lt_of_matchApnProfile hprofile).le

theorem eq_subKeys_of_requestKeys {store : Store} {sub : Subscriber} {key : SubSelectionKeys}
    (h : requestKeys store sub = .ok (some key)) : key = subKeys sub := by
  rw [requestKeys_eq] at h
  rcases hprofile : matchApnProfile store.apnProfileList sub.apn with e | _ | p
  · rw [hprofile] at h; cases h
  · rw [hprofile] at h; cases h
  · rw [hprofile] at h
    exact (Option.some.inj (Except.ok.inj h)).symm

/-- The keys of the rule are those of the subscriber. -/
def Matches (sub : Subscriber) (sec : RuleSection) : Prop :=
  ∀ k ∈ sec.keys, (∀ r ∈ k.imsiRange, r.fromImsi ≤ sub.imsi ∧ sub.imsi ≤ r.toImsi) ∧
    (∀ p ∈ k.servingPlmn, p.mcc.toInt = sub.tai.mcc ∧ p.mnc.toInt = sub.tai.mnc ∧
      p.tac.toInt = sub.tai.tac.toNat) ∧
    ∀ s ∈ k.requestedApn, sub.apn = wire (s.bytes.splitOn dot)

/-- What the code compares: the low 16 bits of the TAC and nothing else of the serving network, and
the APN up to an octet 0. -/
def Accepts (sub : Subscriber) (sec : RuleSection) : Prop :=
  ∀ k ∈ sec.keys, (∀ r ∈ k.imsiRange, r.fromImsi ≤ sub.imsi ∧ sub.imsi ≤ r.toImsi) ∧
    (∀ p ∈ k.servingPlmn, UInt16.ofInt p.tac.toInt = sub.tai.tac) ∧
    ∀ s ∈ k.requestedApn, cstr sub.apn = cstr (wire (s.bytes.splitOn dot))

instance (sub : Subscriber) : DecidablePred (Matches sub) := fun sec =>
  inferInstanceAs (Decidable (∀ k ∈ sec.keys, _))

instance (sub : Subscriber) : DecidablePred (Accepts sub) := fun sec =>
  inferInstanceAs (Decidable (∀ k ∈ sec.keys, _))

theorem Matches.accepts {sub : Subscriber} {sec : RuleSection} (h : Matches sub sec) :
    Accepts sub sec := by
  intro k hk
  obtain ⟨himsi, hplmn, hapn⟩ := h k hk
  refine ⟨himsi, fun p hp => ?_, fun s hs => congrArg cstr (hapn s hs)⟩
  have hlt : sub.tai.tac.toNat < 2 ^ 16 := sub.tai.tac.toNat_lt
  have hmod : ((sub.tai.tac.toNat : ℤ) % 2 ^ 16).toNat = sub.tai.tac.toNat := by omega
  rw [(hplmn p hp).2.2, UInt16.ofInt, hmod, UInt16.ofNat_toNat]

def sortedRules (doc : Document) : List RuleSection :=
  doc.rules.insertionSort fun a b => a.priority.toUInt32 ≤ b.priority.toUInt32

/-- A rule of smallest priority among those that match. -/
def Best (doc : Document) (sub : Subscriber) (sec : RuleSection) : Prop :=
  sec ∈ doc.rules ∧ Matches sub sec ∧
    ∀ sec' ∈ doc.rules, Matches sub sec' → sec.priority ≤ sec'.priority

def profilesOf (store : Store) (sec : RuleSection) : Except Fault SubConfig :=
  selectedProfiles store sec.selectedApnProfile sec.selectedUserPlaneProfile sec.selectedQosProfile

/-- The result has the profiles of a best rule, or there is none and nothing matches. -/
def Selects (doc : Document) (store : Store) (sub : Subscriber)
    (result : Except Fault (Option SubConfig)) : Prop :=
  (∃ sec config, Best doc sub sec ∧ profilesOf store sec = .ok config ∧
    result = .ok (some config)) ∨
  (result = .ok none ∧ ∀ sec ∈ doc.rules, ¬Matches sub sec)

def keysOf (k : KeySection) : SubSelectionKeys where
  imsi := k.imsiRange
  plmn := k.servingPlmn.map parsePlmn
  apn := k.requestedApn.map fun s => padded (wire (s.bytes.splitOn dot))

def ruleOf (sec : RuleSection) : SubSelectionRule := withKeys sec (sec.keys.map keysOf)

def RuleFits (sec : RuleSection) : Prop := ∀ k ∈ sec.keys, ∀ s ∈ k.requestedApn, s.strlen ≤ 62

theorem parseKeys_eq_ok {k : KeySection} {keys : SubSelectionKeys} (h : parseKeys k = .ok keys) :
    keys = keysOf k ∧ ∀ s ∈ k.requestedApn, s.strlen ≤ 62 := by
  rw [parseKeys] at h
  cases happ : k.requestedApn with
  | none =>
    simp only [happ] at h
    rw [← Except.ok.inj h, keysOf, happ]
    exact ⟨rfl, fun s hs => nomatch hs⟩
  | some s =>
    simp only [happ, encodeRequestedApn_eq] at h
    obtain ⟨apn, hapn, h⟩ := bind_eq_ok.mp h
    split_ifs at hapn with h62
    rw [← Except.ok.inj h, ← Except.ok.inj hapn, keysOf, happ]
    exact ⟨rfl, fun t ht => Option.some.inj ht ▸ h62⟩

theorem parseRule_eq_ok {sec : RuleSection} {rule : SubSelectionRule}
    (h : parseRule sec = .ok rule) : rule = ruleOf sec ∧ RuleFits sec := by
  rw [parseRule] at h
  cases hkeys : sec.keys with
  | none =>
    simp only [hkeys] at h
    rw [← Except.ok.inj h, ruleOf, hkeys]
    exact ⟨rfl, fun k hk => by rw [hkeys] at hk; cases hk⟩
  | some k =>
    simp only [hkeys] at h
    obtain ⟨keys, hparse, h⟩ := bind_eq_ok.mp h
    obtain ⟨rfl, hfits⟩ := parseKeys_eq_ok hparse
    rw [← Except.ok.inj h, ruleOf, hkeys]
    refine ⟨rfl, fun k' hk' => ?_⟩
    rw [hkeys] at hk'
    exact Option.some.inj hk' ▸ hfits

theorem subSelRules_eq {doc : Document} {store : Store} (h : parseJsonDoc doc = .ok store) :
    store.subSelRules = (sortedRules doc).map ruleOf ∧ ∀ sec ∈ doc.rules, RuleFits sec := by
  obtain ⟨rules, hrules, h⟩ := bind_eq_ok.mp h
  have hmap : rules = doc.rules.map ruleOf :=
    eq_map_of_mapM hrules fun _ _ h => (parseRule_eq_ok h).1
  refine ⟨?_, fun sec hsec => ?_⟩
  · obtain ⟨apns, -, h⟩ := bind_eq_ok.mp h
    obtain ⟨ups, -, h⟩ := bind_eq_ok.mp h
    obtain ⟨qos, -, h⟩ := bind_eq_ok.mp h
    obtain ⟨access, -, h⟩ := bind_eq_ok.mp h
    rw [← Except.ok.inj h, sortedRules, hmap]
    exact (List.map_insertionSort (fun a b : RuleSection => a.priority.toUInt32 ≤ b.priority.toUInt32)
      notAfter ruleOf doc.rules fun _ _ _ _ => Iff.rfl).symm
  · obtain ⟨rule, -, hrule⟩ := exists_ok_of_mapM hrules hsec
    exact (parseRule_eq_ok hrule).2

theorem mem_sortedRules {doc : Document} {sec : RuleSection} :
    sec ∈ sortedRules doc ↔ sec ∈ doc.rules := List.mem_insertionSort _

section Loop

variable {sub : Subscriber} {k : KeySection}

theorem imsiKeyMatches_eq : imsiKeyMatches (subKeys sub) (keysOf k) =
    decide (∀ r ∈ k.imsiRange, r.fromImsi ≤ sub.imsi ∧ sub.imsi ≤ r.toImsi) := by
  unfold imsiKeyMatches keysOf
  cases k.imsiRange <;> simp [subKeys]

theorem plmnKeyMatches_eq : plmnKeyMatches (subKeys sub) (keysOf k) =
    decide (∀ p ∈ k.servingPlmn, UInt16.ofInt p.tac.toInt = sub.tai.tac) := by
  unfold plmnKeyMatches keysOf
  cases k.servingPlmn <;> simp [subKeys, parsePlmn, beq_eq_decide]

theorem apnKeyMatches_eq (hfits : ∀ s ∈ k.requestedApn, s.strlen ≤ 62) :
    apnKeyMatches (subKeys sub) (keysOf k) =
      .ok (decide (∀ s ∈ k.requestedApn, cstr sub.apn = cstr (wire (s.bytes.splitOn dot)))) := by
  unfold apnKeyMatches keysOf
  cases hreq : k.requestedApn with
  | none => simp
  | some s =>
    have hlen : (cstr (wire (s.bytes.splitOn dot))).length < 64 := by
      have hle := (List.takeWhile_sublist (· ≠ (0 : UInt8)) (l := wire (s.bytes.splitOn dot))).length_le
      have h62 : s.bytes.length ≤ 62 := hfits s hreq
      rw [length_wire_splitOn] at hle
      exact Nat.lt_of_le_of_lt hle (by omega)
    simp [subKeys, strcmp_padded hlen, deref_some]
    rfl

theorem ruleMatches_ruleOf {sec : RuleSection} (hfits : RuleFits sec) :
    ruleMatches (subKeys sub) (ruleOf sec) = .ok (decide (Accepts sub sec)) := by
  unfold ruleMatches ruleOf withKeys
  cases hkeys : sec.keys with
  | none => simp [Accepts, hkeys]
  | some k =>
    simp only [Option.map_some, imsiKeyMatches_eq, plmnKeyMatches_eq,
      apnKeyMatches_eq (hfits k hkeys), Accepts, hkeys, Option.mem_some_iff, forall_eq',
      Bool.decide_and]
    cases decide (∀ r ∈ k.imsiRange, r.fromImsi ≤ sub.imsi ∧ sub.imsi ≤ r.toImsi) <;>
      cases decide (∀ p ∈ k.servingPlmn, UInt16.ofInt p.tac.toInt = sub.tai.tac) <;> rfl

theorem findRule_map {secs : List RuleSection} (hfits : ∀ sec ∈ secs, RuleFits sec) :
    findRule (subKeys sub) (secs.map ruleOf) =
      .ok ((secs.find? fun sec => Accepts sub sec).map ruleOf) := by
  induction secs with
  | nil => rfl
  | cons sec secs ih =>
    have hrec := ih fun sec' hsec' => hfits sec' (List.mem_cons_of_mem sec hsec')
    rw [List.map_cons, findRule, ruleMatches_ruleOf (hfits sec List.mem_cons_self), List.find?_cons]
    cases decide (Accepts sub sec) with
    | true => rfl
    | false => exact hrec

/-- **The profiles are those of the first rule that accepts the subscriber.** -/
theorem matchSubSelection_eq {doc : Document} {store : Store} (h : parseJsonDoc doc = .ok store) :
    matchSubSelection (some store) (subKeys sub) =
      match (sortedRules doc).find? fun sec => Accepts sub sec with
      | none => .ok none
      | some sec => profilesOf store sec >>= fun config => .ok (some config) := by
  obtain ⟨hrules, hfits⟩ := subSelRules_eq h
  rw [matchSubSelection, hrules, findRule_map fun sec hsec => hfits sec (mem_sortedRules.mp hsec)]
  cases (sortedRules doc).find? fun sec => Accepts sub sec <;> rfl

end Loop

/-- The code takes the rule for a better one than it is: it is for another serving network (or a TAC
or an APN that the code cannot tell from the subscriber's), or its priority is smaller than that of
a matching rule only as an unsigned number. -/
def Overrated (doc : Document) (sub : Subscriber) (sec : RuleSection) : Prop :=
  ¬Matches sub sec ∨ 0 ≤ sec.priority ∧ ∃ sec' ∈ doc.rules, Matches sub sec' ∧ sec'.priority < 0

/-- A rule that the code accepts, and none in front of it in the unsigned order of the priorities,
names profiles that exist, and if it is overrated they are those of a best rule. -/
def Unmisled (doc : Document) (store : Store) (sub : Subscriber) : Prop :=
  ∀ before sec after, sortedRules doc = before ++ sec :: after → Accepts sub sec →
    (∀ sec' ∈ before, ¬Accepts sub sec') →
    ∃ config, profilesOf store sec = .ok config ∧
      (Overrated doc sub sec → ∃ best, Best doc sub best ∧ profilesOf store best = .ok config)

theorem le_of_toUInt32_le {a b : Int32} (h : a.toUInt32 ≤ b.toUInt32) (hsign : 0 ≤ a → 0 ≤ b) :
    a ≤ b := by
  have hnat : a.toBitVec.toNat ≤ b.toBitVec.toNat := h
  have hcond (x : Int32) : x.toInt = if 2 * x.toBitVec.toNat < 2 ^ 32 then (x.toBitVec.toNat : ℤ)
      else x.toBitVec.toNat - 2 ^ 32 := BitVec.toInt_eq_toNat_cond _
  have hlt (x : Int32) : x.toBitVec.toNat < 2 ^ 32 := x.toBitVec.isLt
  have hzero : (0 : Int32).toInt = 0 := rfl
  simp only [Int32.le_iff_toInt_le, hzero, hcond] at hsign ⊢
  have ha := hlt a
  have hb := hlt b
  split_ifs at hsign ⊢ <;> omega

/-- The first rule that the code accepts is a best one, unless it is overrated. -/
theorem best_of_not_overrated {doc : Document} {sub : Subscriber} {sec : RuleSection}
    {before after : List RuleSection} (hsplit : sortedRules doc = before ++ sec :: after)
    (hbefore : ∀ sec' ∈ before, ¬Accepts sub sec') (h : ¬Overrated doc sub sec) :
    Best doc sub sec := by
  obtain ⟨hmatch, hsign⟩ := not_or.mp h
  have hsorted : (sortedRules doc).Pairwise fun a b => a.priority.toUInt32 ≤ b.priority.toUInt32 :=
    List.pairwise_insertionSort _ _
  rw [hsplit] at hsorted
  refine ⟨mem_sortedRules.mp (hsplit ▸ by simp), Decidable.not_not.mp hmatch, fun sec' hmem hsec' => ?_⟩
  have hle : sec.priority.toUInt32 ≤ sec'.priority.toUInt32 := by
    rw [← mem_sortedRules, hsplit, List.mem_append, List.mem_cons] at hmem
    rcases hmem with hmem | rfl | hmem
    · exact absurd hsec'.accepts (hbefore sec' hmem)
    · exact UInt32.le_refl _
    · exact List.rel_of_pairwise_cons (List.pairwise_append.mp hsorted).2.1 hmem
  refine le_of_toUInt32_le hle fun hpos => ?_
  by_contra hneg
  exact hsign ⟨hpos, sec', hmem, hsec', Int32.not_le.mp hneg⟩

/-- **The profiles of a request that gets to the selection are the right ones if and only if the
first rule that the code accepts has profiles, and has those of a best rule if it is overrated.** -/
theorem selects_iff {doc : Document} {store : Store} {sub : Subscriber} {key : SubSelectionKeys}
    (h : parseJsonDoc doc = .ok store) (hkey : requestKeys store sub = .ok (some key)) :
    Selects doc store sub (matchSubSelection (some store) key) ↔ Unmisled doc store sub := by
  rw [eq_subKeys_of_requestKeys hkey, matchSubSelection_eq h]
  cases hfind : (sortedRules doc).find? fun sec => Accepts sub sec with
  | none =>
    have hnone := List.find?_eq_none.mp hfind
    refine iff_of_true (Or.inr ⟨rfl, fun sec hsec hmatch => ?_⟩) fun before sec after hsplit hsec => ?_
    · -- a rule that matches would be accepted
      exact hnone sec (mem_sortedRules.mpr hsec) (decide_eq_true hmatch.accepts)
    · have hmem : sec ∈ sortedRules doc := hsplit ▸ by simp
      exact absurd (decide_eq_true hsec) (hnone sec hmem)
  | some first =>
    constructor
    · rintro (⟨best, config, hbest, hprofiles, hresult⟩ | ⟨hresult, -⟩)
      · obtain ⟨config', hconfig', heq⟩ := bind_eq_ok.mp hresult
        obtain rfl : config' = config := Option.some.inj (Except.ok.inj heq)
        intro before sec after hsplit hsec hbefore
        -- with nothing accepted before it, `sec` is the rule the loop stops at
        have hsame : ((sortedRules doc).find? fun sec => Accepts sub sec) = some sec :=
          List.find?_eq_some_iff_append.mpr
            ⟨decide_eq_true hsec, before, after, hsplit, fun sec' hmem => by simp [hbefore sec' hmem]⟩
        obtain rfl : first = sec := Option.some.inj (hfind.symm.trans hsame)
        exact ⟨config', hconfig', fun _ => ⟨best, hbest, hprofiles⟩⟩
      · obtain ⟨config, -, heq⟩ := bind_eq_ok.mp hresult
        cases heq
    · intro hok
      obtain ⟨hfirst, before, after, hsplit, hbefore⟩ := List.find?_eq_some_iff_append.mp hfind
      have hnot (sec' : RuleSection) (hmem : sec' ∈ before) : ¬Accepts sub sec' := by
        simpa using hbefore sec' hmem
      obtain ⟨config, hconfig, hbest⟩ := hok before first after hsplit (of_decide_eq_true hfirst) hnot
      refine Or.inl ?_
      by_cases hover : Overrated doc sub first
      · obtain ⟨best, hbest, hprofiles⟩ := hbest hover
        exact ⟨best, config, hbest, hprofiles, bind_eq_ok.mpr ⟨config, hconfig, rfl⟩⟩
      · exact ⟨first, config, best_of_not_overrated hsplit hnot hover, hconfig,
          bind_eq_ok.mpr ⟨config, hconfig, rfl⟩⟩

/-- `"gold"`. -/
def gold : Str := .ofBytes [103, 111, 108, 100]

def ruleFor (priority : Int32) (keys : Option KeySection) (userPlane : Str) : RuleSection where
  priority := priority
  keys := keys
  selectedApnProfile := some gold
  selectedUserPlaneProfile := some userPlane
  selectedQosProfile := some gold

def homeRule : RuleSection := ruleFor 1 (some { servingPlmn := some ⟨208, 93, 1⟩ }) upfA

def twoPlanes : Document where
  rules := [homeRule, ruleFor 2 none upfB]
  apnProfiles := [(gold, some {})]
  userPlaneProfiles := [(upfA, { userPlane := some dp1 }), (upfB, { userPlane := some dp2 })]
  qosProfiles := [(gold, ⟨1000, 1000, none⟩)]

def home : Subscriber := ⟨208930000000001, ⟨2, 0, 8, 9, 3, 15, 1⟩, []⟩

def visitor : Subscriber := ⟨001010000000001, ⟨0, 0, 1, 0, 1, 15, 1⟩, []⟩

theorem selects_home : ∃ store, parseJsonDoc twoPlanes = .ok store ∧
    requestKeys store home = .ok (some (subKeys home)) ∧
    Selects twoPlanes store home (matchSubSelection (some store) (subKeys home)) := by
  refine ⟨_, rfl, rfl, (selects_iff rfl rfl).mpr fun before sec after hsplit hsec hbefore => ?_⟩
  have hsorted : sortedRules twoPlanes = [homeRule, ruleFor 2 none upfB] := by decide
  rw [hsorted] at hsplit
  cases before with
  | nil =>
    obtain ⟨rfl, -⟩ := List.cons.inj hsplit
    exact ⟨_, rfl, fun hover => absurd hover (by unfold Overrated; decide)⟩
  | cons first before =>
    obtain ⟨rfl, -⟩ := List.cons.inj hsplit
    exact absurd (by decide) (hbefore homeRule List.mem_cons_self)

/-- **A subscriber of another network gets the user plane of the first rule.** -/
theorem not_selects_visitor : ∃ store config, parseJsonDoc twoPlanes = .ok store ∧
    requestKeys store visitor = .ok (some (subKeys visitor)) ∧
    matchSubSelection (some store) (subKeys visitor) = .ok (some config) ∧
    config.userPlaneService = dp1 ∧ ¬Matches visitor homeRule ∧
    ¬Selects twoPlanes store visitor (matchSubSelection (some store) (subKeys visitor)) := by
  refine ⟨_, _, rfl, rfl, rfl, rfl, by decide, ?_⟩
  rintro (⟨best, config, ⟨hmem, hmatch, -⟩, hprofiles, hresult⟩ | ⟨hresult, -⟩)
  · rcases List.mem_cons.mp hmem with rfl | hmem
    · exact absurd hmatch (by decide)
    · obtain rfl := List.mem_singleton.mp hmem
      have hsame := congrArg SubConfig.userPlaneService
        (Option.some.inj (Except.ok.inj (hresult.trans (congrArg (Except.map some) hprofiles.symm))))
      exact absurd hsame (by decide)
  · cases hresult

end Spgw.Config
