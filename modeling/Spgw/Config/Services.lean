/-
# The services a new configuration disables

`clearOldUpfProfiles` goes through the user plane profiles of the old configuration and requests
`DISABLE_UPF` for the service of each one whose *name* is no name of a new profile.
-/

import Spgw.Config.Store

namespace Spgw.Config

open Machine
open Session (deref_bind_eq_ok)

/-- Some user plane profile names the service. -/
def Serves (cfg : Store) (service : Str) : Prop :=
  ∃ up ∈ cfg.userPlaneList, up.userPlaneService = some service

/-- A request goes out for exactly the services no profile names any more. -/
def DisablesUnused (oldCfg newCfg : Store) (requests : List Str) : Prop :=
  ∀ service, service ∈ requests ↔ Serves oldCfg service ∧ ¬Serves newCfg service

/-- Profiles are told apart by their names as by their services. -/
structure NamesFollowServices (oldCfg newCfg : Store) : Prop where
  /-- A profile whose name is gone names a service, and none that is still in use. -/
  unused : ∀ up ∈ oldCfg.userPlaneList, stillNamed newCfg up = false →
    ∃ service, up.userPlaneService = some service ∧ ¬Serves newCfg service
  /-- Of the profiles that name a service that is gone, one has a name that is gone. -/
  named : ∀ service, Serves oldCfg service → ¬Serves newCfg service →
    ∃ up ∈ oldCfg.userPlaneList, stillNamed newCfg up = false ∧ up.userPlaneService = some service

section Loop

variable {newCfg : Store} {ups : List UserPlaneProfile} {requests requests' : List Str}

theorem clearOldUpfProfile_eq_ok_iff {up : UserPlaneProfile} :
    clearOldUpfProfile true newCfg requests up = .ok requests' ↔
      (stillNamed newCfg up = true ∧ requests' = requests) ∨ (stillNamed newCfg up = false ∧
          ∃ service, up.userPlaneService = some service ∧ requests' = requests ++ [service]) := by
  rw [clearOldUpfProfile]
  cases hnamed : stillNamed newCfg up with
  | true => simp [eq_comm]
  | false =>
    rw [if_neg Bool.false_ne_true, if_pos rfl, deref_bind_eq_ok]
    simp [eq_comm]

/-- **Each turn adds the service of a profile whose name is gone.** -/
theorem foldlM_clearOldUpfProfile_eq_ok_iff :
    ups.foldlM (clearOldUpfProfile true newCfg) requests = .ok requests' ↔
      ∃ more, requests' = requests ++ more ∧
        (ups.filter fun up => !stillNamed newCfg up).map UserPlaneProfile.userPlaneService =
          more.map some := by
  induction ups generalizing requests with
  | nil =>
    rw [List.foldlM_nil]
    constructor
    · intro h
      exact ⟨[], by rw [List.append_nil, Except.ok.inj h], rfl⟩
    · rintro ⟨more, rfl, hmore⟩
      rw [List.filter_nil, List.map_nil, eq_comm, List.map_eq_nil_iff] at hmore
      rw [hmore, List.append_nil]
      rfl
  | cons up ups ih =>
    rw [List.foldlM_cons, bind_eq_ok]
    simp only [clearOldUpfProfile_eq_ok_iff, ih]
    cases hnamed : stillNamed newCfg up with
    | true => simp [hnamed]
    | false =>
      simp only [hnamed, List.filter_cons, Bool.not_false, if_true, List.map_cons, false_and,
        true_and, false_or, reduceCtorEq]
      constructor
      · rintro ⟨_, ⟨service, hservice, rfl⟩, more, rfl, hmore⟩
        exact ⟨service :: more, by rw [List.append_assoc]; rfl, by rw [hservice, hmore]; rfl⟩
      · rintro ⟨more, rfl, hmore⟩
        obtain ⟨service, rest, rfl, hservice, hrest⟩ := List.map_eq_cons_iff.mp hmore.symm
        exact ⟨_, ⟨service, hservice.symm, rfl⟩, rest, by rw [List.append_assoc]; rfl, hrest.symm⟩

end Loop

theorem clearOldUpfProfiles_eq_ok_iff {oldCfg newCfg : Store} {requests : List Str} :
    clearOldUpfProfiles true oldCfg newCfg = .ok requests ↔
      (oldCfg.userPlaneList.filter fun up => !stillNamed newCfg up).map
        UserPlaneProfile.userPlaneService = requests.map some := by
  rw [clearOldUpfProfiles, foldlM_clearOldUpfProfile_eq_ok_iff]
  simp only [List.nil_append, exists_eq_left']

theorem mem_requests_iff {oldCfg newCfg : Store} {requests : List Str}
    (h : clearOldUpfProfiles true oldCfg newCfg = .ok requests) (service : Str) :
    service ∈ requests ↔ ∃ up ∈ oldCfg.userPlaneList,
      stillNamed newCfg up = false ∧ up.userPlaneService = some service := by
  have hmem : service ∈ requests ↔ some service ∈ requests.map some :=
    (List.mem_map_of_injective (Option.some_injective Str)).symm
  rw [hmem, ← clearOldUpfProfiles_eq_ok_iff.mp h, List.mem_map]
  simp only [List.mem_filter, Bool.not_eq_true', and_assoc]

theorem exists_requests {oldCfg newCfg : Store}
    (h : ∀ up ∈ oldCfg.userPlaneList, stillNamed newCfg up = false →
      ∃ service, up.userPlaneService = some service) :
    ∃ requests, clearOldUpfProfiles true oldCfg newCfg = .ok requests := by
  refine ⟨(oldCfg.userPlaneList.filter fun up => !stillNamed newCfg up).filterMap
    UserPlaneProfile.userPlaneService, clearOldUpfProfiles_eq_ok_iff.mpr ?_⟩
  rw [List.map_filterMap_some_eq_filter_map_isSome, eq_comm, List.filter_eq_self]
  intro o ho
  obtain ⟨up, hup, rfl⟩ := List.mem_map.mp ho
  obtain ⟨hold, hgone⟩ := List.mem_filter.mp hup
  obtain ⟨service, hservice⟩ := h up hold (by simpa using hgone)
  rw [hservice]
  rfl

/-- **A new configuration disables exactly the services that are no longer in use if the profiles
whose name is gone are those whose service is gone** -/
theorem disablesUnused_iff {oldCfg newCfg : Store} {doc : Document}
    (hdoc : parseJsonDoc doc = .ok newCfg) :
    (∃ requests, installConfig (some oldCfg) doc = .ok (newCfg, requests) ∧
        DisablesUnused oldCfg newCfg requests) ↔
      NamesFollowServices oldCfg newCfg := by
  have hinstall : ∀ requests, installConfig (some oldCfg) doc = .ok (newCfg, requests) ↔
      clearOldUpfProfiles true oldCfg newCfg = .ok requests := by
    intro requests
    rw [installConfig, hdoc]
    change (clearOldUpfProfiles true oldCfg newCfg >>= fun r => .ok (newCfg, r)) = _ ↔ _
    rw [bind_eq_ok]
    simp
  simp only [hinstall]
  constructor
  · rintro ⟨requests, hrequests, hexact⟩
    refine ⟨fun up hup hgone => ?_, fun service hold hnew => ?_⟩
    · have hmem : up.userPlaneService ∈ requests.map some := by
        rw [← clearOldUpfProfiles_eq_ok_iff.mp hrequests]
        exact List.mem_map_of_mem (List.mem_filter.mpr ⟨hup, by rw [hgone]; rfl⟩)
      obtain ⟨service, hservice, heq⟩ := List.mem_map.mp hmem
      exact ⟨service, heq.symm, ((hexact service).mp hservice).2⟩
    · exact (mem_requests_iff hrequests service).mp ((hexact service).mpr ⟨hold, hnew⟩)
  · intro hfollow
    obtain ⟨requests, hrequests⟩ := exists_requests fun up hup hgone =>
      (hfollow.unused up hup hgone).imp fun _ h => h.1
    refine ⟨requests, hrequests, fun service => ?_⟩
    rw [mem_requests_iff hrequests]
    constructor
    · rintro ⟨up, hup, hgone, hservice⟩
      obtain ⟨service', hservice', hunused⟩ := hfollow.unused up hup hgone
      cases hservice'.symm.trans hservice
      exact ⟨⟨up, hup, hservice⟩, hunused⟩
    · exact fun h => hfollow.named service h.1 h.2

def oneProfile (name service : Str) : Document where
  userPlaneProfiles := [(name, { userPlane := some service })]

def oneProfileStore (name service : Str) : Store where
  subSelRules := []
  apnProfileList := []
  userPlaneList := [⟨name, some service, true⟩]
  qosProfileList := []
  accessProfileList := []

theorem serves_oneProfileStore {name service service' : Str} :
    Serves (oneProfileStore name service) service' ↔ service = service' := by
  rw [Serves, oneProfileStore]
  simp

/-- `"upf-a"`. -/
def upfA : Str := .ofBytes [117, 112, 102, 45, 97]

/-- `"upf-b"`. -/
def upfB : Str := .ofBytes [117, 112, 102, 45, 98]

/-- `"dp-1"`. -/
def dp1 : Str := .ofBytes [100, 112, 45, 49]

/-- `"dp-2"`. -/
def dp2 : Str := .ofBytes [100, 112, 45, 50]

/-- A profile that is replaced by another one with another service. -/
theorem disablesUnused_replaced :
    ∃ requests, installConfig (some (oneProfileStore upfA dp1)) (oneProfile upfB dp2) =
        .ok (oneProfileStore upfB dp2, requests) ∧
      DisablesUnused (oneProfileStore upfA dp1) (oneProfileStore upfB dp2) requests := by
  refine (disablesUnused_iff rfl).mpr ⟨fun up hup _ => ?_, fun service hold _ => ?_⟩
  · obtain rfl := List.mem_singleton.mp hup
    exact ⟨dp1, rfl, fun h => absurd (serves_oneProfileStore.mp h) (by decide)⟩
  · obtain rfl := serves_oneProfileStore.mp hold
    exact ⟨_, List.mem_singleton_self _, by decide, rfl⟩

/-- **A profile with a new name has its service disabled, and a profile with a new service leaves
the old one enabled.** -/
theorem exists_renamed_and_retargeted :
    (installConfig (some (oneProfileStore upfA dp1)) (oneProfile upfB dp1) =
        .ok (oneProfileStore upfB dp1, [dp1]) ∧
      Serves (oneProfileStore upfB dp1) dp1 ∧
      ¬DisablesUnused (oneProfileStore upfA dp1) (oneProfileStore upfB dp1) [dp1]) ∧
    (installConfig (some (oneProfileStore upfA dp1)) (oneProfile upfA dp2) =
        .ok (oneProfileStore upfA dp2, []) ∧
      ¬Serves (oneProfileStore upfA dp2) dp1 ∧
      ¬DisablesUnused (oneProfileStore upfA dp1) (oneProfileStore upfA dp2) []) := by
  have hused : Serves (oneProfileStore upfB dp1) dp1 := serves_oneProfileStore.mpr rfl
  have hunused : ¬Serves (oneProfileStore upfA dp2) dp1 := fun h =>
    absurd (serves_oneProfileStore.mp h) (by decide)
  refine ⟨⟨rfl, hused, fun h => ?_⟩, rfl, hunused, fun h => ?_⟩
  · exact ((h dp1).mp (List.mem_singleton_self dp1)).2 hused
  · exact absurd ((h dp1).mpr ⟨serves_oneProfileStore.mpr rfl, hunused⟩) List.not_mem_nil

end Spgw.Config
