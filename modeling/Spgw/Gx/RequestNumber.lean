/-
# The number of a CCR

`fill_ccr_request` (`cp/gx/gx_interface.c`) numbers a request by its type: an initial request is 0,
an update or a termination takes the next value of `cc_request_number`.
-/

import Mathlib.Algebra.Ring.Nat
import Mathlib.Data.List.Induction

namespace Spgw.Gx

def initialRequest : ℕ := 1
def updateRequest : ℕ := 2
def terminationRequest : ℕ := 3

def tgppGprs : ℕ := 0

structure CcrRequest (σ : Type*) where
  sessionId : σ
  ccRequestType : ℕ

structure Ccr (σ : Type*) where
  sessionId : σ
  ccRequestType : ℕ
  ccRequestNumber : UInt32
  ipCanType : Option ℕ

variable {σ : Type*}

def fillCcrRequest (ccRequestNumber : UInt32) (r : CcrRequest σ) : Option (Ccr σ × UInt32) :=
  if r.ccRequestType = initialRequest then
    some (⟨r.sessionId, r.ccRequestType, 0, some tgppGprs⟩, ccRequestNumber)
  else if r.ccRequestType = updateRequest then
    some (⟨r.sessionId, r.ccRequestType, ccRequestNumber + 1, none⟩, ccRequestNumber + 1)
  else if r.ccRequestType = terminationRequest then
    some (⟨r.sessionId, r.ccRequestType, ccRequestNumber + 1, some tgppGprs⟩, ccRequestNumber + 1)
  else none

structure Numbering (σ : Type*) where
  ccRequestNumber : UInt32 := 0
  sent : List (Ccr σ) := []

def Numbering.send (s : Numbering σ) (r : CcrRequest σ) : Numbering σ :=
  match fillCcrRequest s.ccRequestNumber r with
  | some (ccr, n) => ⟨n, s.sent ++ [ccr]⟩
  | none => s

def sendAll (rs : List (CcrRequest σ)) : Numbering σ := rs.foldl Numbering.send {}

theorem sendAll_concat {rs : List (CcrRequest σ)} {r : CcrRequest σ} :
    sendAll (rs ++ [r]) = (sendAll rs).send r := by
  rw [sendAll, List.foldl_append]
  rfl

def counted (rs : List (CcrRequest σ)) : List (CcrRequest σ) :=
  rs.filter (·.ccRequestType ≠ initialRequest)

variable [DecidableEq σ]

def ofSession (g : σ) (rs : List (CcrRequest σ)) : List (CcrRequest σ) :=
  rs.filter (·.sessionId = g)

def numbers (g : σ) (s : Numbering σ) : List ℕ :=
  (s.sent.filter (·.sessionId = g)).map (·.ccRequestNumber.toNat)

/-- A CCR-I comes first, and then updates and terminations. -/
def Opened : List (CcrRequest σ) → Prop
  | [] => True
  | r :: rs => r.ccRequestType = initialRequest ∧
      ∀ r' ∈ rs, r'.ccRequestType = updateRequest ∨ r'.ccRequestType = terminationRequest

instance : (l : List (CcrRequest σ)) → Decidable (Opened l)
  | [] => isTrue trivial
  | _ :: _ => inferInstanceAs (Decidable (_ ∧ _))

/-- Every session counts its requests from 0 on. -/
def InOrder (s : Numbering σ) : Prop := ∀ g, numbers g s = List.range (numbers g s).length

/-- Only one session sends requests that are counted. -/
def OneCounted (rs : List (CcrRequest σ)) : Prop :=
  (∀ r ∈ counted rs, ∀ r' ∈ counted rs, r.sessionId = r'.sessionId) ∧ (counted rs).length < 2 ^ 32

section Send

omit [DecidableEq σ]

theorem exists_send {s : Numbering σ} {r : CcrRequest σ}
    (h : r.ccRequestType = initialRequest ∨ r.ccRequestType = updateRequest ∨
      r.ccRequestType = terminationRequest) :
    ∃ ccr : Ccr σ, ccr.sessionId = r.sessionId ∧ ccr.ccRequestNumber =
        (if r.ccRequestType = initialRequest then 0 else s.ccRequestNumber + 1) ∧
      s.send r = ⟨if r.ccRequestType = initialRequest then s.ccRequestNumber
        else s.ccRequestNumber + 1, s.sent ++ [ccr]⟩ := by
  rcases h with h | h | h <;> rw [Numbering.send, fillCcrRequest, h]
  · exact ⟨_, rfl, rfl, rfl⟩
  · exact ⟨_, rfl, rfl, rfl⟩
  · exact ⟨_, rfl, rfl, rfl⟩

theorem Opened.of_append {l l' : List (CcrRequest σ)} (h : Opened (l ++ l')) : Opened l := by
  cases l with
  | nil => trivial
  | cons r l => exact ⟨h.1, fun r' hr' => h.2 r' (List.mem_append_left _ hr')⟩

theorem counted_concat {rs : List (CcrRequest σ)} {r : CcrRequest σ} : counted (rs ++ [r]) =
      counted rs ++ if r.ccRequestType = initialRequest then [] else [r] := by
  rw [counted, counted, List.filter_append]
  split_ifs with h <;> simp [h]

end Send

section Run

variable {rs : List (CcrRequest σ)} {r : CcrRequest σ} {g : σ}

theorem ofSession_concat :
    ofSession g (rs ++ [r]) = ofSession g rs ++ if r.sessionId = g then [r] else [] := by
  rw [ofSession, ofSession, List.filter_append]
  split_ifs with h <;> simp [h]

theorem numbers_concat {s : Numbering σ} {n : UInt32} {ccr : Ccr σ} :
    numbers g ⟨n, s.sent ++ [ccr]⟩ =
      numbers g s ++ if ccr.sessionId = g then [ccr.ccRequestNumber.toNat] else [] := by
  rw [numbers, numbers, List.filter_append, List.map_append]
  split_ifs with hg <;> simp [hg]

theorem inOrder_concat {s : Numbering σ} {n : UInt32} {ccr : Ccr σ} : InOrder ⟨n, s.sent ++ [ccr]⟩ ↔
      InOrder s ∧ ccr.ccRequestNumber.toNat = (numbers ccr.sessionId s).length := by
  have hself : ∀ (l : List ℕ) (k : ℕ), l ++ [k] = List.range (l ++ [k]).length ↔
      l = List.range l.length ∧ k = l.length := by
    intro l k
    rw [List.length_append, List.length_singleton, List.range_succ]
    rw [← List.concat_eq_append, ← List.concat_eq_append, List.concat_inj]
  constructor
  · intro h
    have hsid := (hself _ _).mp (by simpa only [numbers_concat, if_true] using h ccr.sessionId)
    refine ⟨fun g => ?_, hsid.2⟩
    rcases eq_or_ne ccr.sessionId g with rfl | hg
    · exact hsid.1
    · simpa only [numbers_concat, if_neg hg, List.append_nil] using h g
  · rintro ⟨h, hn⟩ g
    rw [numbers_concat]
    rcases eq_or_ne ccr.sessionId g with rfl | hg
    · rw [if_pos rfl]
      exact (hself _ _).mpr ⟨h _, hn⟩
    · rw [if_neg hg, List.append_nil]
      exact h g

theorem last_cases (h : ∀ g, Opened (ofSession g (rs ++ [r]))) :
    r.ccRequestType = initialRequest ∧ (ofSession r.sessionId rs).length = 0 ∨
      r.ccRequestType ≠ initialRequest ∧
        (r.ccRequestType = updateRequest ∨ r.ccRequestType = terminationRequest) ∧
        (ofSession r.sessionId rs).length = (ofSession r.sessionId (counted rs)).length + 1 := by
  have hne : ∀ r : CcrRequest σ, r.ccRequestType = updateRequest ∨
      r.ccRequestType = terminationRequest → r.ccRequestType ≠ initialRequest := by
    rintro r (h | h) <;> rw [h] <;> decide
  have hr := h r.sessionId
  rw [ofSession_concat, if_pos rfl] at hr
  have hcomm : ofSession r.sessionId (counted rs) = counted (ofSession r.sessionId rs) := by
    rw [ofSession, counted, List.filter_filter, counted, ofSession, List.filter_filter]
    exact List.filter_congr fun _ _ => Bool.and_comm ..
  rw [hcomm]
  cases hl : ofSession r.sessionId rs with
  | nil =>
    rw [hl] at hr
    exact .inl ⟨hr.1, rfl⟩
  | cons r₀ l =>
    rw [hl] at hr
    have hlast := hr.2 r (List.mem_append_right _ (List.mem_singleton_self r))
    have hrest : counted l = l := List.filter_eq_self.mpr fun r' hr' =>
      decide_eq_true (hne r' (hr.2 r' (List.mem_append_left _ hr')))
    have hfirst : counted (r₀ :: l) = counted l := List.filter_cons_of_neg (by simp [hr.1])
    exact .inr ⟨hne r hlast, hlast, by rw [hfirst, hrest, List.length_cons]⟩

theorem oneCounted_concat (hr : r.ccRequestType ≠ initialRequest) :
    OneCounted (rs ++ [r]) ↔ OneCounted rs ∧
      ((counted rs).length + 1) % 2 ^ 32 = (ofSession r.sessionId (counted rs)).length + 1 := by
  have hc : counted (rs ++ [r]) = counted rs ++ [r] := by rw [counted_concat, if_neg hr]
  have hall : (ofSession r.sessionId (counted rs)).length = (counted rs).length ↔
      ∀ r' ∈ counted rs, r'.sessionId = r.sessionId := by
    rw [ofSession, List.length_filter_eq_length_iff]
    simp
  have hle : (ofSession r.sessionId (counted rs)).length ≤ (counted rs).length :=
    List.length_filter_le ..
  rw [OneCounted, OneCounted, hc, List.length_append, List.length_singleton]
  constructor
  · rintro ⟨hone, hlt⟩
    refine ⟨⟨fun a ha b hb => hone a (List.mem_append_left _ ha) b (List.mem_append_left _ hb),
      by omega⟩, ?_⟩
    rw [Nat.mod_eq_of_lt hlt, hall.mpr]
    exact fun a ha => hone a (List.mem_append_left _ ha) r (by simp)
  · rintro ⟨⟨-, hlt⟩, hmod⟩
    have hlen : (ofSession r.sessionId (counted rs)).length = (counted rs).length := by omega
    have hsid : ∀ r' ∈ counted rs ++ [r], r'.sessionId = r.sessionId := by
      intro r' hr'
      rcases List.mem_append.mp hr' with hr' | hr'
      · exact hall.mp hlen r' hr'
      · rw [List.mem_singleton.mp hr']
    exact ⟨fun a ha b hb => (hsid a ha).trans (hsid b hb).symm, by omega⟩

theorem sendAll_spec (h : ∀ g, Opened (ofSession g rs)) :
    (sendAll rs).ccRequestNumber = UInt32.ofNat (counted rs).length ∧
      (∀ g, (numbers g (sendAll rs)).length = (ofSession g rs).length) ∧
      (InOrder (sendAll rs) ↔ OneCounted rs) := by
  induction rs using List.reverseRecOn with
  | nil => exact ⟨rfl, fun _ => rfl, iff_of_true (fun _ => rfl) ⟨nofun, Nat.two_pow_pos 32⟩⟩
  | append_singleton rs r ih =>
    have hrs : ∀ g, Opened (ofSession g rs) := by
      intro g
      have hg := h g
      rw [ofSession_concat] at hg
      exact hg.of_append
    obtain ⟨hnum, hlen, hiff⟩ := ih hrs
    have hlast := last_cases h
    obtain ⟨ccr, hsid, hn, hsend⟩ := exists_send (s := sendAll rs) (r := r)
      (hlast.imp And.left fun h => h.2.1)
    have hlens : ∀ g, (numbers g ((sendAll rs).send r)).length = (ofSession g (rs ++ [r])).length := by
      intro g
      rw [hsend, numbers_concat, hsid, ofSession_concat, List.length_append, List.length_append,
        hlen g]
      split_ifs <;> rfl
    rw [sendAll_concat]
    rcases hlast with ⟨ht, hnone⟩ | ⟨ht, -, hprev⟩
    · have hc : counted (rs ++ [r]) = counted rs := by
        rw [counted_concat, if_pos ht, List.append_nil]
      rw [if_pos ht] at hn hsend
      refine ⟨by rw [hsend, hc, hnum], hlens, ?_⟩
      rw [hsend, inOrder_concat, hiff, hsid, hlen, hnone, hn, OneCounted, OneCounted, hc]
      exact and_iff_left rfl
    · have hnext : UInt32.ofNat (counted rs).length + 1 = UInt32.ofNat ((counted rs).length + 1) :=
        (UInt32.ofNat_add ..).symm
      rw [if_neg ht, hnum, hnext] at hn hsend
      refine ⟨by rw [hsend, counted_concat, if_neg ht, List.length_append]; rfl, hlens, ?_⟩
      rw [hsend, inOrder_concat, hiff, hsid, hlen, hprev, hn, oneCounted_concat ht,
        UInt32.toNat_ofNat']

end Run

/-- **The numbers of every session are in order exactly if one session alone takes the counter** -/
theorem inOrder_sendAll_iff (rs : List (CcrRequest σ)) (h : ∀ g, Opened (ofSession g rs)) :
    InOrder (sendAll rs) ↔ OneCounted rs :=
  (sendAll_spec h).2.2

/-- An update and the termination of one session, while another is opened. -/
theorem inOrder_sendAll_updated : InOrder (sendAll [⟨(0 : Fin 2), 1⟩, ⟨0, 2⟩, ⟨1, 1⟩, ⟨0, 3⟩]) :=
  (inOrder_sendAll_iff _ (by decide)).mpr ⟨by decide, by decide⟩

/-- Two sessions are opened and ended: the second termination is numbered 2 instead of 1. -/
theorem not_inOrder_terminated :
    (∀ g, Opened (ofSession g [⟨(0 : Fin 2), 1⟩, ⟨1, 1⟩, ⟨0, 3⟩, ⟨1, 3⟩])) ∧
      ¬InOrder (sendAll [⟨(0 : Fin 2), 1⟩, ⟨1, 1⟩, ⟨0, 3⟩, ⟨1, 3⟩]) :=
  ⟨by decide, fun h => absurd (h 1) (by decide)⟩

end Spgw.Gx
