/-
# What the handlers make of a queue

An event reaches one procedure of a queue that has the form `Shape`.
-/

import Spgw.Progress.Shape

namespace Spgw.Progress

open Machine

variable {cfg : Config} {tries : ℕ} {held : ProcId → Prop} {t t' w rar detach : Procedure}
  {before after ws w₁ w₂ : List Procedure}

/-- Whatever takes the place of `t` and still waits for something gives a queue in order,
and so does the end of `t`. -/
structure Active (tries : ℕ) (before : List Procedure) (t : Procedure)
    (after : List Procedure) : Prop where
  type : t.procType ≠ .dedBerActivation
  rebuild : ∀ {held t'}, t'.toProc.SameProc t.toProc → Alive tries held t' →
    Shape tries held (before ++ t' :: after)
  ends : ∀ {held t'}, t'.toProc.SameProc t.toProc →
    Sat (endProcedure before t' after) (Good tries held) AnyFault

theorem Active.same (h : Active tries before t after)
    (hsame : t'.toProc.SameProc t.toProc) : Active tries before t' after where
  type := by rw [hsame.procType]; exact h.type
  rebuild h' := h.rebuild (h'.trans hsame)
  ends h' := h.ends (h'.trans hsame)

theorem Active.fails (h : Active tries before t after) :
    Sat (failProcedure before t after) (Good tries held) AnyFault :=
  h.ends ⟨rfl, rfl, rfl, rfl⟩

theorem active_head (hsolo : Solo t) (hrunning : t.running = true) (hws : WaitingAll ws) :
    Active tries [] t ws where
  type := by rcases hsolo with h | h | h | h | h <;> simp [h]
  rebuild := by
    intro held t' hsame halive
    refine .alone ?_ (hsame.running.trans hrunning) halive hws
    unfold Solo at hsolo ⊢
    rwa [hsame.procType]
  ends := by
    intro held t' hsame
    have hnext : Sat (startNext [] ([] ++ ws)) (Good tries held) AnyFault :=
      startNext_good hws
    unfold endProcedure
    rw [hsame.procType]
    rcases hsolo with h | h | h | h | h <;> rw [h]
    · simp only
      split_ifs
      · exact hnext
      · exact sat_pure Good.none
    · exact hnext
    · exact hnext
    · exact sat_pure Good.none
    · exact hnext

theorem active_detach (hrar : rar.procType = .rar) (hidle : Idle rar)
    (htype : detach.procType = .nwInitDetach) (hparent : detach.parentProc = some rar.id)
    (hrunning : detach.running = true) (hrest : ∀ w ∈ w₁ ++ w₂, Waiting w) :
    Active tries (rar :: w₁) detach w₂ where
  type := by simp [htype]
  rebuild := by
    intro held t' hsame halive
    exact .detaching hrar hidle (hsame.procType.trans htype) (hsame.parentProc.trans hparent)
      (hsame.running.trans hrunning) halive hrest
  ends := by
    intro held t' hsame
    simp only [endProcedure, hsame.procType, htype]
    exact (sat_true _).bind fun _ _ => (sat_true _).bind fun _ _ => sat_pure Good.none

theorem Waiting.type (h : Waiting w) : w.procType ≠ .initialPdnAttach := by
  intro htype
  have hstart := h.startable
  simp [Startable, htype] at hstart

/-- **An event reaches a procedure it does not concern, or an active position.** -/
theorem Shape.cases (h : Shape tries held (before ++ t :: after)) :
    (Idle t ∧ t.procType ≠ .initialPdnAttach) ∨
      (Active tries before t after ∧ Alive tries held t) := by
  have hwaiting (hw : Waiting t) : Idle t ∧ t.procType ≠ .initialPdnAttach := ⟨hw.idle, hw.type⟩
  generalize hq : before ++ t :: after = queue at h
  cases h with
  | empty => simp at hq
  | alone solo running alive rest =>
    cases before with
    | nil =>
      obtain ⟨rfl, rfl⟩ := List.cons.inj hq
      exact Or.inr ⟨active_head solo running rest, alive⟩
    | cons b before =>
      obtain ⟨-, rfl⟩ := List.cons.inj hq
      exact Or.inl (hwaiting (rest.waiting t (by simp)))
  | @detaching rar detach w₁ w₂ rarType rarIdle detachType parent running alive rest =>
    cases before with
    | nil =>
      obtain ⟨rfl, -⟩ := List.cons.inj hq
      exact Or.inl ⟨rarIdle, by simp [rarType]⟩
    | cons b before =>
      obtain rfl := (List.cons.inj hq).1
      have htail : before ++ t :: after = w₁ ++ detach :: w₂ := (List.cons.inj hq).2
      -- The procedure stands before, at, or behind the detach.
      rcases List.append_eq_append_iff.mp htail with ⟨l, rfl, hl⟩ | ⟨l, rfl, hl⟩
      · cases l with
        | nil =>
          obtain ⟨rfl, rfl⟩ := List.cons.inj hl
          rw [List.append_nil] at rest
          exact Or.inr ⟨active_detach rarType rarIdle detachType parent running rest, alive⟩
        | cons x l =>
          obtain ⟨rfl, -⟩ := List.cons.inj hl
          exact Or.inl (hwaiting (rest t (by simp)))
      · cases l with
        | nil =>
          obtain ⟨rfl, rfl⟩ := List.cons.inj hl
          simp only [List.append_nil]
          exact Or.inr ⟨active_detach rarType rarIdle detachType parent running rest, alive⟩
        | cons x l =>
          obtain ⟨-, rfl⟩ := List.cons.inj hl
          exact Or.inl (hwaiting (rest t (by simp)))

@[simp] theorem Procedure.setSlot_toProc (t : Procedure) (data : Option TransData) (slot : Slot) :
    (t.setSlot data slot).toProc = t.toProc := by
  cases slot <;> rfl

theorem Procedure.slot_setSlot (t : Procedure) (data : Option TransData) (slot slot' : Slot) :
    (t.setSlot data slot).slot slot' = if slot' = slot then data else t.slot slot' := by
  cases slot <;> cases slot' <;> rfl

theorem Callback.leadsOn_next {callback : Callback} {tries i : ℕ}
    (h : (callback.expiry tries i).LeadsOn) (j : ℕ) :
    (callback.expiry tries j).LeadsOn := by
  cases callback <;>
    first
    | exact retry_leadsOn _ _
    | exact Or.inr rfl
    | simp [Callback.expiry, Expiry.LeadsOn] at h

theorem alive_rearm {slot : Slot} {data : TransData} (hslot : t.slot slot = some data) (itrCnt : ℕ)
    (h : Alive tries held t ∨
      (data.timeout.expiry tries data.itrCnt).LeadsOn) :
    Alive tries held (t.setSlot (some { data with itrCnt, armed := true }) slot) := by
  have hmoves (hleads : (data.timeout.expiry tries data.itrCnt).LeadsOn) :
      (t.setSlot (some { data with itrCnt, armed := true }) slot).Moves tries :=
    Procedure.moves_of_slot slot ((t.slot_setSlot _ slot slot).trans (if_pos rfl))
      ⟨rfl, Callback.leadsOn_next hleads itrCnt⟩
  rcases h with (⟨slot', data', hslot', hmoves'⟩ | ⟨htype, hheld⟩) | hleads
  · by_cases heq : slot' = slot
    · subst heq
      cases hslot.symm.trans hslot'
      exact Or.inl (hmoves hmoves'.2)
    · exact Or.inl (Procedure.moves_of_slot slot'
        ((t.slot_setSlot _ slot slot').trans ((if_neg heq).trans hslot')) hmoves')
  · exact Or.inr (by simpa using ⟨htype, hheld⟩)
  · exact Or.inl (hmoves hleads)

theorem alive_disarm {slot : Slot} {data : TransData} (hslot : t.slot slot = some data)
    (h : Alive tries held t) :
    Alive tries held (t.setSlot (some { data with armed := false }) slot) ∨
      (data.timeout.expiry tries data.itrCnt).LeadsOn := by
  rcases h with ⟨slot', data', hslot', hmoves'⟩ | ⟨htype, hheld⟩
  · by_cases heq : slot' = slot
    · subst heq
      cases hslot.symm.trans hslot'
      exact Or.inr hmoves'.2
    · exact Or.inl (Or.inl (Procedure.moves_of_slot slot'
        ((t.slot_setSlot _ slot slot').trans ((if_neg heq).trans hslot')) hmoves'))
  · exact Or.inl (Or.inr (by simpa using ⟨htype, hheld⟩))

theorem onCallback_good {slot : Slot} {callback : Callback}
    (h : Active cfg.requestTries before t after)
    (hwaits : ∀ data, t.slot slot = some data → Alive cfg.requestTries held t ∨
      data.timeout = callback ∧ (callback.expiry cfg.requestTries data.itrCnt).LeadsOn) :
    Sat (onCallback cfg slot callback before t after) (Good cfg.requestTries held) AnyFault := by
  unfold onCallback
  cases hslot : t.slot slot with
  | none => exact sat_throw trivial
  | some data =>
    simp only
    cases hexpiry : callback.expiry cfg.requestTries data.itrCnt with
    | resent =>
      refine sat_pure (h.rebuild ?_ (alive_rearm hslot _ ?_)).good
      · rw [Procedure.setSlot_toProc]
        exact .refl _
      · refine (hwaits data hslot).imp id fun ⟨htimeout, hleads⟩ => ?_
        rwa [htimeout]
    | ended =>
      simp only
      split_ifs
      · exact h.fails
      · exact h.ends (.refl _)
    | ignored =>
      have halive : Alive cfg.requestTries held t := by
        refine (hwaits data hslot).resolve_right fun ⟨_, hleads⟩ => ?_
        simp [hexpiry, Expiry.LeadsOn] at hleads
      exact sat_pure (h.rebuild (.refl _) halive).good
    | aborts => exact sat_throw trivial
    | wildPointer => exact sat_throw trivial

def KeepsShape (cfg : Config) (handler : Handler) (allowed : Procedure → Prop) : Prop :=
  ∀ {held before t after}, Shape cfg.requestTries held (before ++ t :: after) → allowed t →
    Sat (handler before t after) (Good cfg.requestTries held) AnyFault

theorem onExpiry_keepsShape (slot : Slot) : KeepsShape cfg (onExpiry cfg slot) fun _ => True := by
  intro held before t after h _
  unfold onExpiry
  cases hslot : t.slot slot with
  | none => exact sat_pure h.good
  | some data =>
    simp only
    split_ifs
    · rcases h.cases with ⟨hidle, -⟩ | ⟨hactive, halive⟩
      · simp [hidle.slot slot] at hslot
      · have hsame : (t.setSlot (some { data with armed := false }) slot).toProc.SameProc
            t.toProc := by
          rw [Procedure.setSlot_toProc]
          exact .refl _
        refine onCallback_good (hactive.same hsame) fun data' hslot' => ?_
        obtain rfl := Option.some.inj
          (hslot'.symm.trans ((t.slot_setSlot _ slot slot).trans (if_pos rfl)))
        exact (alive_disarm hslot halive).imp id fun hleads => ⟨rfl, hleads⟩
    · exact sat_pure h.good

theorem onStrayExpiry_keepsShape : KeepsShape cfg (onStrayExpiry cfg) fun _ => True := by
  intro held before t after h _
  unfold onStrayExpiry
  split_ifs with hstrays
  · rcases h.cases with ⟨hidle, -⟩ | ⟨hactive, halive⟩
    · simp [hidle.strays] at hstrays
    · exact onCallback_good (hactive.same (.refl _)) fun _ _ => Or.inl halive
  · exact sat_pure h.good

def PfcpRspOk (rsp : PfcpRsp) (t : Procedure) : Prop :=
  match rsp with
  | .deletion ccrPacked =>
    t.procType ≠ .nwInitDetach ∧ (t.procType = .detach → ccrPacked = true)
  | _ => True

instance (rsp : PfcpRsp) : DecidablePred (PfcpRspOk rsp) := fun _ =>
  match rsp with
  | .deletion _ => inferInstanceAs (Decidable (_ ∧ _))
  | .establishment _ _ => isTrue trivial
  | .modification _ => isTrue trivial

theorem handlePfcpRsp_good {rsp : PfcpRsp} (h : Active tries before t after)
    (hrsp : PfcpRspOk rsp t) :
    Sat (handlePfcpRsp rsp before t after) (Good tries held) AnyFault := by
  unfold handlePfcpRsp
  split
  · split_ifs
    · exact h.ends ⟨rfl, rfl, rfl, rfl⟩
    · exact h.fails
  · exact h.ends (.refl _)
  · exact h.ends (.refl _)
  · next htype => exact absurd htype h.type
  · next ccrPacked htype =>
      rw [if_pos (hrsp.2 htype)]
      exact h.ends (.refl _)
  · next htype => exact absurd htype hrsp.1
  · exact sat_throw trivial

theorem onPfcpRsp_keepsShape (rsp : PfcpRsp) : KeepsShape cfg (onPfcpRsp rsp) (PfcpRspOk rsp) := by
  intro held before t after h hrsp
  unfold onPfcpRsp
  split_ifs with hnone
  · exact sat_pure h.good
  · rcases h.cases with ⟨hidle, -⟩ | ⟨hactive, -⟩
    · exact absurd (hidle.slot .pfcp) hnone
    · exact handlePfcpRsp_good (hactive.same (.refl _)) hrsp

theorem onStrayRsp_keepsShape (accepted : Bool) :
    KeepsShape cfg (onStrayRsp accepted) fun _ => True := by
  intro held before t after h _
  unfold onStrayRsp
  split_ifs with hstrays
  · rcases h.cases with ⟨hidle, -⟩ | ⟨hactive, -⟩
    · simp [hidle.strays] at hstrays
    · exact handlePfcpRsp_good (hactive.same (.refl _)) trivial
  · exact sat_pure h.good

theorem onGtpRsp_keepsShape (rsp : GtpRsp) : KeepsShape cfg (onGtpRsp rsp) fun _ => True := by
  intro held before t after h _
  unfold onGtpRsp
  cases hslot : t.gtpcTrans with
  | none => exact sat_pure h.good
  | some data =>
    simp only
    split_ifs
    · rcases h.cases with ⟨hidle, -⟩ | ⟨hactive, -⟩
      · exact absurd (hslot.symm.trans (hidle.slot .gtpc)) (by simp)
      · unfold handleGtpRsp
        split
        · next htype => exact absurd htype hactive.type
        · exact hactive.ends ⟨rfl, rfl, rfl, rfl⟩
        · exact hactive.ends ⟨rfl, rfl, rfl, rfl⟩
        · exact sat_throw trivial
    · exact sat_pure h.good

theorem continueAttach_good {o : Option Procedure} (h : Active tries before t after)
    (ho : ∀ t' ∈ o, t'.toProc = t.toProc ∧ Alive tries held t') :
    Sat (continueAttach before t after o) (Good tries held) AnyFault := by
  cases o with
  | none => exact h.fails
  | some t' =>
    obtain ⟨hsame, halive⟩ := ho t' rfl
    refine sat_pure (h.rebuild ?_ halive).good
    rw [hsame]
    exact .refl _

end Spgw.Progress
