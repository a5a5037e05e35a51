/-
# The roster of attached subscribers

Which UE contexts have finished their initial attach is not written anywhere in the state.
-/

import Spgw.Ledger.Detach
import Spgw.Session.Responses

namespace Spgw.Session

open Machine

/-- What the roster says about one procedure; `next` is the next UE context. -/
structure Procedure.Rostered (attached : List UePtr) (next : UePtr) (proc : Procedure) : Prop where
  attach : proc.procType = .initialPdnAttach → proc.running = true ∧
    ∀ u ∈ proc.ueContext, u < next ∧ u ∉ attached ∧ proc.pdnContext ≠ none
  detach : proc.procType = .detach → proc.pfcpTrans ≠ none → ∀ u ∈ proc.ueContext, u ∈ attached
  gx : proc.gxTrans = true → proc.procType = .initialPdnAttach

/-- Procedure `p` is the attach of UE context `u`. -/
def AttachOf (procs : Heap Procedure) (p : ProcId) (u : UePtr) : Prop :=
  ∃ proc, procs.get p = some proc ∧ proc.procType = .initialPdnAttach ∧ proc.ueContext = some u

structure Roster (attached : List UePtr) (ues : Heap UeContext) (procs : Heap Procedure)
    (upfs : Table Service Upf) : Prop where
  nodup : attached.Nodup
  old : ∀ u ∈ attached, u < ues.next
  proc : ∀ p proc, procs.get p = some proc → proc.Rostered attached ues.next
  single : ∀ p q u, AttachOf procs p u → AttachOf procs q u → p = q
  pending : ∀ service upf, upfs service = some upf → ∀ p ∈ upf.pendingSubProcs, Attach procs p
  queue : ∀ u context, ues.get u = some context → ∀ p ∈ context.pendingSubProcs,
    p < procs.next ∧ ∀ proc, procs.get p = some proc → proc.ueContext = some u
  ue : ∀ u context, ues.get u = some context → context.pdn ≠ none →
    u ∈ attached ∨ ∃ p ∈ context.pendingSubProcs, AttachOf procs p u

abbrev State.Roster (s : State) (attached : List UePtr) : Prop :=
  Session.Roster attached s.ues s.procs s.upfs

theorem Procedure.Rostered.mono {attached : List UePtr} {next next' : UePtr} {proc : Procedure}
    (h : proc.Rostered attached next) (hnext : next ≤ next') : proc.Rostered attached next' where
  attach htype := by
    obtain ⟨hrunning, hue⟩ := h.attach htype
    exact ⟨hrunning, fun u hu => ⟨Nat.lt_of_lt_of_le (hue u hu).1 hnext, (hue u hu).2⟩⟩
  detach := h.detach
  gx := h.gx

theorem Procedure.rostered_of_attach {attached : List UePtr} {next : UePtr} {proc : Procedure}
    (htype : proc.procType = .initialPdnAttach) (hrunning : proc.running = true)
    (hue : proc.ueContext = none) : proc.Rostered attached next where
  attach _ := ⟨hrunning, fun u hu => by simp [hue] at hu⟩
  detach hdetach := by simp [htype] at hdetach
  gx _ := htype

theorem Procedure.rostered_of_idle {attached : List UePtr} {next : UePtr} {proc : Procedure}
    (htype : proc.procType ≠ .initialPdnAttach) (hpfcp : proc.pfcpTrans = none)
    (hgx : proc.gxTrans = false) : proc.Rostered attached next where
  attach h := absurd h htype
  detach _ h := absurd hpfcp h
  gx h := by simp [hgx] at h

theorem Procedure.Rostered.congr {attached : List UePtr} {next : UePtr} {a b : Procedure}
    (h : a.Rostered attached next) (htype : b.procType = a.procType)
    (hue : b.ueContext = a.ueContext) (hpdn : b.pdnContext = a.pdnContext)
    (hrunning : a.running = true → b.running = true)
    (hpfcp : b.pfcpTrans ≠ none → a.pfcpTrans ≠ none ∨ a.procType = .initialPdnAttach)
    (hgx : b.gxTrans = true → a.gxTrans = true) : b.Rostered attached next where
  attach hattach := by
    obtain ⟨hrun, hctx⟩ := h.attach (htype ▸ hattach)
    rw [hue, hpdn]
    exact ⟨hrunning hrun, hctx⟩
  detach hdetach hb := by
    rw [htype] at hdetach
    rw [hue]
    rcases hpfcp hb with ha | ha
    · exact h.detach hdetach ha
    · simp [ha] at hdetach
  gx hb := htype.trans (h.gx (hgx hb))

section AttachOf

variable {procs : Heap Procedure} {p q : ProcId} {u : UePtr} {a b : Procedure}

attribute [local grind] AttachOf

@[grind =>] theorem AttachOf.set_iff (hp : procs.get p = some a)
    (htype : b.procType = a.procType) (hue : b.ueContext = a.ueContext) :
    AttachOf (procs.set p b) q u ↔ AttachOf procs q u := by grind

@[grind =] theorem AttachOf.free_iff :
    AttachOf (procs.free p) q u ↔ q ≠ p ∧ AttachOf procs q u := by grind

theorem AttachOf.alloc_iff (hnone : a.ueContext = none ∨ a.procType ≠ .initialPdnAttach) :
    AttachOf (procs.alloc a) q u ↔ AttachOf procs q u := by grind

end AttachOf

namespace Roster

variable {attached : List UePtr} {ues : Heap UeContext} {procs : Heap Procedure}
  {upfs : Table Service Upf}

theorem setProc (h : Roster attached ues procs upfs) {p : ProcId} {a b : Procedure}
    (hp : procs.get p = some a) (htype : b.procType = a.procType)
    (hue : b.ueContext = a.ueContext) (hb : b.Rostered attached ues.next) :
    Roster attached ues (procs.set p b) upfs where
  nodup := h.nodup
  old := h.old
  proc q proc hq := by grind [h.proc q proc]
  single q r u hq hr := h.single q r u ((AttachOf.set_iff hp htype hue).mp hq)
    ((AttachOf.set_iff hp htype hue).mp hr)
  pending service upf hupf q hq := by grind [Attach, h.pending service upf hupf q hq]
  queue u context hu q hq := by grind [h.queue u context hu q hq]
  ue u context hu hpdn := by
    simpa only [AttachOf.set_iff hp htype hue] using h.ue u context hu hpdn

theorem setUpf (h : Roster attached ues procs upfs) {service : Service} {upf : Upf}
    (hpend : ∀ p ∈ upf.pendingSubProcs, Attach procs p) :
    Roster attached ues procs (Function.update upfs service (some upf)) where
  __ := h
  pending service' upf' hupf' := by
    rw [Function.update_apply] at hupf'
    grind [h.pending service' upf']

theorem addProc (h : Roster attached ues procs upfs) {proc : Procedure}
    (hproc : proc.Rostered attached ues.next)
    (hnone : proc.ueContext = none ∨ proc.procType ≠ .initialPdnAttach) :
    Roster attached ues (procs.alloc proc) upfs where
  nodup := h.nodup
  old := h.old
  proc q b hq := by grind [h.proc q b]
  single q r u hq hr := h.single q r u ((AttachOf.alloc_iff hnone).mp hq)
    ((AttachOf.alloc_iff hnone).mp hr)
  pending service upf hupf q hq := by grind [Attach, h.pending service upf hupf q hq]
  queue u context hu q hq := by grind [h.queue u context hu q hq]
  ue u context hu hpdn := by
    simpa only [AttachOf.alloc_iff hnone] using h.ue u context hu hpdn

theorem enqueue (h : Roster attached ues procs upfs) {u : UePtr} {context : UeContext} {p : ProcId}
    {proc : Procedure} (hu : ues.get u = some context) (hp : procs.get p = some proc)
    (hue : proc.ueContext = some u) :
    Roster attached (ues.set u { context with pendingSubProcs := context.pendingSubProcs ++ [p] })
      procs upfs where
  nodup := h.nodup
  old v hv := by grind [h.old v hv]
  proc q b hq := by grind [h.proc q b hq]
  single := h.single
  pending := h.pending
  queue v c hv q hq := by have hqueue := h.queue v; grind
  ue v c hv hpdn := by grind [h.ue v]

theorem addUe (h : Roster attached ues procs upfs) {context : UeContext}
    (hpdn : context.pdn = none) (hqueue : context.pendingSubProcs = []) :
    Roster attached (ues.alloc context) procs upfs where
  nodup := h.nodup
  old u hu := by grind [h.old u hu]
  proc q b hq := (h.proc q b hq).mono (by simp)
  single := h.single
  pending := h.pending
  queue u c hu q hq := by have hold := h.queue u; grind
  ue u c hu hne := by grind [h.ue u]

theorem link (h : Roster attached ues procs upfs) {p : ProcId} {a b : Procedure}
    {context : UeContext} (hp : procs.get p = some a) (hnone : a.ueContext = none)
    (hb : b.procType = .initialPdnAttach) (hrunning : b.running = true)
    (hue : b.ueContext = some ues.next) (hpdn : b.pdnContext ≠ none)
    (hqueue : context.pendingSubProcs = [p]) :
    Roster attached (ues.alloc context) (procs.set p b) upfs := by
  obtain ⟨hnodup, hold, hprocs, hsingle, hpend, hqueues, hues⟩ := h
  -- The only attach of the new context is `p`, and `p` is the attach of no other.
  have hof (q : ProcId) (u : UePtr) : AttachOf (procs.set p b) q u ↔
      q = p ∧ u = ues.next ∨ q ≠ p ∧ AttachOf procs q u := by grind [AttachOf]
  have hlt {q : ProcId} {u : UePtr} (hq : AttachOf procs q u) : q ≠ p ∧ u < ues.next := by
    obtain ⟨proc, hproc, hattach, hu⟩ := hq
    grind [((hprocs q proc hproc).attach hattach).2 u hu]
  have hnew : ues.next ∉ attached := fun hmem => Nat.lt_irrefl _ (hold _ hmem)
  refine ⟨hnodup, by grind, fun q proc hq => ?_, by grind, by grind [Attach], by grind,
    fun u c hu hne => ?_⟩
  · by_cases hqp : q = p
    · obtain rfl : b = proc := by grind
      exact ⟨fun _ => ⟨hrunning, by grind⟩, by grind, fun _ => hb⟩
    · exact (hprocs q proc (by grind)).mono (by simp)
  · by_cases hnext : u = ues.next
    · exact .inr ⟨p, by grind, (hof p u).mpr (.inl ⟨rfl, hnext⟩)⟩
    · grind [hues u c]

theorem freeProc (h : Roster attached ues procs upfs) {p : ProcId} {a : Procedure}
    (hp : procs.get p = some a) (hnone : a.ueContext = none) :
    Roster attached ues (procs.free p) upfs where
  nodup := h.nodup
  old := h.old
  proc q b hq := h.proc q b (Heap.get_of_get_free hq)
  single q r u hq hr := h.single q r u (AttachOf.free_iff.mp hq).2 (AttachOf.free_iff.mp hr).2
  pending service upf hupf q hq := by grind [Attach, h.pending service upf hupf q hq]
  queue u context hu q hq := by grind [h.queue u context hu q hq]
  ue u context hu hpdn := by grind [AttachOf, h.ue u context hu hpdn]

theorem succeed (h : Roster attached ues procs upfs) {p : ProcId} {a : Procedure} {u : UePtr}
    {context : UeContext} (hp : procs.get p = some a) (htype : a.procType = .initialPdnAttach)
    (hue : a.ueContext = some u) (hu : ues.get u = some context) :
    Roster (attached ++ [u])
      (ues.set u { context with pendingSubProcs := context.pendingSubProcs.erase p })
      (procs.free p) upfs := by
  have hattach : AttachOf procs p u := ⟨a, hp, htype, hue⟩
  obtain ⟨hlt, hnot, -⟩ := ((h.proc p a hp).attach htype).2 u hue
  obtain ⟨hnodup, hold, hprocs, hsingle, hpend, hqueues, hues⟩ := h
  refine ⟨by grind [List.nodup_append], by grind, fun q b hq => ?_, by grind, by grind [Attach],
    by grind [List.mem_of_mem_erase], by grind [AttachOf]⟩
  -- Another attach is not the attach of `u`, so its context is not the one entered.
  have hqp : q ≠ p ∧ procs.get q = some b := by grind
  obtain ⟨hrunning, hdetach, hgx⟩ := hprocs q b hqp.2
  refine ⟨fun hb => ⟨(hrunning hb).1, fun v hv => ?_⟩, fun hb hpfcp v hv => ?_, hgx⟩
  · have hne : v ≠ u := fun hvu => hqp.1 (hsingle q p u ⟨b, hqp.2, hb, hvu ▸ hv⟩ hattach)
    grind [(hrunning hb).2 v hv]
  · exact List.mem_append_left _ (hdetach hb hpfcp v hv)

end Roster

/-- The session of UE context `u` is closed: the context and procedures of its are gone;
the others have their queues, and no PDN they did not have. -/
structure Closes (u : UePtr) (s t : State) : Prop where
  live : (s.ues.get u).isSome
  gone : t.ues.get u = none
  others : ∀ v, v ≠ u → (t.ues.get v).map (·.pendingSubProcs) = (s.ues.get v).map (·.pendingSubProcs)
  pdns : ∀ v a b, s.ues.get v = some a → t.ues.get v = some b → b.pdn ≠ none → a.pdn ≠ none
  nextUe : t.ues.next = s.ues.next
  nextProc : t.procs.next = s.procs.next
  procs : ∀ q, t.procs.get q = s.procs.get q ∨
    t.procs.get q = none ∧ ∀ proc, s.procs.get q = some proc → proc.ueContext = some u
  upfs : t.upfs = s.upfs

namespace Closes

variable {u : UePtr} {s t : State}

theorem get_procs (h : Closes u s t) {q : ProcId} {proc : Procedure}
    (hq : t.procs.get q = some proc) : s.procs.get q = some proc := by
  rcases h.procs q with heq | ⟨hnone, -⟩
  · exact heq ▸ hq
  · rw [hnone] at hq
    cases hq

theorem attachOf (h : Closes u s t) {q : ProcId} {v : UePtr} (hq : AttachOf t.procs q v) :
    AttachOf s.procs q v :=
  hq.imp fun _ hproc => ⟨h.get_procs hproc.1, hproc.2⟩

theorem exists_context (h : Closes u s t) {v : UePtr} {c : UeContext} (hv : t.ues.get v = some c) :
    v ≠ u ∧ ∃ c₀, s.ues.get v = some c₀ ∧ c₀.pendingSubProcs = c.pendingSubProcs := by
  have hne : v ≠ u := by
    rintro rfl
    rw [h.gone] at hv
    cases hv
  have hsame := h.others v hne
  rw [hv, Option.map_some] at hsame
  obtain ⟨c₀, hc₀, heq⟩ := Option.map_eq_some_iff.mp hsame.symm
  exact ⟨hne, c₀, hc₀, heq⟩

theorem isSome_of_ne (h : Closes u s t) {v : UePtr} (hv : v ≠ u) :
    (t.ues.get v).isSome = (s.ues.get v).isSome := by
  have hsame := congrArg Option.isSome (h.others v hv)
  rwa [Option.isSome_map, Option.isSome_map] at hsame

theorem roster (h : Closes u s t) {attached : List UePtr} (hs : s.Roster attached) :
    t.Roster attached where
  nodup := hs.nodup
  old v hv := h.nextUe ▸ hs.old v hv
  proc q proc hq := h.nextUe ▸ hs.proc q proc (h.get_procs hq)
  single q r v hq hr := hs.single q r v (h.attachOf hq) (h.attachOf hr)
  pending service upf hupf q hq := by
    obtain ⟨hlt, hattach⟩ := hs.pending service upf (h.upfs ▸ hupf) q hq
    exact ⟨h.nextProc ▸ hlt, fun proc hproc => hattach proc (h.get_procs hproc)⟩
  queue v c hv q hq := by
    obtain ⟨-, c₀, hc₀, heq⟩ := h.exists_context hv
    obtain ⟨hlt, hback⟩ := hs.queue v c₀ hc₀ q (heq ▸ hq)
    exact ⟨h.nextProc ▸ hlt, fun proc hproc => hback proc (h.get_procs hproc)⟩
  ue v c hv hne := by
    obtain ⟨hvu, c₀, hc₀, heq⟩ := h.exists_context hv
    refine (hs.ue v c₀ hc₀ (h.pdns v c₀ c hc₀ hv hne)).imp_right ?_
    rintro ⟨q, hq, proc, hproc, htype, hue⟩
    refine ⟨q, heq ▸ hq, proc, ?_, htype, hue⟩
    -- A procedure that is gone belonged to `u`.
    rcases h.procs q with hkept | ⟨-, hback⟩
    · rw [hkept, hproc]
    · exact absurd (Option.some.inj (hue.symm.trans (hback proc hproc))) hvu

theorem of_unlinked {p : ProcId} {proc : Procedure} {context b : UeContext} {s₁ : State}
    (h : Closes u s₁ t) (hp : s.procs.get p = some proc) (hue : proc.ueContext = some u)
    (hu : s.ues.get u = some context) (hues : s₁.ues = s.ues.set u b)
    (hprocs : s₁.procs = s.procs.free p) (hupfs : s₁.upfs = s.upfs) : Closes u s t where
  live := by simp [hu]
  gone := h.gone
  others v hv := by rw [h.others v hv, hues, Heap.get_set hu, if_neg hv]
  pdns v a c ha hc hne := by
    obtain ⟨hvu, -⟩ := h.exists_context hc
    refine h.pdns v a c ?_ hc hne
    rw [hues, Heap.get_set hu, if_neg hvu, ha]
  nextUe := by rw [h.nextUe, hues, Heap.next_set]
  nextProc := by rw [h.nextProc, hprocs, Heap.next_free]
  procs q := by
    by_cases hq : q = p
    · subst hq
      refine Or.inr ⟨?_, fun a ha => ?_⟩
      · cases ht : t.procs.get q with
        | none => rfl
        | some a =>
          have hfree := h.get_procs ht
          simp [hprocs, Heap.get_free] at hfree
      · rw [← Option.some.inj (hp.symm.trans ha)]
        exact hue
    · have hkept : s₁.procs.get q = s.procs.get q := by rw [hprocs, Heap.get_free, if_neg hq]
      rw [← hkept]
      exact h.procs q
  upfs := h.upfs.trans hupfs

end Closes

theorem releaseSession_closes (s : State) (u : UePtr) (q : PdnPtr)
    (hqueue : ∀ context, s.ues.get u = some context → ∀ p ∈ context.pendingSubProcs,
      ∀ proc, s.procs.get p = some proc → proc.ueContext = some u) :
    Sat (releaseSession s u q) (Closes u s) AnyFault := by
  unfold releaseSession
  refine (cleanupPdnContext_spec trivial (Or.inr trivial)).bind ?_
  rintro t ⟨pdn, v, context, -, -, hv, rfl⟩
  refine (cleanupUeContext_spec trivial (Or.inr trivial)).mono ?_
  rintro t ⟨context', procs, gtpTrans, hu', hdropped, rfl⟩
  obtain ⟨dynamicPool, staticPool, heq⟩ := exists_releaseAddress_eq s pdn
  rw [heq] at hdropped ⊢
  dsimp only at hu' hdropped
  -- The UE context of the PDN loses its PDN; every queue stays.
  have hqueues (w : UePtr) : ((s.ues.set v { context with pdn := none }).get w).map
      (·.pendingSubProcs) = (s.ues.get w).map (·.pendingSubProcs) := Heap.map_get_set hv rfl
  obtain ⟨c, hc, hsame⟩ : ∃ c, s.ues.get u = some c ∧
      c.pendingSubProcs = context'.pendingSubProcs := by
    have hmap := hqueues u
    rw [hu', Option.map_some] at hmap
    exact Option.map_eq_some_iff.mp hmap.symm
  refine ⟨by simp [hc], by simp [Heap.get_free], fun w hw => ?_, fun w a b ha hb hne => ?_, ?_,
    hdropped.next, fun p => ?_, rfl⟩
  · dsimp only
    rw [Heap.get_free, if_neg hw]
    exact hqueues w
  · have hb' := Heap.get_of_get_free hb
    rw [Heap.get_set hv] at hb'
    split_ifs at hb' with hwv
    · rw [← Option.some.inj hb'] at hne
      exact absurd rfl hne
    · rwa [Option.some.inj (ha.symm.trans hb')]
  · exact Heap.next_free.trans Heap.next_set
  · dsimp only
    rw [hdropped.get]
    split_ifs with hp
    · exact Or.inr ⟨rfl, hqueue c hc p (hsame ▸ hp)⟩
    · exact Or.inl rfl

end Spgw.Session
