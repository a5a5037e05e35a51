/-
# How procedures, contexts and transactions hang together

Between events every procedure is found under the key of its request in the table of GTP
transactions, waits in the queue of the UE context it points to, and has not been answered; every UE
context is found by its TEID, and its PDN points back to it with the SEID made of that TEID.
-/

import Spgw.Session.Events

namespace Spgw.Session

structure Core where
  ues : Heap UeContext
  pdns : Heap Pdn
  procs : Heap Procedure
  ueByTeid : Table ℕ UePtr
  upfs : Table Service Upf
  gtpTrans : Table TransKey ProcId
  teidOffset : ℕ
  csRsps : List CsRsp
  ended : List (ProcId × TransKey)

def State.core (s : State) : Core :=
  ⟨s.ues, s.pdns, s.procs, s.ueByTeid, s.upfs, s.gtpTrans, s.teidOffset, s.csRsps, s.ended⟩

def answersOf (csRsps : List CsRsp) (p : ProcId) : List (Peer × ℕ) :=
  (csRsps.filter (·.proc = some p)).map fun r => (r.peer, r.seq)

structure UeOk (k : Core) (u : UePtr) (context : UeContext) : Prop where
  listed : k.ueByTeid context.s11SgwGtpcTeid = some u
  old : context.s11SgwGtpcTeid < 0xC0FFEE + k.teidOffset
  small : context.s11SgwGtpcTeid < 2 ^ 28
  pdn : ∀ q ∈ context.pdn, ∃ pdn, k.pdns.get q = some pdn ∧ pdn.context = some u ∧
    pdn.seid = sessId context.s11SgwGtpcTeid pdn.defaultBearerId
  queue : ∀ p ∈ context.pendingSubProcs, ∃ proc, k.procs.get p = some proc ∧ proc.ueContext = some u
  nodup : context.pendingSubProcs.Nodup

def Linked (k : Core) (p : ProcId) (proc : Procedure) : Prop :=
  ∃ u context q, proc.ueContext = some u ∧ k.ues.get u = some context ∧
    p ∈ context.pendingSubProcs ∧ proc.pdnContext = some q ∧ context.pdn = some q

structure Procedure.Sound (proc : Procedure) : Prop where
  trans : proc.gtpcTrans = some proc.request
  attach : proc.procType = .initialPdnAttach → proc.running = true ∧ proc.request.peer.port ≠ 0
  pfcp : proc.pfcpTrans ≠ none → proc.running = true ∧
    (proc.procType = .initialPdnAttach ∨ proc.procType = .detach)
  gx : proc.gxTrans = true → proc.procType = .initialPdnAttach

structure ProcOk (k : Core) (p : ProcId) (proc : Procedure) : Prop where
  sound : proc.Sound
  table : k.gtpTrans proc.request = some p
  unanswered : answersOf k.csRsps p = []
  linked : (proc.ueContext = none ∧ proc.pdnContext = none ∧ proc.pfcpTrans = none) ∨
    Linked k p proc
  waiting : proc.running = false → ∃ dsr, proc.msgInfo.rxMsg = .dsr dsr ∧
    ∀ u ∈ proc.ueContext, k.ueByTeid dsr.teid = some u

/-- The procedure has sent one response, to the request it was started with. -/
def Answered (csRsps : List CsRsp) (e : ProcId × TransKey) : Prop :=
  answersOf csRsps e.1 = [(e.2.peer, e.2.seq)]

/-- `p` is an attach, or was a procedure once. -/
def Attach (procs : Heap Procedure) (p : ProcId) : Prop :=
  p < procs.next ∧ ∀ proc, procs.get p = some proc → proc.procType = .initialPdnAttach

/-- The tables, the queues and the answers agree. -/
structure Consistent (k : Core) : Prop where
  ue : ∀ u context, k.ues.get u = some context → UeOk k u context
  teid : ∀ t u, k.ueByTeid t = some u →
    ∃ context, k.ues.get u = some context ∧ context.s11SgwGtpcTeid = t
  proc : ∀ p proc, k.procs.get p = some proc → ProcOk k p proc
  pending : ∀ service upf, k.upfs service = some upf → ∀ p ∈ upf.pendingSubProcs, Attach k.procs p
  rsps : ∀ r ∈ k.csRsps, ∀ p ∈ r.proc, p < k.procs.next
  ended : ∀ e ∈ k.ended, e.1 < k.procs.next ∧ k.procs.get e.1 = none ∧ Answered k.csRsps e

theorem ueSessId_sessId {teid : ℕ} (h : teid < 2 ^ 28) (ebi : ℕ) :
    ueSessId (sessId teid ebi) = teid := by
  unfold ueSessId sessId
  omega

section Answers

variable {csRsps : List CsRsp} {p q : ProcId} {r : CsRsp}

theorem answersOf_append_self (hr : r.proc = some p) :
    answersOf (csRsps ++ [r]) p = answersOf csRsps p ++ [(r.peer, r.seq)] := by
  simp [answersOf, List.filter_append, hr]

theorem answersOf_append_of_ne (hr : r.proc ≠ some p) :
    answersOf (csRsps ++ [r]) p = answersOf csRsps p := by
  simp [answersOf, List.filter_append, hr]

theorem answersOf_eq_nil (h : ∀ r ∈ csRsps, r.proc ≠ some p) : answersOf csRsps p = [] := by
  have hfilter : csRsps.filter (·.proc = some p) = [] := by simpa using h
  rw [answersOf, hfilter, List.map_nil]

end Answers

namespace Consistent

variable {k : Core}

attribute [local grind cases] UeOk ProcOk
attribute [local grind intro] UeOk ProcOk
attribute [local grind] Linked Attach Answered

theorem setProc (h : Consistent k) {p : ProcId} {a b : Procedure} (hp : k.procs.get p = some a)
    (hsound : b.Sound) (htype : b.procType = a.procType) (hrequest : b.request = a.request)
    (hue : b.ueContext = a.ueContext) (hpdn : b.pdnContext = a.pdnContext)
    (hpfcp : a.ueContext = none → b.pfcpTrans = a.pfcpTrans)
    (hwaiting : b.running = false → a.running = false ∧ b.msgInfo.rxMsg = a.msgInfo.rxMsg) :
    Consistent { k with procs := k.procs.set p b } := by
  obtain ⟨hues, hteid, hprocs, hpend, hrsps, hended⟩ := h
  refine ⟨fun u context hu => ?_, hteid, fun q proc hq => ?_, by grind, by grind, by grind⟩
  · grind [hues u context hu]
  · by_cases hqp : q = p
    · have hpok := hprocs p a hp
      grind
    · grind [hprocs q proc]

theorem setPdn (h : Consistent k) {q : PdnPtr} {a b : Pdn} (hq : k.pdns.get q = some a)
    (hctx : b.context = a.context) (hseid : b.seid = a.seid)
    (hebi : b.defaultBearerId = a.defaultBearerId) :
    Consistent { k with pdns := k.pdns.set q b } := by
  refine ⟨fun u context hu => ?_, h.teid, fun p proc hp => ?_, h.pending, h.rsps, h.ended⟩
  · grind [h.ue u context hu]
  · grind [h.proc p proc hp]

theorem setUpf (h : Consistent k) {service : Service} {upf : Upf}
    (hpend : ∀ p ∈ upf.pendingSubProcs, Attach k.procs p) :
    Consistent { k with upfs := Function.update k.upfs service (some upf) } := by
  refine ⟨fun u context hu => ?_, h.teid, fun p proc hp => ?_, fun other upf' hupf' => ?_, h.rsps,
    h.ended⟩
  · grind [h.ue u context hu]
  · grind [h.proc p proc hp]
  · grind [h.pending other upf']

theorem addProc (h : Consistent k) {proc : Procedure} (hsound : proc.Sound)
    (hfree : k.gtpTrans proc.request = none) (hue : proc.ueContext = none)
    (hpdn : proc.pdnContext = none) (hpfcp : proc.pfcpTrans = none)
    (hwaiting : proc.running = false → ∃ dsr, proc.msgInfo.rxMsg = .dsr dsr) :
    Consistent { k with
      procs := k.procs.alloc proc
      gtpTrans := k.gtpTrans.insert proc.request k.procs.next } := by
  rw [Table.insert_of_none hfree]
  obtain ⟨hues, hteid, hprocs, hpend, hrsps, hended⟩ := h
  have hunanswered : answersOf k.csRsps k.procs.next = [] :=
    answersOf_eq_nil fun r hr hrq => Nat.lt_irrefl _ (hrsps r hr _ hrq)
  refine ⟨fun u context hu => ?_, hteid, fun q a hq => ?_, by grind, by grind, by grind⟩
  · grind [hues u context hu]
  · by_cases hnew : q = k.procs.next
    · grind
    · grind [hprocs q a]

theorem link (h : Consistent k) {p : ProcId} {a b : Procedure} {u : UePtr} {context : UeContext}
    {q : PdnPtr} (hp : k.procs.get p = some a) (ha : a.ueContext = none)
    (hu : k.ues.get u = some context) (hq : context.pdn = some q) (hsound : b.Sound)
    (htype : b.procType = a.procType) (hrequest : b.request = a.request)
    (hue : b.ueContext = some u) (hpdn : b.pdnContext = some q)
    (hwaiting : b.running = false → ∃ dsr, b.msgInfo.rxMsg = .dsr dsr ∧
      k.ueByTeid dsr.teid = some u) :
    Consistent { k with
      procs := k.procs.set p b
      ues := k.ues.set u { context with pendingSubProcs := context.pendingSubProcs ++ [p] } } := by
  obtain ⟨hues, hteid, hprocs, hpend, hrsps, hended⟩ := h
  -- The procedure is in no queue yet: its UE context is `NULL`.
  have hnew {v : UePtr} {c : UeContext} (hv : k.ues.get v = some c) : p ∉ c.pendingSubProcs := by
    grind [(hues v c hv).queue p]
  refine ⟨fun v c hv => ?_, by grind, fun r proc hr => ?_, by grind, by grind, by grind⟩
  · by_cases hvu : v = u
    · have hok := hues u context hu
      grind [List.nodup_append, hnew hu]
    · grind [hues v c, hnew (v := v) (c := c)]
  · by_cases hrp : r = p
    · have hok := hprocs p a hp
      grind
    · grind [hprocs r proc]

theorem addLinked (h : Consistent k) {proc : Procedure} {u : UePtr} {context : UeContext}
    {q : PdnPtr} (hsound : proc.Sound) (hfree : k.gtpTrans proc.request = none)
    (hu : k.ues.get u = some context) (hq : context.pdn = some q) (hue : proc.ueContext = some u)
    (hpdn : proc.pdnContext = some q) (hpfcp : proc.pfcpTrans = none)
    (hwaiting : proc.running = false → ∃ dsr, proc.msgInfo.rxMsg = .dsr dsr ∧
      k.ueByTeid dsr.teid = some u) :
    Consistent { k with
      procs := k.procs.alloc proc
      gtpTrans := k.gtpTrans.insert proc.request k.procs.next
      ues := k.ues.set u
        { context with pendingSubProcs := context.pendingSubProcs ++ [k.procs.next] } } := by
  -- As if it were allocated first and got its contexts then.
  let bare : Procedure := { proc with ueContext := none, pdnContext := none }
  have hbare : bare.Sound := ⟨hsound.trans, hsound.attach, hsound.pfcp, hsound.gx⟩
  have hadd := h.addProc hbare hfree rfl rfl hpfcp fun hrun => by
    obtain ⟨dsr, hdsr, -⟩ := hwaiting hrun
    exact ⟨dsr, hdsr⟩
  have hlink := hadd.link (Heap.get_alloc.trans (if_pos rfl)) rfl hu hq hsound rfl rfl hue hpdn
    hwaiting
  rwa [Heap.set_alloc] at hlink

theorem freeProc (h : Consistent k) {p : ProcId} {a : Procedure} {ues : Heap UeContext}
    (hp : k.procs.get p = some a)
    (hues : ∀ v, ues.get v = (k.ues.get v).map fun c =>
      { c with pendingSubProcs := c.pendingSubProcs.erase p }) :
    Consistent { k with
      gtpTrans := k.gtpTrans.erase a.request
      procs := k.procs.free p
      ues } := by
  obtain ⟨hold, hteid, hprocs, hpend, hrsps, hended⟩ := h
  refine ⟨fun v c' hv => ?_, by grind, fun r proc hr => ?_, by grind, by grind, by grind⟩
  · rw [hues, Option.map_eq_some_iff] at hv
    obtain ⟨c, hc, rfl⟩ := hv
    have hok := hold v c hc
    grind [List.Nodup.mem_erase_iff, List.Nodup.erase]
  · have hkey : r ≠ p ∧ proc.request ≠ a.request := by
      grind [(hprocs p a hp).table, hprocs r proc]
    obtain ⟨sound, table, unanswered, linked, waiting⟩ := hprocs r proc (Heap.get_of_get_free hr)
    refine ⟨sound, by grind, unanswered, ?_, waiting⟩
    have herase {l : List ProcId} (hmem : r ∈ l) : r ∈ l.erase p :=
      (List.mem_erase_of_ne hkey.1).mpr hmem
    grind

theorem erase_queue_eq (h : Consistent k) {p : ProcId} {a : Procedure} {v : UePtr} {c : UeContext}
    (hp : k.procs.get p = some a) (hc : k.ues.get v = some c) (hv : a.ueContext ≠ some v) :
    c.pendingSubProcs.erase p = c.pendingSubProcs := by
  refine List.erase_of_not_mem fun hmem => hv ?_
  obtain ⟨proc, hproc, hback⟩ := (h.ue v c hc).queue p hmem
  rwa [Option.some.inj (hp.symm.trans hproc)]

theorem freeUnlinked (h : Consistent k) {p : ProcId} {a : Procedure}
    (hp : k.procs.get p = some a) (ha : a.ueContext = none) :
    Consistent { k with
      gtpTrans := k.gtpTrans.erase a.request
      procs := k.procs.free p } := by
  refine h.freeProc hp fun v => ?_
  cases hc : k.ues.get v with
  | none => rfl
  | some c => rw [Option.map_some, h.erase_queue_eq hp hc (by simp [ha])]

theorem unlink (h : Consistent k) {p : ProcId} {a : Procedure} {u : UePtr} {context : UeContext}
    (hp : k.procs.get p = some a) (ha : a.ueContext = some u) (hu : k.ues.get u = some context) :
    Consistent { k with
      gtpTrans := k.gtpTrans.erase a.request
      procs := k.procs.free p
      ues := k.ues.set u { context with pendingSubProcs := context.pendingSubProcs.erase p } } := by
  refine h.freeProc hp fun v => ?_
  by_cases hv : v = u
  · grind
  · rw [Heap.get_set hu, if_neg hv]
    cases hc : k.ues.get v with
    | none => rfl
    | some c => rw [Option.map_some, h.erase_queue_eq hp hc (by grind)]

theorem answer (h : Consistent k) {p : ProcId} (key : TransKey) {r : CsRsp}
    (hlt : p < k.procs.next) (hgone : k.procs.get p = none)
    (hnone : answersOf k.csRsps p = []) (hproc : r.proc = some p)
    (hpeer : r.peer = key.peer) (hseq : r.seq = key.seq) :
    Consistent { k with csRsps := k.csRsps ++ [r], ended := k.ended ++ [(p, key)] } := by
  have hother {q : ProcId} (hq : q ≠ p) : answersOf (k.csRsps ++ [r]) q = answersOf k.csRsps q :=
    answersOf_append_of_ne (by grind)
  have hself : answersOf (k.csRsps ++ [r]) p = [(key.peer, key.seq)] := by
    rw [answersOf_append_self hproc, hnone, hpeer, hseq]
    rfl
  refine ⟨fun u context hu => ?_, h.teid, fun q proc hq => ?_, h.pending, ?_, fun e he => ?_⟩
  · grind [h.ue u context hu]
  · grind [h.proc q proc hq]
  · have hrsps := h.rsps
    grind
  · rcases List.mem_append.mp he with he | he
    · grind [h.ended e he]
    · rw [List.mem_singleton.mp he]
      exact ⟨hlt, hgone, hself⟩

theorem answerEarly (h : Consistent k) {r : CsRsp} (hproc : r.proc = none) :
    Consistent { k with csRsps := k.csRsps ++ [r] } := by
  have hsame (q : ProcId) : answersOf (k.csRsps ++ [r]) q = answersOf k.csRsps q :=
    answersOf_append_of_ne (by simp [hproc])
  refine ⟨fun u context hu => ?_, h.teid, fun q proc hq => ?_, h.pending, ?_, fun e he => ?_⟩
  · grind [h.ue u context hu]
  · grind [h.proc q proc hq]
  · have hrsps := h.rsps
    grind
  · grind [h.ended e he]

theorem addUe (h : Consistent k) {context : UeContext} {pdns : Heap Pdn}
    (hteid : context.s11SgwGtpcTeid = 0xC0FFEE + k.teidOffset)
    (hsmall : 0xC0FFEE + k.teidOffset < 2 ^ 28) (hqueue : context.pendingSubProcs = [])
    (hpdns : ∀ q pdn, k.pdns.get q = some pdn → pdns.get q = some pdn)
    (hpdn : ∀ q ∈ context.pdn, ∃ pdn, pdns.get q = some pdn ∧
      pdn.context = some k.ues.next ∧ pdn.seid = sessId context.s11SgwGtpcTeid pdn.defaultBearerId) :
    Consistent { k with
      ues := k.ues.alloc context
      pdns
      ueByTeid := k.ueByTeid.insert context.s11SgwGtpcTeid k.ues.next
      teidOffset := k.teidOffset + 1 } := by
  -- All TEIDs in use are smaller than the new one.
  have hlt {t : ℕ} {v : UePtr} (ht : k.ueByTeid t = some v) : t < 0xC0FFEE + k.teidOffset := by
    obtain ⟨c, hc, rfl⟩ := h.teid t v ht
    exact (h.ue v c hc).old
  have hfree : k.ueByTeid context.s11SgwGtpcTeid = none := by
    cases hknown : k.ueByTeid context.s11SgwGtpcTeid with
    | none => rfl
    | some v =>
      have := hlt hknown
      omega
  rw [Table.insert_of_none hfree]
  refine ⟨fun v c hv => ?_, ?_, fun p proc hp => ?_, h.pending, h.rsps, h.ended⟩
  · by_cases hnew : v = k.ues.next
    · grind
    · have hold := h.ue v c (by grind)
      grind
  · have hlisted := h.teid
    grind
  · grind [h.proc p proc hp]

theorem release (h : Consistent k) {u : UePtr} {context : UeContext} {q : PdnPtr}
    {ues : Heap UeContext} {procs : Heap Procedure} {gtpTrans : Table TransKey ProcId}
    (hu : k.ues.get u = some context) (hq : context.pdn = some q)
    (hues : ∀ v, ues.get v = if v = u then none else k.ues.get v)
    (hdropped : Dropped k.procs k.gtpTrans context.pendingSubProcs procs gtpTrans) :
    Consistent { k with
      ues, procs, gtpTrans
      pdns := k.pdns.free q
      ueByTeid := k.ueByTeid.erase context.s11SgwGtpcTeid } := by
  have hue := h.ue u context hu
  have hteid {t : ℕ} {v : UePtr} (hv : v ≠ u) (ht : k.ueByTeid t = some v) :
      k.ueByTeid.erase context.s11SgwGtpcTeid t = some v := by
    grind [hue.listed]
  have hold {p : ProcId} {proc : Procedure} (hp : procs.get p = some proc) :
      p ∉ context.pendingSubProcs ∧ k.procs.get p = some proc := by
    rw [hdropped.get] at hp
    grind
  refine ⟨fun v c hv => ?_, fun t v ht => ?_, fun p proc hp => ?_, fun service upf hupf p hp => ?_,
    fun r hr p hp => ?_, fun e he => ?_⟩
  · rw [hues] at hv
    split_ifs at hv with hvu
    obtain ⟨listed, old, small, pdn, queue, nodup⟩ := h.ue v c hv
    refine ⟨hteid hvu listed, old, small, fun r hr => ?_, fun p hp => ?_, nodup⟩
    · -- Two UE contexts do not share a PDN: it points back to one.
      grind [pdn r hr, hue.pdn q hq]
    · grind [queue p hp, hue.queue p, hdropped.get p]
  · obtain ⟨c, hc, rfl⟩ := h.teid t v (by grind)
    grind
  · obtain ⟨hnot, hproc⟩ := hold hp
    obtain ⟨sound, table, unanswered, linked, waiting⟩ := h.proc p proc hproc
    have hlink : proc.ueContext ≠ some u := by grind
    refine ⟨sound, ?_, unanswered, by grind, by grind⟩
    rcases hdropped.trans proc.request with heq | ⟨-, p', hp', proc', hproc', htrans⟩
    · exact heq.trans table
    · -- The dropped procedure would have the same key.
      have hother := h.proc p' proc' hproc'
      have hkey : proc'.request = proc.request :=
        Option.some.inj (hother.sound.trans.symm.trans htrans)
      have htable := hother.table
      rw [hkey, table] at htable
      exact absurd (Option.some.inj htable ▸ hp') hnot
  · grind [h.pending service upf hupf p hp, hdropped.next]
  · grind [h.rsps r hr p hp, hdropped.next]
  · grind [h.ended e he, hdropped.next, hdropped.get e.1]

end Consistent

end Spgw.Session
