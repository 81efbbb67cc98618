/-
How long a session lasts that CMD_KEEPACTIVE was sent in.

The command adds its argument to `sc_tstamp`; later in the same pass
`osdp_pd_update` stores the time in it, as it does for every command it
accepts in a session.  So the argument is lost, and the session lasts as
long as one that got any other command.

# The argument

`Leased` is a session, or the lack of one, in which nothing more is
received: no bytes wait anywhere, and what is left of the exchange is at
most its reply, parked.  A refresh that brings no bytes keeps it, and so
does everything the application can do; the session is found expired at
the first refresh that is late enough.  `leased_keepactive` says that the
refresh that accepts the command ends there, `session_lease` puts the two
together.
-/
import LibOsdp.Pd.Proofs.PeerSize

namespace LibOsdp

open Lib

-- ================================================================= frames

/-- The session of a PD, the bytes that wait for it and the command it
handles. -/
@[grind] def leaseView (p : OsdpPd) : (Bool × Int) × Bytes × Nat :=
  ((p.flags.scActive, p.scTstamp), p.rxRb, p.cmdId)

/-- The same, and what is left of the exchange. -/
@[grind] def parkView (p : OsdpPd) :
    ((Bool × Int) × Bytes × Nat) × Bool × Nat × Nat :=
  (leaseView p, p.replyPrebuilt, p.packetLen, p.packetBufLen)

/-- Nothing that `v` looks at changed, and nothing arrived. -/
structure Dull {V : Type} (v : OsdpPd → V) (s t : Osdp) : Prop where
  pd : ∀ j, v (t.pd j) = v (s.pd j)
  ctx : (t.now, t.tearingDown) = (s.now, s.tearingDown)
  line : t.line = s.line ∨ t.line = []

section Frames

variable {V : Type} {v : OsdpPd → V}

instance : IsPreorder Osdp (Dull v) where
  refl s := ⟨fun _ => rfl, rfl, .inl rfl⟩
  trans _ _ _ h k := by
    refine ⟨fun j => (k.pd j).trans (h.pd j), k.ctx.trans h.ctx, ?_⟩
    rcases k.line with e | e
    · rcases h.line with f | f
      · exact .inl (e.trans f)
      · exact .inr (e.trans f)
    · exact .inr e

theorem dull_updPd {s : Osdp} {i : Nat} {f : OsdpPd → OsdpPd}
    (h : ∀ p, v (f p) = v p) : Dull v s (s.updPd i f) := by
  refine ⟨fun j => ?_, rfl, .inl rfl⟩
  by_cases e : j = i
  · subst e
    rw [updPd_pd_same]
    exact h _
  · rw [updPd_pd_ne s f e]

theorem dull_of_updPd {s t : Osdp} {i : Nat} {a : Unit}
    {f : OsdpPd → OsdpPd} (e : updPd i f s = .ok a t)
    (h : ∀ p, v (f p) = v p) : Dull v s t := by
  obtain rfl := updPd_ok.mp e
  exact dull_updPd h

theorem dull_observe (o : Obs) : Keeps (Dull v) (observe o) := by
  intro s a t e
  obtain rfl := observe_ok.mp e
  exact ⟨fun _ => rfl, rfl, .inl rfl⟩

theorem Dull.lease {s t : Osdp} (h : Dull parkView s t) :
    Dull leaseView s t :=
  ⟨fun j => congrArg Prod.fst (h.pd j), h.ctx, h.line⟩

/-- What a callback leaves, `v` does not see changed. -/
theorem Quiet.dull {s t : Osdp} (h : Quiet s t) : Dull parkView s t := by
  refine ⟨fun j => ?_, ?_, .inl ?_⟩
  · have e := congrArg parkView (h.pd j)
    exact e
  · have e := congrArg (fun s : Osdp => (s.now, s.tearingDown)) h.rest
    exact e
  · have e := congrArg Osdp.line h.rest
    exact e

theorem Completes.dull {s t : Osdp} (h : Completes s t) :
    Dull parkView s t := by
  refine ⟨fun j => ?_, ?_, .inl ?_⟩
  · have e := congrArg parkView (h.pd j)
    exact e
  · have e := congrArg (fun s : Osdp => (s.now, s.tearingDown)) h.rest
    exact e
  · have e := congrArg Osdp.line h.rest
    exact e

theorem Configures.dull {s t : Osdp} (h : Configures s t) :
    Dull parkView s t := by
  refine ⟨fun j => ?_, ?_, .inl ?_⟩
  · have e := congrArg parkView (h.pd j)
    exact e
  · have e := congrArg (fun s : Osdp => (s.now, s.tearingDown)) h.rest
    exact e
  · have e := congrArg Osdp.line h.rest
    exact e

theorem Packs.dull {s t : Osdp} (h : Packs s t) : Dull leaseView s t := by
  refine ⟨fun j => ?_, ?_, .inl ?_⟩
  · have e := congrArg leaseView (h.pd j)
    exact e
  · have e := congrArg (fun s : Osdp => (s.now, s.tearingDown)) h.rest
    exact e
  · have e := congrArg Osdp.line h.rest
    exact e

instance : PacketMoves (Dull leaseView) where
  packet _ _ _ h := dull_updPd fun p => by
    have e := congrArg leaseView (h p)
    exact e
  txBuf _ _ _ := ⟨fun _ => rfl, rfl, .inl rfl⟩

end Frames

-- ================================================================= stages

/-- Nothing is left of an exchange, and none has begun. -/
def Rests (i : Nat) (s : Osdp) : Prop :=
  (s.pd i).replyPrebuilt = false ∧ (s.pd i).packetLen = 0 ∧
    (s.pd i).packetBufLen = 0

section Stages

variable {env : Env} {run : List ApiCall → OsdpM Unit} {i : Nat}

theorem dull_osdpPhySendPacket (len : Nat) :
    Keeps (Dull parkView) (osdpPhySendPacket env i len) := by
  have hread (ref : BufRef) : Keeps (Dull parkView) (readBuf ref) := by
    intro s a t e
    cases e
    exact refl_of (Dull parkView) _
  have hsend (data : Bytes) :
      Keeps (Dull parkView) (osdpChannelSend env i data) := by
    intro s a t e
    cases e
    refine ⟨fun _ => rfl, rfl, ?_⟩
    show (if env.channelFlush then [] else s.line) = s.line ∨ _
    split
    · exact .inr rfl
    · exact .inl rfl
  unfold osdpPhySendPacket
  refine .bind (keeps_getPd i) fun p => .bind (hread _) fun buf =>
    .bind (hsend _) fun ret => ?_
  split
  · exact .pure _
  · split
    · exact .pure _
    · exact .pure _

/-- The end of an exchange. -/
theorem dull_osdpPhyStateReset {s t : Osdp}
    (h : osdpPhyStateReset env i false s = .ok () t)
    (hfree : (s.pd i).replyPrebuilt = false) :
    Dull leaseView s t ∧ Rests i t := by
  unfold osdpPhyStateReset at h
  obtain ⟨_, u, hu, h⟩ := bind_ok.mp h
  rw [if_neg Bool.false_ne_true] at h
  obtain ⟨-, rfl⟩ := pure_ok.mp h
  obtain rfl := updPd_ok.mp hu
  refine ⟨dull_updPd fun _ => rfl, ?_⟩
  unfold Rests
  rw [updPd_pd_same]
  exact ⟨hfree, rfl, rfl⟩

variable (hr : ∀ calls, Keeps Quiet (run calls))
include hr

/-- Handing a reply over ends the exchange, or leaves it as it was. -/
theorem dull_pdSendStage {s t : Osdp} (hcmd : (s.pd i).cmdId = cmdKeepactive)
    (h : pdSendStage env run i s = .ok () t) :
    Dull leaseView s t ∧ (Rests i t ∨
      (t.pd i).replyPrebuilt = (s.pd i).replyPrebuilt) := by
  have hact (st : CompletionStatus) :
      Keeps (Dull parkView) (pdCompleteActive env run i st) :=
    (completes_pdCompleteActive hr i st).mono fun _ _ => Completes.dull
  have free_of {a b : Osdp} (hd : Dull parkView a b) :
      (b.pd i).replyPrebuilt = (a.pd i).replyPrebuilt := by
    have e := congrArg (fun v => v.2.1) (hd.pd i)
    exact e
  unfold pdSendStage pdSendReply at h
  obtain ⟨ret, u, hu, h⟩ := bind_ok.mp h
  obtain ⟨p, w, hg, hu⟩ := bind_ok.mp hu
  obtain ⟨rfl, rfl⟩ := getPd_ok.mp hg
  obtain ⟨rc, v, hv, hu⟩ := bind_ok.mp hu
  have hsv : Dull parkView s v := (dull_osdpPhySendPacket _).of hv
  split at hu
  · -- the channel was not ready
    obtain ⟨rfl, rfl⟩ := pure_ok.mp hu
    rw [if_pos rfl] at h
    obtain ⟨-, rfl⟩ := pure_ok.mp h
    exact ⟨hsv.lease, .inr (free_of hsv)⟩
  · obtain ⟨_, w, hw, hu⟩ := bind_ok.mp hu
    have hvw : Dull leaseView v w := dull_of_updPd hw fun _ => rfl
    have hfree : (w.pd i).replyPrebuilt = false := by
      rw [← updPd_ok.mp hw, updPd_pd_same]
    split at hu
    · obtain ⟨rfl, rfl⟩ := pure_ok.mp hu
      rw [if_neg (by decide), if_neg (by decide)] at h
      obtain ⟨_, x, hx, h⟩ := bind_ok.mp h
      have hwx : Dull parkView w x := (hact _).of hx
      obtain ⟨hxt, hrest⟩ := dull_osdpPhyStateReset h
        ((free_of hwx).trans hfree)
      exact ⟨trans_of (Dull leaseView) hsv.lease (trans_of (Dull leaseView)
        hvw (trans_of (Dull leaseView) hwx.lease hxt)), .inl hrest⟩
    · obtain ⟨_, x, hx, hu⟩ := bind_ok.mp hu
      obtain ⟨rfl, rfl⟩ := pure_ok.mp hu
      have hwx : Dull parkView w x := dull_of_updPd hx fun _ => rfl
      rw [if_neg (by decide), if_pos rfl] at h
      obtain ⟨_, y, hy, h⟩ := bind_ok.mp h
      have hxy : Dull parkView x y := (hact _).of hy
      obtain ⟨_, z, hz, h⟩ := bind_ok.mp h
      obtain ⟨_, z', hz', hend⟩ := bind_ok.mp h
      have hsy : Dull leaseView s y :=
        trans_of (Dull leaseView) hsv.lease (trans_of (Dull leaseView) hvw
          (trans_of (Dull parkView) hwx hxy).lease)
      have hcmdy : (y.pd i).cmdId = cmdKeepactive := by
        have e := congrArg (fun v => v.2.2) (hsy.pd i)
        have e : (y.pd i).cmdId = (s.pd i).cmdId := e
        exact e.trans hcmd
      -- nothing to commit
      have hyz : z = y := by
        obtain ⟨q, w', hg', hz⟩ := bind_ok.mp hz
        obtain ⟨rfl, rfl⟩ := getPd_ok.mp hg'
        rw [if_neg (by rw [hcmdy]; rintro ⟨e, -⟩; exact absurd e (by decide)),
          if_neg (by rw [hcmdy]; rintro ⟨e, -⟩; exact absurd e (by decide))]
          at hz
        exact (pure_ok.mp hz).2.symm
      subst hyz
      have hzz : Dull parkView z z' := dull_of_updPd hz' fun _ => rfl
      have hfree' : (z'.pd i).replyPrebuilt = false :=
        (free_of hzz).trans ((free_of hxy).trans ((free_of hwx).trans hfree))
      obtain ⟨hxt, hrest⟩ := dull_osdpPhyStateReset hend hfree'
      exact ⟨trans_of (Dull leaseView) hsy
        (trans_of (Dull leaseView) hzz.lease hxt), .inl hrest⟩

end Stages

-- ============================================================ no more bytes

section Idle

variable {env : Env} {run : List ApiCall → OsdpM Unit} {i : Nat}

/-- Where nothing waits and nothing arrives, no frame is found. -/
theorem check_nothing {s t : Osdp} {err : Int}
    (hline : s.line = []) (hring : (s.pd i).rxRb = []) (hrest : Rests i s)
    (h : osdpPhyCheckPacket env i s = .ok err t) :
    err = errPktNoData ∧ Dull parkView s t := by
  obtain ⟨-, hlen, hbuf⟩ := hrest
  -- what the channel gives is what there was
  have hrecv : osdpChannelReceive i s = .ok 0 (s.updPd i fun p =>
      { p with rxRb := [] }) := by
    show EStateM.Result.ok
      (channelReceive (s.line.length + 1) (s.pd i).rxRb s.line 0).2.2 _ = _
    rw [hline, hring]
    show EStateM.Result.ok (0 : Int) (({ s with line := [] } : Osdp).updPd i
      fun p => { p with rxRb := [] }) = _
    rw [← hline]
  have hpd : (s.updPd i fun p => { p with rxRb := [] }).pd i = s.pd i := by
    rw [updPd_pd_same, ← hring]
  have hd : Dull parkView s (s.updPd i fun p => { p with rxRb := [] }) := by
    refine ⟨fun j => ?_, rfl, .inl rfl⟩
    by_cases e : j = i
    · rw [e, hpd]
    · rw [updPd_pd_ne s _ e]
  obtain ⟨u, hu⟩ : ∃ u, u = s.updPd i fun p => { p with rxRb := [] } :=
    ⟨_, rfl⟩
  rw [← hu] at hrecv hpd hd
  have hasm : phyAssemble i s = .ok errPktNoData
      (u.updPd i fun p => { p with rxRb := [] }) := by
    have hgot : phyReceive i s = .ok () u := by
      refine bind_ok.mpr ⟨0, u, hrecv, bind_ok.mpr ⟨u.pd i, u, rfl,
        bind_ok.mpr ⟨u.now, u, rfl, ?_⟩⟩⟩
      rw [if_neg]
      · rfl
      · rintro ⟨-, -, hgt⟩
        exact absurd hgt (by decide)
    have hstart : phyFindStart i u = .ok false
        (u.updPd i fun p => { p with rxRb := [] }) := by
      refine bind_ok.mpr ⟨u.pd i, u, rfl, ?_⟩
      rw [hpd, if_neg (not_not.mpr hbuf), hring]
      rfl
    have hhead : phyCheckHeader i u = .ok errPktNoData
        (u.updPd i fun p => { p with rxRb := [] }) :=
      bind_ok.mpr ⟨false, _, hstart, rfl⟩
    refine bind_ok.mpr ⟨(), u, hgot, bind_ok.mpr ⟨u.pd i, u, rfl, ?_⟩⟩
    rw [hpd, if_pos hlen]
    refine bind_ok.mpr ⟨errPktNoData, _, hhead, ?_⟩
    rw [if_pos (by decide)]
    rfl
  obtain ⟨e, x, hx, h⟩ := bind_ok.mp h
  rw [hasm] at hx
  cases hx
  rw [if_pos (by decide)] at h
  obtain ⟨rfl, rfl⟩ := pure_ok.mp h
  have hux : Dull parkView u (u.updPd i fun p => { p with rxRb := [] }) := by
    refine ⟨fun j => ?_, rfl, .inl rfl⟩
    by_cases e : j = i
    · rw [e, updPd_pd_same, hpd]
      show parkView { s.pd i with rxRb := [] } = parkView (s.pd i)
      rw [← hring]
    · rw [updPd_pd_ne u _ e]
  exact ⟨rfl, trans_of (Dull parkView) hd hux⟩

/-- A refresh that finds nothing does nothing. -/
theorem dull_pdServe {s t : Osdp} (hline : s.line = [])
    (hring : (s.pd i).rxRb = []) (hrest : Rests i s)
    (h : pdServe env run i s = .ok () t) : Dull parkView s t := by
  unfold pdServe at h
  obtain ⟨p, u, hg, h⟩ := bind_ok.mp h
  obtain ⟨rfl, rfl⟩ := getPd_ok.mp hg
  rw [if_neg (by rw [hrest.1]; exact Bool.false_ne_true)] at h
  obtain ⟨ret, v, hv, h⟩ := bind_ok.mp h
  obtain ⟨w, hw, hrec⟩ := received_of hv
  have hsw : Dull parkView s w := by
    obtain ⟨_, x, hx, hw⟩ := bind_ok.mp hw
    have hsx : Dull parkView s x := by
      obtain rfl := updPd_ok.mp hx
      refine ⟨fun j => ?_, rfl, .inl rfl⟩
      by_cases e : j = i
      · rw [e, updPd_pd_same]
        show (leaseView _, false, _) = parkView (s.pd i)
        rw [← hrest.1]
        rfl
      · rw [updPd_pd_ne s _ e]
    exact trans_of (Dull parkView) hsx ((dull_observe _).of hw)
  have hwl : w.line = [] := by
    rcases hsw.line with e | e
    · exact e.trans hline
    · exact e
  have hwv := hsw.pd i
  simp only [parkView, leaseView, Prod.mk.injEq] at hwv
  obtain ⟨⟨-, hring', -⟩, hpre', hlen', hbuf'⟩ := hwv
  have hwr : (w.pd i).rxRb = [] := hring'.trans hring
  have hwrest : Rests i w :=
    ⟨hpre'.trans hrest.1, hlen'.trans hrest.2.1, hbuf'.trans hrest.2.2⟩
  have hend : ret = pdErrNoData ∧ Dull parkView w v := by
    cases hrec with
    | @none err x _ hne hcheck hreset hskip =>
      obtain ⟨rfl, hd⟩ := check_nothing hwl hwr hwrest hcheck
      have hvx : v = x := by
        by_contra hne
        exact absurd (hskip hne) (by decide)
      rw [hvx]
      exact ⟨by decide, hd⟩
    | refused hcheck _ _ =>
      exact absurd (check_nothing hwl hwr hwrest hcheck).1 (by decide)
    | decoded hcheck _ _ _ =>
      exact absurd (check_nothing hwl hwr hwrest hcheck).1 (by decide)
  obtain ⟨rfl, hwv⟩ := hend
  rw [if_pos (.inr rfl)] at h
  obtain ⟨-, rfl⟩ := pure_ok.mp h
  exact trans_of (Dull parkView) hsw hwv

end Idle

-- ============================================================= the session

/-- PD `i` got its last bytes at time `since`, in a session or not; what is
left of that exchange is at most its reply. -/
structure Leased (i : Nat) (since : Int) (lease : Prop) (s : Osdp) :
    Prop where
  active : (s.pd i).flags.scActive = true ↔
    lease ∧ s.now - since ≤ pdScTimeoutMs
  stamp : (s.pd i).flags.scActive = true → (s.pd i).scTstamp = since
  ring : (s.pd i).rxRb = []
  line : s.line = []
  cmd : (s.pd i).cmdId = cmdKeepactive
  rests : (s.pd i).replyPrebuilt = true ∨ Rests i s
  alive : s.tearingDown = false

section Session

variable {env : Env} {run : List ApiCall → OsdpM Unit} {i : Nat}
variable {since : Int} {lease : Prop}

theorem Dull.rests {s t : Osdp} (h : Dull parkView s t)
    (hs : (s.pd i).replyPrebuilt = true ∨ Rests i s) :
    (t.pd i).replyPrebuilt = true ∨ Rests i t := by
  have hv := h.pd i
  simp only [parkView, Prod.mk.injEq] at hv
  obtain ⟨-, hpre, hlen, hbuf⟩ := hv
  rcases hs with e | ⟨e₁, e₂, e₃⟩
  · exact .inl (hpre.trans e)
  · exact .inr ⟨hpre.trans e₁, hlen.trans e₂, hbuf.trans e₃⟩

/-- The session, the bytes and the command decide, and how the exchange
ended. -/
theorem Leased.dull {s t : Osdp} (hs : Leased i since lease s)
    (h : Dull leaseView s t)
    (hrests : (t.pd i).replyPrebuilt = true ∨ Rests i t) :
    Leased i since lease t := by
  have hv := h.pd i
  simp only [leaseView, Prod.mk.injEq] at hv
  obtain ⟨⟨hact, hstamp⟩, hring, hcmd⟩ := hv
  have hc := h.ctx
  simp only [Prod.mk.injEq] at hc
  obtain ⟨hnow, hdown⟩ := hc
  refine ⟨?_, ?_, hring.trans hs.ring, ?_, hcmd.trans hs.cmd, hrests,
    hdown.trans hs.alive⟩
  · rw [hact, hnow]
    exact hs.active
  · rw [hact, hstamp]
    exact hs.stamp
  · rcases h.line with e | e
    · exact e.trans hs.line
    · exact e

theorem Leased.calm {s t : Osdp} (hs : Leased i since lease s)
    (h : Dull parkView s t) : Leased i since lease t :=
  hs.dull h.lease (h.rests hs.rests)

variable (hr : ∀ calls, Keeps Quiet (run calls))
include hr

/-- A session that is over is over. -/
theorem dull_pdScDeactivate {s t : Osdp}
    (h : pdScDeactivate env run i s = .ok () t) :
    Dull parkView (s.updPd i fun p =>
      { p with
        flags := { p.flags with scActive := false }, lastTxLen := 0 }) t := by
  unfold pdScDeactivate at h
  obtain ⟨p, u, hg, h⟩ := bind_ok.mp h
  obtain ⟨rfl, rfl⟩ := getPd_ok.mp hg
  obtain ⟨_, v, hv, h⟩ := bind_ok.mp h
  rw [updPd_ok.mp hv]
  split at h
  · exact ((keeps_notifyScStatus hr i).of h).dull
  · obtain ⟨-, rfl⟩ := pure_ok.mp h
    exact refl_of (Dull parkView) _

theorem dull_pdExpireLink : Keeps (Dull parkView) (pdExpireLink env run i) := by
  intro s a t h
  unfold pdExpireLink at h
  obtain ⟨p, u, hg, h⟩ := bind_ok.mp h
  obtain ⟨rfl, rfl⟩ := getPd_ok.mp hg
  obtain ⟨age, u, hage, h⟩ := bind_ok.mp h
  cases hage
  split at h
  · obtain ⟨_, v, hv, h⟩ := bind_ok.mp h
    have hsv : Dull parkView s v := dull_of_updPd hv fun _ => rfl
    obtain ⟨_, w, hw, h⟩ := bind_ok.mp h
    have hvw : Quiet v w := (keeps_engines hr i).of hw
    have hwt : Quiet w t := (keeps_notifyPdStatus hr i false).of h
    exact trans_of (Dull parkView) hsv
      (trans_of (Dull parkView) hvw.dull hwt.dull)
  · obtain ⟨-, rfl⟩ := pure_ok.mp h
    exact refl_of (Dull parkView) _

/-- As time passes a session is found to be over, or still on. -/
theorem leased_pdExpireSession {s t : Osdp} {old : Int}
    (h : pdExpireSession env run i s = .ok () t) (hlate : old ≤ s.now)
    (hs : Leased i since lease { s with now := old }) :
    Leased i since lease t := by
  unfold pdExpireSession at h
  obtain ⟨p, u, hg, h⟩ := bind_ok.mp h
  obtain ⟨rfl, rfl⟩ := getPd_ok.mp hg
  obtain ⟨age, u, hage, h⟩ := bind_ok.mp h
  cases hage
  have hact : (s.pd i).flags.scActive = true ↔
      lease ∧ old - since ≤ pdScTimeoutMs := hs.active
  have hstamp : (s.pd i).flags.scActive = true →
      (s.pd i).scTstamp = since := hs.stamp
  have hrests : (s.pd i).replyPrebuilt = true ∨ Rests i s := hs.rests
  split at h
  · next hover =>
    obtain ⟨ha, hage⟩ := hover
    rw [hstamp ha] at hage
    -- the session ends here
    refine Leased.calm ?_ (dull_pdScDeactivate hr h)
    refine ⟨iff_of_false ?_ ?_, ?_, ?_, hs.line, ?_, ?_, hs.alive⟩
    · rw [updPd_pd_same]
      exact Bool.false_ne_true
    · rintro ⟨-, hle⟩
      have hle : s.now - since ≤ pdScTimeoutMs := hle
      omega
    · rw [updPd_pd_same]
      intro e
      cases e
    · rw [updPd_pd_same]
      exact hs.ring
    · rw [updPd_pd_same]
      exact hs.cmd
    · unfold Rests
      rw [updPd_pd_same]
      exact hrests
  · next hover =>
    obtain ⟨-, rfl⟩ := pure_ok.mp h
    refine ⟨⟨fun ha => ⟨(hact.mp ha).1, ?_⟩, fun ha => ?_⟩, hstamp, hs.ring,
      hs.line, hs.cmd, hrests, hs.alive⟩
    · rw [← hstamp ha]
      exact Int.not_lt.mp fun hgt => hover ⟨ha, hgt⟩
    · refine hact.mpr ⟨ha.1, ?_⟩
      have hle := ha.2
      omega

/-- A refresh that brings nothing keeps the lease, and ends the session
when its time has come. -/
theorem leased_refresh {s t : Osdp} {now : Int} (hlate : s.now ≤ now)
    (hs : Leased i since lease s)
    (h : osdpPdUpdate env run i (s.begin now []) = .ok () t) :
    Leased i since lease t := by
  unfold osdpPdUpdate at h
  obtain ⟨_, u, hu, h⟩ := bind_ok.mp h
  obtain ⟨_, v, hv, h⟩ := bind_ok.mp h
  have hbegin : Leased i since lease
      { s.begin now [] with now := s.now } :=
    ⟨hs.active, hs.stamp, hs.ring, (List.append_nil _).trans hs.line, hs.cmd,
      hs.rests, hs.alive⟩
  have hu : Leased i since lease u :=
    leased_pdExpireSession hr hu hlate hbegin
  have hv : Leased i since lease v := hu.calm ((dull_pdExpireLink hr).of hv)
  rcases hv.rests with hpark | hrest
  · have hsend : pdSendStage env run i v = .ok () t := by
      unfold pdServe at h
      obtain ⟨p, w, hg, h⟩ := bind_ok.mp h
      obtain ⟨rfl, rfl⟩ := getPd_ok.mp hg
      rw [if_pos hpark] at h
      exact h
    obtain ⟨hd, hend⟩ := dull_pdSendStage hr hv.cmd hsend
    refine hv.dull hd ?_
    rcases hend with e | e
    · exact .inr e
    · exact .inl (e.trans hpark)
  · exact hv.calm (dull_pdServe hv.line hv.ring hrest h)

end Session

-- ================================================================ in a run

section Run

variable {env : Env} {depth : Nat}

/-- Between two inputs no refresh is on, as long as the context is. -/
def Free (s : Osdp) : Prop := s.tearingDown = false → s.running = false

theorem free_pdStep {s t : Osdp} {x : PdInput}
    (h : pdStep env depth x s = .ok () t) (hs : Free s) : Free t := by
  have hr := quiet_pdRunCalls env depth
  cases x with
  | refresh now rx =>
    obtain ⟨_, u, hu, h⟩ := bind_ok.mp h
    obtain rfl := modify_ok.mp hu
    unfold osdpPdRefresh at h
    obtain ⟨v, w, hg, h⟩ := bind_ok.mp h
    obtain ⟨rfl, rfl⟩ := get_ok.mp hg
    split at h
    · obtain ⟨-, rfl⟩ := pure_ok.mp h
      exact hs
    · obtain ⟨_, v, hv, h⟩ := bind_ok.mp h
      obtain ⟨_, w, hw, h⟩ := bind_ok.mp h
      obtain rfl := modify_ok.mp h
      exact fun _ => rfl
  | submitEvent ev =>
    obtain ⟨r, u, hu, h⟩ := bind_ok.mp h
    obtain ⟨-, rfl⟩ := pure_ok.mp h
    unfold osdpPdSubmitEvent at hu
    obtain ⟨v, w, hg, hu⟩ := bind_ok.mp hu
    obtain ⟨rfl, rfl⟩ := get_ok.mp hg
    split at hu
    · obtain ⟨-, rfl⟩ := pure_ok.mp hu
      exact hs
    · obtain ⟨p, w, hg, hu⟩ := bind_ok.mp hu
      obtain ⟨rfl, rfl⟩ := getPd_ok.mp hg
      split at hu
      · obtain ⟨-, rfl⟩ := pure_ok.mp hu
        exact hs
      · obtain ⟨_, w, hw, hu⟩ := bind_ok.mp hu
        obtain ⟨-, rfl⟩ := pure_ok.mp hu
        obtain rfl := updPd_ok.mp hw
        exact hs
  | flushEvents =>
    unfold pdStep osdpPdFlushEvents at h
    obtain ⟨u, v, hg, h⟩ := bind_ok.mp h
    obtain ⟨rfl, rfl⟩ := get_ok.mp hg
    split at h
    · obtain ⟨-, rfl⟩ := pure_ok.mp h
      exact hs
    · next hdown =>
      obtain ⟨_, v, hv, h⟩ := bind_ok.mp h
      obtain ⟨_, w, hw, h⟩ := bind_ok.mp h
      obtain rfl := modify_ok.mp h
      exact fun _ => hs (by simpa using hdown)
  | setCapabilities cap =>
    obtain ⟨r, u, hu, h⟩ := bind_ok.mp h
    obtain ⟨-, rfl⟩ := pure_ok.mp h
    unfold osdpPdSetCapabilities at hu
    obtain ⟨v, w, hg, hu⟩ := bind_ok.mp hu
    obtain ⟨rfl, rfl⟩ := get_ok.mp hg
    split at hu
    · obtain ⟨-, rfl⟩ := pure_ok.mp hu
      exact hs
    · obtain ⟨_, w, hw, hu⟩ := bind_ok.mp hu
      obtain ⟨_, x, hx, hu⟩ := bind_ok.mp hu
      obtain ⟨-, rfl⟩ := pure_ok.mp hu
      obtain rfl := updPd_ok.mp hw
      obtain rfl := updPd_ok.mp hx
      exact hs
  | teardown =>
    unfold pdStep osdpPdTeardown at h
    obtain ⟨u, v, hg, h⟩ := bind_ok.mp h
    obtain ⟨rfl, rfl⟩ := get_ok.mp hg
    split at h
    · obtain ⟨-, rfl⟩ := pure_ok.mp h
      exact hs
    · obtain ⟨_, u, hu, h⟩ := bind_ok.mp h
      obtain rfl := modify_ok.mp hu
      obtain ⟨_, v, hv, h⟩ := bind_ok.mp h
      obtain ⟨p, w, hg, h⟩ := bind_ok.mp h
      obtain ⟨rfl, rfl⟩ := getPd_ok.mp hg
      obtain ⟨_, w, hw, h⟩ := bind_ok.mp h
      have hq := trans_of Quiet ((keeps_pdDrainQueue hr 0 .aborted).of hv)
        ((keeps_pdCompleteEvent hr _ .aborted).of hw)
      obtain rfl := updPd_ok.mp h
      intro e
      have htd : w.tearingDown = true := hq.tearingDown
      have e : w.tearingDown = false := e
      rw [htd] at e
      cases e

theorem free_pdRun {ok : Osdp → PdInput → Bool} {s t : Osdp}
    {l : List PdInput} (h : PdRun env depth ok s l t) (hs : Free s) :
    Free t := by
  induction h with
  | nil => exact hs
  | snoc _ _ hstep ih => exact free_pdStep hstep ih

theorem free_setup {info : PdInfo} {s : Osdp}
    (h : osdpPdSetup env info = some s) : Free s := by
  unfold osdpPdSetup at h
  split at h
  · cases h
  · split at h
    · cases h
    · cases h
      exact fun _ => rfl

/-- Time goes on and no bytes arrive; the application may do as it likes,
short of tearing the context down. -/
def idleInput (s : Osdp) : PdInput → Bool
  | .refresh now rx => decide (s.now ≤ now) && rx.isEmpty
  | .teardown => false
  | _ => true

/-- Such an input keeps the lease. -/
theorem leased_step {since : Int} {lease : Prop} {s t : Osdp} {x : PdInput}
    (hok : idleInput s x = true) (h : pdStep env depth x s = .ok () t)
    (hfree : Free s) (hs : Leased 0 since lease s) :
    Leased 0 since lease t := by
  have hr := quiet_pdRunCalls env depth
  cases x with
  | refresh now rx =>
    unfold idleInput at hok
    simp only [Bool.and_eq_true, decide_eq_true_eq, List.isEmpty_iff] at hok
    obtain ⟨hlate, rfl⟩ := hok
    obtain ⟨_, u, hu, h⟩ := bind_ok.mp h
    obtain rfl := modify_ok.mp hu
    unfold osdpPdRefresh at h
    obtain ⟨v, w, hg, h⟩ := bind_ok.mp h
    obtain ⟨rfl, rfl⟩ := get_ok.mp hg
    rw [if_neg (by
      rintro (e | e)
      · have e : s.tearingDown = true := e
        rw [hs.alive] at e
        cases e
      · have e : s.running = true := e
        rw [hfree hs.alive] at e
        cases e)] at h
    obtain ⟨_, v, hv, h⟩ := bind_ok.mp h
    obtain rfl := modify_ok.mp hv
    obtain ⟨_, w, hw, h⟩ := bind_ok.mp h
    obtain rfl := modify_ok.mp h
    have hw : Leased 0 since lease w := leased_refresh hr hlate hs hw
    exact ⟨hw.active, hw.stamp, hw.ring, hw.line, hw.cmd, hw.rests, hw.alive⟩
  | submitEvent ev =>
    obtain ⟨r, u, hu, h⟩ := bind_ok.mp h
    obtain ⟨-, rfl⟩ := pure_ok.mp h
    have hq : Quiet s u := (keeps_osdpPdSubmitEvent 0 ev).of hu
    exact hs.calm hq.dull
  | flushEvents =>
    have hq : Quiet s t := (keeps_osdpPdFlushEvents hr 0).of h
    exact hs.calm hq.dull
  | setCapabilities cap =>
    obtain ⟨r, u, hu, h⟩ := bind_ok.mp h
    obtain ⟨-, hut⟩ := pure_ok.mp h
    subst hut
    have hc : Configures s u := (configures_osdpPdSetCapabilities 0 cap).of hu
    exact hs.calm hc.dull
  | teardown => cases hok

theorem leased_run {since : Int} {lease : Prop} {s t : Osdp}
    {l : List PdInput} (h : PdRun env depth idleInput s l t)
    (hfree : Free s) (hs : Leased 0 since lease s) :
    Leased 0 since lease t := by
  induction h with
  | nil => exact hs
  | snoc hrun hok hstep ih => exact leased_step hok hstep (free_pdRun hrun hfree) ih

end Run

-- ============================================================ the exchange

/-- The time a CMD_KEEPACTIVE of the right length asks for. -/
def keepactiveOf (payload : Bytes) : Option Nat :=
  if payloadId payload = cmdKeepactive ∧ 2 ≤ (payload.drop 1).length then
    some (readLe 2 (payload.drop 1))
  else none

/-- A PD that took a CMD_KEEPACTIVE of `n`. -/
def keptPd (n : Nat) (p : OsdpPd) : OsdpPd :=
  { p.nak nakRecord with
    cmdId := cmdKeepactive
    scTstamp := p.scTstamp + n
    replyId := replyAck }

section Exchange

variable {env : Env} {run : List ApiCall → OsdpM Unit} {i : Nat}

/-- A CMD_KEEPACTIVE in a session is taken. -/
theorem pdDecodeCommand_keepactive {payload : Bytes} {n : Nat} {s : Osdp}
    (hn : keepactiveOf payload = some n)
    (hact : (s.pd i).flags.scActive = true) :
    pdDecodeCommand env run i payload s
      = .ok pdErrNone (s.updPd i (keptPd n)) := by
  unfold keepactiveOf at hn
  split at hn
  · next hid =>
    obtain ⟨hid, hlen⟩ := hid
    have hn : readLe 2 (payload.drop 1) = n := Option.some.inj hn
    have hid : (byteAt payload 0).toNat = cmdKeepactive := hid
    -- the state in which the command is looked at
    obtain ⟨u, hu⟩ : ∃ u, u = (s.updPd i (·.nak nakRecord)).updPd i fun p =>
      { p with cmdId := cmdKeepactive } := ⟨_, rfl⟩
    have hstamp : pdDecodeKeepactive i (payload.drop 1) u
        = .ok pdErrNone (u.updPd i fun p =>
          { p with scTstamp := p.scTstamp + n, replyId := replyAck }) := by
      unfold pdDecodeKeepactive
      rw [if_neg (Nat.not_lt.mpr hlen), hn]
      rfl
    have hcases : pdDecodeCases env run i cmdKeepactive (payload.drop 1) u
        = .ok (some pdErrNone) (u.updPd i fun p =>
          { p with scTstamp := p.scTstamp + n, replyId := replyAck }) :=
      bind_ok.mpr ⟨_, _, hstamp, rfl⟩
    have hupd : u.pd i =
        { (s.pd i).nak nakRecord with cmdId := cmdKeepactive } := by
      rw [hu, updPd_pd_same, updPd_pd_same]
    have hpolicy : refusedByPolicy (u.pd i) cmdKeepactive = false := by
      have ha : (u.pd i).flags.scActive = true := by
        rw [hupd]
        exact hact
      unfold refusedByPolicy
      rw [ha]
      simp
    have hend : s.updPd i (keptPd n) = u.updPd i fun p =>
        { p with scTstamp := p.scTstamp + n, replyId := replyAck } := by
      rw [hu, updPd_updPd, updPd_updPd]
      rfl
    unfold pdDecodeCommand
    rw [hid, hend]
    refine bind_ok.mpr ⟨(), _, rfl, bind_ok.mpr ⟨(), u, by rw [hu]; rfl,
      bind_ok.mpr ⟨u.pd i, u, rfl, ?_⟩⟩⟩
    rw [if_neg (by rw [hpolicy]; exact Bool.false_ne_true)]
    exact bind_ok.mpr ⟨_, _, hcases, rfl⟩
  · cases hn

variable (hr : ∀ calls, Keeps Quiet (run calls))
include hr

/-- Building an ordinary reply leaves the session alone, and what was
built waits to be sent. -/
theorem dull_pdBuildReplyPacket {s t : Osdp} {built : Int}
    (hord : hsReply (s.pd i).replyId = false)
    (h : pdBuildReplyPacket env run i s = .ok built t) :
    Dull leaseView s t ∧
      (built = pdErrNone → (t.pd i).replyPrebuilt = true) := by
  have hfin (len size : Nat) :
      Keeps (Dull leaseView) (osdpPhyFinalizePacket env i len size) :=
    keeps_osdpPhyFinalizePacket i len size
  have hinit (size : Nat) :
      Keeps (Dull leaseView) (osdpPhyPacketInit i size) :=
    keeps_osdpPhyPacketInit i size
  unfold pdBuildReplyPacket at h
  obtain ⟨p, u, hg, h⟩ := bind_ok.mp h
  obtain ⟨rfl, rfl⟩ := getPd_ok.mp hg
  obtain ⟨_, u, hu, h⟩ := bind_ok.mp h
  have hsu : Dull leaseView s u := dull_of_updPd hu fun _ => rfl
  obtain ⟨hdr, v, hv, h⟩ := bind_ok.mp h
  have hsv : Dull leaseView s v :=
    trans_of (Dull leaseView) hsu ((hinit _).of hv)
  have hidv : (v.pd i).replyId = (s.pd i).replyId := by
    have hk : Keeps KeepsWait (osdpPhyPacketInit i (getTxBufSize (s.pd i))) :=
      keeps_osdpPhyPacketInit i _
    have e := congrArg Prod.fst ((hk.of hv).pd i)
    have e : (v.pd i).replyId = (u.pd i).replyId := e
    rw [e, ← updPd_ok.mp hu, updPd_pd_same]
  split at h
  · obtain ⟨rfl, rfl⟩ := pure_ok.mp h
    exact ⟨hsv, fun e => absurd e (by decide)⟩
  · obtain ⟨_, w, hw, h⟩ := bind_ok.mp h
    have hsw : Dull leaseView s w :=
      trans_of (Dull leaseView) hsv (dull_of_updPd hw fun _ => rfl)
    have hidw : (w.pd i).replyId = (s.pd i).replyId := by
      rw [← updPd_ok.mp hw, updPd_pd_same]
      exact hidv
    obtain ⟨len, x, hx, h⟩ := bind_ok.mp h
    have hwx : Dull leaseView w x := by
      unfold pdBuildReply at hx
      obtain ⟨p, y, hg, hx⟩ := bind_ok.mp hx
      obtain ⟨rfl, rfl⟩ := getPd_ok.mp hg
      obtain ⟨_, y, hy, hx⟩ := bind_ok.mp hx
      have hpacks := (packs_pdBuildBody hr i (getTxBufSize (s.pd i))
        (show hsReply (w.pd i).replyId = false by
          rw [hidw]; exact hord)).of hx
      exact trans_of (Dull leaseView) ((dull_observe _).of hy) hpacks.dull
    have hsx := trans_of (Dull leaseView) hsw hwx
    split at h
    · obtain ⟨rfl, rfl⟩ := pure_ok.mp h
      exact ⟨hsx, fun e => absurd e (by decide)⟩
    · obtain ⟨_, y, hy, h⟩ := bind_ok.mp h
      obtain ⟨done, z, hz, h⟩ := bind_ok.mp h
      have hsz : Dull leaseView s z := trans_of (Dull leaseView) hsx
        (trans_of (Dull leaseView) (dull_of_updPd hy fun _ => rfl)
          ((hfin _ _).of hz))
      split at h
      · obtain ⟨rfl, rfl⟩ := pure_ok.mp h
        exact ⟨hsz, fun e => absurd e (by decide)⟩
      · obtain ⟨_, a, ha, h⟩ := bind_ok.mp h
        obtain ⟨rfl, rfl⟩ := pure_ok.mp h
        refine ⟨trans_of (Dull leaseView) hsz
          (dull_of_updPd ha fun _ => rfl), fun _ => ?_⟩
        rw [← updPd_ok.mp ha, updPd_pd_same]

/-- The PD is back online. -/
theorem dull_pdMarkOnline {s t : Osdp} (h : pdMarkOnline env run i s = .ok () t) :
    Dull parkView s t := by
  unfold pdMarkOnline at h
  obtain ⟨p, u, hg, h⟩ := bind_ok.mp h
  obtain ⟨rfl, rfl⟩ := getPd_ok.mp hg
  split at h
  · obtain ⟨_, v, hv, h⟩ := bind_ok.mp h
    have hvt : Quiet v t := (keeps_notifyPdStatus hr i true).of h
    exact trans_of (Dull parkView) (dull_of_updPd hv fun _ => rfl) hvt.dull
  · obtain ⟨-, rfl⟩ := pure_ok.mp h
    exact refl_of (Dull parkView) _

/-- What a reply is built from. -/
structure AckDue (i : Nat) (s : Osdp) : Prop where
  reply : (s.pd i).replyId = replyAck
  cmd : (s.pd i).cmdId = cmdKeepactive
  free : (s.pd i).replyPrebuilt = false
  active : (s.pd i).flags.scActive = true
  mode : (s.pd i).flags.pdMode = true
  room : packetBufSize ≤ s.txBuf.length
  rMac : (s.pd i).sc.rMac.length = 16
  cMac : (s.pd i).sc.cMac.length = 16
  alive : s.tearingDown = false

/-- Answering the command: the session is as old as this refresh, or it
is given up with the reply. -/
theorem leased_pdReplyStage {s t : Osdp} (hs : AckDue i s)
    (h : pdReplyStage env run i pdErrNone s = .ok () t)
    (hring : (t.pd i).rxRb = []) (hline : t.line = []) :
    Leased i t.now (¬ Mutes (s.pd i).peerRxSize) t := by
  unfold pdReplyStage at h
  obtain ⟨_, u, hu, h⟩ := bind_ok.mp h
  have hsu : Dull parkView s u := dull_pdMarkOnline hr hu
  have hage : Ages s u := (ages_pdMarkOnline hr i).of hu
  have hv := hsu.pd i
  simp only [parkView, leaseView, Prod.mk.injEq] at hv
  obtain ⟨⟨⟨hact, -⟩, -, hcmd⟩, hpre, -⟩ := hv
  have hkept := congrArg (fun p : OsdpPd => (p.replyId, p.flags.pdMode,
    p.sc, p.peerRxSize)) (hage.pd i)
  simp only [OsdpPd.sansTime, OsdpPd.sansApp, OsdpPd.sansEngines,
    Prod.mk.injEq] at hkept
  obtain ⟨hid, hmode, hsc, hsize⟩ := hkept
  have htx : u.txBuf = s.txBuf := by
    have e := congrArg Osdp.txBuf hage.rest
    exact e
  -- the session is touched
  obtain ⟨_, v, hv, h⟩ := bind_ok.mp h
  have hvu : v = u.updPd i fun p => { p with scTstamp := u.now } := by
    obtain ⟨p, w, hg, hv⟩ := bind_ok.mp hv
    obtain ⟨rfl, rfl⟩ := getPd_ok.mp hg
    rw [if_pos ⟨rfl, hact.trans hs.active⟩] at hv
    obtain ⟨now, w, hnow, hv⟩ := bind_ok.mp hv
    cases hnow
    exact (updPd_ok.mp hv).symm
  have hvpd : v.pd i = { u.pd i with scTstamp := u.now } := by
    rw [hvu, updPd_pd_same]
  have hvctx : (v.now, v.tearingDown, v.txBuf)
      = (u.now, u.tearingDown, u.txBuf) := by
    rw [hvu]
    rfl
  simp only [Prod.mk.injEq] at hvctx
  obtain ⟨hvnow, hvdown, hvtx⟩ := hvctx
  have hvalive : v.tearingDown = false := by
    have e := hsu.ctx
    simp only [Prod.mk.injEq] at e
    rw [hvdown, e.2, hs.alive]
  have hvid : (v.pd i).replyId = replyAck := by
    rw [hvpd]
    exact hid.trans hs.reply
  have hvcmd : (v.pd i).cmdId = cmdKeepactive := by
    rw [hvpd]
    exact hcmd.trans hs.cmd
  have hvact : (v.pd i).flags.scActive = true := by
    rw [hvpd]
    exact hact.trans hs.active
  have hvstamp : (v.pd i).scTstamp = v.now := by
    rw [hvpd, hvnow]
  have hvfree : (v.pd i).replyPrebuilt = false := by
    rw [hvpd]
    exact hpre.trans hs.free
  obtain ⟨p, w, hg, h⟩ := bind_ok.mp h
  obtain ⟨rfl, rfl⟩ := getPd_ok.mp hg
  rw [if_neg (by rw [hvfree]; exact Bool.false_ne_true)] at h
  obtain ⟨built, w, hw, h⟩ := bind_ok.mp h
  have hord : hsReply (v.pd i).replyId = false := by
    rw [hvid]
    rfl
  obtain ⟨hvw, hready⟩ := dull_pdBuildReplyPacket hr hord hw
  -- the reply is built exactly where the size leaves room
  have hbuilt : built = pdErrNone ↔ ¬ Mutes (s.pd i).peerRxSize := by
    have hsame : (v.updPd i fun p => { p with replyId := replyAck }) = v := by
      unfold Osdp.updPd
      rw [← hvid]
      congr 1
      funext j
      split
      · next e => rw [e]
      · rfl
    have hiff : PdBuilds env run i replyAck v ↔
        ¬ Mutes (v.pd i).peerRxSize := by
      refine pdBuilds_iff hr rfl ?_ ?_ ?_ ?_
      · rw [hvpd]
        exact hmode.trans hs.mode
      · rw [hvtx, htx]
        exact hs.room
      · rw [hvpd]
        show (u.pd i).sc.rMac.length = 16
        rw [hsc]
        exact hs.rMac
      · rw [hvpd]
        show (u.pd i).sc.cMac.length = 16
        rw [hsc]
        exact hs.cMac
    have hsize' : (v.pd i).peerRxSize = (s.pd i).peerRxSize := by
      rw [hvpd]
      exact hsize
    rw [← hsize', ← hiff]
    unfold PdBuilds
    rw [hsame, hw]
    constructor
    · rintro rfl
      exact ⟨w, rfl⟩
    · rintro ⟨x, e⟩
      cases e
      rfl
  -- what the rest of the stage has to leave for the lease to hold
  have hdone (hend : Dull leaseView v t)
      (hrests : (t.pd i).replyPrebuilt = true ∨ Rests i t)
      (hok : ¬ Mutes (s.pd i).peerRxSize) :
      Leased i t.now (¬ Mutes (s.pd i).peerRxSize) t := by
    have hv := hend.pd i
    simp only [leaseView, Prod.mk.injEq] at hv
    obtain ⟨⟨ha, hst⟩, -, hc⟩ := hv
    have hx := hend.ctx
    simp only [Prod.mk.injEq] at hx
    refine ⟨iff_of_true (ha.trans hvact) ⟨hok, ?_⟩, fun _ => ?_, hring, hline,
      hc.trans hvcmd, hrests, hx.2.trans hvalive⟩
    · rw [Int.sub_self]
      decide
    · rw [hst, hvstamp, hx.1]
  by_cases hok : built = pdErrNone
  · rw [if_neg (not_not.mpr hok)] at h
    have hwcmd : (w.pd i).cmdId = cmdKeepactive := by
      have e := congrArg (fun v => v.2.2) (hvw.pd i)
      have e : (w.pd i).cmdId = (v.pd i).cmdId := e
      exact e.trans hvcmd
    obtain ⟨hwt, hend⟩ := dull_pdSendStage hr hwcmd h
    refine hdone (trans_of (Dull leaseView) hvw hwt) ?_ (hbuilt.mp hok)
    rcases hend with e | e
    · exact .inr e
    · exact .inl (e.trans (hready hok))
  · -- the reply could not be built, and the session ends with it
    rw [if_pos hok] at h
    have hwfree : (w.pd i).replyPrebuilt = false :=
      unparked_pdBuildReplyPacket hr hw hok hord hvfree
    obtain ⟨_, x, hx, h⟩ := bind_ok.mp h
    obtain ⟨_, y, hy, h⟩ := bind_ok.mp h
    have hwx : Dull parkView w x :=
      ((completes_pdCompleteActive hr i _).of hx).dull
    have hxy := dull_pdScDeactivate hr hy
    have hvx := trans_of (Dull leaseView) hvw hwx.lease
    have hxfree : (x.pd i).replyPrebuilt = false := by
      have e := congrArg (fun v => v.2.1) (hwx.pd i)
      have e : (x.pd i).replyPrebuilt = (w.pd i).replyPrebuilt := e
      exact e.trans hwfree
    have hview := hxy.pd i
    rw [updPd_pd_same] at hview
    simp only [parkView, leaseView, Prod.mk.injEq] at hview
    obtain ⟨⟨⟨hya, -⟩, -, hyc⟩, hyf, -⟩ := hview
    obtain ⟨hyt, hrest⟩ := dull_osdpPhyStateReset h (hyf.trans hxfree)
    have hview := hyt.pd i
    simp only [leaseView, Prod.mk.injEq] at hview
    obtain ⟨⟨hta, -⟩, -, htc⟩ := hview
    have hxc := congrArg (fun v => v.2.2) (hvx.pd i)
    have hxc : (x.pd i).cmdId = (v.pd i).cmdId := hxc
    have hdown : t.tearingDown = v.tearingDown := by
      have e₁ := congrArg Prod.snd hvx.ctx
      have e₂ := congrArg Prod.snd hxy.ctx
      have e₃ := congrArg Prod.snd hyt.ctx
      exact e₃.trans (e₂.trans e₁)
    refine ⟨iff_of_false ?_ ?_, fun e => ?_, hring, hline, ?_, .inr hrest,
      hdown.trans hvalive⟩
    · rw [hta, hya]
      exact Bool.false_ne_true
    · rintro ⟨hfine, -⟩
      exact hok (hbuilt.mpr hfine)
    · rw [hta, hya] at e
      cases e
    · rw [htc, hyc, hxc, hvcmd]

end Exchange

-- ============================================================== the moment

section Moment

variable {env : Env} {run : List ApiCall → OsdpM Unit} {i : Nat}

/-- Receiving leaves the PD a PD, with its buffer, and nothing parked. -/
theorem intact_received {s u v w : Osdp} {len : Int} {payload : Bytes}
    (hlisten : pdListen i s = .ok () u)
    (hcheck : osdpPhyCheckPacket env i u = .ok errPktNone v)
    (hdecode : osdpPhyDecodePacket env i v = .ok (len, payload) w) :
    Intact i s w ∧ (w.pd i).replyPrebuilt = false ∧
      w.tearingDown = s.tearingDown := by
  have hint : Intact i s w :=
    trans_of (Intact i) ((intact_pdListen i).of hlisten)
      (trans_of (Intact i) ((intact_osdpPhyCheckPacket i).of hcheck)
        ((intact_osdpPhyDecodePacket i).of hdecode))
  have hrx : Receives u w :=
    trans_of Receives ((receives_osdpPhyCheckPacket i).of hcheck)
      ((receives_osdpPhyDecodePacket i).of hdecode)
  obtain ⟨_, x, hx, hobs⟩ := bind_ok.mp hlisten
  have hx := updPd_ok.mp hx
  have hxfree : (x.pd i).replyPrebuilt = false := by
    rw [← hx, updPd_pd_same]
  have hxdown : x.tearingDown = s.tearingDown := by
    rw [← hx]
    rfl
  obtain rfl := observe_ok.mp hobs
  have hfree := congrArg OsdpPd.replyPrebuilt (hrx.pd i)
  have hfree : (w.pd i).replyPrebuilt = (x.pd i).replyPrebuilt := hfree
  have hdown := congrArg Osdp.tearingDown hrx.rest
  have hdown : w.tearingDown = x.tearingDown := hdown
  exact ⟨hint, hfree.trans hxfree, hdown.trans hxdown⟩

/-- A refresh that received this payload looked for a frame and decoded
it, from a state that time alone had passed in. -/
theorem decoded_of_payload {s t v : Osdp} {payload : Bytes}
    (h : osdpPdUpdate env run i s = .ok () t)
    (hp : receivedPayload env run i s = some (payload, v)) :
    ∃ u w len ret x,
      (do pdExpireSession env run i; pdExpireLink env run i) s = .ok () u ∧
      (∃ y, pdListen i u = .ok () y ∧
        osdpPhyCheckPacket env i y = .ok errPktNone w) ∧
      osdpPhyDecodePacket env i w = .ok (len, payload) v ∧
      pdDecodeCommand env run i payload
        { v with
          log := .decoded i payload (v.pd i).flags.scActive :: v.log }
        = .ok ret x ∧
      (answered ret → pdReplyStage env run i ret
        { x with log := .verdict i payload ret :: x.log } = .ok () t) := by
  obtain ⟨u, htime, hserved⟩ := refresh_cases h
  cases hserved with
  | parked hpark hsend =>
    unfold receivedPayload receivedFrame at hp
    rw [htime] at hp
    simp only [hpark, if_true] at hp
    cases hp
  | @received y z ret hfree hlisten hgot hrest =>
    cases hgot with
    | none hne hcheck _ _ =>
      have hnone := receivedFrame_eq htime hfree hlisten hcheck
      rw [if_neg hne] at hnone
      rw [receivedPayload_none hnone] at hp
      cases hp
    | refused hcheck hlen hdecode =>
      rw [receivedPayload_refused
        (receivedFrame_of htime hfree hlisten hcheck) hlen hdecode] at hp
      cases hp
    | @decoded len _ payload' w v' x hcheck hlen hdecode hcommand =>
      have hsame := receivedPayload_of
        (receivedFrame_of htime hfree hlisten hcheck) hlen hdecode
      rw [hp] at hsame
      cases hsame
      refine ⟨u, w, len, ret, x, htime, ⟨y, hlisten, hcheck⟩, hdecode,
        hcommand, fun hans => ?_⟩
      rcases hrest with ⟨hno, -⟩ | ⟨hno, -⟩ | ⟨-, hreply⟩
      · exact absurd hans hno
      · exact absurd hans hno
      · exact hreply

end Moment

/-- The session stays as long as the command asked for, counted from `s`:
it is on at `t` exactly up to the time-out and `n` more. -/
def Extends (n : Nat) (s t : Osdp) : Prop :=
  (t.pd 0).flags.scActive = true ↔ t.now - s.now ≤ pdScTimeoutMs + n

/-- **What CMD_KEEPACTIVE is worth.**  After a refresh of a run in which
PD 0 took a CMD_KEEPACTIVE of `n` in a session, as long as no bytes
arrive: the session is on up to the time-out and `n` more, and over after
that, at every moment but those between the time-out and `n` more; and
where the acknowledgement could not be built, only after these. -/
theorem pd_keepactive_lease {env : Env} {depth : Nat} {info : PdInfo}
    {s₀ s u v t : Osdp} {l m : List PdInput} {now : Int} {rx : Bytes}
    {payload : Bytes} {n : Nat} (hs : osdpPdSetup env info = some s₀)
    (hrun : PdRun env depth anyInput s₀ l s) (hlive : s.tearingDown = false)
    (hstep : pdStep env depth (.refresh now rx) s = .ok () u)
    (hp : receivedPayload env (pdRunCalls env depth) 0 (s.begin now rx)
      = some (payload, v))
    (hn : keepactiveOf payload = some n)
    (hact : (v.pd 0).flags.scActive = true)
    (hrMac : (v.pd 0).sc.rMac.length = 16)
    (hcMac : (v.pd 0).sc.cMac.length = 16)
    (hring : (u.pd 0).rxRb = []) (hline : u.line = [])
    (hidle : PdRun env depth idleInput u m t) :
    Extends n u t ↔
      if Mutes (v.pd 0).peerRxSize then
        pdScTimeoutMs + n < t.now - u.now
      else
        ¬ (pdScTimeoutMs < t.now - u.now ∧
          t.now - u.now ≤ pdScTimeoutMs + n) := by
  have hr := quiet_pdRunCalls env depth
  have hfree : Free s := free_pdRun hrun (free_setup hs)
  have hcom := (carries_comInv.run_of_live (comInv_setup hs) hrun).live hlive
  have hufree : Free u := free_pdStep hstep hfree
  -- the refresh runs
  obtain ⟨w, hw, hu⟩ : ∃ w,
      osdpPdUpdate env (pdRunCalls env depth) 0 (s.begin now rx)
        = .ok () w ∧ u = { w with running := false } := by
    obtain ⟨_, x, hx, hstep⟩ := bind_ok.mp hstep
    obtain rfl := modify_ok.mp hx
    unfold osdpPdRefresh at hstep
    obtain ⟨x, y, hg, hstep⟩ := bind_ok.mp hstep
    obtain ⟨rfl, rfl⟩ := get_ok.mp hg
    rw [if_neg (by
      rintro (e | e)
      · have e : s.tearingDown = true := e
        rw [hlive] at e
        cases e
      · have e : s.running = true := e
        rw [hfree hlive] at e
        cases e)] at hstep
    obtain ⟨_, y, hy, hstep⟩ := bind_ok.mp hstep
    obtain rfl := modify_ok.mp hy
    obtain ⟨_, w, hw, hstep⟩ := bind_ok.mp hstep
    exact ⟨w, hw, (modify_ok.mp hstep).symm⟩
  obtain ⟨a, b, len, ret, x, htime, ⟨c, hlisten, hcheck⟩, hdecode, hcommand,
    hreply⟩ := decoded_of_payload hw hp
  -- what was decoded was taken
  obtain ⟨v', hv'⟩ : ∃ v', v' = ({ v with
      log := .decoded 0 payload (v.pd 0).flags.scActive :: v.log } : Osdp) :=
    ⟨_, rfl⟩
  rw [← hv', pdDecodeCommand_keepactive hn (by rw [hv']; exact hact)]
    at hcommand
  cases hcommand
  have hreply := hreply (.inl rfl)
  obtain ⟨hint, hpre, hdown⟩ := intact_received hlisten hcheck hdecode
  have hage : Ages (s.begin now rx) a := by
    refine Keeps.of (.bind (ages_pdExpireSession hr 0) fun _ => ?_) htime
    exact ages_pdExpireLink hr 0
  have hint : Intact 0 (s.begin now rx) v :=
    trans_of (Intact 0) hage.keepsCom.intact hint
  have hpd : (v'.updPd 0 (keptPd n)).pd 0 = keptPd n (v.pd 0) := by
    rw [updPd_pd_same, hv']
  have halive : v.tearingDown = false := by
    have e := congrArg Osdp.tearingDown hage.rest
    have e : a.tearingDown = s.tearingDown := e
    exact hdown.trans (e.trans hlive)
  obtain ⟨y, hy⟩ : ∃ y, y = ({ v'.updPd 0 (keptPd n) with
      log := .verdict 0 payload pdErrNone :: (v'.updPd 0 (keptPd n)).log } :
      Osdp) := ⟨_, rfl⟩
  rw [← hy] at hreply
  have hypd : y.pd 0 = keptPd n (v.pd 0) := by
    rw [hy]
    exact hpd
  have hdue : AckDue 0 y := by
    refine ⟨?_, ?_, ?_, ?_, ?_, ?_, ?_, ?_, ?_⟩
    · rw [hypd]
      rfl
    · rw [hypd]
      rfl
    · rw [hypd]
      exact hpre
    · rw [hypd]
      exact hact
    · rw [hypd]
      exact hint.mode.trans hcom.mode
    · rw [hy, hv']
      exact Nat.le_trans hcom.room hint.room
    · rw [hypd]
      exact hrMac
    · rw [hypd]
      exact hcMac
    · rw [hy, hv']
      exact halive
  have hlease : Leased 0 w.now (¬ Mutes (y.pd 0).peerRxSize) w :=
    leased_pdReplyStage hr hdue hreply (by rw [hu] at hring; exact hring)
      (by rw [hu] at hline; exact hline)
  have hlease : Leased 0 u.now (¬ Mutes (v.pd 0).peerRxSize) u := by
    have hsize : (y.pd 0).peerRxSize = (v.pd 0).peerRxSize := by
      rw [hypd]
      rfl
    rw [hsize] at hlease
    rw [hu]
    exact ⟨hlease.active, hlease.stamp, hlease.ring, hlease.line, hlease.cmd,
      hlease.rests, hlease.alive⟩
  have hend := (leased_run hidle hufree hlease).active
  unfold Extends
  rw [hend]
  by_cases hm : Mutes (v.pd 0).peerRxSize
  · rw [if_pos hm]
    constructor
    · intro hiff
      by_contra hle
      exact absurd hm (hiff.mpr (Int.not_lt.mp hle)).1
    · intro hgt
      exact iff_of_false (fun e => e.1 hm) (Int.not_le.mpr hgt)
  · rw [if_neg hm]
    constructor
    · rintro hiff ⟨hgt, hle⟩
      exact absurd (hiff.mpr hle).2 (Int.not_le.mpr hgt)
    · intro hout
      constructor
      · rintro ⟨-, hle⟩
        omega
      · intro hle
        exact ⟨hm, by omega⟩

-- =============================================================== examples

/-- The AES blocks of a handshake with `keyedPd` and of the CMD_KEEPACTIVE
of 1000 ms that follows. -/
def keepactiveEnv : Env :=
  plainEnv
    (knownCipher
      [.of 0xABABABABABABABABABABABABABABABAB
        0x0182B0B1B2B3B4B50000000000000000
        0xF11736A4373ED62385E3A943E8F4E9D6,
       .of 0xABABABABABABABABABABABABABABABAB
        0x0101B0B1B2B3B4B50000000000000000
        0xE46C44097C061A1C1896AFD259438AF5,
       .of 0xABABABABABABABABABABABABABABABAB
        0x0102B0B1B2B3B4B50000000000000000
        0xBC4C92B276298262E5E9C8D2758CE576,
       .of 0xF11736A4373ED62385E3A943E8F4E9D6
        0xB0B1B2B3B4B5B6B70102030405060708
        0x363148542500DEAB6175F8EEAA615032,
       .of 0xF11736A4373ED62385E3A943E8F4E9D6
        0x0102030405060708B0B1B2B3B4B5B6B7
        0xB715A474B0FCD9D2B97A4A609D596D6D,
       .of 0xE46C44097C061A1C1896AFD259438AF5
        0xB715A474B0FCD9D2B97A4A609D596D6D
        0x0D95B8D1A4A1928FBCE2C29A8FF8CDDF,
       .of 0xBC4C92B276298262E5E9C8D2758CE576
        0x0D95B8D1A4A1928FBCE2C29A8FF8CDDF
        0xB51EFA1777DEC4AE2434B2BC642A0FF3,
       .of 0xF11736A4373ED62385E3A943E8F4E9D6
        0xA2E285E888213B51DBCB4D439BD5F00C
        0xAA940E90B8318AA377F2E710A9E6D143,
       .of 0xE46C44097C061A1C1896AFD259438AF5
        0xE61FE41779DCD3098EA0BC2CDC1B8550
        0x3B7C3541B19D28DA8CC3B4FB09E4B3AC,
       .of 0xBC4C92B276298262E5E9C8D2758CE576
        0x4C8ED251187BF9990CC3B4FB09E4B3AC
        0x91F5C52861664EEFC996B88E94CAE443,
       .of 0xBC4C92B276298262E5E9C8D2758CE576
        0xC274CB286F6458AF4996B88E94CAE443
        0xC862B70A75039C3152E78D4EEF17B2BC])
    fun n => UInt8.ofNat (n + 1)

/-- CMD_KEEPACTIVE of 1000 ms in the session a handshake opened. -/
def keepactiveFrame : Bytes :=
  writeBe 30 0x53011E000E0217A7AA940E90B8318AA377F2E710A9E6D14391F5C528DFBD

/-- A refresh of the state took a CMD_KEEPACTIVE of `n` in a session. -/
def TakesKeepactive (env : Env) (run : List ApiCall → OsdpM Unit) (n : Nat)
    (s : Osdp) : Bool :=
  match receivedPayload env run 0 s with
  | some (payload, v) =>
    decide (keepactiveOf payload = some n) && (v.pd 0).flags.scActive &&
      decide ((v.pd 0).sc.rMac.length = 16) &&
      decide ((v.pd 0).sc.cMac.length = 16) &&
      decide (¬ Mutes (v.pd 0).peerRxSize)
  | none => false

theorem takesKeepactive_ok {env : Env} {run : List ApiCall → OsdpM Unit}
    {n : Nat} {s : Osdp} (h : TakesKeepactive env run n s = true) :
    ∃ payload v, receivedPayload env run 0 s = some (payload, v) ∧
      keepactiveOf payload = some n ∧ (v.pd 0).flags.scActive = true ∧
      (v.pd 0).sc.rMac.length = 16 ∧ (v.pd 0).sc.cMac.length = 16 ∧
      ¬ Mutes (v.pd 0).peerRxSize := by
  unfold TakesKeepactive at h
  split at h
  · next payload v hp =>
    simp only [Bool.and_eq_true, decide_eq_true_eq] at h
    obtain ⟨⟨⟨⟨hn, hact⟩, hr⟩, hc⟩, hm⟩ := h
    exact ⟨payload, v, hp, hn, hact, hr, hc, hm⟩
  · cases h

/-- The run of an example: the handshake, then this. -/
theorem keepactive_run :
    ∃ s₀ s, osdpPdSetup keepactiveEnv keyedPd = some s₀ ∧
      PdRun keepactiveEnv 1 anyInput s₀ handshakeInputs s ∧
      s.tearingDown = false ∧
      TakesKeepactive keepactiveEnv (pdRunCalls keepactiveEnv 1) 1000
        (s.begin 2 keepactiveFrame) = true ∧
      ∃ u t, pdStep keepactiveEnv 1 (.refresh 2 keepactiveFrame) s
          = .ok () u ∧ (u.pd 0).rxRb = [] ∧ u.line = [] ∧
        PdRun keepactiveEnv 1 idleInput u [.refresh 8003 []] t ∧
        u.now = 2 ∧ t.now = 8003 ∧ (t.pd 0).flags.scActive = false := by
  obtain ⟨s₀, s, hs, hrun, hlive, htakes, hnext⟩ := pdRun_of_setup
    keepactiveEnv 1 anyInput keyedPd handshakeInputs
    (fun s => s.tearingDown = false ∧
      TakesKeepactive keepactiveEnv (pdRunCalls keepactiveEnv 1) 1000
        (s.begin 2 keepactiveFrame) = true ∧
      (pdTake keepactiveEnv 1 anyInput [.refresh 2 keepactiveFrame] s).any
        (fun u => decide ((u.pd 0).rxRb = [] ∧ u.line = [] ∧ u.now = 2) &&
          (pdTake keepactiveEnv 1 idleInput [.refresh 8003 []] u).any
            fun t => decide (t.now = 8003 ∧
              (t.pd 0).flags.scActive = false)) = true)
    (by decide +kernel)
  refine ⟨s₀, s, hs, hrun, hlive, htakes, ?_⟩
  rw [Option.any_eq_true] at hnext
  obtain ⟨u, hu, hnext⟩ := hnext
  simp only [Bool.and_eq_true, decide_eq_true_eq] at hnext
  obtain ⟨⟨hring, hline, hunow⟩, hnext⟩ := hnext
  rw [Option.any_eq_true] at hnext
  obtain ⟨t, ht, hnext⟩ := hnext
  simp only [decide_eq_true_eq] at hnext
  obtain ⟨htnow, hover⟩ := hnext
  refine ⟨u, t, ?_, hring, hline, (PdRun.nil u).append_take ht, hunow, htnow,
    hover⟩
  have hany : anyInput s (.refresh 2 keepactiveFrame) = true := rfl
  unfold pdTake at hu
  rw [if_pos hany] at hu
  cases hstep : pdStep keepactiveEnv 1 (.refresh 2 keepactiveFrame) s with
  | error e v =>
    rw [hstep] at hu
    cases hu
  | ok a v =>
    rw [hstep] at hu
    cases hu
    rfl

/-- A session whose CMD_KEEPACTIVE asked for a second more is as long as
the time-out, not longer. -/
theorem pd_keepactive_lease_1000 :
    ∃ u t, PdRun keepactiveEnv 1 idleInput u [.refresh 8003 []] t ∧
      u.now = 2 ∧ t.now = 8003 ∧ (t.pd 0).flags.scActive = false ∧
      (Extends 1000 u t ↔ ¬ (pdScTimeoutMs < t.now - u.now ∧
        t.now - u.now ≤ pdScTimeoutMs + (1000 : Nat))) := by
  obtain ⟨s₀, s, hs, hrun, hlive, htakes, u, t, hstep, hring, hline, hidle,
    hunow, htnow, hover⟩ := keepactive_run
  obtain ⟨payload, v, hp, hn, hact, hr, hc, hm⟩ := takesKeepactive_ok htakes
  have hiff := pd_keepactive_lease hs hrun hlive hstep hp hn hact hr hc hring
    hline hidle
  rw [if_neg hm] at hiff
  exact ⟨u, t, hidle, hunow, htnow, hover, hiff⟩

/-- The argument is lost: 8001 ms after a CMD_KEEPACTIVE of 1000 ms the
session is over. -/
theorem keepactive_argument_lost :
    ¬ ∀ (env : Env) (depth : Nat) (info : PdInfo) (s₀ s u v t : Osdp)
        (l m : List PdInput) (now : Int) (rx payload : Bytes) (n : Nat),
      osdpPdSetup env info = some s₀ → PdRun env depth anyInput s₀ l s →
      s.tearingDown = false →
      pdStep env depth (.refresh now rx) s = .ok () u →
      receivedPayload env (pdRunCalls env depth) 0 (s.begin now rx)
        = some (payload, v) →
      keepactiveOf payload = some n → (v.pd 0).flags.scActive = true →
      (u.pd 0).rxRb = [] → u.line = [] →
      PdRun env depth idleInput u m t → Extends n u t := by
  intro hall
  obtain ⟨s₀, s, hs, hrun, hlive, htakes, u, t, hstep, hring, hline, hidle,
    hunow, htnow, hover⟩ := keepactive_run
  obtain ⟨payload, v, hp, hn, hact, -, -, -⟩ := takesKeepactive_ok htakes
  have hext : (t.pd 0).flags.scActive = true ↔
      t.now - u.now ≤ pdScTimeoutMs + (1000 : Nat) :=
    hall _ _ _ _ _ _ _ _ _ _ _ _ _ _ hs hrun hlive hstep hp hn hact hring
      hline hidle
  rw [hover, hunow, htnow] at hext
  exact absurd (hext.mpr (by decide)) Bool.false_ne_true

end LibOsdp
