/-
The bus a CP's PDs share.

# The invariant

`BusOwned`: a PD in SEND_CMD, SEND_CMD_WAIT or REPLY_WAIT is the one
whose turn it is.  A pass changes the phy state of its own PD only, and
the turn goes on only when that PD has left all three, so the invariant
needs nothing about the exchange itself.  What it does need is that no PD
is added behind its back: `osdp_cp_add_pd` resets the turn, and is turned
away once the first refresh has sealed the set of PDs.

# What follows

A packet the channel did not take lies in the transmit buffer until it is
offered again, in a pass of its own PD, byte for byte (`KeepsOffer`).
Only a PD that awaits a reply takes bytes off the line (`ReadsAwaited`).
-/
import LibOsdp.Cp.Proofs.Device

namespace LibOsdp

open Lib

-- ============================================================ statements

/-- At most one PD owns the bus, and it is the one whose turn it is. -/
def BusOwned (s : Osdp) : Prop :=
  ∀ j, cpPhyBusIsBusy (s.pd j) = true → j = s.currentPd

/-- The packet PD `i` has finalized, as it lies in the transmit buffer. -/
def Osdp.parked (s : Osdp) (i : Nat) : Bytes :=
  s.txBuf.take (s.pd i).packetBufLen

/-- A pass offers a parked packet to the channel as it is, on behalf of
its own PD, and as long as the channel does not take it nothing of it
changes. -/
def KeepsOffer (u v : Osdp) : Prop :=
  ∀ i, (u.pd i).phyState = .sendCmdWait → i = u.currentPd ∧
    ∃ ret l, v.log = l ++ .sent i (u.parked i) ret :: u.log ∧
      (ret = 0 → v.txBuf = u.txBuf ∧ v.pd = u.pd)

/-- A pass takes bytes off the line only where a reply is awaited, and
only into that PD's ring; elsewhere they are thrown away or left. -/
def ReadsAwaited (u v : Osdp) : Prop :=
  ((u.pd u.currentPd).phyState ≠ .replyWait →
    v.line = u.line ∨ v.line = []) ∧
  ∀ j, ((u.pd j).phyState ≠ .replyWait ∨ j ≠ u.currentPd) →
    (v.pd j).rxRb = (u.pd j).rxRb ∨ (v.pd j).rxRb = []

/-- The input is a refresh. -/
def CpInput.isRefresh : CpInput → Bool
  | .refresh .. => true
  | _ => false

/-- An input other than a refresh leaves buffer and line alone. -/
def LeavesBus (s t : Osdp) : Prop :=
  t.txBuf = s.txBuf ∧ t.line = s.line ∧
    ∀ i, (s.pd i).phyState = .sendCmdWait →
      (t.pd i).phyState = .sendCmdWait ∧ t.parked i = s.parked i

-- ============================================================ quiet parts

/-- Neither the bus nor anything on it is touched. -/
structure OffBus (s t : Osdp) : Prop where
  pd : ∀ j, (t.pd j).phyState = (s.pd j).phyState ∧
    (t.pd j).packetBufLen = (s.pd j).packetBufLen
  ctx : (t.currentPd, t.isSealed, t.rxIsTx, t.txBuf, t.line)
    = (s.currentPd, s.isSealed, s.rxIsTx, s.txBuf, s.line)

/-- An update that leaves the phy state alone. -/
theorem offBus_updPd (s : Osdp) (i : Nat) {f : OsdpPd → OsdpPd}
    (h : (f (s.pd i)).phyState = (s.pd i).phyState ∧
      (f (s.pd i)).packetBufLen = (s.pd i).packetBufLen) :
    OffBus s (s.updPd i f) := by
  refine ⟨fun j => ?_, rfl⟩
  by_cases e : j = i
  · subst e
    rw [updPd_pd_same]
    exact h
  · rw [updPd_pd_ne s f e]
    exact ⟨rfl, rfl⟩

instance : CallMoves OffBus where
  refl _ := ⟨fun _ => ⟨rfl, rfl⟩, rfl⟩
  trans _ _ _ h k :=
    ⟨fun j => ⟨(k.pd j).1.trans (h.pd j).1, (k.pd j).2.trans (h.pd j).2⟩,
      k.ctx.trans h.ctx⟩
  call s j f h := by
    have e := congrArg (fun p : OsdpPd => (p.phyState, p.packetBufLen))
      (h (s.pd j))
    injection e with e₁ e₂
    exact offBus_updPd s j ⟨e₁, e₂⟩
  enable s j _ := offBus_updPd s j ⟨rfl, rfl⟩
  disable s j := offBus_updPd s j ⟨rfl, rfl⟩
  note _ _ _ := ⟨fun _ => ⟨rfl, rfl⟩, rfl⟩
  running _ _ := ⟨fun _ => ⟨rfl, rfl⟩, rfl⟩

section

variable {env : Env} {depth : Nat}

/-- Teardown leaves the bus alone. -/
theorem offBus_osdpCpTeardown :
    Keeps OffBus (osdpCpTeardown env (cpRunCalls env depth)) :=
  keeps_osdpCpTeardown (keeps_cpRunCalls depth)
    (fun s i => offBus_updPd s i ⟨rfl, rfl⟩) fun _ => ⟨fun _ => ⟨rfl, rfl⟩, rfl⟩

/-- Nothing is taken off the line. -/
structure TakesNothing (s t : Osdp) : Prop where
  line : t.line = s.line ∨ t.line = []
  ring : ∀ j, (t.pd j).ring = (s.pd j).ring ∨ (t.pd j).ring = []

/-- An update that leaves the ring alone or clears it. -/
theorem takesNothing_updPd (s : Osdp) (i : Nat) {f : OsdpPd → OsdpPd}
    (h : (f (s.pd i)).ring = (s.pd i).ring ∨ (f (s.pd i)).ring = []) :
    TakesNothing s (s.updPd i f) := by
  refine ⟨.inl rfl, fun j => ?_⟩
  by_cases e : j = i
  · subst e
    rw [updPd_pd_same]
    exact h
  · rw [updPd_pd_ne s f e]
    exact .inl rfl

/-- Left alone or emptied, twice over. -/
theorem same_or_nil_trans {a b c : Bytes} (h : b = a ∨ b = [])
    (k : c = b ∨ c = []) : c = a ∨ c = [] := by
  rcases k with rfl | k
  · exact h
  · exact .inr k

instance : BusMoves TakesNothing where
  refl _ := ⟨.inl rfl, fun _ => .inl rfl⟩
  trans _ _ _ h k :=
    ⟨same_or_nil_trans h.line k.line,
      fun j => same_or_nil_trans (h.ring j) (k.ring j)⟩
  call s j f h := by
    have e := congrArg OsdpPd.ring (h (s.pd j))
    exact takesNothing_updPd s j (.inl e)
  enable s j _ := takesNothing_updPd s j (.inl rfl)
  disable s j := takesNothing_updPd s j (.inl rfl)
  note _ _ _ := ⟨.inl rfl, fun _ => .inl rfl⟩
  running _ _ := ⟨.inl rfl, fun _ => .inl rfl⟩
  entry _ _ _ := ⟨.inl rfl, fun _ => .inl rfl⟩
  txBuf _ _ _ := ⟨.inl rfl, fun _ => .inl rfl⟩
  flush _ := ⟨.inr rfl, fun _ => .inl rfl⟩
  drawn _ _ := ⟨.inl rfl, fun _ => .inl rfl⟩

instance (i : Nat) : MarkMoves i TakesNothing where
  mark _ _ _ := ⟨.inl rfl, fun _ => .inl rfl⟩

instance (i : Nat) : CoreMoves i TakesNothing where
  core s _ h _ := takesNothing_updPd s i (.inl (congrArg PdCore.ring (h _)))

instance (i : Nat) : PassMoves i TakesNothing where
  pass s _ h _ :=
    takesNothing_updPd s i (.inl (congrArg PdExchange.ring (h _)))
  letGo s _ h _ := takesNothing_updPd s i <| by
    rcases h (s.pd i) with e | e
    · exact .inl (congrArg PdExchange.ring e)
    · exact .inr (congrArg PdExchange.ring e)

/-- The history only grows. -/
abbrev Grows : Osdp → Osdp → Prop := LogExt fun _ => true

/-- A history that did not change has grown. -/
theorem grows_of_eq {s t : Osdp} (h : t.log = s.log) : Grows s t :=
  (LogExt.of_eq h)

instance : BusMoves Grows where
  call _ _ _ _ := grows_of_eq rfl
  enable _ _ _ := grows_of_eq rfl
  disable _ _ := grows_of_eq rfl
  note _ _ _ := LogExt.cons rfl
  running _ _ := grows_of_eq rfl
  entry _ _ _ := LogExt.cons rfl
  txBuf _ _ _ := grows_of_eq rfl
  flush _ := grows_of_eq rfl
  drawn _ _ := grows_of_eq rfl

instance (i : Nat) : MarkMoves i Grows where
  mark _ _ _ := LogExt.cons rfl

instance (i : Nat) : CoreMoves i Grows where
  core _ _ _ _ := grows_of_eq rfl

instance (i : Nat) : CapMoves i Grows where
  caps _ _ _ := grows_of_eq rfl

instance (i : Nat) : PassMoves i Grows where
  pass _ _ _ _ := grows_of_eq rfl
  letGo _ _ _ _ := grows_of_eq rfl

instance (i : Nat) : ReadMoves i Grows where
  read _ _ _ := grows_of_eq rfl
  rxBuf _ _ := grows_of_eq rfl
  line _ _ := grows_of_eq rfl

-- ============================================================= the offer

/-- An offer the channel declines is all there is to a pass on a parked
packet; any other answer is followed by the rest of the pass. -/
theorem stateUpdate_parked {i : Nat} {u v : Osdp} (hshared : u.rxIsTx = true)
    (hw : (u.pd i).phyState = .sendCmdWait)
    (h : stateUpdate env (cpRunCalls env depth) i u = .ok () v) :
    ∃ ret l, v.log = l ++ .sent i (u.parked i) ret :: u.log ∧
      (ret = 0 → v.txBuf = u.txBuf ∧ v.pd = u.pd) := by
  obtain ⟨p, s', hp, h⟩ := bind_ok.mp h
  obtain ⟨rfl, rfl⟩ := getPd_ok.mp hp
  have hrun : cpPhyRunning (u.pd i) = true := by
    simp [cpPhyRunning, cpPhyBusIsBusy, hw]
  rw [if_pos hrun] at h
  obtain ⟨err, w, he, h⟩ := bind_ok.mp h
  obtain ⟨p, s', hp, he⟩ := bind_ok.mp he
  obtain ⟨rfl, rfl⟩ := getPd_ok.mp hp
  rw [hw] at he
  obtain ⟨p, s', hp, he⟩ := bind_ok.mp he
  obtain ⟨rfl, rfl⟩ := getPd_ok.mp hp
  obtain ⟨rc, x, hx, he⟩ := bind_ok.mp he
  obtain ⟨ret, line, hrc, rfl⟩ := sendPacket_ok hx
  have hbytes : (u.buf (u.pd i).packetBuf).take (u.pd i).packetBufLen
      = u.parked i := by
    simp [Osdp.buf, hshared, Osdp.parked]
  rw [hbytes] at he
  -- what follows the offer only adds to the history
  have hrest : Grows { u with
      line := line, log := .sent i (u.parked i) ret :: u.log } v := by
    have hpro (cur : CpState) :
        Keeps Grows (cpProceed env (cpRunCalls env depth) i cur) :=
      pass_cpProceed (keeps_cpRunCalls depth) cur
    have hwv : Grows w v := by
      split at h
      · obtain ⟨-, rfl⟩ := pure_ok.mp h
        exact refl_of Grows _
      · exact (hpro _).of h
    refine trans_of Grows ?_ hwv
    split at he
    · obtain ⟨-, rfl⟩ := pure_ok.mp he
      exact refl_of Grows _
    · split at he
      · exact core_cpPhyFail.of he
      · exact (Keeps.bind core_cpAwaitReply fun _ => .pure _).of he
  obtain ⟨l, hl, -⟩ := hrest
  refine ⟨ret, l, hl, fun h0 => ?_⟩
  have hdefer : rc = errPktWaitTx := by rw [hrc, sendCode, if_pos h0]
  rw [if_pos hdefer] at he
  obtain ⟨rfl, rfl⟩ := pure_ok.mp he
  rw [if_pos (.inr rfl)] at h
  obtain ⟨-, rfl⟩ := pure_ok.mp h
  exact ⟨rfl, rfl⟩

-- ========================================================== the invariant

/-- What holds of the bus between any two steps: it is owned, one buffer
serves both directions, and nothing has begun before the PDs are fixed. -/
structure BusInv (s : Osdp) : Prop where
  owned : BusOwned s
  shared : s.rxIsTx = true
  fresh : s.isSealed = false → ∀ j, (s.pd j).phyState = .idle

/-- A PD that is idle does not own the bus. -/
theorem not_busy_of_idle {p : OsdpPd} (h : p.phyState = .idle) :
    cpPhyBusIsBusy p = false := by
  simp [cpPhyBusIsBusy, h]

theorem busy_congr {p q : OsdpPd} (h : p.phyState = q.phyState) :
    cpPhyBusIsBusy p = cpPhyBusIsBusy q := by
  simp [cpPhyBusIsBusy, h]

/-- Steps that leave phy states, turn and seal alone. -/
theorem BusInv.offBus {s t : Osdp} (h : BusInv s) (k : OffBus s t) :
    BusInv t := by
  have hcur : t.currentPd = s.currentPd := congrArg (·.1) k.ctx
  have hseal : t.isSealed = s.isSealed := congrArg (·.2.1) k.ctx
  have hshared : t.rxIsTx = s.rxIsTx := congrArg (·.2.2.1) k.ctx
  refine ⟨fun j hj => ?_, hshared.trans h.shared, fun hs j => ?_⟩
  · rw [busy_congr (k.pd j).1] at hj
    exact (h.owned j hj).trans hcur.symm
  · rw [(k.pd j).1]
    exact h.fresh (hseal ▸ hs) j

/-- A PD that was just added is idle. -/
theorem cpAddPd_idle {s t : Osdp} {infos : List CpPdInfo}
    (h : cpAddPd env s infos = some t)
    (hs : ∀ j, (s.pd j).phyState = .idle) (j : Nat) :
    (t.pd j).phyState = .idle := by
  rcases (cpAddPd_pd h).2.2.2 j with e | ⟨info, e⟩
  · rw [e]
    exact hs j
  · rw [e]
    rfl

/-- Nobody owns the bus while all PDs are idle. -/
theorem busOwned_of_idle {s : Osdp} (h : ∀ j, (s.pd j).phyState = .idle) :
    BusOwned s := fun j hj => by
  rw [not_busy_of_idle (h j)] at hj
  cases hj

/-- Adding PDs keeps the buffers and the line. -/
theorem cpAddPd_ctx {s t : Osdp} {infos : List CpPdInfo}
    (h : cpAddPd env s infos = some t) :
    (t.rxIsTx, t.isSealed, t.txBuf, t.line)
      = (s.rxIsTx, s.isSealed, s.txBuf, s.line) := by
  unfold cpAddPd at h
  split at h <;> cases h
  rfl

/-- The invariant, over every kind of step. -/
theorem busInv_invariant (env : Env) (depth : Nat) :
    CpInvariant env depth BusInv where
  call c s t h e := by
    have hk : OffBus s t := (keeps_cpApiCall (keeps_cpRunCalls depth) c).of e
    exact h.offBus hk
  addPd infos s t a h e := by
    rcases osdpCpAddPd_ok e with rfl | ⟨hopen, hadd⟩
    · exact h
    · have hidle := cpAddPd_idle hadd (h.fresh hopen)
      have hshared : t.rxIsTx = s.rxIsTx :=
        congrArg (·.1) (cpAddPd_ctx hadd)
      exact ⟨busOwned_of_idle hidle, hshared.trans h.shared, fun _ => hidle⟩
  teardown s t h e := h.offBus (offBus_osdpCpTeardown.of e)
  arrive s now rx h := ⟨h.owned, h.shared, h.fresh⟩
  begin s now rx h := ⟨h.owned, h.shared, nofun⟩
  pass s t h hseal _ _ e := by
    have ho := (others_stateUpdate s.currentPd).of e
    have hshared : t.rxIsTx = s.rxIsTx := by
      have e := congrArg Osdp.rxIsTx ho.ctx
      exact e
    refine ⟨fun j hj => ?_, hshared.trans h.shared, fun hs => ?_⟩
    · rw [currentPd_stateUpdate e]
      by_cases hne : j = s.currentPd
      · exact hne
      · rw [busy_congr (ho.pd j hne).phyState] at hj
        exact h.owned j hj
    · rw [isSealed_stateUpdate e, hseal] at hs
      cases hs
  turn s i h hfree hi := by
    refine ⟨fun j hj => ?_, h.shared, h.fresh⟩
    -- the only owner there could be has just left the bus
    have hj' : j = s.currentPd := h.owned j hj
    rw [hj', ← hi] at hj
    rw [show (s.passTurn i).pd i = s.pd i from rfl, hfree] at hj
    cases hj
  finish s h := ⟨h.owned, h.shared, h.fresh⟩
  sealed s h := ⟨h.owned, h.shared, nofun⟩

/-- A CP fresh from setup has nothing on the bus. -/
theorem busInv_setup {infos : List CpPdInfo} {s : Osdp}
    (h : osdpCpSetup env infos = some s) : BusInv s := by
  have hidle : ∀ j, (s.pd j).phyState = .idle := by
    intro j
    unfold osdpCpSetup at h
    split at h
    · cases h
      rfl
    · exact cpAddPd_idle h (fun _ => rfl) j
  have hshared : s.rxIsTx = true := by
    unfold osdpCpSetup at h
    split at h
    · cases h
      rfl
    · exact congrArg (·.1) (cpAddPd_ctx h)
  exact ⟨busOwned_of_idle hidle, hshared, fun _ => hidle⟩

-- =============================================================== results

/-- An input that is no refresh leaves the bus alone. -/
theorem leavesBus_of_step {s t : Osdp} {x : CpInput} (h : BusInv s)
    (hx : x.isRefresh = false) (e : cpStep env depth x s = .ok () t) :
    LeavesBus s t := by
  have hoff {t : Osdp} (k : OffBus s t) : LeavesBus s t := by
    have htx : t.txBuf = s.txBuf := congrArg (·.2.2.2.1) k.ctx
    have hline : t.line = s.line := congrArg (·.2.2.2.2) k.ctx
    refine ⟨htx, hline, fun i hi => ⟨(k.pd i).1.trans hi, ?_⟩⟩
    rw [Osdp.parked, Osdp.parked, htx, (k.pd i).2]
  cases x with
  | refresh now rx => cases hx
  | call c => exact hoff ((keeps_cpApiCall (keeps_cpRunCalls depth) c).of e)
  | teardown => exact hoff (offBus_osdpCpTeardown.of e)
  | addPd infos =>
    obtain ⟨a, u, hu, e⟩ := bind_ok.mp e
    obtain ⟨-, rfl⟩ := pure_ok.mp e
    rcases osdpCpAddPd_ok hu with rfl | ⟨hopen, hadd⟩
    · exact ⟨rfl, rfl, fun _ hi => ⟨hi, rfl⟩⟩
    · have hc := cpAddPd_ctx hadd
      have htx : u.txBuf = s.txBuf := congrArg (·.2.2.1) hc
      have hline : u.line = s.line := congrArg (·.2.2.2) hc
      refine ⟨htx, hline, fun i hi => ?_⟩
      rw [h.fresh hopen i] at hi
      cases hi

/-- A pass takes bytes for the PD whose reply is outstanding only. -/
theorem readsAwaited_of_pass {u v : Osdp}
    (e : stateUpdate env (cpRunCalls env depth) u.currentPd u = .ok () v) :
    ReadsAwaited u v := by
  have htake (hne : (u.pd u.currentPd).phyState ≠ .replyWait) :
      TakesNothing u v := pass_stateUpdate (keeps_cpRunCalls depth) hne e
  refine ⟨fun hne => (htake hne).line, fun j hj => ?_⟩
  by_cases hcur : j = u.currentPd
  · rcases hj with hne | hne
    · rw [hcur] at hne
      exact (htake hne).ring j
    · exact absurd hcur hne
  · have ho := ((others_stateUpdate u.currentPd).of e).pd j hcur
    have e := congrArg OsdpPd.rxRb ho.aside
    exact .inl e

/-- Between any two steps of any run of a CP, at most one PD owns the bus,
and it is the one whose turn it is.  No input but a refresh touches the
buffer or the line; and in a refresh each pass finds and leaves the bus
so owned, offers a parked packet unchanged and for its own PD, and takes
bytes off the line only for a PD that awaits a reply. -/
theorem cp_bus_arbitration (env : Env) (depth : Nat)
    (ok : Osdp → CpInput → Bool) (infos : List CpPdInfo) (s t : Osdp)
    (l : List CpInput) (hs : osdpCpSetup env infos = some s)
    (hrun : CpRun env depth ok s l t) :
    BusOwned t ∧
      (∀ x u, x.isRefresh = false → cpStep env depth x t = .ok () u →
        BusOwned u ∧ LeavesBus t u) ∧
      ∀ now rx u v, RefreshPass env depth t now rx u v →
        BusOwned u ∧ BusOwned v ∧ KeepsOffer u v ∧ ReadsAwaited u v := by
  have hinv := busInv_invariant env depth
  have ht : BusInv t := hinv.run hrun (busInv_setup hs)
  refine ⟨ht.owned, fun x u hx e => ?_, fun now rx u v hp => ?_⟩
  · exact ⟨(hinv.step x ht e).owned, leavesBus_of_step ht hx e⟩
  · obtain ⟨hu, e, hv⟩ := hinv.refreshPass ht hp
    refine ⟨hu.owned, hv.owned, fun i hi => ?_, readsAwaited_of_pass e⟩
    have hcur : i = u.currentPd :=
      hu.owned i (by simp [cpPhyBusIsBusy, hi])
    subst hcur
    exact ⟨rfl, stateUpdate_parked hu.shared hi e⟩

end

/-- A channel that takes nothing. -/
def stuckEnv : Env :=
  { plainEnv (knownCipher []) (fun n => UInt8.ofNat n) with
    channelSend := fun _ _ => 0 }

/-- Two PDs on a channel that takes nothing: the first has its packet
parked, and the bus is its own. -/
theorem cp_bus_arbitration_stuck :
    ∃ s t, osdpCpSetup stuckEnv [{ address := 1 }, { address := 2 }]
        = some s ∧
      CpRun stuckEnv 1 anyCpInput s
        [.refresh 0 [], .refresh 1 [], .refresh 2 []] t ∧
      (t.pd 0).phyState = .sendCmdWait ∧ BusOwned t := by
  obtain ⟨s, t, hs, hrun, hparked⟩ :=
    run_of_setup (cpStep stuckEnv 1) anyCpInput
      (osdpCpSetup stuckEnv [{ address := 1 }, { address := 2 }])
      [.refresh 0 [], .refresh 1 [], .refresh 2 []]
      (fun t => (t.pd 0).phyState = .sendCmdWait) (by decide +kernel)
  exact ⟨s, t, hs, hrun, hparked,
    (cp_bus_arbitration stuckEnv 1 anyCpInput _ s t _ hs hrun).1⟩

end LibOsdp
