/-
How a PD comes to await a reply, and how long.

# The only way in

What follows an exchange never leaves its PD in REPLY_WAIT: the exchange
is settled, which sets the phy layer to IDLE, and from there the most that
happens is that a command is chosen (`proceed_over`).  So a PD that awaits
a reply after a pass has been in its exchange all along, and either it did
so before or its packet was sent in this pass (`awaits_pass`,
`sends_packet`).

# The time it is given

`cp_phy_state_update` resets the phy layer between the send and the
computation of the response time.  The reset clears `packet_buf_len`, the
length the transmit time is computed from, so the time is RESP_TOUT and
nothing more, whatever was sent (`cp_timeout_without_length`).
-/
import LibOsdp.Cp.Proofs.Handshake
import LibOsdp.Lib.Avoids

namespace LibOsdp

open Lib

section After

variable {env : Env} {depth i : Nat} {s t : Osdp}

-- ======================================================= after an exchange

theorem Chosen.phyState {next : CpState} {err : Int}
    (h : Chosen i err s t next) (hidle : (s.pd i).phyState = .idle) :
    (t.pd i).phyState = .idle := by
  have hof {c : PdCtl} (k : Steers i s c t) (hc : c.phyState = .idle) :
      (t.pd i).phyState = .idle :=
    (congrArg PdCtl.phyState k.ctl).trans hc
  have heff (row : CpState) (key : Bytes) :
      ((s.pd i).ctl.effects (s.pd i).state row err key).phyState = .idle := by
    rw [effects_phyState]
    exact hidle
  cases h with
  | reset steers log => exact hof steers hidle
  | trs cur dest steers log => exact hof steers hidle
  | table key off row steers log => exact hof steers (heff next key)
  | online row key on row_ok steers log dest =>
    refine hof steers ?_
    show (if _ then CpPhyState.idle else _) = _
    split
    · rfl
    · exact heff row key

/-- Moving the state machine starts no exchange. -/
theorem advance_idle {a : Unit} {err : Int}
    (hmode : (s.pd i).flags.pdMode = false)
    (hidle : (s.pd i).phyState = .idle)
    (h : cpAdvance env (cpRunCalls env depth) i (s.pd i).state err s
      = .ok a t) : (t.pd i).phyState = .idle := by
  obtain ⟨next, next', u, v, hch, hlive, hend⟩ := (advance_ok hmode h).run
  have hu := hch.phyState hidle
  have hv : (v.pd i).ctl.phyState = .idle := by
    rw [hlive.ctl]
    exact hu
  rcases hend with ⟨-, hsame⟩ | ⟨-, r, hchg⟩
  · have e : (t.pd i).phyState = (v.pd i).phyState :=
      congrArg PdCtl.phyState hsame.steers.ctl
    exact e.trans hv
  · have e : (t.pd i).phyState = ((v.pd i).ctl.enter next' r).phyState :=
      congrArg PdCtl.phyState hchg.ctl
    rw [e]
    exact enter_phyState _ _ _ hv

/-- So does settling the one before, and the PD is off the bus. -/
theorem settle_advance_idle {err : Int} {a : Unit}
    (hmode : (s.pd i).flags.pdMode = false)
    (h : (do
      let e ← cpSettle env (cpRunCalls env depth) i err
      cpAdvance env (cpRunCalls env depth) i (s.pd i).state e) s
        = .ok a t) : (t.pd i).phyState = .idle := by
  obtain ⟨e, u, hu, h⟩ := bind_ok.mp h
  obtain ⟨c, hc, hj⟩ := (settle_ok hu).ctl
  have hidle : (u.pd i).phyState = .idle :=
    congrArg PdCtl.phyState hc.ctl
  have humode : (u.pd i).flags.pdMode = false := by
    have e : (u.pd i).flags.pdMode = c.pdMode :=
      congrArg PdCtl.pdMode hc.ctl
    rw [e]
    rcases hj with hj | ⟨-, -, -, key, hj⟩
    · rw [hj]
      exact hmode
    · rw [hj]
      exact hmode
  rw [← hc.state] at h
  exact advance_idle humode hidle h

/-- What follows an exchange leaves the PD idle, or with a command to be
sent. -/
theorem proceed_over {a : Unit} (hmode : (s.pd i).flags.pdMode = false)
    (h : cpProceed env (cpRunCalls env depth) i (s.pd i).state s
      = .ok a t) :
    (t.pd i).phyState = .idle ∨ (t.pd i).phyState = .sendCmd := by
  obtain ⟨p, v, hp, h⟩ := bind_ok.mp h
  obtain ⟨rfl, rfl⟩ := getPd_ok.mp hp
  cases hphy : (s.pd i).phyState with
  | idle =>
    rw [hphy] at h
    obtain ⟨b, u, hu, h⟩ := bind_ok.mp h
    obtain ⟨id, w, hpick, -, -, hb⟩ := (kick_ok hu).pick
    rcases hb with ⟨rfl, -, hsteer⟩ | ⟨rfl, -, hsteer⟩
    · obtain ⟨-, rfl⟩ := pure_ok.mp h
      exact .inr (congrArg PdCtl.phyState hsteer.ctl)
    · have hidle : (u.pd i).phyState = .idle := by
        have e : (u.pd i).phyState = (w.pd i).phyState :=
          congrArg PdCtl.phyState hsteer.ctl
        rw [e, hpick.phyState, hphy]
      have humode : (u.pd i).flags.pdMode = false := by
        have e : (u.pd i).flags.pdMode = (w.pd i).flags.pdMode :=
          congrArg PdCtl.pdMode hsteer.ctl
        have e' : (w.pd i).flags.pdMode = (s.pd i).flags.pdMode := by
          have e' := congrArg PdCtl.pdMode hpick.ctl
          exact e'
        rw [e, e', hmode]
      have hstate : (u.pd i).state = (s.pd i).state :=
        hsteer.state.trans hpick.state
      rw [← hstate] at h
      exact .inl (advance_idle humode hidle h)
  | err =>
    rw [hphy] at h
    exact .inl (settle_advance_idle hmode h)
  | done =>
    rw [hphy] at h
    exact .inl (settle_advance_idle hmode h)
  | sendCmd | sendCmdWait | replyWait | wait | retryCmd =>
    rw [hphy] at h
    exact absurd h throw_ok

/-- A PD that awaits a reply after a pass has been in its exchange through
all of it. -/
theorem awaits_pass {a : Unit} (hmode : (s.pd i).flags.pdMode = false)
    (h : stateUpdate env (cpRunCalls env depth) i s = .ok a t)
    (hwait : (t.pd i).phyState = .replyWait) :
    ∃ err, cpPhyStateUpdate env (cpRunCalls env depth) i s = .ok err t ∧
      (err = cpErrInprog ∨ err = cpErrDefer) := by
  have hover {u : Osdp} (humode : (u.pd i).flags.pdMode = false)
      (hu : cpProceed env (cpRunCalls env depth) i (u.pd i).state u
        = .ok a t) : False := by
    rcases proceed_over humode hu with e | e <;> cases hwait.symm.trans e
  rcases stateUpdate_ok h with ⟨err, -, hu, he⟩ | ⟨err, u, -, hu, -, hp⟩ |
    ⟨-, hp⟩
  · exact ⟨err, hu, he⟩
  · have hcore : CoreStep (s.pd i) (u.pd i) :=
      (read_cpPhyStateUpdate (R := CoreDown i)
        (keeps_cpRunCalls depth)).of hu
    rw [← hcore.state] at hp
    exact (hover (hcore.pdMode.trans hmode) hp).elim
  · exact (hover hmode hp).elim

-- ============================================================== the send

/-- A packet of `n` bytes has just gone out for the PD, and its reply is
given no more than the bare response time. -/
structure SentBare (i n : Nat) (t : Osdp) : Prop where
  some : 0 < n
  sent : ∃ data l, t.log = .sent i data n :: l
  baud : (t.pd i).baudRate ≠ 0
  time : (t.pd i).respTimeoutMs = respToutMs

/-- The response time of a packet that has gone out: its length was
cleared before it was looked at. -/
theorem awaitReply_time {a : Unit} (h : cpAwaitReply env i s = .ok a t) :
    (t.pd i).respTimeoutMs = respToutMs ∧ (t.pd i).baudRate ≠ 0 ∧
      t.log = s.log := by
  obtain ⟨_, u, hu, h⟩ := bind_ok.mp h
  obtain ⟨_, v, hv, hu⟩ := bind_ok.mp hu
  obtain ⟨-, rfl⟩ := pure_ok.mp hu
  obtain ⟨now, w, hw, h⟩ := bind_ok.mp h
  cases hw
  obtain ⟨p, w, hw, h⟩ := bind_ok.mp h
  obtain ⟨rfl, rfl⟩ := getPd_ok.mp hw
  have hv := updPd_ok.mp hv
  subst hv
  by_cases hbaud : (s.pd i).baudRate = 0
  · rw [updPd_pd_same, if_pos hbaud] at h
    exact absurd h throw_ok
  · rw [updPd_pd_same, if_neg hbaud] at h
    have h := updPd_ok.mp h
    subst h
    rw [updPd_pd_same, updPd_pd_same]
    have hnat : 0 < (s.pd i).baudRate.toNat := by
      refine Nat.pos_of_ne_zero fun hz => hbaud ?_
      exact UInt32.toNat_inj.mp hz
    have hlt : (s.pd i).baudRate.toNat < 2 ^ 32 :=
      (s.pd i).baudRate.toNat_lt
    have hzero : ((0 * 10000 + (s.pd i).baudRate.toNat - 1) % 2 ^ 32) /
        (s.pd i).baudRate.toNat = 0 := by
      rw [Nat.mod_eq_of_lt (by omega)]
      exact Nat.div_eq_of_lt (by omega)
    refine ⟨?_, hbaud, rfl⟩
    show respToutMs + (((0 * 10000 + (s.pd i).baudRate.toNat - 1) % 2 ^ 32) /
      (s.pd i).baudRate.toNat : Nat) = respToutMs
    rw [hzero]
    exact Int.add_zero _

/-- An offer the channel takes whole. -/
theorem phySend_bare {err : Int} (h : cpPhySend env i s = .ok err t)
    (hnot : (s.pd i).phyState ≠ .replyWait)
    (hwait : (t.pd i).phyState = .replyWait) :
    ∃ n, SentBare i n t := by
  obtain ⟨p, u, hp, h⟩ := bind_ok.mp h
  obtain ⟨rfl, rfl⟩ := getPd_ok.mp hp
  obtain ⟨rc, u, hu, h⟩ := bind_ok.mp h
  obtain ⟨ret, l, hrc, rfl⟩ := sendPacket_ok hu
  by_cases hwaittx : rc = errPktWaitTx
  · rw [if_pos hwaittx] at h
    obtain ⟨-, rfl⟩ := pure_ok.mp h
    exact absurd hwait hnot
  rw [if_neg hwaittx] at h
  by_cases hneg : rc < 0
  · rw [if_pos hneg] at h
    obtain ⟨-, hphy, -⟩ := phyFail_ok h
    cases hwait.symm.trans hphy
  rw [if_neg hneg] at h
  obtain ⟨_, v, hv, h⟩ := bind_ok.mp h
  obtain ⟨-, rfl⟩ := pure_ok.mp h
  obtain ⟨htime, hbaud, hlog⟩ := awaitReply_time hv
  have hret : ret ≠ 0 ∧ ret = (s.pd i).packetBufLen := by
    unfold sendCode at hrc
    by_cases hzero : ret = 0
    · rw [if_pos hzero] at hrc
      exact absurd hrc hwaittx
    · rw [if_neg hzero] at hrc
      by_cases hpart : ret < 0 ∨ ret ≠ (s.pd i).packetBufLen
      · rw [if_pos hpart] at hrc
        rw [hrc] at hneg
        exact absurd (by decide : errPktBuild < 0) hneg
      · exact ⟨hzero, by omega⟩
  have hsent : v.log = .sent i ((s.buf (s.pd i).packetBuf).take
      (s.pd i).packetBufLen) ret :: s.log := hlog
  rw [hret.2] at hsent
  exact ⟨(s.pd i).packetBufLen, by omega, ⟨_, _, hsent⟩, hbaud, htime⟩

/-- A PD that has come to await a reply has had its packet sent. -/
theorem sends_packet {err : Int}
    (h : cpPhyStateUpdate env (cpRunCalls env depth) i s = .ok err t)
    (hnot : (s.pd i).phyState ≠ .replyWait)
    (hwait : (t.pd i).phyState = .replyWait) :
    ∃ n, SentBare i n t := by
  have hbuild {u : Osdp} {err : Int}
      (h : cpPhyBuild env (cpRunCalls env depth) i u = .ok err t) :
      ∃ n, SentBare i n t := by
    obtain ⟨b, v, hv, h⟩ := bind_ok.mp h
    cases b with
    | false =>
      obtain ⟨-, hphy, -⟩ := phyFail_ok h
      cases hwait.symm.trans hphy
    | true =>
      obtain ⟨_, w, hw, h⟩ := bind_ok.mp h
      have hw := updPd_ok.mp hw
      subst hw
      refine phySend_bare h ?_ hwait
      rw [updPd_pd_same]
      exact nofun
  obtain ⟨p, v, hp, h⟩ := bind_ok.mp h
  obtain ⟨rfl, rfl⟩ := getPd_ok.mp hp
  cases hphy : (s.pd i).phyState with
  | idle | done | err =>
    rw [hphy] at h
    obtain ⟨-, rfl⟩ := pure_ok.mp h
    exact absurd hwait hnot
  | wait =>
    rw [hphy] at h
    obtain ⟨p, v, hp, h⟩ := bind_ok.mp h
    obtain ⟨rfl, rfl⟩ := getPd_ok.mp hp
    obtain ⟨age, v, hv, h⟩ := bind_ok.mp h
    cases hv
    split at h
    · obtain ⟨_, u, hu, h⟩ := bind_ok.mp h
      obtain ⟨-, rfl⟩ := pure_ok.mp h
      have hu := updPd_ok.mp hu
      subst hu
      rw [updPd_pd_same] at hwait
      cases hwait
    · obtain ⟨-, rfl⟩ := pure_ok.mp h
      exact absurd hwait hnot
  | retryCmd =>
    rw [hphy] at h
    obtain ⟨_, u, hu, h⟩ := bind_ok.mp h
    exact hbuild h
  | sendCmd =>
    rw [hphy] at h
    exact hbuild h
  | sendCmdWait =>
    rw [hphy] at h
    exact phySend_bare h hnot hwait
  | replyWait => exact absurd hphy hnot

end After

-- ===================================================== the response time

/-- The milliseconds a packet of `n` bytes occupies the line, ten bits for
each byte, rounded up. -/
def lineTimeMs (n baud : Nat) : Nat := (n * 10 * 1000 + baud - 1) / baud

/-- Any packet occupies it for some time. -/
theorem lineTimeMs_pos {n baud : Nat} (hn : 0 < n) (hb : 0 < baud) :
    0 < lineTimeMs n baud := by
  unfold lineTimeMs
  exact Nat.div_pos (by omega) hb

/-- A pass that has sent a packet of `n` bytes gives its reply the
response time and the time the packet occupies the line. -/
def TimedForLine (i n : Nat) (t : Osdp) : Prop :=
  (t.pd i).respTimeoutMs
    = respToutMs + lineTimeMs n (t.pd i).baudRate.toNat

theorem SentBare.not_timed {i n : Nat} {t : Osdp} (h : SentBare i n t) :
    ¬ TimedForLine i n t := by
  have hbaud : 0 < (t.pd i).baudRate.toNat := by
    refine Nat.pos_of_ne_zero fun hz => h.baud ?_
    exact UInt32.toNat_inj.mp hz
  have hpos := lineTimeMs_pos h.some hbaud
  have htime := h.time
  unfold TimedForLine
  omega

/-- In every run of a CP, every pass that sends a packet for a PD: the
reply is given the bare response time, which is never what the packet's
length asks for. -/
theorem cp_timeout_without_length (env : Env) (depth : Nat)
    (ok : Osdp → CpInput → Bool) (infos : List CpPdInfo) (s t : Osdp)
    (l : List CpInput) (hs : osdpCpSetup env infos = some s)
    (hrun : CpRun env depth ok s l t) (i : Nat) (now : Int) (rx : Bytes)
    (u v : Osdp) (hpass : RefreshPass env depth t now rx u v)
    (hturn : u.currentPd = i) (hbefore : (u.pd i).phyState ≠ .replyWait)
    (hafter : (v.pd i).phyState = .replyWait) :
    ∃ n, (∃ data rest, v.log = .sent i data (n : Nat) :: rest) ∧
      (v.pd i).respTimeoutMs = respToutMs ∧ ¬ TimedForLine i n v := by
  have hd := hsInv_invariant env depth i
  have ht : DeviceInv i (CpHsInv env i) (ScInv env i) t :=
    hd.invariant.run hrun (hd.start hs)
  obtain ⟨hu, e, -⟩ := hd.invariant.refreshPass ht hpass
  have hlive := (hd.invariant.refreshPass_live ht hpass).2
  have hctl := (hu.alive hlive).ctl
  rw [hturn] at e
  obtain ⟨err, hstep, -⟩ := awaits_pass hctl.cp e hafter
  obtain ⟨n, hn⟩ := sends_packet hstep hbefore hafter
  exact ⟨n, hn.sent, hn.time, hn.not_timed⟩

-- ========================================================== a run of a CP

/-- The surroundings of a CP that speaks in plain text. -/
abbrev plainCpEnv : Env := plainEnv (knownCipher []) fun _ => 0

/-- The first packet for the PD is about to go out, and does. -/
def FirstGoesOut (s : Osdp) : Prop :=
  (s.currentPd = 0 ∧ ¬ (s.tearingDown ∨ s.running) ∧ s.numPd = 1 ∧
      (s.pd 0).phyState ≠ .replyWait) ∧
    Reaches (fun v => (v.pd 0).phyState = .replyWait ∧
        (v.pd 0).respTimeoutMs = 200 ∧ (v.pd 0).baudRate = 9600)
      (stateUpdate plainCpEnv (cpRunCalls plainCpEnv 1) 0
        (s.beginRefresh 1 []))

instance (s : Osdp) : Decidable (FirstGoesOut s) := by
  unfold FirstGoesOut
  infer_instance

theorem FirstGoesOut.pass {s : Osdp} (h : FirstGoesOut s) :
    ∃ v, RefreshPass plainCpEnv 1 s 1 [] (s.beginRefresh 1 []) v ∧
      (v.pd 0).phyState = .replyWait ∧ (v.pd 0).respTimeoutMs = 200 ∧
      (v.pd 0).baudRate = 9600 := by
  obtain ⟨⟨hturn, hgo, hnum, -⟩, hend⟩ := h
  obtain ⟨v, hv, hafter⟩ := hend.ok
  refine ⟨v, ⟨hgo, by omega, ?_⟩, hafter⟩
  rw [hnum]
  have hcur : (s.beginRefresh 1 []).currentPd = 0 := hturn
  exact .here (by rw [hcur]; exact hv)

/-- The request for the PD's identity. -/
theorem cp_timeout_without_length_first :
    ∃ s t u v : Osdp, osdpCpSetup plainCpEnv [{ address := 1 }] = some s ∧
      CpRun plainCpEnv 1 anyCpInput s [.refresh 0 []] t ∧
      RefreshPass plainCpEnv 1 t 1 [] u v ∧
      ∃ n, (∃ data rest, v.log = .sent 0 data (n : Nat) :: rest) ∧
        (v.pd 0).respTimeoutMs = respToutMs ∧ ¬ TimedForLine 0 n v := by
  obtain ⟨s, t, hs, hrun, hout⟩ :=
    run_of_setup (cpStep plainCpEnv 1) anyCpInput
      (osdpCpSetup plainCpEnv [{ address := 1 }]) [.refresh 0 []]
      FirstGoesOut (by decide +kernel)
  obtain ⟨v, hpass, hwait, -⟩ := hout.pass
  obtain ⟨⟨hturn, -, -, hbefore⟩, -⟩ := hout
  exact ⟨s, t, _, v, hs, hrun, hpass,
    cp_timeout_without_length plainCpEnv 1 anyCpInput _ s t _ hs hrun 0 1 []
      _ v hpass hturn hbefore hwait⟩

/-- A REPLY_COM with a baud rate of zero, to the first packet, and the
time it takes the CP to try again. -/
def zeroBaudInputs : List CpInput :=
  [.refresh 0 [], .refresh 1 [],
   .refresh 10 (writeBe 14 0xFF53810D0004540100000000FE89),
   .refresh 400000 [], .refresh 400001 []]

/-- Ten bytes at 9600 baud take eleven milliseconds, which the time given
to their reply leaves out; and after a REPLY_COM with a baud rate of zero
the next packet that is sent ends in a division by zero. -/
theorem cp_timeout_and_division :
    (∃ s t v : Osdp, osdpCpSetup plainCpEnv [{ address := 1 }] = some s ∧
      CpRun plainCpEnv 1 anyCpInput s [.refresh 0 []] t ∧
      RefreshPass plainCpEnv 1 t 1 [] (t.beginRefresh 1 []) v ∧
      (v.pd 0).phyState = .replyWait ∧ (v.pd 0).respTimeoutMs = 200 ∧
      (v.pd 0).baudRate = 9600 ∧ lineTimeMs 10 9600 = 11 ∧
      ¬ TimedForLine 0 10 v) ∧
    ∃ s t, osdpCpSetup plainCpEnv [{ address := 1 }] = some s ∧
      CpRun plainCpEnv 1 anyCpInput s zeroBaudInputs t ∧
      ∃ v, cpStep plainCpEnv 1 (.refresh 400002 []) t = .error .bug v := by
  constructor
  · obtain ⟨s, t, hs, hrun, hout⟩ :=
      run_of_setup (cpStep plainCpEnv 1) anyCpInput
        (osdpCpSetup plainCpEnv [{ address := 1 }]) [.refresh 0 []]
        FirstGoesOut (by decide +kernel)
    obtain ⟨v, hpass, hwait, htime, hbaud⟩ := hout.pass
    have hline : lineTimeMs 10 9600 = 11 := by decide
    refine ⟨s, t, v, hs, hrun, hpass, hwait, htime, hbaud, hline, ?_⟩
    unfold TimedForLine
    rw [htime, hbaud]
    decide
  · obtain ⟨s, t, hs, hrun, hbug⟩ :=
      run_of_setup (cpStep plainCpEnv 1) anyCpInput
        (osdpCpSetup plainCpEnv [{ address := 1 }]) zeroBaudInputs
        (fun t => endsIn .bug (cpStep plainCpEnv 1 (.refresh 400002 []) t)
          = true) (by decide +kernel)
    exact ⟨s, t, hs, hrun, endsIn_iff.mp hbug⟩

end LibOsdp
