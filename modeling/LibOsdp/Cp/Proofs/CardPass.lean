/-
A whole pass, as the card session of its PD sees it.

A pass goes on with an exchange, ends one, or looks for a command.  What
each of these does to the session is known part by part (CardSession); here
the parts are put together, along with where the pass leaves the exchange.
-/
import LibOsdp.Cp.Proofs.CardSession

namespace LibOsdp

open Lib

-- ================================================================== idle

/-- An exchange that is over stays over. -/
def StaysIdle (i : Nat) (s t : Osdp) : Prop :=
  (s.pd i).phyState = .idle → (t.pd i).phyState = .idle

theorem staysIdle_same {i : Nat} {s t : Osdp} (h : t.pd = s.pd) :
    StaysIdle i s t := fun e => by rw [h]; exact e

theorem staysIdle_updPd {i j : Nat} {s : Osdp} {f : OsdpPd → OsdpPd}
    (h : (s.pd j).phyState = .idle → (f (s.pd j)).phyState = .idle) :
    StaysIdle i s (s.updPd j f) := by
  intro e
  by_cases hij : i = j
  · subst hij
    rw [updPd_pd_same]
    exact h e
  · rw [updPd_pd_ne s f hij]
    exact e

instance (i : Nat) : BusMoves (StaysIdle i) where
  refl _ := id
  trans _ _ _ h k := k ∘ h
  call s j f h := by
    have e := congrArg OsdpPd.phyState (h (s.pd j))
    exact staysIdle_updPd fun k => Eq.trans e k
  enable _ _ _ := staysIdle_updPd id
  disable _ _ := staysIdle_updPd id
  note _ _ _ := staysIdle_same rfl
  running _ _ := staysIdle_same rfl
  entry _ _ _ := staysIdle_same rfl
  txBuf _ _ _ := staysIdle_same rfl
  flush _ := staysIdle_same rfl
  drawn _ _ := staysIdle_same rfl

instance (i : Nat) : MarkMoves i (StaysIdle i) where
  mark _ _ _ := staysIdle_same rfl

instance (i : Nat) : PassMoves i (StaysIdle i) where
  pass s f h _ := staysIdle_updPd fun e =>
    (congrArg PdExchange.phyState (h (s.pd i))).trans e
  letGo s f h _ := staysIdle_updPd fun _ => by
    rcases h (s.pd i) with e | e
    · exact congrArg PdExchange.phyState e
    · exact congrArg PdExchange.phyState e

-- ============================================================== the pass

section Card

variable {env : Env} {depth i : Nat} {R : Osdp → Osdp → Prop}

/-- A pass on PD `i`, found with no exchange to settle. -/
inductive CardPass (env : Env) (depth i : Nat) (R : Osdp → Osdp → Prop)
    (s t : Osdp) : Prop where
  | going (err : Int)
      (exchange : Exchanged env (cpRunCalls env depth) i R s t err)
      (step : ExchangeStep env i s t err)
      (busy : (s.pd i).phyState ≠ .idle)
      (live : (t.pd i).phyState ≠ .idle ∧ (t.pd i).phyState ≠ .done ∧
        (t.pd i).phyState ≠ .err)
      (running : cpPhyRunning (s.pd i) = true)
      (update : cpPhyStateUpdate env (cpRunCalls env depth) i s = .ok err t)
      (waits : err = cpErrInprog ∨ err = cpErrDefer)
  | ended (err err' : Int) (u v : Osdp)
      (exchange : Exchanged env (cpRunCalls env depth) i R s u err)
      (step : ExchangeStep env i s u err)
      (busy : (s.pd i).phyState ≠ .idle)
      (ends : (u.pd i).phyState = .done ∧ err = cpErrNone ∨
        (u.pd i).phyState = .err ∧ err = cpErrGeneric)
      (settled : CardSettled i R err err' u v)
      (reply : (v.pd i).replyId = (u.pd i).replyId)
      (advance : Nonempty (CardAdvance env i R err' v t))
      (idle : (t.pd i).phyState = .idle)
  | sent (id : Nat) (v : Osdp) (free : (s.pd i).phyState = .idle)
      (pick : StatePick env i R s v id) (keeps : R (v.setCmdId i id) t)
      (some : id ≠ cmdInvalid) (phy : (t.pd i).phyState = .sendCmd)
  | none (id : Nat) (v u : Osdp) (free : (s.pd i).phyState = .idle)
      (pick : StatePick env i R s v id) (keeps : R (v.setCmdId i id) u)
      (none : id = cmdInvalid)
      (advance : Nonempty (CardAdvance env i R cpErrNone u t))
      (idle : (t.pd i).phyState = .idle)

variable [hC : CardMoves i R]
variable (hr : ∀ calls, env.Makes calls →
  Keeps R (cpRunCalls env depth calls))
include hr

omit hC hr in
/-- The transitions leave an exchange that is over alone. -/
theorem idle_of_advance {cur : CpState} {err : Int} {s t : Osdp}
    (hidle : (s.pd i).phyState = .idle)
    (h : cpAdvance env (cpRunCalls env depth) i cur err s = .ok () t) :
    (t.pd i).phyState = .idle :=
  (pass_cpAdvance (R := StaysIdle i) (keeps_cpRunCalls depth) cur err).of h
    hidle

/-- An exchange that is over, and what follows. -/
theorem over_card {err : Int} {s u t : Osdp}
    (hex : Exchanged env (cpRunCalls env depth) i R s u err)
    (hstep : ExchangeStep env i s u err)
    (hbusy : (s.pd i).phyState ≠ .idle)
    (hends : (u.pd i).phyState = .done ∧ err = cpErrNone ∨
      (u.pd i).phyState = .err ∧ err = cpErrGeneric)
    (h : (do
      let err ← cpSettle env (cpRunCalls env depth) i err
      cpAdvance env (cpRunCalls env depth) i (u.pd i).state err) u
      = .ok () t) : CardPass env depth i R s t := by
  obtain ⟨err', v, hv, h⟩ := bind_ok.mp h
  obtain ⟨c, hc, hj⟩ := (settle_ok hv).ctl
  have hreply : (v.pd i).replyId = (u.pd i).replyId := by
    have e : (v.pd i).replyId = c.replyId := congrArg PdCtl.replyId hc.ctl
    rcases hj with rfl | ⟨-, -, -, key, rfl⟩ <;> exact e
  have hidle : (v.pd i).phyState = .idle := congrArg PdCtl.phyState hc.ctl
  rw [← hc.state] at h
  exact .ended err err' u v hex hstep hbusy hends (settle_card hr hv) hreply
    (advance_card hr h) (idle_of_advance hidle h)

/-- A pass, put together. -/
theorem pass_card {s t : Osdp} (hm : (s.pd i).flags.pdMode = false)
    (hphy : (s.pd i).phyState ≠ .done ∧ (s.pd i).phyState ≠ .err)
    (h : stateUpdate env (cpRunCalls env depth) i s = .ok () t) :
    CardPass env depth i R s t := by
  rcases stateUpdate_ok h with ⟨err, hrun, hu, he⟩ |
    ⟨err, u, hrun, hu, he, hp⟩ | ⟨hrun, hp⟩
  · have hstep := exchange_ok hu
    have hbusy : (s.pd i).phyState ≠ .idle := fun e => by
      rw [cpPhyRunning_eq, e] at hrun
      cases hrun
    have hend := exchangeStep_phy hstep hrun he
    exact .going err (exchange_session hr (.inl hm) hrun hu) hstep hbusy
      ⟨exchangeStep_live hstep hrun, hend.1, hend.2⟩ hrun hu he
  · have hstep := exchange_ok hu
    have hbusy : (s.pd i).phyState ≠ .idle := fun e => by
      rw [cpPhyRunning_eq, e] at hrun
      cases hrun
    have hex := exchange_session hr (.inl hm) hrun hu
    have hcore : CoreStep (s.pd i) (u.pd i) :=
      (read_cpPhyStateUpdate (R := CoreDown i)
        (keeps_cpRunCalls depth)).of hu
    rw [← hcore.state] at hp
    obtain ⟨p, w, hw, hp⟩ := bind_ok.mp hp
    obtain ⟨rfl, rfl⟩ := getPd_ok.mp hw
    have hends := exchangeStep_over hstep hrun he
    rcases hends with ⟨e, herr⟩ | ⟨e, herr⟩ <;> rw [e, ← herr] at hp
    · exact over_card hr hex hstep hbusy (.inl ⟨e, herr⟩) hp
    · exact over_card hr hex hstep hbusy (.inr ⟨e, herr⟩) hp
  · have hfree : (s.pd i).phyState = .idle := by
      rw [cpPhyRunning_eq] at hrun
      cases hst : (s.pd i).phyState with
      | idle => rfl
      | done => exact absurd hst hphy.1
      | err => exact absurd hst hphy.2
      | _ => rw [hst] at hrun; cases hrun
    obtain ⟨p, w, hw, hp⟩ := bind_ok.mp hp
    obtain ⟨rfl, rfl⟩ := getPd_ok.mp hw
    rw [hfree] at hp
    obtain ⟨b, u, hu, hp⟩ := bind_ok.mp hp
    obtain ⟨id, v, hpick, hkeep, hsome, hnone⟩ := kick_card hr hu
    obtain ⟨id', x, hpicks, -, -, hk⟩ := (kick_ok hu).pick
    have hx : (x.pd i).phyState = .idle := hpicks.phyState.trans hfree
    cases b with
    | true =>
      obtain ⟨-, rfl⟩ := pure_ok.mp hp
      rcases hk with ⟨-, -, hk⟩ | ⟨hb, -⟩
      · exact .sent id v hfree hpick hkeep (hsome rfl)
          (congrArg PdCtl.phyState hk.ctl)
      · cases hb
    | false =>
      rcases hk with ⟨hb, -⟩ | ⟨-, -, hk⟩
      · cases hb
      · have hidle : (u.pd i).phyState = .idle :=
          (congrArg PdCtl.phyState hk.ctl).trans hx
        have hst : (u.pd i).state = (s.pd i).state :=
          hk.state.trans hpicks.state
        rw [← hst] at hp
        exact .none id v u hfree hpick hkeep
          ((hnone rfl).resolve_right fun e => e hidle)
          (advance_card hr hp) (idle_of_advance hidle hp)

end Card

end LibOsdp
