/-
SCBK-D, and what keeps a CP from going back to it.

PD_FLAG_SC_ESTABLISHED is latched once a handshake over the installed key
has been completed.  From then on the CP is not to work from the default
key again (`Latched`).  The state machine keeps to that: only the retry
of a handshake over a key that never worked turns PD_FLAG_SC_USE_SCBKD on
(`latched_of_advance`).

The decoder, which is shared with the PD, turns it on as well: where the
PD is in install mode it takes the selector of a handshake block from
whatever frame it finds there, a reply included.  `HearsSelector` is that
frame, and the latch holds in every run in which none arrives.
-/
import LibOsdp.Cp.Proofs.Handshake

namespace LibOsdp

open Lib

-- ============================================================ statements

/-- A PD whose key has worked is not served with SCBK-D. -/
def Latched (p : OsdpPd) : Prop :=
  p.flags.scEstablished = true →
    p.flags.scUseScbkd = false ∧ p.state ≠ .setScbk

/-- The entry is not session keys derived from SCBK-D for PD `i`. -/
def Obs.noDefaultKey (i : Nat) : Obs → Bool
  | .sessionKeys j d _ => !(d && j == i)
  | _ => true

/-- The pass receives no frame that selects SCBK-D for a PD that is not
served with it anyway. -/
def KeepsSelector (env : Env) (i : Nat) (s : Osdp) : Prop :=
  (s.pd i).phyState = .replyWait →
    (s.pd i).flags.scUseScbkd = false → ¬ HearsSelector env i s

/-- What a pass does about SCBK-D: it turns to it only where the handshake
over a key that never worked is to be tried again, and derives no session
keys from it unless it had turned to it before. -/
structure SelectorStep (i : Nat) (s t : Osdp) : Prop where
  raise : (s.pd i).flags.scUseScbkd = false →
    (t.pd i).flags.scUseScbkd = true →
    (s.pd i).state = .scChlng ∧ (s.pd i).flags.scEstablished = false
  keys : (s.pd i).flags.scUseScbkd = false →
    LogExt (Obs.noDefaultKey i) s t
  latch : (s.pd i).flags.scEstablished = true →
    (t.pd i).flags.scEstablished = true
  mode : (t.pd i).flags.installMode = (s.pd i).flags.installMode
  side : (t.pd i).flags.pdMode = (s.pd i).flags.pdMode

-- ========================================================= the exchange

/-- The choice of key is left alone. -/
def SameSelector (i : Nat) (s t : Osdp) : Prop :=
  (t.pd i).flags.scUseScbkd = (s.pd i).flags.scUseScbkd

theorem sameSelector_same {i : Nat} {s t : Osdp} (h : t.pd = s.pd) :
    SameSelector i s t := by
  unfold SameSelector
  rw [h]

theorem sameSelector_updPd {i j : Nat} {s : Osdp} {f : OsdpPd → OsdpPd}
    (h : (f (s.pd j)).flags.scUseScbkd = (s.pd j).flags.scUseScbkd) :
    SameSelector i s (s.updPd j f) := by
  unfold SameSelector
  by_cases e : i = j
  · subst e
    rw [updPd_pd_same]
    exact h
  · rw [updPd_pd_ne s f e]

instance (i : Nat) : BusMoves (SameSelector i) where
  refl _ := rfl
  trans _ _ _ h k := Eq.trans k h
  call s j f h := by
    have e := congrArg (fun p : OsdpPd => p.flags.scUseScbkd) (h (s.pd j))
    exact sameSelector_updPd e
  enable _ _ _ := sameSelector_updPd rfl
  disable _ _ := sameSelector_updPd rfl
  note _ _ _ := sameSelector_same rfl
  running _ _ := sameSelector_same rfl
  entry _ _ _ := sameSelector_same rfl
  txBuf _ _ _ := sameSelector_same rfl
  flush _ := sameSelector_same rfl
  drawn _ _ := sameSelector_same rfl

instance (i : Nat) : MarkMoves i (SameSelector i) where
  mark _ _ _ := sameSelector_same rfl

instance (i : Nat) : CoreMoves i (SameSelector i) where
  core s _ h _ :=
    sameSelector_updPd (congrArg PdCore.scUseScbkd (h (s.pd i)))

instance (i : Nat) : CapMoves i (SameSelector i) where
  caps s _ h := sameSelector_updPd <| by
    have e := congrArg (fun p : OsdpPd => p.flags.scUseScbkd) (h (s.pd i))
    exact e

section Exchange

variable {env : Env} {i depth : Nat} {s t : Osdp} {rc err : Int}

/-- Listening takes the choice of key from a selector block only. -/
theorem sameSelector_processReply (hno : ¬ HearsSelector env i s)
    (h : cpProcessReply env (cpRunCalls env depth) i s = .ok rc t) :
    SameSelector i s t := by
  obtain ⟨code, u, hu, h⟩ := bind_ok.mp h
  have hsu : SameSelector i s u := check_scUseScbkd hu
  refine trans_of _ hsu ?_
  have hreq (r : CpReq) : Keeps (SameSelector i) (makeRequest i r) := by
    intro s a t e
    rw [← updPd_ok.mp e]
    exact sameSelector_updPd rfl
  split at h
  · next hcode =>
    subst hcode
    obtain ⟨⟨len, payload⟩, v, hv, h⟩ := bind_ok.mp h
    obtain ⟨r, hr, -, -, hpd, -, -⟩ := osdpPhyDecodePacket_ok hv
    have huv : SameSelector i u v := by
      unfold SameSelector
      rw [hpd]
      exact (decoded_of hr).scUseScbkd fun hsel => hno ⟨u, hu, hsel⟩
    refine trans_of _ huv ?_
    simp only at h
    split at h
    · obtain ⟨-, rfl⟩ := pure_ok.mp h
      exact refl_of (SameSelector i) _
    · obtain ⟨p, v', hp, h⟩ := bind_ok.mp h
      obtain ⟨rfl, rfl⟩ := getPd_ok.mp hp
      obtain ⟨_, w, hw, h⟩ := bind_ok.mp h
      obtain ⟨ret, x, hx, h⟩ := bind_ok.mp h
      obtain ⟨_, y, hy, h⟩ := bind_ok.mp h
      obtain ⟨-, rfl⟩ := pure_ok.mp h
      rw [← observe_ok.mp hy]
      have hvw : SameSelector i v w := by
        rw [← observe_ok.mp hw]
        exact sameSelector_same rfl
      have hwx : SameSelector i w x :=
        (core_cpDecodeResponse (keeps_cpRunCalls depth) payload).of hx
      exact trans_of _ hvw (trans_of _ hwx (sameSelector_same rfl))
  · split at h
    · obtain ⟨-, rfl⟩ := pure_ok.mp h
      exact refl_of (SameSelector i) _
    · split at h
      · obtain ⟨_, v, hv, h⟩ := bind_ok.mp h
        obtain ⟨-, rfl⟩ := pure_ok.mp h
        rw [← updPd_ok.mp hv]
        exact sameSelector_updPd rfl
      · split at h
        · obtain ⟨p, v, hp, h⟩ := bind_ok.mp h
          obtain ⟨rfl, rfl⟩ := getPd_ok.mp hp
          split at h
          · exact (Keeps.bind (hreq _) fun _ => .pure _).of h
          · split at h
            · exact (Keeps.bind (hreq _) fun _ => .pure _).of h
            · obtain ⟨-, rfl⟩ := pure_ok.mp h
              exact refl_of (SameSelector i) _
        · obtain ⟨-, rfl⟩ := pure_ok.mp h
          exact refl_of (SameSelector i) _

/-- So does every other phase of an exchange, which receives nothing. -/
theorem sameSelector_of_exchange (hno : KeepsSelector env i s)
    (h : cpPhyStateUpdate env (cpRunCalls env depth) i s = .ok err t) :
    SameSelector i s t := by
  by_cases hon : (s.pd i).flags.scUseScbkd = true
  · have hcore : CoreStep (s.pd i) (t.pd i) :=
      (read_cpPhyStateUpdate (R := CoreDown i)
        (keeps_cpRunCalls depth)).of h
    exact (hcore.clear hon).trans hon.symm
  by_cases hne : (s.pd i).phyState = .replyWait
  · obtain ⟨p, v, hp, h⟩ := bind_ok.mp h
    obtain ⟨rfl, rfl⟩ := getPd_ok.mp hp
    rw [hne] at h
    obtain ⟨rc, u, hu, h⟩ := bind_ok.mp h
    obtain ⟨_, v, hv, h⟩ := bind_ok.mp h
    have hsu : SameSelector i s u := 
      sameSelector_processReply (hno hne (by simpa using hon)) hu
    have huv : SameSelector i u v := (core_cpPhyAcknowledge rc).of hv
    have hvt : SameSelector i v t := (core_cpPhyJudge rc).of h
    exact trans_of _ hsu (trans_of _ huv hvt)
  · exact core_cpPhyStateUpdate (keeps_cpRunCalls depth) hne h

theorem noDefaultKey_of_noHs {o : Obs} (h : o.noHs = true) :
    o.noDefaultKey i = true := by
  cases o <;> first | rfl | cases h

theorem noDefaultKey_of_logExt (h : LogExt Obs.noHs s t) :
    LogExt (Obs.noDefaultKey i) s t :=
  h.mono fun _ => noDefaultKey_of_noHs

theorem noDefaultKey_log (h : t.log = s.log) :
    LogExt (Obs.noDefaultKey i) s t := (LogExt.of_eq h)

theorem noDefaultKey_cons {o : Obs} (ho : o.noDefaultKey i = true)
    (h : t.log = o :: s.log) : LogExt (Obs.noDefaultKey i) s t := by
  refine ⟨[o], h, fun x hx => ?_⟩
  rw [List.mem_singleton.mp hx]
  exact ho

/-- Keys are derived from the key that is chosen. -/
theorem noDefaultKey_of_exchange (hno : KeepsSelector env i s)
    (hkey : (s.pd i).flags.scUseScbkd = false)
    (h : ExchangeStep env i s t err) :
    LogExt (Obs.noDefaultKey i) s t := by
  cases h with
  | finished phy eq => exact noDefaultKey_log (by rw [eq])
  | pausing phy next same log herr => exact noDefaultKey_log log
  | building phy out same log =>
    have hbuild : LogExt (Obs.noDefaultKey i) s (s.building i) :=
      noDefaultKey_cons rfl rfl
    exact trans_of _ hbuild (noDefaultKey_of_logExt (noHs_of_logExt log))
  | sending phy out same log =>
    exact noDefaultKey_of_logExt (noHs_of_logExt log)
  | listening phy u v rc heard ack awaits judged same =>
    have hut : LogExt (Obs.noDefaultKey i) u t :=
      noDefaultKey_log (same.log.trans ack.log)
    refine trans_of _ ?_ hut
    cases heard with
    | nothing hsame hp hl hrc =>
      exact noDefaultKey_of_logExt (noHs_of_logExt hl)
    | reply payload w x hears key dec hpd hl =>
      obtain ⟨y, hy, hwl⟩ := hears.log
      have hsw : LogExt (Obs.noDefaultKey i) s w :=
        trans_of _ (noDefaultKey_of_logExt (noHs_of_logExt hy))
          (noDefaultKey_cons rfl hwl)
      have hwx : LogExt (Obs.noDefaultKey i) w x := by
        rcases dec.ccrypt with ⟨hq, -⟩ | ⟨-, hk⟩
        · exact noDefaultKey_of_logExt (noHs_of_logExt hq)
        · refine noDefaultKey_cons ?_ hk.log
          rw [key (hno phy hkey), hkey]
          rfl
      exact trans_of _ hsw (trans_of _ hwx (noDefaultKey_cons rfl hl))

end Exchange

-- ============================================================ the advance

section Advance

variable {env : Env} {i depth : Nat} {s t : Osdp} {err : Int}

/-- The default key is turned to after a handshake over the installed one
failed that had never worked. -/
theorem effects_scUseScbkd {c : PdCtl} {cur next : CpState} {key : Bytes}
    (h : (c.effects cur next err key).scUseScbkd = true) :
    c.scUseScbkd = true ∨
      cur = .scChlng ∧ err ≠ cpErrNone ∧ next = .scChlng := by
  unfold PdCtl.effects PdCtl.okEffects PdCtl.errEffects PdCtl.keyset at h
  cases cur <;> simp only at h <;> (repeat' split at h) <;> simp_all

/-- The latch is set with the end of a handshake, and never taken back. -/
theorem effects_scEstablished {c : PdCtl} {cur next : CpState}
    {key : Bytes} :
    (c.effects cur next err key).scEstablished
      = (c.scEstablished ||
        decide (cur = .scScrypt ∧ err = cpErrNone ∧ next ≠ .setScbk)) := by
  unfold PdCtl.effects PdCtl.okEffects PdCtl.errEffects PdCtl.keyset
  cases cur <;> simp only <;> (repeat' split) <;> simp_all

theorem effects_installMode {c : PdCtl} {cur next : CpState} {key : Bytes} :
    (c.effects cur next err key).installMode = c.installMode := by
  unfold PdCtl.effects PdCtl.okEffects PdCtl.errEffects PdCtl.keyset
  cases cur <;> simp only <;> (repeat' split) <;> rfl

/-- The table leads to SET_SCBK only from a handshake over SCBK-D, and
from SC_CHLNG back to it only where no handshake ever worked. -/
theorem nextState_key {now : Int} {p : OsdpPd} {row : CpState}
    (h : nextState err now p = some row) :
    (row = .setScbk → p.flags.scUseScbkd = true) ∧
      (p.state = .scScrypt → err = cpErrNone → row ≠ .setScbk →
        p.flags.scUseScbkd = false) ∧
      (p.state = .scChlng → err ≠ cpErrNone → row = .scChlng →
        p.flags.scEstablished = false) := by
  unfold nextState at h
  split at h
  · next he =>
    unfold getNextOkState at h
    cases hst : p.state <;> rw [hst] at h <;> simp only at h <;>
      (repeat' split at h) <;> cases h <;> simp_all
  · next he =>
    unfold getNextErrState at h
    cases hst : p.state <;> rw [hst] at h <;> simp only at h <;>
      (repeat' split at h) <;> cases h <;> simp_all

/-- What the table's effects do about SCBK-D. -/
structure RowStep (p : OsdpPd) (c : PdCtl) (row : CpState) : Prop where
  raise : p.flags.scUseScbkd = false → c.scUseScbkd = true →
    p.state = .scChlng ∧ p.flags.scEstablished = false
  latch : p.flags.scEstablished = true → c.scEstablished = true
  latched : Latched p → c.scEstablished = true →
    c.scUseScbkd = false ∧ row ≠ .setScbk
  mode : c.installMode = p.flags.installMode
  side : c.pdMode = p.flags.pdMode

theorem rowStep_of_nextState {row : CpState} {key : Bytes} {p : OsdpPd}
    {now : Int} (h : nextState err now p = some row) :
    RowStep p (p.ctl.effects p.state row err key) row := by
  obtain ⟨hset, hscrypt, hchlng⟩ := nextState_key h
  have hraise (hu : p.flags.scUseScbkd = false)
      (hc : (p.ctl.effects p.state row err key).scUseScbkd = true) :
      p.state = .scChlng ∧ p.flags.scEstablished = false := by
    rcases effects_scUseScbkd hc with hc | ⟨hst, he, hrow⟩
    · exact (Bool.false_ne_true (hu.symm.trans hc)).elim
    · exact ⟨hst, hchlng hst he hrow⟩
  refine ⟨hraise, fun he => ?_, fun hl he => ?_, effects_installMode,
    effects_pdMode _ _ _ _ _⟩
  · rw [effects_scEstablished]
    show (p.flags.scEstablished || _) = true
    rw [he]
    rfl
  · rw [effects_scEstablished] at he
    have he : (p.flags.scEstablished || decide (p.state = .scScrypt ∧
      err = cpErrNone ∧ row ≠ .setScbk)) = true := he
    simp only [Bool.or_eq_true, decide_eq_true_eq] at he
    have hoff : p.flags.scUseScbkd = false := by
      rcases he with he | ⟨hst, hok, hrow⟩
      · exact (hl he).1
      · exact hscrypt hst hok hrow
    refine ⟨?_, fun hrow => ?_⟩
    · cases hc : (p.ctl.effects p.state row err key).scUseScbkd with
      | false => rfl
      | true =>
        obtain ⟨hst, hnever⟩ := hraise hoff hc
        rcases he with he | ⟨hst', -, -⟩
        · exact (Bool.false_ne_true (hnever.symm.trans he)).elim
        · rw [hst] at hst'
          cases hst'
    · exact Bool.false_ne_true (hoff.symm.trans (hset hrow))

/-- The same of the state that is chosen in the end. -/
theorem rowStep_of_chosen {next : CpState} (h : Chosen i err s t next) :
    RowStep (s.pd i) (t.pd i).ctl next := by
  have hstay {next : CpState} (c : PdCtl) (hne : next ≠ .setScbk)
      (hu : c.scUseScbkd = (s.pd i).flags.scUseScbkd)
      (he : c.scEstablished = (s.pd i).flags.scEstablished)
      (hm : c.installMode = (s.pd i).flags.installMode)
      (hd : c.pdMode = (s.pd i).flags.pdMode) :
      RowStep (s.pd i) c next := by
    refine ⟨fun h₁ h₂ => ?_, fun h₁ => he.trans h₁, fun hl h₁ =>
      ⟨hu.trans (hl (he.symm.trans h₁)).1, hne⟩, hm, hd⟩
    rw [hu, h₁] at h₂
    cases h₂
  cases h with
  | reset steers log =>
    rw [steers.ctl]
    exact hstay _ nofun rfl rfl rfl rfl
  | trs cur dest steers log =>
    rw [steers.ctl]
    refine hstay _ ?_ rfl rfl rfl rfl
    rcases dest with e | e <;> rw [e] <;> nofun
  | table key off row steers log =>
    rw [steers.ctl]
    exact rowStep_of_nextState row
  | online row key on row_ok steers log dest =>
    rw [steers.ctl]
    obtain ⟨h₁, h₂, h₃, h₄, h₅⟩ : RowStep (s.pd i)
        ((s.pd i).ctl.effects (s.pd i).state row err key) row :=
      rowStep_of_nextState row_ok
    refine ⟨h₁, h₂, fun hl he => ⟨(h₃ hl he).1, ?_⟩, h₄, h₅⟩
    rcases dest with e | e | ⟨-, e⟩ | ⟨-, e⟩
    · rw [e]; nofun
    · rw [e]; nofun
    · rw [e]; nofun
    · rw [e]
      exact (h₃ hl he).2

theorem EffectLog.noDefaultKey {cur : CpState}
    (h : EffectLog i cur err s t) : LogExt (Obs.noDefaultKey i) s t := by
  unfold EffectLog at h
  split at h
  · obtain ⟨v, w, hv, hw, ht⟩ := h.log
    exact trans_of _ (noDefaultKey_of_logExt hv)
      (trans_of _ (noDefaultKey_cons rfl hw) (noDefaultKey_of_logExt ht))
  · exact noDefaultKey_of_logExt h

theorem Chosen.noDefaultKey {next : CpState} (h : Chosen i err s t next) :
    LogExt (Obs.noDefaultKey i) s t := by
  cases h with
  | reset steers log => exact noDefaultKey_of_logExt log
  | trs cur dest steers log => exact noDefaultKey_of_logExt log
  | table key off row steers log => exact log.noDefaultKey
  | online row key on row_ok steers log dest => exact log.noDefaultKey

theorem EnterLog.noDefaultKey {next : CpState} {r : Bytes}
    (h : EnterLog i next r s t) : LogExt (Obs.noDefaultKey i) s t := by
  unfold EnterLog at h
  split at h
  · obtain ⟨n, l, hl, hE⟩ := h
    refine ⟨l ++ [.challenged i r, .random n r], by rw [hl]; simp,
      fun o ho => ?_⟩
    rcases List.mem_append.mp ho with ho | ho
    · exact noDefaultKey_of_noHs (hE o ho)
    · simp only [List.mem_cons, List.not_mem_nil, or_false] at ho
      rcases ho with rfl | rfl <;> rfl
  · exact noDefaultKey_of_logExt h

/-- Entering a state has no part in the choice of key. -/
theorem enter_selector (c : PdCtl) (next : CpState) (r : Bytes) :
    (c.enter next r).scUseScbkd = c.scUseScbkd ∧
      (c.enter next r).scEstablished = c.scEstablished ∧
      (c.enter next r).installMode = c.installMode ∧
      (c.enter next r).pdMode = c.pdMode := by
  cases next <;> exact ⟨rfl, rfl, rfl, rfl⟩

/-- What the end of a pass does about SCBK-D. -/
theorem Advances.selector (h : Advances i err s t) :
    SelectorStep i s t ∧ (Latched (s.pd i) → Latched (t.pd i)) := by
  obtain ⟨next, next', u, v, hch, hlive, hend⟩ := h.run
  have hrow := rowStep_of_chosen hch
  have hsv : LogExt (Obs.noDefaultKey i) s v :=
    trans_of _ hch.noDefaultKey (noDefaultKey_log hlive.log)
  have hnext : next' = .setScbk → next = .setScbk := by
    intro e
    rcases hlive.dest with ⟨-, hn⟩ | ⟨-, hn | hn⟩
    · rw [hn] at e; cases e
    · rw [← hn, e]
    · rw [hn] at e; cases e
  -- the flags are those the table's effects left
  have hflags : (t.pd i).flags.scUseScbkd = (u.pd i).ctl.scUseScbkd ∧
      (t.pd i).flags.scEstablished = (u.pd i).ctl.scEstablished ∧
      (t.pd i).state = next' ∧
      (t.pd i).flags.installMode = (u.pd i).ctl.installMode ∧
      (t.pd i).flags.pdMode = (u.pd i).ctl.pdMode ∧
      LogExt (Obs.noDefaultKey i) v t := by
    rcases hend with ⟨hst, hsame⟩ | ⟨-, r, hchg⟩
    · have hc : (t.pd i).ctl = (u.pd i).ctl :=
        hsame.steers.ctl.trans hlive.ctl
      have hus : (u.pd i).state = (s.pd i).state := by
        obtain ⟨c, hc⟩ := hch.steers
        exact hc.state
      exact ⟨congrArg PdCtl.scUseScbkd hc, congrArg PdCtl.scEstablished hc,
        (congrArg PdCtl.state hc).trans (hus.trans hst),
        congrArg PdCtl.installMode hc, congrArg PdCtl.pdMode hc,
        noDefaultKey_of_logExt hsame.log⟩
    · have hc := hchg.ctl
      rw [hlive.ctl] at hc
      obtain ⟨h₁, h₂, h₃, h₄⟩ := enter_selector (u.pd i).ctl next' r
      exact ⟨(congrArg PdCtl.scUseScbkd hc).trans h₁,
        (congrArg PdCtl.scEstablished hc).trans h₂,
        congrArg PdCtl.state hc, (congrArg PdCtl.installMode hc).trans h₃,
        (congrArg PdCtl.pdMode hc).trans h₄, hchg.log.noDefaultKey⟩
  obtain ⟨huse, hest, hstate, hmode, hside, hvt⟩ := hflags
  refine ⟨⟨fun h₁ h₂ => hrow.raise h₁ (huse.symm.trans h₂),
    fun _ => trans_of _ hsv hvt, fun he => hest.trans (hrow.latch he),
    hmode.trans hrow.mode, hside.trans hrow.side⟩, fun hl he => ?_⟩
  obtain ⟨h₁, h₂⟩ := hrow.latched hl (hest.symm.trans he)
  exact ⟨huse.trans h₁, fun e => h₂ (hnext (hstate.symm.trans e))⟩

/-- Steps that leave flags and state alone do nothing about it. -/
theorem SelectorStep.of_same (hu : SameSelector i s t)
    (he : (t.pd i).flags.scEstablished = (s.pd i).flags.scEstablished)
    (hm : (t.pd i).flags.installMode = (s.pd i).flags.installMode)
    (hd : (t.pd i).flags.pdMode = (s.pd i).flags.pdMode)
    (hl : (s.pd i).flags.scUseScbkd = false →
      LogExt (Obs.noDefaultKey i) s t) : SelectorStep i s t := by
  have hu : (t.pd i).flags.scUseScbkd = (s.pd i).flags.scUseScbkd := hu
  refine ⟨fun h₁ h₂ => ?_, hl, fun h => he.trans h, hm, hd⟩
  rw [hu, h₁] at h₂
  cases h₂

/-- One step after another, as long as the first does not raise the flag
and changes neither state nor latch. -/
theorem SelectorStep.after {u : Osdp}
    (hst : (t.pd i).state = (s.pd i).state)
    (he : (t.pd i).flags.scEstablished = (s.pd i).flags.scEstablished)
    (hu : (s.pd i).flags.scUseScbkd = false →
      (t.pd i).flags.scUseScbkd = false)
    (hm : (t.pd i).flags.installMode = (s.pd i).flags.installMode)
    (hd : (t.pd i).flags.pdMode = (s.pd i).flags.pdMode)
    (hl : (s.pd i).flags.scUseScbkd = false →
      LogExt (Obs.noDefaultKey i) s t)
    (h : SelectorStep i t u) : SelectorStep i s u := by
  refine ⟨fun h₁ h₂ => ?_, fun h₁ => ?_, fun h₁ => h.latch (he.trans h₁),
    h.mode.trans hm, h.side.trans hd⟩
  · rw [← hst, ← he]
    exact h.raise (hu h₁) h₂
  · exact trans_of _ (hl h₁) (h.keys (hu h₁))

theorem latched_of {p q : OsdpPd} (h : Latched p)
    (hu : p.flags.scUseScbkd = false → q.flags.scUseScbkd = false)
    (he : q.flags.scEstablished = p.flags.scEstablished)
    (hst : q.state = p.state) : Latched q := by
  intro hq
  obtain ⟨h₁, h₂⟩ := h (he.symm.trans hq)
  exact ⟨hu h₁, hst ▸ h₂⟩

/-- What settling an exchange does about it. -/
theorem Settled.selector {err' : Int} (h : Settled i err err' s t) :
    ((s.pd i).flags.scUseScbkd = false →
        (t.pd i).flags.scUseScbkd = false) ∧
      (t.pd i).flags.scEstablished = (s.pd i).flags.scEstablished ∧
      (t.pd i).flags.pdMode = (s.pd i).flags.pdMode ∧
      (t.pd i).flags.installMode = (s.pd i).flags.installMode := by
  obtain ⟨c, hc, hj⟩ := h.ctl
  have h₁ : (t.pd i).flags.scUseScbkd = c.scUseScbkd :=
    congrArg PdCtl.scUseScbkd hc.ctl
  have h₂ : (t.pd i).flags.scEstablished = c.scEstablished :=
    congrArg PdCtl.scEstablished hc.ctl
  have h₃ : (t.pd i).flags.pdMode = c.pdMode := congrArg PdCtl.pdMode hc.ctl
  have h₄ : (t.pd i).flags.installMode = c.installMode :=
    congrArg PdCtl.installMode hc.ctl
  rw [h₁, h₂, h₃, h₄]
  rcases hj with hj | ⟨-, -, -, key, hj⟩ <;> rw [hj]
  · exact ⟨id, rfl, rfl, rfl⟩
  · exact ⟨fun _ => rfl, rfl, rfl, rfl⟩

/-- Nor does the choice of a command. -/
theorem Kicked.selector {b : Bool} (h : Kicked i b s t) :
    SameSelector i s t ∧
      (t.pd i).flags.scEstablished = (s.pd i).flags.scEstablished ∧
      (t.pd i).state = (s.pd i).state ∧
      (t.pd i).flags.pdMode = (s.pd i).flags.pdMode ∧
      (t.pd i).flags.installMode = (s.pd i).flags.installMode ∧
      LogExt (Obs.noDefaultKey i) s t := by
  obtain ⟨id, u, hp, hlog, -, hk⟩ := h.pick
  have hl : LogExt (Obs.noDefaultKey i) s t :=
    trans_of _ (noDefaultKey_of_logExt hp.log) (noDefaultKey_log hlog)
  have hu : ∃ c : PdCtl, (t.pd i).ctl = c ∧
      c.scUseScbkd = (u.pd i).ctl.scUseScbkd ∧
      c.scEstablished = (u.pd i).ctl.scEstablished ∧
      c.state = (u.pd i).ctl.state ∧ c.pdMode = (u.pd i).ctl.pdMode ∧
      c.installMode = (u.pd i).ctl.installMode := by
    rcases hk with ⟨-, -, hk⟩ | ⟨-, -, hk⟩
    · exact ⟨_, hk.ctl, rfl, rfl, rfl, rfl, rfl⟩
    · exact ⟨_, hk.ctl, rfl, rfl, rfl, rfl, rfl⟩
  obtain ⟨c, hc, h₁, h₂, h₃, h₄, h₅⟩ := hu
  have k₁ : (u.pd i).ctl.scUseScbkd = (s.pd i).flags.scUseScbkd :=
    congrArg PdCtl.scUseScbkd hp.ctl
  have k₂ : (u.pd i).ctl.scEstablished = (s.pd i).flags.scEstablished :=
    congrArg PdCtl.scEstablished hp.ctl
  have k₃ : (u.pd i).ctl.state = (s.pd i).state :=
    congrArg PdCtl.state hp.ctl
  have k₄ : (u.pd i).ctl.pdMode = (s.pd i).flags.pdMode :=
    congrArg PdCtl.pdMode hp.ctl
  have k₅ : (u.pd i).ctl.installMode = (s.pd i).flags.installMode :=
    congrArg PdCtl.installMode hp.ctl
  exact ⟨(congrArg PdCtl.scUseScbkd hc).trans (h₁.trans k₁),
    (congrArg PdCtl.scEstablished hc).trans (h₂.trans k₂),
    (congrArg PdCtl.state hc).trans (h₃.trans k₃),
    (congrArg PdCtl.pdMode hc).trans (h₄.trans k₄),
    (congrArg PdCtl.installMode hc).trans (h₅.trans k₅), hl⟩

/-- From the end of an exchange to the end of the pass. -/
theorem selector_of_proceed (hmode : (s.pd i).flags.pdMode = false)
    (e : cpProceed env (cpRunCalls env depth) i (s.pd i).state s
      = .ok () t) :
    SelectorStep i s t ∧ (Latched (s.pd i) → Latched (t.pd i)) := by
  have hadv {err : Int} {u : Osdp}
      (hu : (s.pd i).flags.scUseScbkd = false →
        (u.pd i).flags.scUseScbkd = false)
      (he : (u.pd i).flags.scEstablished = (s.pd i).flags.scEstablished)
      (hm : (u.pd i).flags.pdMode = (s.pd i).flags.pdMode)
      (hi : (u.pd i).flags.installMode = (s.pd i).flags.installMode)
      (hst : (u.pd i).state = (s.pd i).state)
      (hl : LogExt (Obs.noDefaultKey i) s u)
      (e : cpAdvance env (cpRunCalls env depth) i (s.pd i).state err u
        = .ok () t) :
      SelectorStep i s t ∧ (Latched (s.pd i) → Latched (t.pd i)) := by
    rw [← hst] at e
    obtain ⟨hstep, hlat⟩ := (advance_ok (hm.trans hmode) e).selector
    exact ⟨.after hst he hu hi hm (fun _ => hl) hstep,
      fun h => hlat (latched_of h hu he hst)⟩
  have hsettle {err₀ : Int}
      (e : (do
        let err ← cpSettle env (cpRunCalls env depth) i err₀
        cpAdvance env (cpRunCalls env depth) i (s.pd i).state err) s
        = .ok () t) :
      SelectorStep i s t ∧ (Latched (s.pd i) → Latched (t.pd i)) := by
    obtain ⟨err', u, hu, e⟩ := bind_ok.mp e
    have hset := settle_ok hu
    obtain ⟨h₁, h₂, h₃, h₄⟩ := hset.selector
    obtain ⟨c, hc, -⟩ := hset.ctl
    exact hadv h₁ h₂ h₃ h₄ hc.state (noDefaultKey_of_logExt hset.log) e
  obtain ⟨p, v, hp, e⟩ := bind_ok.mp e
  obtain ⟨rfl, rfl⟩ := getPd_ok.mp hp
  cases hphy : (s.pd i).phyState with
  | idle =>
    rw [hphy] at e
    obtain ⟨b, u, hu, e⟩ := bind_ok.mp e
    obtain ⟨h₁, h₂, h₃, h₄, h₅, hl⟩ := (kick_ok hu).selector
    have h₁ : (u.pd i).flags.scUseScbkd = (s.pd i).flags.scUseScbkd := h₁
    cases b with
    | true =>
      obtain ⟨-, rfl⟩ := pure_ok.mp e
      exact ⟨.of_same h₁ h₂ h₅ h₄ fun _ => hl,
        fun h => latched_of h (fun k => h₁.trans k) h₂ h₃⟩
    | false => exact hadv (fun k => h₁.trans k) h₂ h₄ h₅ h₃ hl e
  | done => rw [hphy] at e; exact hsettle e
  | err => rw [hphy] at e; exact hsettle e
  | sendCmd | sendCmdWait | replyWait | wait | retryCmd =>
    rw [hphy] at e
    exact absurd e throw_ok

/-- A pass that receives no selector. -/
theorem selector_of_pass (hmode : (s.pd i).flags.pdMode = false)
    (hno : KeepsSelector env i s)
    (e : stateUpdate env (cpRunCalls env depth) i s = .ok () t) :
    SelectorStep i s t ∧ (Latched (s.pd i) → Latched (t.pd i)) := by
  have hexch {err : Int} {u : Osdp}
      (hu : cpPhyStateUpdate env (cpRunCalls env depth) i s = .ok err u) :
      CoreStep (s.pd i) (u.pd i) ∧
      (u.pd i).flags.scUseScbkd = (s.pd i).flags.scUseScbkd ∧
      (u.pd i).flags.scEstablished = (s.pd i).flags.scEstablished ∧
      ((s.pd i).flags.scUseScbkd = false →
        LogExt (Obs.noDefaultKey i) s u) := by
    have hcore : CoreStep (s.pd i) (u.pd i) :=
      (read_cpPhyStateUpdate (R := CoreDown i)
        (keeps_cpRunCalls depth)).of hu
    exact ⟨hcore, sameSelector_of_exchange hno hu,
      congrArg PdCore.scEstablished hcore.core,
      fun hk => noDefaultKey_of_exchange hno hk (exchange_ok hu)⟩
  rcases stateUpdate_ok e with ⟨err, hrun, hu, he⟩ |
    ⟨err, u, hrun, hu, he, hp⟩ | ⟨hrun, hp⟩
  · obtain ⟨hcore, h₁, h₂, hl⟩ := hexch hu
    exact ⟨.of_same h₁ h₂ hcore.installMode hcore.pdMode hl,
      fun h => latched_of h (fun k => h₁.trans k) h₂ hcore.state⟩
  · obtain ⟨hcore, h₁, h₂, hl⟩ := hexch hu
    rw [← hcore.state] at hp
    obtain ⟨hstep, hlat⟩ :=
      selector_of_proceed (hcore.pdMode.trans hmode) hp
    exact ⟨.after hcore.state h₂ (fun k => h₁.trans k) hcore.installMode
        hcore.pdMode hl hstep,
      fun h => hlat (latched_of h (fun k => h₁.trans k) h₂ hcore.state)⟩
  · exact selector_of_proceed hmode hp

end Advance

-- =============================================================== results

section Results

variable {env : Env} {depth i : Nat} {s t : Osdp}

/-- What is kept of a PD throughout a run. -/
def LatchInv (p : OsdpPd) (_ : List Obs) : Prop :=
  Latched p ∧ p.flags.pdMode = false

theorem latchInv_invariant (env : Env) (depth i : Nat) :
    DeviceInvariant env depth i LatchInv LatchInv (KeepsSelector env i) where
  blank _ _ := ⟨nofun, rfl⟩
  setup _ _ _ := ⟨nofun, rfl⟩
  aside p q _ _ h hc _ := by
    have hctl : q.ctl = p.ctl := hc.frameStep.ctl
    exact ⟨latched_of h.1 (fun k => (congrArg PdCtl.scUseScbkd hctl).trans k)
      (congrArg PdCtl.scEstablished hctl) hc.state,
      (congrArg PdCtl.pdMode hctl).trans h.2⟩
  pass s t h hg e := by
    obtain ⟨hstep, hlat⟩ := selector_of_pass h.2 hg e
    exact ⟨hlat h.1, hstep.side.trans h.2⟩
  weaken _ _ h := h
  weakAside p q _ _ h hc _ := by
    have hctl : q.ctl = p.ctl := hc.frameStep.ctl
    exact ⟨latched_of h.1 (fun k => (congrArg PdCtl.scUseScbkd hctl).trans k)
      (congrArg PdCtl.scEstablished hctl) hc.state,
      (congrArg PdCtl.pdMode hctl).trans h.2⟩
  weakTeardown _ _ h := h

/-- What a call leaves of the flags. -/
theorem CallStep.flags {p q : OsdpPd} (h : CallStep p q) :
    q.flags.scEstablished = p.flags.scEstablished :=
  congrArg PdCtl.scEstablished h.frameStep.ctl

/-- A PD whose key has worked since `past`, and what has been derived from
SCBK-D since. -/
def KeyWorks (i : Nat) (past : List Obs) (p : OsdpPd) (log : List Obs) :
    Prop :=
  p.flags.scEstablished = true ∧
    ∃ l, log = l ++ past ∧ ∀ o ∈ l, o.noDefaultKey i = true

theorem noDefaultKey_of_other {o : Obs} (h : o.markOf ≠ some i) :
    o.noDefaultKey i = true := by
  cases o with
  | sessionKeys j d =>
    have hj : j ≠ i := fun e => h (congrArg some e)
    simp [Obs.noDefaultKey, hj]
  | _ => rfl

theorem keyWorks_stays (env : Env) (depth i : Nat) (past : List Obs) :
    DeviceStays env depth i LatchInv (KeyWorks i past)
      (KeepsSelector env i) where
  aside p q l log h hc hl := by
    obtain ⟨he, m, rfl, hm⟩ := h
    refine ⟨hc.flags.trans he, l ++ m, (List.append_assoc l m past).symm,
      fun o ho => ?_⟩
    rcases List.mem_append.mp ho with ho | ho
    · exact noDefaultKey_of_other (hl o ho)
    · exact hm o ho
  teardown _ _ h := h
  pass s t hJ h hg e := by
    obtain ⟨he, m, hlog, hm⟩ := h
    have hstep := (selector_of_pass hJ.2 hg e).1
    obtain ⟨l, hl, hE⟩ := hstep.keys (hJ.1 he).1
    refine ⟨hstep.latch he, l ++ m, ?_, fun o ho => ?_⟩
    · rw [hl, hlog, List.append_assoc]
    · rcases List.mem_append.mp ho with ho | ho
      · exact hE o ho
      · exact hm o ho

/-- The key of a PD works only once passes have been made. -/
theorem keyUntried_invariant (env : Env) (depth i : Nat) :
    CpInvariant env depth fun s =>
      s.isSealed = false → (s.pd i).flags.scEstablished = false :=
  fresh_invariant (N := fun p _ => p.flags.scEstablished = false)
    ⟨fun _ _ _ _ h hc _ => hc.flags.trans h, fun _ _ h => h⟩
    fun _ _ => rfl

/-- The latch of PD `i`: its key has worked, it is not served with SCBK-D,
and no session keys have been derived from that since `past`. -/
structure LatchedSince (i : Nat) (past : List Obs) (s : Osdp) : Prop where
  established : (s.pd i).flags.scEstablished = true
  useScbkd : (s.pd i).flags.scUseScbkd = false
  selector : keySelector (s.pd i) = 1
  state : (s.pd i).state ≠ .setScbk
  keys : ∃ l, s.log = l ++ past ∧ ∀ o ∈ l, o.noDefaultKey i = true

theorem LatchedSince.of {past : List Obs}
    (h : DeviceNow i LatchInv LatchInv (KeyWorks i past) s) :
    LatchedSince i past s := by
  obtain ⟨huse, hst⟩ := h.inv.always.1 h.now.1
  refine ⟨h.now.1, huse, ?_, hst, h.now.2⟩
  unfold keySelector
  rw [huse]
  rfl

/-- SCBK-D is turned to by the retry of a handshake over a key that never
worked, and by nothing else. -/
def RaisedByRetry (i : Nat) (v w : Osdp) : Prop :=
  (v.pd i).flags.scUseScbkd = false → (w.pd i).flags.scUseScbkd = true →
    (v.pd i).state = .scChlng ∧ (v.pd i).flags.scEstablished = false

/-- Where no pass on PD `i` receives a frame that selects SCBK-D, the
latch holds.  In every state reached, only the retry of a handshake over a
key that never worked turns PD_FLAG_SC_USE_SCBKD on; and from the moment
PD_FLAG_SC_ESTABLISHED is set, however the run goes on, and before and after
every pass of a refresh, the CP does not use SCBK-D, chooses the installed
key in CMD_CHLNG and CMD_SCRYPT, stays out of SET_SCBK and derives no
session keys from SCBK-D. -/
theorem cp_scbkd_latch (env : Env) (depth : Nat)
    (ok : Osdp → CpInput → Bool) (infos : List CpPdInfo) (s t u : Osdp)
    (l m : List CpInput) (i : Nat) (hs : osdpCpSetup env infos = some s)
    (hbefore : CpRun env depth ok s l t)
    (hafter : CpRun env depth ok t m u)
    (hok : ∀ v x, ok v x = true →
      PassesMeet env depth
        (fun w => w.currentPd = i → KeepsSelector env i w) v x) :
    (∀ now rx v w, ok t (.refresh now rx) = true →
      RefreshPass env depth t now rx v w → RaisedByRetry i v w) ∧
    ((t.pd i).flags.scEstablished = true →
      LatchedSince i t.log u ∧
        ∀ now rx v w, ok u (.refresh now rx) = true →
          RefreshPass env depth u now rx v w →
            LatchedSince i t.log v ∧ LatchedSince i t.log w) := by
  have hd := latchInv_invariant env depth i
  have ht : DeviceInv i LatchInv LatchInv t :=
    hd.invariant_of.run_of hbefore hok (hd.start hs)
  refine ⟨fun now rx v w hgo hp => ?_, fun hworks => ?_⟩
  · obtain ⟨⟨hv, hlive⟩, e, -⟩ :=
      hd.invariant_of.refreshPass_of ht (hok t _ hgo) hp
    by_cases hi : v.currentPd = i
    · have hgv := hok t _ hgo v w hp hi
      rw [hi] at e
      exact (selector_of_pass (hv.alive hlive.2).2 hgv e).1.raise
    · have ho := ((others_stateUpdate v.currentPd).of e).pd i (Ne.symm hi)
      intro hoff hon
      have hsame : (w.pd i).flags.scUseScbkd = (v.pd i).flags.scUseScbkd :=
        congrArg PdCtl.scUseScbkd ho.frameStep.ctl
      rw [hsame, hoff] at hon
      cases hon
  · have hsealed : t.isSealed = true := by
      have hopen : s.isSealed = false →
          (s.pd i).flags.scEstablished = false := fun _ => by
        rcases osdpCpSetup_pd hs i with e | ⟨info, e⟩
        · rw [e]
        · rw [e]; rfl
      have huntried := (keyUntried_invariant env depth i).run hbefore hopen
      cases hc : t.isSealed with
      | true => rfl
      | false =>
        have hno := huntried hc
        rw [hworks] at hno
        cases hno
    have hnow := (keyWorks_stays env depth i t.log).invariant_of hd
    have hstart : DeviceNow i LatchInv LatchInv (KeyWorks i t.log) t :=
      ⟨ht, ⟨hworks, LogExt.of_eq rfl⟩, hsealed⟩
    have hu := hnow.run_of hafter hok hstart
    refine ⟨.of hu, fun now rx v w hgo hp => ?_⟩
    obtain ⟨⟨hv, -⟩, -, hw⟩ := hnow.refreshPass_of hu (hok u _ hgo) hp
    exact ⟨.of hv, .of hw⟩

end Results

-- ========================================================= install mode

/-- A CP that has not been set up in install mode takes no selector from
the wire. -/
theorem keepsSelector_of_installMode {env : Env} {i : Nat} {s : Osdp}
    (h : (s.pd i).flags.installMode = false) : KeepsSelector env i s := by
  rintro - - ⟨w, hw, -, hsel⟩
  have hcore : CoreStep (s.pd i) (w.pd i) :=
    (read_osdpPhyCheckPacket (R := CoreDown i)).of hw
  have hoff : (w.pd i).flags.installMode = false :=
    hcore.installMode.trans h
  simp [selectsScbkd, hoff] at hsel

/-- Nor does it in any later pass of the refresh. -/
theorem passesMeet_of_installMode (env : Env) (depth i : Nat) {s : Osdp}
    (hmode : (s.pd i).flags.installMode = false)
    (hside : (s.pd i).flags.pdMode = false) (x : CpInput) :
    PassesMeet env depth
      (fun u => u.currentPd = i → KeepsSelector env i u) s x := by
  have hpass (u v : Osdp)
      (hu : (u.pd i).flags.installMode = false ∧
        (u.pd i).flags.pdMode = false)
      (e : stateUpdate env (cpRunCalls env depth) u.currentPd u
        = .ok () v) :
      (v.pd i).flags.installMode = false ∧
        (v.pd i).flags.pdMode = false := by
    by_cases hi : u.currentPd = i
    · rw [hi] at e
      have hstep :=
        (selector_of_pass hu.2 (keepsSelector_of_installMode hu.1) e).1
      exact ⟨hstep.mode.trans hu.1, hstep.side.trans hu.2⟩
    · have ho := ((others_stateUpdate u.currentPd).of e).pd i (Ne.symm hi)
      have hctl := ho.frameStep.ctl
      exact ⟨(congrArg PdCtl.installMode hctl).trans hu.1,
        (congrArg PdCtl.pdMode hctl).trans hu.2⟩
  cases x with
  | refresh now rx =>
    rintro u v ⟨-, -, hp⟩ -
    have hstart : ((s.beginRefresh now rx).pd i).flags.installMode = false ∧
        ((s.beginRefresh now rx).pd i).flags.pdMode = false :=
      ⟨hmode, hside⟩
    have hu := LoopPass.invariant env (cpRunCalls env depth)
      (I := fun u => (u.pd i).flags.installMode = false ∧
        (u.pd i).flags.pdMode = false) (G := fun _ => True)
      (fun u v hu _ e => hpass u v hu e) (fun _ _ h _ _ => h)
      (fun _ _ => currentPd_stateUpdate) hstart (fun _ _ _ => trivial) hp
    exact keepsSelector_of_installMode hu.1.1
  | _ => trivial

/-- The inputs of a CP whose PD 0 is not in install mode. -/
def noInstallInput (s : Osdp) (_ : CpInput) : Bool :=
  !(s.pd 0).flags.installMode && !(s.pd 0).flags.pdMode

/-- What follows the handshake: the PD falls silent on a POLL, and the
link is set up anew as far as the next challenge. -/
def relapseReplies : List CpInput :=
  [.refresh 140 [], .refresh 190 [],
   .refresh 200 (writeBe 9 0xFF5381080006406A60),
   .refresh 210 [], .refresh 302000 [], .refresh 302001 [],
   .refresh 302002 [],
   .refresh 302010 (writeBe 21 0xFF538114000445000000000000000000000000235B),
   .refresh 302011 [], .refresh 302012 [],
   .refresh 302020 (writeBe 12 0xFF53810B000546090101C2D3),
   .refresh 302022 [], .refresh 302072 []]

/-- The latch of a PD whose handshake is completed, after the link was
lost. -/
theorem cp_scbkd_latch_relapse :
    ∃ s t u, osdpCpSetup keyedCpEnv [keyedCpPd] = some s ∧
      CpRun keyedCpEnv 1 noInstallInput s keyedCpReplies t ∧
      CpRun keyedCpEnv 1 noInstallInput t relapseReplies u ∧
      ((t.pd 0).flags.scEstablished = true ∧ (u.pd 0).state = .scChlng) ∧
      LatchedSince 0 t.log u := by
  obtain ⟨s, t, u, hs, hbefore, hafter, hworks, hst⟩ :=
    runs_of_setup (cpStep keyedCpEnv 1) noInstallInput noInstallInput
      (osdpCpSetup keyedCpEnv [keyedCpPd]) keyedCpReplies relapseReplies
      (fun _ t u => (t.pd 0).flags.scEstablished = true ∧
        (u.pd 0).state = .scChlng) (by decide +kernel)
  have hok (v : Osdp) (x : CpInput) (hx : noInstallInput v x = true) :
      PassesMeet keyedCpEnv 1
        (fun w => w.currentPd = 0 → KeepsSelector keyedCpEnv 0 w) v x := by
    simp only [noInstallInput, Bool.and_eq_true, Bool.not_eq_true'] at hx
    exact passesMeet_of_installMode keyedCpEnv 1 0 hx.1 hx.2 x
  exact ⟨s, t, u, hs, hbefore, hafter, ⟨hworks, hst⟩,
    ((cp_scbkd_latch keyedCpEnv 1 noInstallInput _ s t u _ _ 0 hs hbefore
      hafter hok).2 hworks).1⟩

/-- A REPLY_CCRYPT whose block names SCBK-D, in answer to the challenge. -/
def scbkdCcrypt : CpInput :=
  .refresh 302073 (writeBe 44
    0xFF53812B000C0311007600000000000000000000000000000000000000000000000000000000000000002EAB)

/-- In install mode the latch does not hold: a reply that names SCBK-D
turns the CP to it, though the installed key has worked, and session keys
are derived from it. -/
theorem cp_scbkd_latch_installMode :
    ∃ s t u, osdpCpSetup keyedCpEnv [{ keyedCpPd with installMode := true }]
        = some s ∧
      CpRun keyedCpEnv 1 anyCpInput s keyedCpReplies t ∧
      CpRun keyedCpEnv 1 anyCpInput t (relapseReplies ++ [scbkdCcrypt]) u ∧
      ((t.pd 0).flags.scEstablished = true ∧
        t.log.all (Obs.noDefaultKey 0) = true) ∧
      (u.pd 0).flags.scEstablished = true ∧
      u.log.all (Obs.noDefaultKey 0) = false :=
  runs_of_setup (cpStep keyedCpEnv 1) anyCpInput anyCpInput
    (osdpCpSetup keyedCpEnv [{ keyedCpPd with installMode := true }])
    keyedCpReplies (relapseReplies ++ [scbkdCcrypt])
    (fun _ t u => ((t.pd 0).flags.scEstablished = true ∧
        t.log.all (Obs.noDefaultKey 0) = true) ∧
      (u.pd 0).flags.scEstablished = true ∧
      u.log.all (Obs.noDefaultKey 0) = false) (by decide +kernel)

end LibOsdp
