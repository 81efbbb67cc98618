/-
The stages of a PD's refresh, and the courses it can take through them.

`refresh_cases` takes a run of `osdp_pd_update` apart: either a parked
reply goes out, or a frame is looked for, and what came of that
(`Received`) is dropped, reset over, or answered.  The theorems about
refreshes follow these cases.

`receivedFrame` and `receivedPayload` are the two moments inside a
refresh at which the conditions of those theorems are read: a frame has
passed its checks, and its payload is about to be decoded.
-/
import LibOsdp.Pd.Proofs.Build
import LibOsdp.Phy.Proofs.Reception

namespace LibOsdp

open Lib

-- ================================================================= frames

/-- A PD without what the passing of time may change. -/
@[grind] def OsdpPd.sansTime (p : OsdpPd) : OsdpPd :=
  { p.sansApp with
    lastTxLen := 0
    scTstamp := 0
    flags := { p.flags with scActive := false, online := false } }

/-- Time passed: a session or a link was found stale, or used. -/
abbrev Ages : Osdp → Osdp → Prop := Frame OsdpPd.sansTime id Obs.isApp

theorem sansTime_of_sansApp {p q : OsdpPd} (h : p.sansApp = q.sansApp) :
    p.sansTime = q.sansTime := by
  have e := congrArg OsdpPd.sansTime h
  exact e

theorem ages_of_quiet {α : Type} {m : OsdpM α} (h : Keeps Quiet m) :
    Keeps Ages m :=
  h.mono fun _ _ q => q.mono (fun _ _ => sansTime_of_sansApp)
    (fun _ _ => id) fun _ => id

section Stages

variable {env : Env} {run : List ApiCall → OsdpM Unit}

section Time

variable (hr : ∀ calls, Keeps Quiet (run calls))
include hr

@[grind ←]
theorem ages_pdScDeactivate (i : Nat) :
    Keeps Ages (pdScDeactivate env run i) := by
  have hn : Keeps Ages (notifyScStatus env run i) :=
    ages_of_quiet (keeps_notifyScStatus hr i)
  have hd : Keeps Ages (scDeactivate i) := keeps_updPd fun _ => rfl
  unfold pdScDeactivate
  grind

@[grind ←]
theorem ages_notifyPdStatus (i : Nat) (online : Bool) :
    Keeps Ages (notifyPdStatus env run i online) :=
  ages_of_quiet (keeps_notifyPdStatus hr i online)

@[grind ←]
theorem ages_pdExpireSession (i : Nat) :
    Keeps Ages (pdExpireSession env run i) := by
  unfold pdExpireSession
  grind

@[grind ←]
theorem ages_pdExpireLink (i : Nat) :
    Keeps Ages (pdExpireLink env run i) := by
  have he : Keeps Ages (osdpEnginesAbort env run i) :=
    ages_of_quiet (keeps_engines hr i)
  unfold pdExpireLink
  grind

@[grind ←]
theorem ages_pdMarkOnline (i : Nat) :
    Keeps Ages (pdMarkOnline env run i) := by
  unfold pdMarkOnline
  grind

omit hr in
@[grind ←]
theorem ages_pdTouchSession (i : Nat) (ret : Int) :
    Keeps Ages (pdTouchSession i ret) := by
  unfold pdTouchSession
  grind

end Time

-- ================================================================ courses

/-- What came of looking for a frame: the result of
`pd_receive_and_process_command` and the state it leaves. -/
inductive Received (env : Env) (run : List ApiCall → OsdpM Unit) (i : Nat)
    (s : Osdp) : Int → Osdp → Prop where
  | none {err : Int} {u t : Osdp} (h : err ≠ errPktNone)
      (check : osdpPhyCheckPacket env i s = .ok err u)
      (reset : t = u ∨ osdpPhyStateReset env i false u = .ok () t)
      (skip : t ≠ u → err = errPktSkip) :
      Received env run i s (pdErrorOfPhy err) t
  | refused {len : Int} {payload : Bytes} {u t : Osdp}
      (check : osdpPhyCheckPacket env i s = .ok errPktNone u)
      (h : len ≤ 0)
      (decode : osdpPhyDecodePacket env i u = .ok (len, payload) t) :
      Received env run i s (pdErrorOfDecode len) t
  | decoded {len ret : Int} {payload : Bytes} {u v w : Osdp}
      (check : osdpPhyCheckPacket env i s = .ok errPktNone u)
      (h : 0 < len)
      (decode : osdpPhyDecodePacket env i u = .ok (len, payload) v)
      (command : pdDecodeCommand env run i payload
        { v with
          log := .decoded i payload (v.pd i).flags.scActive :: v.log }
        = .ok ret w) :
      Received env run i s ret
        { w with log := .verdict i payload ret :: w.log }

theorem received_of {i : Nat} {s t : Osdp} {ret : Int}
    (h : pdReceiveAndProcessCommand env run i s = .ok ret t) :
    ∃ u, pdListen i s = .ok () u ∧ Received env run i u ret t := by
  unfold pdReceiveAndProcessCommand at h
  obtain ⟨_, u, hl, h⟩ := bind_ok.mp h
  obtain ⟨err, v, hc, h⟩ := bind_ok.mp h
  refine ⟨u, hl, ?_⟩
  split at h
  · next he =>
    subst he
    unfold pdProcessFrame at h
    obtain ⟨⟨len, payload⟩, w, hd, h⟩ := bind_ok.mp h
    dsimp only at h
    split at h
    · next hlen =>
      obtain ⟨rfl, rfl⟩ := pure_ok.mp h
      exact .refused hc hlen hd
    · next hlen =>
      obtain ⟨p, x, hg, h⟩ := bind_ok.mp h
      obtain ⟨rfl, rfl⟩ := getPd_ok.mp hg
      obtain ⟨_, y, ho, h⟩ := bind_ok.mp h
      obtain rfl := observe_ok.mp ho
      obtain ⟨ret', z, hcmd, h⟩ := bind_ok.mp h
      obtain ⟨_, y', ho', h⟩ := bind_ok.mp h
      obtain rfl := observe_ok.mp ho'
      obtain ⟨rfl, rfl⟩ := pure_ok.mp h
      exact .decoded hc (by omega) hd hcmd
  · next he =>
    split at h
    · next hskip =>
      obtain ⟨_, w, hw, h⟩ := bind_ok.mp h
      obtain ⟨rfl, rfl⟩ := pure_ok.mp h
      exact .none he hc (.inr hw) fun _ => hskip
    · obtain ⟨rfl, rfl⟩ := pure_ok.mp h
      exact .none he hc (.inl rfl) fun h => absurd rfl h

/-- The result of the frame search is answered. -/
def answered (ret : Int) : Prop := ret = pdErrNone ∨ ret = pdErrReply

/-- The courses of a refresh, past the time-outs. -/
inductive Served (env : Env) (run : List ApiCall → OsdpM Unit) (i : Nat)
    (s t : Osdp) : Prop where
  | parked (h : (s.pd i).replyPrebuilt = true)
      (send : pdSendStage env run i s = .ok () t)
  | received {u v : Osdp} {ret : Int}
      (h : (s.pd i).replyPrebuilt = false)
      (listen : pdListen i s = .ok () u)
      (got : Received env run i u ret v)
      (rest : ¬ answered ret ∧ v = t ∨
        ¬ answered ret ∧ pdErrorReset env run i v = .ok () t ∨
        answered ret ∧ pdReplyStage env run i ret v = .ok () t)

theorem served_of {i : Nat} {s t : Osdp}
    (h : pdServe env run i s = .ok () t) : Served env run i s t := by
  unfold pdServe at h
  obtain ⟨p, u, hg, h⟩ := bind_ok.mp h
  obtain ⟨rfl, rfl⟩ := getPd_ok.mp hg
  split at h
  · next hp => exact .parked hp h
  · next hp =>
    obtain ⟨ret, v, hrecv, h⟩ := bind_ok.mp h
    obtain ⟨u, hl, hrec⟩ := received_of hrecv
    have hp : (s.pd i).replyPrebuilt = false := by simpa using hp
    split at h
    · next hdrop =>
      obtain ⟨-, rfl⟩ := pure_ok.mp h
      refine .received hp hl hrec (.inl ⟨?_, rfl⟩)
      rcases hdrop with rfl | rfl <;>
        simp [answered, pdErrIgnore, pdErrNoData, pdErrNone, pdErrReply]
    · obtain ⟨q, w, hq, h⟩ := bind_ok.mp h
      obtain ⟨rfl, rfl⟩ := getPd_ok.mp hq
      obtain ⟨age, w, hage, h⟩ := bind_ok.mp h
      cases hage
      split at h
      · next hwait =>
        obtain ⟨-, rfl⟩ := pure_ok.mp h
        refine .received hp hl hrec (.inl ⟨?_, rfl⟩)
        rw [hwait.1]
        simp [answered, pdErrWait, pdErrNone, pdErrReply]
      · split at h
        · next hne =>
          exact .received hp hl hrec (.inr (.inl ⟨by
            unfold answered
            tauto, h⟩))
        · next hne =>
          exact .received hp hl hrec (.inr (.inr ⟨by
            unfold answered
            tauto, h⟩))

/-- Every refresh lets time pass and then takes one of the courses. -/
theorem refresh_cases {i : Nat} {s t : Osdp}
    (h : osdpPdUpdate env run i s = .ok () t) :
    ∃ u, (do pdExpireSession env run i; pdExpireLink env run i) s
        = .ok () u ∧ Served env run i u t := by
  unfold osdpPdUpdate at h
  obtain ⟨_, v, h₁, h⟩ := bind_ok.mp h
  obtain ⟨_, u, h₂, h⟩ := bind_ok.mp h
  exact ⟨u, bind_ok.mpr ⟨(), v, h₁, h₂⟩, served_of h⟩

-- ================================================================ moments

/-- The state in which a frame has passed its checks, in a refresh that
starts from `s` and gets that far. -/
def receivedFrame (env : Env) (run : List ApiCall → OsdpM Unit) (i : Nat)
    (s : Osdp) : Option Osdp :=
  match (do pdExpireSession env run i; pdExpireLink env run i) s with
  | .error _ _ => none
  | .ok _ u =>
    if (u.pd i).replyPrebuilt then none
    else
      match (do pdListen i; osdpPhyCheckPacket env i) u with
      | .error _ _ => none
      | .ok err v => if err = errPktNone then some v else none

/-- The payload such a refresh receives, and the state in which it is
about to be decoded. -/
def receivedPayload (env : Env) (run : List ApiCall → OsdpM Unit) (i : Nat)
    (s : Osdp) : Option (Bytes × Osdp) := do
  let u ← receivedFrame env run i s
  match osdpPhyDecodePacket env i u with
  | .error _ _ => none
  | .ok (len, payload) v => if 0 < len then some (payload, v) else none

/-- Whether a refresh goes through the moment, its frame check says. -/
theorem receivedFrame_eq {i : Nat} {s u v w : Osdp} {err : Int}
    (time : (do pdExpireSession env run i; pdExpireLink env run i) s
      = .ok () u)
    (h : (u.pd i).replyPrebuilt = false) (listen : pdListen i u = .ok () v)
    (check : osdpPhyCheckPacket env i v = .ok err w) :
    receivedFrame env run i s
      = if err = errPktNone then some w else none := by
  have hc : (do pdListen i; osdpPhyCheckPacket env i) u = .ok err w :=
    bind_ok.mpr ⟨(), v, listen, check⟩
  unfold receivedFrame
  rw [time]
  dsimp only
  rw [h, hc]
  rfl

/-- The moment a refresh goes through. -/
theorem receivedFrame_of {i : Nat} {s u v w : Osdp}
    (time : (do pdExpireSession env run i; pdExpireLink env run i) s
      = .ok () u)
    (h : (u.pd i).replyPrebuilt = false) (listen : pdListen i u = .ok () v)
    (check : osdpPhyCheckPacket env i v = .ok errPktNone w) :
    receivedFrame env run i s = some w :=
  receivedFrame_eq time h listen check

theorem receivedPayload_of {i : Nat} {s u v : Osdp} {len : Int}
    {payload : Bytes} (frame : receivedFrame env run i s = some u)
    (h : 0 < len) (decode : osdpPhyDecodePacket env i u
      = .ok (len, payload) v) :
    receivedPayload env run i s = some (payload, v) := by
  unfold receivedPayload
  rw [frame]
  show (match osdpPhyDecodePacket env i u with
    | .error _ _ => none
    | .ok (len, payload) v =>
      if 0 < len then some (payload, v) else none) = _
  rw [decode]
  exact if_pos h

/-- A frame that does not decode leaves no payload. -/
theorem receivedPayload_refused {i : Nat} {s u v : Osdp} {len : Int}
    {payload : Bytes} (frame : receivedFrame env run i s = some u)
    (h : len ≤ 0) (decode : osdpPhyDecodePacket env i u
      = .ok (len, payload) v) :
    receivedPayload env run i s = none := by
  unfold receivedPayload
  rw [frame]
  show (match osdpPhyDecodePacket env i u with
    | .error _ _ => none
    | .ok (len, payload) v =>
      if 0 < len then some (payload, v) else none) = _
  rw [decode]
  exact if_neg (Int.not_lt.mpr h)

/-- No frame, no payload. -/
theorem receivedPayload_none {i : Nat} {s : Osdp}
    (frame : receivedFrame env run i s = none) :
    receivedPayload env run i s = none := by
  unfold receivedPayload
  rw [frame]
  rfl

end Stages

end LibOsdp
