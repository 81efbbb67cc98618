/-
A frame that is none of the PD's ends the exchange it is heard in.

Other devices share the line: another PD answers its own controller, a
second controller sends a command.  The receive path tells such frames
apart.  A header that goes the wrong way is refused with a code of its own
(`OSDP_ERR_PKT_SKIP`), and so is a whole frame that bears another address
(`OSDP_ERR_PKT_CHECK`).

# What becomes of the codes

On the way out of `cp_process_reply` they are not told apart any more: all
that is neither a frame, nor a wait, nor busy, nor a NAK is one error, and
that error ends the exchange.  So no exchange outlasts a foreign frame,
wherever it comes from and whatever the PD is about to answer.

# When a frame is there

The bytes a call works on are those it has in its buffer and in the ring
once it has read the line (`Osdp.received`), from the position where the
last call left off.  A frame may have come in any number of pieces; what
counts is the call that has all of it.
-/
import LibOsdp.Phy.Proofs.Chunks
import LibOsdp.Cp.Proofs.Restore

namespace LibOsdp

open Lib

-- ============================================================= what comes

section Assemble

variable {pdMode : Bool} {r : RxSide} {pos : Option Bool}
variable {l x : Bytes} {m : Bool}

/-- A header behind a packet start is judged by what it says. -/
theorem judged_start (mark : Bool)
    (henough : pktHdrLen ≤ (startBytes m ++ x).length) :
    judgeHeader pdMode mark (startBytes m ++ x.take 4)
      = (m, headerVerdict pdMode m x) := by
  have h3 : 3 ≤ (x.take 4).length := by
    have hx3 := three_le_of_header henough
    rw [List.length_take]
    omega
  have hlong : ¬ (startBytes m ++ x.take 4).length < pktHdrLen := by
    rw [List.length_append, length_startBytes] at henough ⊢
    rw [List.length_take, pktHdrLen] at *
    omega
  have happ : headerVerdict pdMode m (x.take 4 ++ x.drop 4)
      = headerVerdict pdMode m (x.take 4) := headerVerdict_append h3 _
  rw [List.take_append_drop] at happ
  rw [judgeHeader_start, if_neg hlong, happ]

/-- A call that takes a header: one that goes the wrong way is refused, a
frame that is there is taken. -/
theorem takeHeader_found (mark : Bool)
    (henough : pktHdrLen ≤ (startBytes m ++ x).length) :
    (headerVerdict pdMode m x = errPktSkip →
      ((⟨startBytes m ++ x.take 4, 0, x.drop 4, mark⟩ : RxSide).takeHeader
        pdMode).1 = errPktSkip) ∧
    ∀ n : Nat, headerVerdict pdMode m x = n → pktHdrLen < n →
      n ≤ (startBytes m ++ x).length →
      (⟨startBytes m ++ x.take 4, 0, x.drop 4, mark⟩ : RxSide).takeHeader
        pdMode = (errPktNone, ⟨(startBytes m ++ x).take n, n,
          (startBytes m ++ x).drop n, m⟩) := by
  have hj : judgeHeader pdMode mark (startBytes m ++ x.take 4)
      = (m, headerVerdict pdMode m x) := judged_start mark henough
  unfold RxSide.takeHeader
  dsimp only
  rw [hj]
  refine ⟨fun hv => ?_, fun n hv hn hall => ?_⟩
  · rw [hv]
    rfl
  · dsimp only
    have hfmt : ¬ (n : Int) = errPktFmt := by
      rw [errPktFmt]
      omega
    have hbuf : (startBytes m ++ x.take 4).length ≤ n := by
      have hm : m.toNat ≤ 1 := Bool.toNat_le m
      rw [List.length_append, length_startBytes, List.length_take]
      rw [pktHdrLen] at hn
      omega
    rw [hv, if_neg hfmt, if_neg (by omega), Int.toNat_natCast,
      complete_start hbuf, List.take_append_drop, if_neg (by omega)]

/-- The first packet start among the bytes of a call. -/
theorem assemble_found (h : r.At pdMode pos l)
    (hx : behind pos l = some (m, x))
    (henough : pktHdrLen ≤ (startBytes m ++ x).length) :
    (headerVerdict pdMode m x = errPktSkip →
      (r.assemble pdMode).1 = errPktSkip) ∧
    ∀ n : Nat, headerVerdict pdMode m x = n → pktHdrLen < n →
      n ≤ (startBytes m ++ x).length →
      r.assemble pdMode = (errPktNone, ⟨(startBytes m ++ x).take n, n,
        (startBytes m ++ x).drop n, m⟩) := by
  cases h with
  | hunting ring mark =>
    have hstart : (⟨[], 0, l, mark⟩ : RxSide).findStart
        = some ⟨startBytes m, 0, x, mark⟩ := by
      have hscan : scanSom 0 l = some (m, x) := hx
      unfold RxSide.findStart
      simp only [hscan]
      rfl
    have hfill := @fillHeader_start m mark [] x 0 (Nat.zero_le _)
    rw [List.append_nil, List.nil_append] at hfill
    rw [(assemble_of_start rfl hstart).1, hfill]
    exact takeHeader_found mark henough
  | header m' y ring mark short =>
    obtain ⟨rfl, rfl⟩ : m' = m ∧ y ++ ring = x := by
      cases hx
      exact ⟨rfl, rfl⟩
    have hstart : (⟨startBytes m' ++ y, 0, ring, mark⟩ : RxSide).findStart
        = some ⟨startBytes m' ++ y, 0, ring, mark⟩ := by
      have hne : startBytes m' ++ y ≠ [] := by
        cases m' <;> exact List.cons_ne_nil _ _
      unfold RxSide.findStart
      dsimp only
      rw [if_pos hne]
    rw [(assemble_of_start rfl hstart).1, fillHeader_start short]
    exact takeHeader_found mark henough
  | frame m' y ring k verdict known short =>
    obtain ⟨rfl, rfl⟩ : m' = m ∧ y ++ ring = x := by
      cases hx
      exact ⟨rfl, rfl⟩
    have hk : headerVerdict pdMode m' (y ++ ring) = k := by
      rw [headerVerdict_append (three_le_of_header known), verdict]
    have hasm : (⟨startBytes m' ++ y, k, ring, m'⟩ : RxSide).assemble pdMode
        = (⟨startBytes m' ++ y, k, ring, m'⟩ : RxSide).complete := by
      unfold RxSide.assemble
      exact if_neg (by dsimp only; omega)
    refine ⟨fun hv => ?_, fun n hv _ hall => ?_⟩
    · -- a frame that is being collected goes the right way
      rw [hk, errPktSkip] at hv
      omega
    · obtain rfl : k = n := by
        rw [hk] at hv
        exact Int.ofNat.inj hv
      rw [hasm, complete_start (Nat.le_of_lt short), if_neg (by omega)]

end Assemble

-- ============================================================== the frame

/-- The receive side of PD `i` once a call has read the line. -/
def Osdp.received (s : Osdp) (i : Nat) : RxSide :=
  { s.rx i with
    ring := (channelReceive (s.line.length + 1) (s.pd i).rxRb s.line 0).1 }

/-- The CP waits for a reply of PD `i`, and the bytes its next call works on
are `l`, from this position on. -/
structure HearsNext (i : Nat) (s : Osdp) (pos : Option Bool)
    (l : Bytes) : Prop where
  role : (s.pd i).flags.pdMode = false
  waits : (s.pd i).phyState = .replyWait
  room : (s.pd i).packetBufLen ≤ (s.buf (s.pd i).packetBuf).length
  inHand : (s.received i).At false pos l

/-- Nothing was collected since the command was sent. -/
theorem HearsNext.of_sent {i : Nat} {s : Osdp}
    (role : (s.pd i).flags.pdMode = false)
    (waits : (s.pd i).phyState = .replyWait)
    (filled : (s.pd i).packetBufLen = 0) (len : (s.pd i).packetLen = 0) :
    HearsNext i s none (s.received i).ring := by
  refine ⟨role, waits, ?_, ?_⟩
  · rw [filled]
    exact Nat.zero_le _
  · have hrx : s.received i
        = ⟨[], 0, (s.received i).ring, (s.pd i).flags.pktHasMark⟩ := by
      unfold Osdp.received Osdp.rx
      dsimp only
      rw [filled, len, List.take_zero]
    rw [hrx]
    exact .hunting _ _

/-- A frame as the receive path accepts one, from SOM on: it is as long as
it says, neither too short nor too long for the packet buffer with its
mark, and its check bytes are right. -/
structure WellFormed (env : Env) (mark : Bool) (f : Bytes) : Prop where
  length : f.length = (byteAt f 3).toNat * 256 + (byteAt f 2).toNat
  least : pktHdrLen < f.length
  fits : f.length + mark.toNat ≤ packetBufSize
  check : phyIntegrityOk env f = true

/-- A command, or a reply that bears another address than this one and is
no broadcast. -/
def foreignTo (address : Nat) (f : Bytes) : Prop :=
  byteAt f 1 &&& 0x80 = 0 ∨
    frameAddr f ≠ address ∧ frameAddr f ≠ 0x7F

instance (env : Env) (mark : Bool) (f : Bytes) :
    Decidable (WellFormed env mark f) :=
  decidable_of_iff
    (f.length = (byteAt f 3).toNat * 256 + (byteAt f 2).toNat ∧
      pktHdrLen < f.length ∧ f.length + mark.toNat ≤ packetBufSize ∧
      phyIntegrityOk env f = true)
    ⟨fun ⟨h₁, h₂, h₃, h₄⟩ => ⟨h₁, h₂, h₃, h₄⟩,
      fun ⟨h₁, h₂, h₃, h₄⟩ => ⟨h₁, h₂, h₃, h₄⟩⟩

instance (address : Nat) (f : Bytes) : Decidable (foreignTo address f) :=
  inferInstanceAs (Decidable (_ ∨ _ ∧ _))

section Frame

variable {env : Env} {mark : Bool} {f x rest : Bytes}

/-- What the header of a frame that is there says, to a CP. -/
theorem WellFormed.verdict (hf : WellFormed env mark f)
    (hx : pktSom :: x = f ++ rest) :
    headerVerdict false mark x =
      if byteAt f 1 &&& 0x80 = 0 then errPktSkip
      else (f.length + mark.toNat : Nat) := by
  have hbyte (k : Nat) (hk : k < 3) : byteAt x k = byteAt f (k + 1) := by
    have hl := hf.least
    rw [pktHdrLen] at hl
    have e : byteAt (pktSom :: x) (k + 1) = byteAt (f ++ rest) (k + 1) := by
      rw [hx]
    unfold byteAt at e ⊢
    rw [List.getD_cons_succ] at e
    rw [e, List.getD_eq_getElem?_getD, List.getD_eq_getElem?_getD,
      List.getElem?_append_left (by omega)]
  unfold headerVerdict
  rw [hbyte 0 (by omega), hbyte 1 (by omega), hbyte 2 (by omega)]
  dsimp only
  rw [← hf.length, if_neg (by have := hf.least; have := hf.fits; omega)]
  by_cases hdir : byteAt f 1 &&& 0x80 = 0
  · rw [if_pos hdir, if_pos (by simp [hdir])]
  · rw [if_neg hdir, if_neg (by simp [hdir])]

/-- It is all there. -/
theorem length_found (hx : pktSom :: x = f ++ rest) :
    f.length + mark.toNat ≤ (startBytes mark ++ x).length := by
  have hlen := congrArg List.length hx
  rw [List.length_cons, List.length_append] at hlen
  rw [List.length_append, length_startBytes]
  omega

/-- And behind its mark lies the frame. -/
theorem take_found (hx : pktSom :: x = f ++ rest) :
    ((startBytes mark ++ x).take (f.length + mark.toNat)).drop mark.toNat
      = f := by
  have hsplit : startBytes mark ++ x
      = (startBytes mark).take mark.toNat ++ (f ++ rest) := by
    rw [← hx]
    cases mark <;> rfl
  have hlen : ((startBytes mark).take mark.toNat).length = mark.toNat := by
    cases mark <;> rfl
  rw [hsplit, List.drop_take, List.drop_append, hlen, Nat.sub_self,
    List.drop_of_length_le (Nat.le_of_eq hlen), List.nil_append,
    List.drop_zero, Nat.add_sub_cancel, List.take_left]

end Frame

-- =============================================================== the pass

section Pass

variable {env : Env} {depth i : Nat} {s t : Osdp} {pos : Option Bool}
variable {l f x rest : Bytes} {m : Bool}

/-- The receive path refuses it. -/
theorem checkPacket_foreign (hs : HearsNext i s pos l)
    (hx : behind pos l = some (m, x)) (hfx : pktSom :: x = f ++ rest)
    (hf : WellFormed env m f) (hfor : foreignTo (s.pd i).address f) :
    ∃ rc u, osdpPhyCheckPacket env i s = .ok rc u ∧
      (rc = errPktSkip ∨ rc = errPktCheck) := by
  have htakes : TakesIn i false s (s.rx i) := ⟨hs.room, hs.role, rfl⟩
  obtain ⟨v, hv, hvr, -, -⟩ := phyReceive_takes htakes
  have hvr : TakesIn i false v (s.received i) := hvr
  obtain ⟨w, hw, hwr, -⟩ := assemble_takes hv hvr
  have hall : f.length + m.toNat ≤ (startBytes m ++ x).length :=
    length_found hfx
  have hleast := hf.least
  have henough : pktHdrLen ≤ (startBytes m ++ x).length := by omega
  obtain ⟨hskip, hwhole⟩ := assemble_found hs.inHand hx henough
  have hverdict := hf.verdict hfx
  by_cases hdir : byteAt f 1 &&& 0x80 = 0
  · rw [if_pos hdir] at hverdict
    rw [hskip hverdict] at hw
    refine ⟨errPktSkip, w, ?_, .inl rfl⟩
    rw [osdpPhyCheckPacket, bind_eq hw]
    rfl
  · rw [if_neg hdir] at hverdict
    obtain ⟨haddr, hcast⟩ := hfor.resolve_left hdir
    rw [hwhole _ hverdict (by omega) hall] at hw hwr
    have hframe : ((w.buf (w.pd i).packetBuf).drop (w.pd i).markLen).take
        ((w.pd i).packetLen - (w.pd i).markLen) = f := by
      have hmark : (w.pd i).markLen = m.toNat := by
        unfold OsdpPd.markLen
        rw [hwr.mark]
        cases m <;> rfl
      have hbuf := hwr.buf
      rw [hwr.filled] at hbuf
      dsimp only at hbuf
      rw [List.length_take, Nat.min_eq_left hall] at hbuf
      rw [hmark, hwr.len, ← List.drop_take, hbuf]
      exact take_found hfx
    have hsame : (w.pd i).address = (s.pd i).address := by
      have e := congrArg OsdpPd.address
        (((collects_phyAssemble i).of hw).pd i)
      exact e
    have hrole : (w.pd i).flags.pdMode = false := hwr.mode
    have hcheck (u : Osdp) (hu : u.pd = w.pd) :
        phyCheckPacket env i ((w.buf (w.pd i).packetBuf).drop
            (w.pd i).markLen) ((w.pd i).packetLen - (w.pd i).markLen) u
          = .ok errPktCheck u := by
      rw [phyCheckPacket, hframe, hf.check, if_neg (by decide),
        bind_eq (getPd_ok.mpr ⟨rfl, rfl⟩), hu, hsame,
        if_pos ⟨haddr, hcast⟩, hrole]
      rfl
    refine ⟨errPktCheck, { w with
      log := .frame i (((w.buf (w.pd i).packetBuf).take
        (w.pd i).packetLen).drop (w.pd i).markLen) :: w.log }, ?_, .inr rfl⟩
    rw [osdpPhyCheckPacket, bind_eq hw, if_neg (fun e => e rfl)]
    exact (bind_eq (getPd_ok.mpr ⟨rfl, rfl⟩)).trans
      ((bind_eq (show readBuf (w.pd i).packetBuf w
        = .ok (w.buf (w.pd i).packetBuf) w from rfl)).trans
        ((bind_eq (a := ()) (observe_ok.mpr rfl)).trans (hcheck _ rfl)))

/-- That is an error like any other. -/
theorem stateUpdate_foreign (run : List ApiCall → OsdpM Unit)
    (hs : HearsNext i s pos l)
    (hx : behind pos l = some (m, x)) (hfx : pktSom :: x = f ++ rest)
    (hf : WellFormed env m f) (hfor : foreignTo (s.pd i).address f) :
    ∃ u, cpPhyStateUpdate env run i s = .ok cpErrGeneric u := by
  obtain ⟨rc, w, hw, hrc⟩ := checkPacket_foreign hs hx hfx hf hfor
  have hreply : cpProcessReply env run i s = .ok cpErrGeneric w := by
    rw [cpProcessReply, bind_eq hw]
    rcases hrc with rfl | rfl <;> rfl
  have hjudge : ∃ u, cpPhyJudge i cpErrGeneric w = .ok cpErrGeneric u := by
    rw [cpPhyJudge, bind_eq (getPd_ok.mpr ⟨rfl, rfl⟩)]
    exact ⟨_, rfl⟩
  obtain ⟨u, hu⟩ := hjudge
  refine ⟨u, ?_⟩
  rw [cpPhyStateUpdate, bind_eq (getPd_ok.mpr ⟨rfl, rfl⟩), hs.waits]
  exact (bind_eq hreply).trans
    ((bind_eq (show cpPhyAcknowledge i cpErrGeneric w = .ok () w from
      rfl)).trans hu)

/-- So the pass ends the exchange. -/
theorem foreign_ends (hs : HearsNext i s pos l)
    (hx : behind pos l = some (m, x)) (hfx : pktSom :: x = f ++ rest)
    (hf : WellFormed env m f) (hfor : foreignTo (s.pd i).address f)
    (h : stateUpdate env (cpRunCalls env depth) i s = .ok () t) :
    (t.pd i).phyState = .idle := by
  obtain ⟨u, hu⟩ := stateUpdate_foreign (cpRunCalls env depth)
    hs hx hfx hf hfor
  have hr (calls : List ApiCall) (_ : env.Makes calls) :
      Keeps (SameCard i) (cpRunCalls env depth calls) :=
    keeps_cpRunCalls depth calls
  have hphy : (s.pd i).phyState ≠ .done ∧ (s.pd i).phyState ≠ .err := by
    rw [hs.waits]
    exact ⟨nofun, nofun⟩
  cases pass_card hr hs.role hphy h with
  | going err exchange step busy live running update waits =>
    rw [hu] at update
    cases update
    rcases waits with e | e <;> cases e
  | ended err err' u v exchange step busy ends settled reply advance idle =>
    exact idle
  | sent id v free =>
    rw [hs.waits] at free
    cases free
  | none id v u free =>
    rw [hs.waits] at free
    cases free

end Pass

-- ================================================================= results

/-- The exchange of PD `i` outlasts the pass: there is one, and the CP goes
on waiting for the reply. -/
def Outlasts (env : Env) (depth i : Nat) (s : Osdp) : Prop :=
  ∃ t, stateUpdate env (cpRunCalls env depth) i s = .ok () t ∧
    (t.pd i).phyState = .replyWait

/-- No exchange outlasts a foreign frame: a CP that waits for the reply of
a PD, and whose next frame is a command, or a reply that bears another
PD's address, does not go on waiting. -/
theorem cp_foreign_frame_fatal (env : Env) (depth i : Nat) (s : Osdp)
    (pos : Option Bool) (mark : Bool) (l x f rest : Bytes)
    (hs : HearsNext i s pos l) (hx : behind pos l = some (mark, x))
    (hfx : pktSom :: x = f ++ rest) (hf : WellFormed env mark f)
    (hfor : foreignTo (s.pd i).address f) : ¬ Outlasts env depth i s := by
  rintro ⟨t, ht, hwait⟩
  rw [foreign_ends hs hx hfx hf hfor ht] at hwait
  cases hwait

-- =================================================================== runs

instance (env : Env) (depth i : Nat) (s : Osdp) :
    Decidable (Outlasts env depth i s) :=
  decidable_of_iff
    ((match stateUpdate env (cpRunCalls env depth) i s with
      | .ok _ t => decide ((t.pd i).phyState = .replyWait)
      | .error _ _ => false) = true) (by
    unfold Outlasts
    cases stateUpdate env (cpRunCalls env depth) i s with
    | ok a t =>
      refine ⟨fun h => ⟨t, rfl, of_decide_eq_true h⟩, ?_⟩
      rintro ⟨u, hu, h⟩
      cases hu
      exact decide_eq_true h
    | error e t =>
      refine ⟨(by cases ·), ?_⟩
      rintro ⟨u, hu, -⟩
      cases hu)

/-- The CP has polled its PD and waits for the reply. -/
def cardPolled : List CpInput :=
  cardOpening.take 6 ++ [.refresh 71 [], .refresh 72 []]

/-- An ACK of the PD with address 2, from SOM on. -/
def otherAck : Bytes := writeBe 8 0x538208000640B88E

/-- A POLL of another controller, from SOM on. -/
def otherPoll : Bytes := writeBe 8 0x530108000660D866

/-- A reply of another PD. -/
theorem cp_foreign_frame_fatal_ack :
    ∃ s u, osdpCpSetup cardEnv [cardPd] = some s ∧
      CpRun cardEnv 1 anyCpInput s cardPolled u ∧
      ¬ Outlasts cardEnv 1 0 (u.beginRefresh 80 (pktMark :: otherAck)) := by
  obtain ⟨s, u, hs, hrun, hrole, hwait, hfilled, hlen, hring, haddr⟩ :=
    run_of_setup (cpStep cardEnv 1) anyCpInput
      (osdpCpSetup cardEnv [cardPd]) cardPolled
      (fun u =>
        let v := u.beginRefresh 80 (pktMark :: otherAck)
        (v.pd 0).flags.pdMode = false ∧ (v.pd 0).phyState = .replyWait ∧
          (v.pd 0).packetBufLen = 0 ∧ (v.pd 0).packetLen = 0 ∧
          behind none (v.received 0).ring = some (true, otherAck.tail) ∧
          (v.pd 0).address = 1) (by decide +kernel)
  exact ⟨s, u, hs, hrun,
    cp_foreign_frame_fatal cardEnv 1 0 _ none true _ otherAck.tail otherAck
      [] (.of_sent hrole hwait hfilled hlen) hring (by decide)
      (by decide +kernel) (by rw [haddr]; decide)⟩

/-- The entry is a reply of PD `i` that was decoded. -/
def Obs.decodes (i : Nat) : Obs → Bool
  | .decoded j _ _ => j == i
  | _ => false

/-- A POLL of another controller, heard before the PD's own ACK: the PD
goes offline, and its ACK is not looked at any more. -/
theorem cp_foreign_frame_offline :
    ∃ s u t, osdpCpSetup cardEnv [cardPd] = some s ∧
      CpRun cardEnv 1 anyCpInput s cardPolled u ∧
      CpRun cardEnv 1 anyCpInput u
        [.refresh 80 (pktMark :: otherPoll),
         .refresh 81 (writeBe 9 0xFF5381080006406A60)] t ∧
      ((u.pd 0).state = .online ∧ (u.pd 0).phyState = .replyWait) ∧
      (WellFormed cardEnv true otherPoll ∧
        foreignTo (u.pd 0).address otherPoll) ∧
      ¬ Outlasts cardEnv 1 0 (u.beginRefresh 80 (pktMark :: otherPoll)) ∧
      (t.pd 0).state = .offline ∧
      t.log.countP (Obs.decodes 0) = u.log.countP (Obs.decodes 0) :=
  runs_of_setup (cpStep cardEnv 1) anyCpInput anyCpInput
    (osdpCpSetup cardEnv [cardPd]) cardPolled
    [.refresh 80 (pktMark :: otherPoll),
     .refresh 81 (writeBe 9 0xFF5381080006406A60)]
    (fun _ u t =>
      ((u.pd 0).state = .online ∧ (u.pd 0).phyState = .replyWait) ∧
      (WellFormed cardEnv true otherPoll ∧
        foreignTo (u.pd 0).address otherPoll) ∧
      ¬ Outlasts cardEnv 1 0 (u.beginRefresh 80 (pktMark :: otherPoll)) ∧
      (t.pd 0).state = .offline ∧
      t.log.countP (Obs.decodes 0) = u.log.countP (Obs.decodes 0))
    (by decide +kernel)

end LibOsdp
