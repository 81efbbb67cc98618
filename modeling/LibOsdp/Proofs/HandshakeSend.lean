/-
The four messages of a handshake, as they are built and as they arrive.

# Messages

A message of a handshake is an id, a security block and data, and it may
change the channel of the end that makes it up (`HsMessage`).  A CP sends
CHLNG or SCRYPT, depending on the command it is to send (`cpHsMessage`); a
PD answers CCRYPT or RMAC_I, depending on its reply id (`pdHsMessage`).

# One spec for each builder

Both builders store the id, then the block, then the data, and leave the
block's type alone from there on.  So each of them, if it finishes at all,
sends its message, and the other end reads it to the byte
(`cpBuildPacket_hs`, `pdBuildReplyPacket_hs`).
-/
import LibOsdp.Phy.Proofs.HandshakeFrame
import LibOsdp.Proofs.Arrival
import LibOsdp.Pd.Proofs.Freshness

namespace LibOsdp

open Lib

-- ================================================================ messages

/-- A message of a handshake; `sc` is the channel of the end that made it
up, once it has. -/
structure HsMessage where
  id : Nat
  type : UInt8
  sel : UInt8
  data : Bytes
  sc : OsdpSecureChannel

/-- The data block of a message. -/
def HsMessage.payload (m : HsMessage) : Bytes := UInt8.ofNat m.id :: m.data

/-- The part of either end that a handshake is about. -/
structure HsSide where
  sc : OsdpSecureChannel
  active : Bool
  useScbkd : Bool
  pdMode : Bool
  installMode : Bool
  capable : Bool
  security : UInt8

/-- That part of a PD's record. -/
def OsdpPd.hsSide (p : OsdpPd) : HsSide where
  sc := p.sc
  active := p.flags.scActive
  useScbkd := p.flags.scUseScbkd
  pdMode := p.flags.pdMode
  installMode := p.flags.installMode
  capable := p.scIsCapable
  security := (p.cap capCommunicationSecurity).complianceLevel

/-- The key the session keys are derived from. -/
def HsSide.keyBase (v : HsSide) : Bytes :=
  if v.useScbkd then osdpScbkDefault else v.sc.scbk

/-- What a message says of that key. -/
def HsSide.selector (v : HsSide) : UInt8 := if v.useScbkd then 0 else 1

/-- CHLNG: the number the CP drew. -/
def chlngMessage (v : HsSide) : HsMessage :=
  ⟨cmdChlng, 0x11, v.selector, v.sc.cpRandom, v.sc⟩

/-- SCRYPT: the proof that the CP holds the key. -/
def scryptMessage (env : Env) (v : HsSide) : HsMessage :=
  ⟨cmdScrypt, 0x13, v.selector, cpCryptogramOf env v.sc,
    osdpComputeCpCryptogram env v.sc⟩

/-- The channel of a PD that answers a challenge with this number. -/
def ccryptSc (env : Env) (r : Bytes) (v : HsSide) : OsdpSecureChannel :=
  osdpComputePdCryptogram env
    (computeSessionKeys env v.keyBase { v.sc with pdRandom := r })

/-- CCRYPT: the client's id, its number, and its proof. -/
def ccryptMessage (env : Env) (r : Bytes) (v : HsSide) : HsMessage :=
  ⟨replyCcrypt, 0x12, v.selector,
    (ccryptSc env r v).pdClientUid ++ (ccryptSc env r v).pdRandom ++
      (ccryptSc env r v).pdCryptogram, ccryptSc env r v⟩

/-- RMAC_I: the first MAC of the channel. -/
def rmacIMessage (env : Env) (v : HsSide) : HsMessage :=
  ⟨replyRmacI, 0x14, 1, (osdpComputeRmacI env v.sc).rMac,
    osdpComputeRmacI env v.sc⟩

/-- What a CP sends for the command it is at. -/
def cpHsMessage (env : Env) (id : Nat) (v : HsSide) : HsMessage :=
  if id = cmdChlng then chlngMessage v else scryptMessage env v

/-- What a PD sends for the reply it is at, if it draws this number. -/
def pdHsMessage (env : Env) (r : Bytes) (id : Nat) (v : HsSide) :
    HsMessage :=
  if id = replyCcrypt then ccryptMessage env r v else rmacIMessage env v

/-- An end that has made up a message; a PD that made up RMAC_I has its
channel. -/
def HsSide.said (m : HsMessage) (v : HsSide) : HsSide :=
  { v with sc := m.sc, active := v.active || m.id == replyRmacI }

section Ids

variable {env : Env} {v : HsSide} {id : Nat} {r : Bytes}

theorem hsCommand_cases (h : hsCommand id = true) :
    id = cmdChlng ∨ id = cmdScrypt := by
  unfold hsCommand at h
  rw [Bool.or_eq_true, beq_iff_eq, beq_iff_eq] at h
  exact h

theorem hsReply_cases (h : hsReply id = true) :
    id = replyCcrypt ∨ id = replyRmacI := by
  have h : (id == replyCcrypt || id == replyRmacI) = true := h
  rw [Bool.or_eq_true, beq_iff_eq, beq_iff_eq] at h
  exact h

/-- The messages of a CP have a handshake's block types. -/
theorem hsType_cpHsMessage (env : Env) (id : Nat) (v : HsSide) :
    hsType (cpHsMessage env id v).type = true := by
  unfold cpHsMessage
  split <;> rfl

/-- So have those of a PD. -/
theorem hsType_pdHsMessage (env : Env) (r : Bytes) (id : Nat) (v : HsSide) :
    hsType (pdHsMessage env r id v).type = true := by
  unfold pdHsMessage
  split <;> rfl

/-- A message goes by the id of the command. -/
theorem id_cpHsMessage (h : hsCommand id = true) :
    (cpHsMessage env id v).id = id := by
  unfold cpHsMessage
  rcases hsCommand_cases h with e | e
  · rw [if_pos e, e]
    rfl
  · rw [if_neg (by rw [e]; decide), e]
    rfl

/-- And by that of the reply. -/
theorem id_pdHsMessage (h : hsReply id = true) :
    (pdHsMessage env r id v).id = id := by
  unfold pdHsMessage
  rcases hsReply_cases h with e | e
  · rw [if_pos e, e]
    rfl
  · rw [if_neg (by rw [e]; decide), e]
    rfl

end Ids

-- ============================================================== the header

section Start

variable {i : Nat} {s v w : Osdp}

/-- A packet of a handshake starts with a block of three bytes, where there
is no channel yet. -/
theorem hsStarted {size : Nat} {hdr : Int}
    (hinit : osdpPhyPacketInit i size s = .ok hdr v) (hok : 0 ≤ hdr)
    (hroom : packetBufSize ≤ s.txBuf.length) (hmark : MarkAgrees (s.pd i))
    (hact : (s.pd i).flags.scActive = false)
    (hhs : osdpPhyInScHandshake (s.pd i).flags.pdMode (txId (s.pd i)) = true)
    (hw : w.txBuf = v.txBuf) (hm : (w.pd i).markLen = (v.pd i).markLen) :
    Laid i w [] hdr.toNat ∧
      ctrlScb (byteAt w.txBuf ((w.pd i).markLen + 4)) = true ∧
      dataPos i w = (w.pd i).markLen + 5 + 3 := by
  obtain ⟨hl, -, -, hctl, -, hpos⟩ := laid_init hinit hok hroom hmark
  have hbusy : ((s.pd i).flags.pdMode && txId (s.pd i) == replyBusy)
      = false := by
    by_contra hne
    rw [Bool.not_eq_false, Bool.and_eq_true, beq_iff_eq] at hne
    rw [hne.1, hne.2] at hhs
    exact absurd hhs (by decide)
  have hlen : initScbLen (s.pd i) (txId (s.pd i)) = 3 := by
    unfold initScbLen
    rw [hbusy, hact, hhs]
    rfl
  obtain ⟨hlw, hposw⟩ := hl.congr hm hw
  refine ⟨hlw, ?_, ?_⟩
  · rw [hm, hw, hctl, ctrlScb_initControl, hlen]
    rfl
  · rw [hposw, hpos, hlen, hm]

/-- The block type of a handshake is final as it is. -/
theorem pickBlockType_hs {smb : Option Nat} {type : UInt8}
    (h : ∀ off, smb = some off →
      ¬ (scs14 < (byteAt s.txBuf (off + 1)).toNat ∧
        (s.pd i).flags.scActive = true)) :
    pickBlockType i smb type s = .ok () s := by
  cases smb with
  | none => rfl
  | some off =>
    have hbuf : s.buf .tx = s.txBuf := by
      simp [Osdp.buf]
    show (if scs14 < (byteAt (s.buf .tx) (off + 1)).toNat ∧
      (s.pd i).flags.scActive = true then _ else pure () : OsdpM Unit) s = _
    rw [hbuf, if_neg (h off rfl)]
    rfl

end Start

-- =============================================================== a command

section Command

variable {env env' : Env} {run : List ApiCall → OsdpM Unit} {i j : Nat}
variable {s t u w : Osdp}

/-- The case of a handshake's command. -/
theorem cpBuildCases_hs {cmd : Option OsdpCmd} {smb : Option Nat}
    {maxLen : Int} {body : CmdBody}
    (h : cpBuildCases env run i cmd smb maxLen s = .ok body t)
    (hid : hsCommand (s.pd i).cmdId = true) :
    let m := cpHsMessage env (s.pd i).cmdId (s.pd i).hsSide
    body = .fail ∨ ∃ off, smb = some off ∧ body = .data m.data ∧
      t.txBuf = writeAt s.txBuf off [3, m.type, m.sel] ∧
      t.pd i = { s.pd i with sc := m.sc } := by
  intro m
  unfold cpBuildCases at h
  obtain ⟨p, u, hg, h⟩ := bind_ok.mp h
  obtain ⟨rfl, rfl⟩ := getPd_ok.mp hg
  rcases hsCommand_cases hid with e | e
  · have hm : m = chlngMessage (s.pd i).hsSide := if_pos e
    rw [e] at h
    rw [hm]
    obtain ⟨p, u, hg, h⟩ := bind_ok.mp h
    obtain ⟨rfl, rfl⟩ := getPd_ok.mp hg
    cases smb with
    | none => exact .inl (pure_ok.mp h).1.symm
    | some off =>
      dsimp only at h
      split at h
      · exact .inl (pure_ok.mp h).1.symm
      · obtain ⟨_, v, hv, h⟩ := bind_ok.mp h
        cases hv
        obtain ⟨rfl, rfl⟩ := pure_ok.mp h
        exact .inr ⟨off, rfl, rfl, rfl, rfl⟩
  · have hm : m = scryptMessage env (s.pd i).hsSide :=
      if_neg (by rw [e]; decide)
    rw [e] at h
    rw [hm]
    cases smb with
    | none => exact .inl (pure_ok.mp h).1.symm
    | some off =>
      unfold buildScrypt at h
      dsimp only at h
      by_cases hmax : maxLen < 16
      · rw [if_pos hmax] at h
        exact .inl (pure_ok.mp h).1.symm
      · rw [if_neg hmax] at h
        obtain ⟨_, u, hu, h⟩ := bind_ok.mp h
        obtain rfl := updPd_ok.mp hu
        obtain ⟨p, v, hg, h⟩ := bind_ok.mp h
        obtain ⟨rfl, rfl⟩ := getPd_ok.mp hg
        obtain ⟨_, v, hv, h⟩ := bind_ok.mp h
        cases hv
        obtain ⟨rfl, rfl⟩ := pure_ok.mp h
        refine .inr ⟨off, rfl, ?_, ?_, ?_⟩
        · rw [updPd_pd_same]
          rfl
        · rw [updPd_pd_same]
          rfl
        · have e := updPd_pd_same s i fun p =>
            { p with sc := osdpComputeCpCryptogram env p.sc }
          exact e

/-- How `cp_build_command` ends on such a command: three stores. -/
theorem cpBuildCommand_hs {size : Nat} {cmd : Option OsdpCmd} {len : Nat}
    (h : cpBuildCommand env run i cmd size s = .ok (some len) t)
    (hid : hsCommand (s.pd i).cmdId = true)
    (hact : (s.pd i).flags.scActive = false) :
    let m := cpHsMessage env (s.pd i).cmdId (s.pd i).hsSide
    ∃ off, osdpPhyPacketGetSmb (s.pd i) s.txBuf = some off ∧
      dataPos i s < size ∧ len = m.payload.length ∧
      t.txBuf = writeAt (writeAt (writeAt s.txBuf (dataPos i s)
        [UInt8.ofNat m.id]) off [3, m.type, m.sel]) (dataPos i s + 1)
        m.data ∧
      t.pd i = { s.pd i with sc := m.sc } := by
  intro m
  unfold cpBuildCommand at h
  obtain ⟨p, u, hg, h⟩ := bind_ok.mp h
  obtain ⟨rfl, rfl⟩ := getPd_ok.mp hg
  obtain ⟨buf, u, hread, h⟩ := bind_ok.mp h
  cases hread
  have hbuf : s.buf .tx = s.txBuf := by
    simp [Osdp.buf]
  rw [hbuf] at h
  split at h
  · cases (pure_ok.mp h).1
  · next hstart =>
    have hsize : dataPos i s < size :=
      Nat.not_le.mp fun hle => hstart (.inl hle)
    obtain ⟨_, v, hv, h⟩ := bind_ok.mp h
    cases hv
    obtain ⟨body, x, hcases, h⟩ := bind_ok.mp h
    rcases cpBuildCases_hs hcases hid with rfl | ⟨off, hoff, rfl, htx, hpd⟩
    · cases (pure_ok.mp h).1
    · obtain ⟨_, y, hy, h⟩ := bind_ok.mp h
      cases hy
      obtain ⟨_, z, hpick, h⟩ := bind_ok.mp h
      obtain ⟨e, rfl⟩ := pure_ok.mp h
      have hoffline : (x.pd i).flags.scActive = false := by
        rw [hpd]
        exact hact
      rw [cpPickBlockType_eq] at hpick
      have hidle := hpick.symm.trans (pickBlockType_hs fun _ _ hk => by
        rw [hoffline] at hk
        exact absurd hk.2 Bool.false_ne_true)
      cases hidle
      refine ⟨off, hoff, hsize, ?_, ?_, hpd⟩
      · exact (Option.some.inj e).symm
      · show writeAt x.txBuf (dataPos i s + 1) _ = _
        rw [htx, id_cpHsMessage hid]
        rfl

/-- Laying a packet is starting it and building the command. -/
theorem cpLayCommand_parts {size total : Nat}
    (h : cpLayCommand env run i size s = .ok (some total) t) :
    ∃ hdr v x len, osdpPhyPacketInit i size
        (s.updPd i fun p => { p with packetBuf := .tx }) = .ok hdr v ∧
      0 ≤ hdr ∧
      cpBuildCommand env run i
        (cpPacketCmd ((v.updPd i fun p =>
          { p with packetBufLen := hdr.toNat }).pd i)) size
        (v.updPd i fun p => { p with packetBufLen := hdr.toNat })
          = .ok (some len) x ∧
      total = hdr.toNat + len ∧
      t = x.updPd i fun p => { p with packetBufLen := hdr.toNat + len } := by
  unfold cpLayCommand at h
  obtain ⟨_, u, hu, h⟩ := bind_ok.mp h
  obtain rfl := updPd_ok.mp hu
  obtain ⟨hdr, v, hinit, h⟩ := bind_ok.mp h
  by_cases hneg : hdr < 0
  · rw [if_pos hneg] at h
    cases (pure_ok.mp h).1
  · rw [if_neg hneg] at h
    obtain ⟨_, w, hw, h⟩ := bind_ok.mp h
    obtain rfl := updPd_ok.mp hw
    obtain ⟨p, w, hg, h⟩ := bind_ok.mp h
    obtain ⟨rfl, rfl⟩ := getPd_ok.mp hg
    obtain ⟨len, x, hx, h⟩ := bind_ok.mp h
    cases len with
    | none => cases (pure_ok.mp h).1
    | some len =>
      obtain ⟨_, y, hy, h⟩ := bind_ok.mp h
      obtain rfl := updPd_ok.mp hy
      obtain ⟨e, rfl⟩ := pure_ok.mp h
      exact ⟨hdr, v, x, len, hinit, Int.not_lt.mp hneg, hx,
        (Option.some.inj e).symm, rfl⟩

/-- A handshake's packet that lacks the mark byte it is counted with is not
finished either: all three stores are behind the first byte. -/
theorem markAgrees_of_hs {size total : Nat} {done : Int} {v : Osdp}
    (hlay : cpLayCommand env run i size s = .ok (some total) t)
    (hid : hsCommand (s.pd i).cmdId = true)
    (hact : (s.pd i).flags.scActive = false)
    (hroom : packetBufSize ≤ s.txBuf.length) (hsize : size ≤ packetBufSize)
    (hfin : osdpPhyFinalizePacket env i total size t = .ok done v)
    (hge : 0 ≤ done) : MarkAgrees (s.pd i) := by
  by_contra hmark
  obtain ⟨hwrites, hflag⟩ := stale_parts hmark
  obtain ⟨hdr, y, x, len, hinit, hhdr, hx, -, rfl⟩ :=
    cpLayCommand_parts hlay
  rcases osdpPhyPacketInit_ok hinit with ⟨-, rfl, -⟩ | ⟨-, hpd, htx, -⟩
  · exact absurd hhdr (by decide)
  · rw [updPd_pd_same] at hpd htx
    have htx : y.txBuf = headerBuf { s.pd i with packetBuf := .tx }
        s.txBuf := htx
    have hroom : 256 ≤ s.txBuf.length := hroom
    have hsize : size ≤ 256 := hsize
    have hsom : somPos { s.pd i with packetBuf := .tx } = 0 := by
      refine if_neg ?_
      show ¬ writesMark (s.pd i) = true
      rw [hwrites]
      exact Bool.false_ne_true
    have hfirst : byteAt y.txBuf 0 = pktSom := by
      rw [htx, byteAt_headerBuf_lt (by omega) (by omega), hsom]
      rfl
    have hlen : y.txBuf.length = s.txBuf.length := by
      rw [htx]
      exact length_headerBuf (by omega)
    obtain ⟨b, hb⟩ : ∃ b, b = y.updPd i fun p =>
      { p with packetBufLen := hdr.toNat } := ⟨_, rfl⟩
    have hbpd : b.pd i = headedPd (s.pd i) hdr.toNat := by
      rw [hb, updPd_pd_same, hpd]
      rfl
    have hbtx : b.txBuf = y.txBuf := by
      rw [hb]
      rfl
    rw [← hb] at hx
    obtain ⟨off, hoff, hpos, -, hxtx, hxpd⟩ := cpBuildCommand_hs hx
      (by rw [hbpd]; exact hid) (by rw [hbpd]; exact hact)
    obtain ⟨hge5, -⟩ := dataPos_ge i b
    have hoff5 : off = (b.pd i).markLen + 5 := by
      rw [getSmb_eq] at hoff
      split at hoff
      · exact (Option.some.inj hoff).symm
      · cases hoff
    refine finalize_unmarked ?_ ?_ ⟨done, v, hfin, hge⟩
    · show byteAt x.txBuf 0 = pktSom
      rw [hxtx, byteAt_writeAt_lt _ ?_ (Nat.succ_pos _),
        byteAt_writeAt_lt _ ?_ (by omega), byteAt_writeAt_lt _ ?_ (by omega),
        hbtx]
      · exact hfirst
      · rw [hbtx]
        omega
      · refine Nat.le_trans ?_ (length_le_writeAt _ _ _)
        rw [hbtx]
        omega
      · refine Nat.le_trans ?_ (length_le_writeAt _ _ _)
        refine Nat.le_trans ?_ (length_le_writeAt _ _ _)
        rw [hbtx]
        omega
    · rw [updPd_pd_same]
      show (x.pd i).markLen = 1
      rw [hxpd, hbpd]
      show (if (s.pd i).flags.pktHasMark || _ then 1 else 0) = 1
      rw [hflag]
      rfl

/-- **A CP's part of a handshake.**  What it builds for CHLNG or SCRYPT is
its message, the PD reads it to the byte, and of the CP only the channel
may change. -/
theorem cpBuildPacket_hs (hcrc : env.crc16 = env'.crc16)
    (hmode : (s.pd i).flags.pdMode = false)
    (hact : (s.pd i).flags.scActive = false)
    (hroom : packetBufSize ≤ s.txBuf.length)
    (hid : hsCommand (s.pd i).cmdId = true)
    (hcap : (w.pd j).flags.pdMode = true → (w.pd j).scIsCapable = true)
    (hrun : cpBuildPacket env run i s = .ok true u) :
    let m := cpHsMessage env (s.pd i).cmdId (s.pd i).hsSide
    HsArrives env' j (sentFrame i u) m.type m.sel m.payload w ∧
      (u.pd i).hsSide = { (s.pd i).hsSide with sc := m.sc } ∧
      (u.pd i).cmdId = (s.pd i).cmdId := by
  intro m
  rw [cpBuildPacket_eq] at hrun
  obtain ⟨p, a, hg, hrun⟩ := bind_ok.mp hrun
  obtain ⟨rfl, rfl⟩ := getPd_ok.mp hg
  obtain ⟨_, a, ho, hrun⟩ := bind_ok.mp hrun
  obtain rfl := observe_ok.mp ho
  obtain ⟨total, t, hlay, hrun⟩ := bind_ok.mp hrun
  cases total with
  | none => cases (pure_ok.mp hrun).1
  | some total =>
    obtain ⟨done, z, hfin, hrun⟩ := bind_ok.mp hrun
    by_cases hneg : done < 0
    · rw [if_pos hneg] at hrun
      cases (pure_ok.mp hrun).1
    · rw [if_neg hneg] at hrun
      obtain ⟨_, a, ha, hrun⟩ := bind_ok.mp hrun
      obtain ⟨-, rfl⟩ := pure_ok.mp hrun
      obtain rfl := updPd_ok.mp ha
      have hge : 0 ≤ done := Int.not_lt.mp hneg
      have hsize := getTxBufSize_le (s.pd i)
      have hmark := markAgrees_of_hs hlay hid hact hroom hsize hfin hge
      obtain ⟨hdr, y, x, len, hinit, hhdr, hx, rfl, rfl⟩ :=
        cpLayCommand_parts hlay
      have hpd : y.pd i = startedPd { s.pd i with packetBuf := .tx } := by
        rcases osdpPhyPacketInit_ok hinit with ⟨-, rfl, -⟩ | ⟨-, hpd, -⟩
        · exact absurd hhdr (by decide)
        · rw [updPd_pd_same] at hpd
          exact hpd
      -- `b` is where `cp_build_command` starts
      obtain ⟨b, hb⟩ : ∃ b, b = y.updPd i fun p =>
        { p with packetBufLen := hdr.toNat } := ⟨_, rfl⟩
      have hbpd : b.pd i = headedPd (s.pd i) hdr.toNat := by
        rw [hb, updPd_pd_same, hpd]
        rfl
      have hbtx : b.txBuf = y.txBuf := by
        rw [hb]
        rfl
      rw [← hb] at hx
      obtain ⟨hlb, hctl, hpos⟩ := hsStarted hinit hhdr hroom
        (by rw [updPd_pd_same]; exact hmark)
        (by rw [updPd_pd_same]; exact hact)
        (by
          rw [updPd_pd_same]
          show osdpPhyInScHandshake (s.pd i).flags.pdMode
            (if (s.pd i).flags.pdMode then _ else (s.pd i).cmdId) = true
          rw [hmode]
          exact hid)
        hbtx (by rw [hbpd, hpd]; rfl)
      obtain ⟨off, hoff, -, hlen, hxtx, hxpd⟩ := cpBuildCommand_hs hx
        (by rw [hbpd]; exact hid) (by rw [hbpd]; exact hact)
      have hm : cpHsMessage env (b.pd i).cmdId (b.pd i).hsSide = m := by
        rw [hbpd]
        rfl
      rw [hm] at hlen hxtx hxpd
      have hoff5 : off = (b.pd i).markLen + 5 := by
        rw [getSmb_eq, if_pos hctl] at hoff
        exact (Option.some.inj hoff).symm
      -- the last store before the finalizer is of the length alone
      obtain ⟨t, ht⟩ : ∃ t, t = x.updPd i fun p =>
        { p with packetBufLen := hdr.toNat + len } := ⟨_, rfl⟩
      have htpd : t.pd i = { headedPd (s.pd i) hdr.toNat with
          sc := m.sc, packetBufLen := hdr.toNat + len } := by
        rw [ht, updPd_pd_same, hxpd, hbpd]
      have httx : t.txBuf = x.txBuf := by
        rw [ht]
        rfl
      rw [← ht] at hfin
      have hstores : t.txBuf = writeAt (writeAt (writeAt b.txBuf
          (dataPos i b) [UInt8.ofNat m.id]) ((b.pd i).markLen + 5)
          [3, m.type, m.sel]) (dataPos i b + 1) m.data := by
        rw [httx, hxtx, hoff5]
      obtain ⟨hready, hpost⟩ := hsReady_of_stores hlb hctl hpos
        (by rw [htpd, hbpd]; rfl) hstores
      have hstop : hdr.toNat = dataPos i t := by
        rw [hpost, hlb.stop, List.length_nil, Nat.add_zero]
      rw [hstop, hlen] at hfin
      obtain ⟨harr, hupd⟩ := hready.arrives (List.cons_ne_nil _ _) hcrc hcap
        (hsType_cpHsMessage env _ _) hsize hfin hge
      refine ⟨?_, ?_, ?_⟩
      · rw [sentFrame_of rfl rfl rfl]
        exact harr
      · rw [updPd_pd_same, hupd, htpd]
        rfl
      · rw [updPd_pd_same, hupd, htpd]
        rfl

end Command

-- ================================================================= a reply

section Reply

variable {env env' : Env} {run : List ApiCall → OsdpM Unit} {i j : Nat}
variable {s t u w : Osdp}

/-- What the application is told changes nothing of a handshake. -/
theorem Quiet.hsSide (h : Quiet s t) (j : Nat) :
    (t.pd j).hsSide = (s.pd j).hsSide ∧
      (t.pd j).markLen = (s.pd j).markLen := by
  have e := congrArg (fun p : OsdpPd => (p.hsSide, p.markLen)) (h.pd j)
  exact ⟨congrArg Prod.fst e, congrArg Prod.snd e⟩

/-- CCRYPT. -/
theorem buildCcrypt_ok {off : Nat} {maxLen : Int} {body : Option Bytes}
    (h : buildCcrypt env i (some off) maxLen s = .ok body t)
    (hid : (s.pd i).replyId = replyCcrypt) (hmax : 32 ≤ maxLen) :
    ∃ r : Bytes, r.length = 8 ∧
      let m := pdHsMessage env r (s.pd i).replyId (s.pd i).hsSide
      body = some m.data ∧
        t.txBuf = writeAt s.txBuf off [3, m.type, m.sel] ∧
        (t.pd i).hsSide = (s.pd i).hsSide.said m ∧
        (t.pd i).markLen = (s.pd i).markLen := by
  unfold buildCcrypt at h
  dsimp only at h
  rw [if_neg (Int.not_lt.mpr hmax)] at h
  obtain ⟨r, u, hu, h⟩ := bind_ok.mp h
  obtain ⟨_, v, hv, h⟩ := bind_ok.mp h
  obtain ⟨_, w, hw, h⟩ := bind_ok.mp h
  obtain ⟨_, x, hx, h⟩ := bind_ok.mp h
  obtain ⟨p, y, hg, h⟩ := bind_ok.mp h
  obtain ⟨rfl, rfl⟩ := getPd_ok.mp hg
  obtain ⟨_, z, hz, h⟩ := bind_ok.mp h
  obtain ⟨rfl, rfl⟩ := pure_ok.mp h
  cases hz
  have hrlen : r.length = 8 := by
    cases hu
    unfold randomBytes
    rw [List.length_map, List.length_range]
  have hus : u.pd = s.pd ∧ u.txBuf = s.txBuf := by
    cases hu
    exact ⟨rfl, rfl⟩
  have hvpd : v.pd i
      = { s.pd i with sc := { (s.pd i).sc with pdRandom := r } } := by
    rw [← updPd_ok.mp hv, updPd_pd_same, hus.1]
  have hvtx : v.txBuf = s.txBuf := by
    rw [← updPd_ok.mp hv]
    exact hus.2
  have hwpd : w.pd i = { v.pd i with sc := keyedSc env (v.pd i) } ∧
      w.txBuf = v.txBuf := by
    unfold osdpComputeSessionKeys at hw
    obtain ⟨_, a, ha, hw⟩ := bind_ok.mp hw
    obtain rfl := updPd_ok.mp ha
    obtain ⟨p, b, hb, hw⟩ := bind_ok.mp hw
    obtain ⟨rfl, rfl⟩ := getPd_ok.mp hb
    obtain rfl := observe_ok.mp hw
    exact ⟨updPd_pd_same v i fun p =>
      { p with sc := computeSessionKeys env p.sessionKeyBase p.sc }, rfl⟩
  have hxpd : x.pd i
      = { s.pd i with sc := ccryptSc env r (s.pd i).hsSide } := by
    rw [← updPd_ok.mp hx, updPd_pd_same, hwpd.1, hvpd]
    rfl
  have hxtx : x.txBuf = s.txBuf := by
    rw [← updPd_ok.mp hx]
    exact hwpd.2.trans hvtx
  refine ⟨r, hrlen, ?_⟩
  intro m
  have hm : m = ccryptMessage env r (s.pd i).hsSide := if_pos hid
  rw [hm, hxpd]
  refine ⟨rfl, ?_, ?_, ?_⟩
  · show writeAt x.txBuf off _ = _
    rw [hxtx]
    rfl
  · unfold HsSide.said
    rw [show ((ccryptMessage env r (s.pd i).hsSide).id == replyRmacI) = false
      from rfl, Bool.or_false]
    rfl
  · rfl

variable (hr : ∀ calls, Keeps Quiet (run calls))
include hr

/-- RMAC_I. -/
theorem buildRmacI_ok {off : Nat} {maxLen : Int} {body : Option Bytes}
    (h : buildRmacI env run i (some off) maxLen s = .ok body t)
    (hid : (s.pd i).replyId = replyRmacI) (hmax : 16 ≤ maxLen)
    (r : Bytes) :
    let m := pdHsMessage env r (s.pd i).replyId (s.pd i).hsSide
    body = some m.data ∧
      t.txBuf = writeAt s.txBuf off [3, m.type, m.sel] ∧
      (t.pd i).hsSide = (s.pd i).hsSide.said m ∧
      (t.pd i).markLen = (s.pd i).markLen := by
  intro m
  have hm : m = rmacIMessage env (s.pd i).hsSide :=
    if_neg (by rw [hid]; decide)
  unfold buildRmacI at h
  dsimp only at h
  rw [if_neg (Int.not_lt.mpr hmax)] at h
  obtain ⟨_, u, hu, h⟩ := bind_ok.mp h
  obtain rfl := updPd_ok.mp hu
  obtain ⟨p, v, hg, h⟩ := bind_ok.mp h
  obtain ⟨rfl, rfl⟩ := getPd_ok.mp hg
  obtain ⟨_, w, hw, h⟩ := bind_ok.mp h
  have hwpd : w.pd i = { s.pd i with sc := osdpComputeRmacI env (s.pd i).sc } ∧
      w.txBuf = writeAt s.txBuf off [3, 0x14, 1] := by
    cases hw
    exact ⟨updPd_pd_same s i fun p =>
      { p with sc := osdpComputeRmacI env p.sc }, rfl⟩
  obtain ⟨_, x, hx, h⟩ := bind_ok.mp h
  obtain ⟨_, a, ha, hx⟩ := bind_ok.mp hx
  obtain rfl := updPd_ok.mp ha
  obtain rfl := observe_ok.mp hx
  obtain ⟨_, y, hy, h⟩ := bind_ok.mp h
  obtain ⟨now, _, hn, h⟩ := bind_ok.mp h
  cases hn
  obtain ⟨_, z, hz, h⟩ := bind_ok.mp h
  obtain ⟨rfl, rfl⟩ := pure_ok.mp h
  obtain rfl := updPd_ok.mp hz
  have hq : Quiet _ y := (keeps_notifyScStatus hr i).of hy
  have hytx : y.txBuf = w.txBuf := by
    have e := congrArg Osdp.txBuf hq.rest
    exact e
  obtain ⟨hside, hmark⟩ := hq.hsSide i
  rw [hm]
  refine ⟨?_, ?_, ?_, ?_⟩
  · rw [updPd_pd_same]
    rfl
  · show y.txBuf = _
    rw [hytx, hwpd.2]
    rfl
  · rw [updPd_pd_same]
    show (y.pd i).hsSide = _
    rw [hside]
    show ((w.updPd i fun p =>
      { p with flags := { p.flags with scActive := true } }).pd i).hsSide = _
    rw [updPd_pd_same, hwpd.1]
    unfold HsSide.said
    rw [show ((rmacIMessage env (s.pd i).hsSide).id == replyRmacI) = true
      from rfl, Bool.or_true]
    rfl
  · rw [updPd_pd_same]
    show (y.pd i).markLen = _
    rw [hmark]
    show ((w.updPd i fun p =>
      { p with flags := { p.flags with scActive := true } }).pd i).markLen = _
    rw [updPd_pd_same, hwpd.1]
    rfl

/-- The data block of a handshake's reply: it always can be built. -/
theorem pdBuildData_hs {off : Nat} {maxLen : Int} {body : Option Bytes}
    {p : OsdpPd}
    (h : pdBuildData env run i p (some off) maxLen s = .ok body t)
    (hp : s.pd i = p) (hid : hsReply p.replyId = true)
    (hmax : 32 ≤ maxLen) :
    ∃ r : Bytes, r.length = 8 ∧
      let m := pdHsMessage env r p.replyId p.hsSide
      body = some m.data ∧
        t.txBuf = writeAt s.txBuf off [3, m.type, m.sel] ∧
        (t.pd i).hsSide = p.hsSide.said m ∧
        (t.pd i).markLen = p.markLen := by
  subst hp
  unfold pdBuildData at h
  rcases hsReply_cases hid with e | e
  · have hbacked (ev : Option OsdpEvent) :
        replyUnbacked (s.pd i) (s.pd i).replyId ev = false := by
      rw [e]
      rfl
    rw [hbacked, if_neg Bool.false_ne_true, e] at h
    obtain ⟨p, u, hg, h⟩ := bind_ok.mp h
    obtain ⟨rfl, rfl⟩ := getPd_ok.mp hg
    exact buildCcrypt_ok h e hmax
  · have hbacked (ev : Option OsdpEvent) :
        replyUnbacked (s.pd i) (s.pd i).replyId ev = false := by
      rw [e]
      rfl
    rw [hbacked, if_neg Bool.false_ne_true, e] at h
    obtain ⟨p, u, hg, h⟩ := bind_ok.mp h
    obtain ⟨rfl, rfl⟩ := getPd_ok.mp hg
    exact ⟨zeros 8, rfl, buildRmacI_ok hr h e (by omega) _⟩

/-- How `pd_build_reply` ends on such a reply: three stores. -/
theorem pdBuildReply_hs {size hdr : Nat} {len : Int}
    (h : pdBuildReply env run i size s = .ok len t) (hl : Laid i s [] hdr)
    (hctl : ctrlScb (byteAt s.txBuf ((s.pd i).markLen + 4)) = true)
    (hpos : dataPos i s = (s.pd i).markLen + 5 + 3)
    (hsize : minimumPacketSize ≤ size)
    (hid : hsReply (s.pd i).replyId = true) :
    ∃ r : Bytes, r.length = 8 ∧
      let m := pdHsMessage env r (s.pd i).replyId (s.pd i).hsSide
      len = m.payload.length ∧
        t.txBuf = writeAt (writeAt (writeAt s.txBuf (dataPos i s)
          [UInt8.ofNat m.id]) ((s.pd i).markLen + 5) [3, m.type, m.sel])
          (dataPos i s + 1) m.data ∧
        (t.pd i).hsSide = (s.pd i).hsSide.said m ∧
        (t.pd i).markLen = (s.pd i).markLen := by
  have hsize : 128 ≤ size := hsize
  have hmark := markLen_le (s.pd i)
  have hfit : dataPos i s ≤ s.txBuf.length := by
    have hstop := hl.stop
    have hroom := hl.room
    rw [List.length_nil] at hstop
    omega
  unfold pdBuildReply at h
  obtain ⟨p, u, hg, h⟩ := bind_ok.mp h
  obtain ⟨rfl, rfl⟩ := getPd_ok.mp hg
  obtain ⟨_, u, hu, h⟩ := bind_ok.mp h
  obtain rfl := observe_ok.mp hu
  unfold pdBuildBody at h
  obtain ⟨buf, u, hread, h⟩ := bind_ok.mp h
  cases hread
  have hbuf : ({ s with
      log := .build i (s.pd i).replyId (s.pd i).flags.scActive :: s.log } :
      Osdp).buf .tx = s.txBuf := by
    simp [Osdp.buf]
  rw [hbuf] at h
  dsimp only at h
  rw [getSmb_eq, if_pos hctl] at h
  by_cases hshort : size ≤ osdpPhyPacketGetDataOffset (s.pd i) s.txBuf
  · have hshort : size ≤ dataPos i s := hshort
    omega
  · rw [if_neg hshort] at h
    obtain ⟨_, v, hv, h⟩ := bind_ok.mp h
    cases hv
    obtain ⟨body, x, hdata, h⟩ := bind_ok.mp h
    have hroom : (32 : Int) ≤ (size - dataPos i s - 1 : Nat) := by omega
    obtain ⟨r, hrlen, hbody, htx, hside, hm⟩ :=
      pdBuildData_hs hr hdata rfl hid hroom
    refine ⟨r, hrlen, ?_⟩
    intro m
    have hxtx : x.txBuf = writeAt (writeAt s.txBuf (dataPos i s)
        [UInt8.ofNat m.id]) ((s.pd i).markLen + 5) [3, m.type, m.sel] := by
      rw [id_pdHsMessage hid]
      exact htx
    rw [show body = some m.data from hbody] at h
    unfold pdFinishReply at h
    obtain ⟨_, y, hy, h⟩ := bind_ok.mp h
    cases hy
    obtain ⟨_, z, hpick, h⟩ := bind_ok.mp h
    obtain ⟨rfl, rfl⟩ := pure_ok.mp h
    rw [pdPickBlockType_eq] at hpick
    -- the block's type is where it was stored
    have htype : byteAt (writeAt x.txBuf (dataPos i s + 1) m.data)
        ((s.pd i).markLen + 5 + 1) = m.type := by
      have hin : dataPos i s + 1 ≤ x.txBuf.length := by
        rw [hxtx]
        refine Nat.le_trans ?_ (length_le_writeAt _ _ _)
        exact stop_le_length_writeAt [UInt8.ofNat m.id] hfit
      rw [byteAt_writeAt_lt _ hin (by omega), hxtx]
      refine byteAt_written (k := 1) ?_ (Nat.succ_lt_succ (Nat.succ_pos _))
      refine Nat.le_trans ?_ (length_le_writeAt _ _ _)
      omega
    have hidle := hpick.symm.trans (pickBlockType_hs fun off hoff hk => by
      obtain rfl := Option.some.inj hoff
      have hhigh := (hsType_bounds (hsType_pdHsMessage env r
        (s.pd i).replyId (s.pd i).hsSide)).2
      have hlow : scs14 < (byteAt
          (writeAt x.txBuf (dataPos i s + 1) m.data)
          ((s.pd i).markLen + 5 + 1)).toNat := hk.1
      rw [htype] at hlow
      exact absurd hlow (Nat.not_lt.mpr hhigh))
    cases hidle
    refine ⟨rfl, ?_, hside, hm⟩
    show writeAt x.txBuf (dataPos i s + 1) m.data = _
    rw [hxtx]

omit hr in
/-- Laying a packet is starting it and building the reply. -/
theorem pdLayReply_parts {size total : Nat}
    (h : pdLayReply env run i size s = .ok (some total) t) :
    ∃ hdr v w x len, osdpPhyPacketInit i size
        (s.updPd i fun p => { p with packetBuf := .tx }) = .ok hdr v ∧
      ¬ hdr < 0 ∧ pdStage i hdr.toNat v = .ok () w ∧
      pdBuildReply env run i size w = .ok len x ∧
      total = hdr.toNat + len.toNat ∧
      t = x.updPd i fun p => { p with
        packetBuf := .tx, packetBufLen := hdr.toNat + len.toNat } := by
  unfold pdLayReply at h
  obtain ⟨_, u, hu, h⟩ := bind_ok.mp h
  obtain rfl := updPd_ok.mp hu
  obtain ⟨hdr, v, hinit, h⟩ := bind_ok.mp h
  by_cases hneg : hdr < 0
  · rw [if_pos hneg] at h
    cases (pure_ok.mp h).1
  · rw [if_neg hneg] at h
    obtain ⟨_, w, hw, h⟩ := bind_ok.mp h
    obtain ⟨len, x, hx, h⟩ := bind_ok.mp h
    by_cases hle : len ≤ 0
    · rw [if_pos hle] at h
      cases (pure_ok.mp h).1
    · rw [if_neg hle] at h
      obtain ⟨_, y, hy, h⟩ := bind_ok.mp h
      obtain rfl := updPd_ok.mp hy
      obtain ⟨e, rfl⟩ := pure_ok.mp h
      exact ⟨hdr, v, w, x, len, hinit, hneg, hw, hx,
        (Option.some.inj e).symm, rfl⟩

/-- **A PD's part of a handshake.**  What it builds for CCRYPT or RMAC_I
is its message, with a number it drew; the CP reads it to the byte; and of
the PD only the channel changes. -/
theorem pdBuildReplyPacket_hs (hcrc : env.crc16 = env'.crc16)
    (hmode : (s.pd j).flags.pdMode = true)
    (hact : (s.pd j).flags.scActive = false)
    (hroom : packetBufSize ≤ s.txBuf.length)
    (hid : hsReply (s.pd j).replyId = true)
    (hcap : (w.pd i).flags.pdMode = true → (w.pd i).scIsCapable = true)
    (hrun : pdBuildReplyPacket env run j s = .ok pdErrNone u) :
    ∃ r : Bytes, r.length = 8 ∧
      let m := pdHsMessage env r (s.pd j).replyId (s.pd j).hsSide
      HsArrives env' i (sentFrame j u) m.type m.sel m.payload w ∧
        (u.pd j).hsSide = (s.pd j).hsSide.said m := by
  rw [pdBuildReplyPacket_eq] at hrun
  obtain ⟨p, a, hg, hrun⟩ := bind_ok.mp hrun
  obtain ⟨rfl, rfl⟩ := getPd_ok.mp hg
  obtain ⟨total, t, hlay, hrun⟩ := bind_ok.mp hrun
  cases total with
  | none => cases (pure_ok.mp hrun).1
  | some total =>
    obtain ⟨done, z, hfin, hrun⟩ := bind_ok.mp hrun
    by_cases hneg : done < 0
    · rw [if_pos hneg] at hrun
      cases (pure_ok.mp hrun).1
    · rw [if_neg hneg] at hrun
      obtain ⟨_, a, ha, hrun⟩ := bind_ok.mp hrun
      obtain ⟨-, rfl⟩ := pure_ok.mp hrun
      obtain rfl := updPd_ok.mp ha
      have hge : 0 ≤ done := Int.not_lt.mp hneg
      obtain ⟨hdr, y, b, x, len, hinit, hhdr, hb, hx, rfl, rfl⟩ :=
        pdLayReply_parts hlay
      have hlarge : minimumPacketSize ≤ getTxBufSize (s.pd j) := by
        rcases osdpPhyPacketInit_ok hinit with ⟨-, rfl, -⟩ | ⟨hge, -⟩
        · exact absurd (by decide) hhdr
        · exact hge
      have hst := layStarted hinit hhdr hmode hroom hb
      have hbtx : b.txBuf = y.txBuf := by
        rw [← updPd_ok.mp hb]
        rfl
      have hbm : (b.pd j).markLen = (y.pd j).markLen := by
        rw [← updPd_ok.mp hb, updPd_pd_same]
        rfl
      obtain ⟨hlb, hctl, hpos⟩ := hsStarted hinit (Int.not_lt.mp hhdr)
        hroom (markAgrees_pd (by rw [updPd_pd_same]; exact hmode))
        (by rw [updPd_pd_same]; exact hact)
        (by
          rw [updPd_pd_same]
          show osdpPhyInScHandshake (s.pd j).flags.pdMode
            (if (s.pd j).flags.pdMode then (s.pd j).replyId else _) = true
          rw [hmode]
          exact hid)
        hbtx hbm
      obtain ⟨r, hrlen, hlen, hxtx, hxside, hxm⟩ := pdBuildReply_hs hr hx
        hlb hctl hpos hlarge (by rw [hst.pd]; exact hid)
      refine ⟨r, hrlen, ?_⟩
      intro m
      have hm : pdHsMessage env r (b.pd j).replyId (b.pd j).hsSide = m := by
        rw [hst.pd]
        rfl
      rw [hm] at hlen hxtx hxside
      -- the last store before the finalizer is of the length alone
      obtain ⟨t, ht⟩ : ∃ t, t = x.updPd j fun p => { p with
        packetBuf := .tx, packetBufLen := hdr.toNat + len.toNat } := ⟨_, rfl⟩
      have htm : (t.pd j).markLen = (b.pd j).markLen := by
        rw [ht, updPd_pd_same]
        exact hxm
      have htside : (t.pd j).hsSide = (x.pd j).hsSide := by
        rw [ht, updPd_pd_same]
        rfl
      have httx : t.txBuf = x.txBuf := by
        rw [ht]
        rfl
      rw [← ht] at hfin
      have hstores : t.txBuf = writeAt (writeAt (writeAt b.txBuf
          (dataPos j b) [UInt8.ofNat m.id]) ((b.pd j).markLen + 5)
          [3, m.type, m.sel]) (dataPos j b + 1) m.data := by
        rw [httx, hxtx]
      obtain ⟨hready, hpost⟩ :=
        hsReady_of_stores hlb hctl hpos htm hstores
      have hstop : hdr.toNat = dataPos j t := by
        rw [hpost, hlb.stop, List.length_nil, Nat.add_zero]
      have hlen' : len.toNat = m.payload.length := by
        rw [hlen, Int.toNat_natCast]
      rw [hstop, hlen'] at hfin
      obtain ⟨harr, hupd⟩ := hready.arrives (List.cons_ne_nil _ _) hcrc hcap
        (hsType_pdHsMessage env r _ _) (getTxBufSize_le _) hfin hge
      refine ⟨?_, ?_⟩
      · rw [sentFrame_of rfl rfl rfl]
        exact harr
      · rw [updPd_pd_same]
        show (z.pd j).hsSide = _
        rw [hupd, htside, hxside, hst.pd]
        rfl

end Reply

end LibOsdp
