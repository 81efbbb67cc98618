/-
The framer stays inside its buffer and never stops on a stream.

# What is in the buffer

Between two calls the receive side hunts, or holds less than a header, or
holds a header that was accepted and less than the frame it announces
(`RxSide.Sound`).  The middle case is the tight one: a buffer that could
be judged has been, so one that waits for a header is short of five
bytes, and a call on a ring that is not empty moves at least one byte
over.  This is where re-scanning in place matters: what it leaves starts
with SOM, or a mark byte and SOM, and is shorter than what was refused
(`length_nested`).

# Inside a call

`Moment` lists the states a call of `osdp_phy_check_packet` goes through
until it has a frame or gives up.  Stores only ever lengthen a buffer in
this model, so a buffer that has its size was never written behind its
end.
-/
import LibOsdp.Phy.Proofs.Chunks

namespace LibOsdp

open Lib

-- ============================================================ vocabulary

/-- A run of calls, one chunk arriving for each. -/
def phyPolls (env : Env) (i : Nat) : List Bytes → Osdp → Osdp
  | [], s => s
  | c :: cs, s => phyPolls env i cs (phyPoll env i c s)

/-- The packet buffers have their size. -/
def FullSize (s : Osdp) : Prop := ∀ ref, (s.buf ref).length = packetBufSize

/-- The packet buffer is filled no further than the frame it collects is
long, nor further than it reaches, and no store went behind its end. -/
structure InBounds (i : Nat) (s : Osdp) : Prop where
  filled : (s.pd i).packetBufLen ≤ packetBufSize
  frame : (s.pd i).packetLen ≤ packetBufSize
  within : (s.pd i).packetLen ≠ 0 →
    (s.pd i).packetBufLen ≤ (s.pd i).packetLen
  sized : FullSize s

/-- The states a call goes through on its way to a frame. -/
inductive Moment (i : Nat) (s : Osdp) : Osdp → Prop
  /-- the line was read -/
  | received {t : Osdp} (h : phyReceive i s = .ok () t) : Moment i s t
  /-- a packet start was looked for -/
  | found {t u : Osdp} {b : Bool} (h : phyReceive i s = .ok () t)
      (header : (t.pd i).packetLen = 0)
      (start : phyFindStart i t = .ok b u) : Moment i s u
  /-- the header was topped up -/
  | topped {t u v : Osdp} (h : phyReceive i s = .ok () t)
      (header : (t.pd i).packetLen = 0)
      (start : phyFindStart i t = .ok true u)
      (fill : phyFillHeader i u = .ok () v) : Moment i s v
  /-- the header was judged, and searched if it is none -/
  | judged {t u v w : Osdp} {rc : Int} (h : phyReceive i s = .ok () t)
      (header : (t.pd i).packetLen = 0)
      (start : phyFindStart i t = .ok true u)
      (fill : phyFillHeader i u = .ok () v)
      (judge : phyJudgeHeader i v = .ok rc w) : Moment i s w
  /-- the header was accepted -/
  | accepted {t u v w : Osdp} {rc : Int} (h : phyReceive i s = .ok () t)
      (header : (t.pd i).packetLen = 0)
      (start : phyFindStart i t = .ok true u)
      (fill : phyFillHeader i u = .ok () v)
      (judge : phyJudgeHeader i v = .ok rc w) (good : ¬ rc < 0) :
      Moment i s (w.updPd i fun p => { p with packetLen := rc.toNat })
  /-- all of the frame that has come is in the buffer -/
  | assembled {t : Osdp} {rc : Int} (h : phyAssemble i s = .ok rc t) :
      Moment i s t

-- ====================================================== the receive side

/-- The receive side between two calls. -/
inductive RxSide.Sound (pdMode : Bool) : RxSide → Prop
  | hunting (ring : Bytes) (mark : Bool) : Sound pdMode ⟨[], 0, ring, mark⟩
  | header (m : Bool) (x ring : Bytes) (mark : Bool)
      (short : (startBytes m ++ x).length < pktHdrLen) :
      Sound pdMode ⟨startBytes m ++ x, 0, ring, mark⟩
  | frame (m : Bool) (x ring : Bytes) (n : Nat)
      (verdict : headerVerdict pdMode m x = n)
      (known : pktHdrLen ≤ (startBytes m ++ x).length)
      (short : (startBytes m ++ x).length < n) :
      Sound pdMode ⟨startBytes m ++ x, n, ring, m⟩

/-- The numbers of a receive side are in bounds. -/
structure RxSide.Fits (r : RxSide) : Prop where
  filled : r.buf.length ≤ packetBufSize
  frame : r.len ≤ packetBufSize
  within : r.len ≠ 0 → r.buf.length ≤ r.len

section Side

variable {pdMode : Bool} {r q : RxSide}

/-- A length that was accepted fits the buffer, and the buffered header
is part of it. -/
theorem headerVerdict_bounds {m : Bool} {x : Bytes} {n : Nat}
    (h : headerVerdict pdMode m x = n) :
    n ≤ packetBufSize ∧ pktHdrLen + 1 + m.toNat ≤ n := by
  unfold headerVerdict at h
  dsimp only at h
  split at h
  · cases h
  · next hok =>
    split at h
    · cases h
    · have hn := Int.ofNat.inj h
      omega

theorem RxSide.Sound.fits (h : r.Sound pdMode) : r.Fits := by
  cases h with
  | hunting ring mark =>
    exact ⟨Nat.zero_le _, Nat.zero_le _, fun _ => Nat.zero_le _⟩
  | header m x ring mark short =>
    refine ⟨?_, Nat.zero_le _, fun hc => absurd rfl hc⟩
    exact Nat.le_trans (Nat.le_of_lt short) (by decide)
  | frame m x ring n verdict known short =>
    have hn := (headerVerdict_bounds verdict).1
    exact ⟨by dsimp only; omega, hn, fun _ => Nat.le_of_lt short⟩

/-- What is re-scanned to another packet start is shorter than a
header. -/
theorem length_nested {m' : Bool} {x y : Bytes}
    (inside : scanSom 0 (x.take 4) = some (m', y)) :
    (startBytes m' ++ y).length < pktHdrLen := by
  have hlen := scanSom_length inside
  rw [if_neg (by decide), List.length_take] at hlen
  rw [List.length_append, length_startBytes, pktHdrLen]
  omega

/-- Every call leaves the receive side sound. -/
theorem Call.sound {pos : Option Bool} {l : Bytes} {ev : Option Finding}
    (h : Call pdMode pos l ev r) : r.Sound pdMode := by
  cases h with
  | dry hunts mark => exact .hunting [] mark
  | short start few mark => exact .header _ _ _ _ few
  | nested start enough verdict inside =>
    exact .header _ _ _ _ (length_nested inside)
  | bad start enough verdict inside => exact .hunting _ _
  | skip start enough verdict => exact .hunting _ _
  | part start enough verdict more => exact .frame _ _ _ _ verdict enough more
  | whole start enough verdict all => exact .hunting _ _

/-- The bytes of a call that are behind a packet start, and what is left
of the ring from the fourth of them on. -/
theorem drop_four_lt {x ring : Bytes} {m : Bool}
    (short : (startBytes m ++ x).length < pktHdrLen) (hne : ring ≠ []) :
    ((x ++ ring).drop 4).length < ring.length := by
  have hpos := List.length_pos_iff.mpr hne
  rw [List.length_append, length_startBytes, pktHdrLen] at short
  rw [List.length_drop, List.length_append]
  omega

/-- What is left of the ring behind a frame that some of the ring is part
of. -/
theorem drop_frame_lt {b ring : Bytes} {n : Nat} (short : b.length < n)
    (hne : ring ≠ []) : ((b ++ ring).drop n).length < ring.length := by
  have hpos := List.length_pos_iff.mpr hne
  rw [List.length_drop, List.length_append]
  omega

/-- A call on a ring that holds a packet start takes that much of it. -/
theorem Call.consumes_hunting {ring : Bytes} {ev : Option Finding}
    (hne : ring ≠ []) (h : Call pdMode none ring ev r) :
    r.ring.length < ring.length := by
  have hpos := List.length_pos_iff.mpr hne
  have hstart {m : Bool} {x : Bytes}
      (start : behind none ring = some (m, x)) :
      1 + m.toNat + x.length ≤ ring.length := by
    have hlen := scanSom_length start
    rwa [if_neg (by decide), Nat.add_zero] at hlen
  have hdrop {m : Bool} {x : Bytes}
      (start : behind none ring = some (m, x)) :
      (x.drop 4).length < ring.length := by
    have hlen := hstart start
    rw [List.length_drop]
    omega
  cases h with
  | dry hunts mark => exact hpos
  | short start few mark => exact hpos
  | nested start enough verdict inside => exact hdrop start
  | bad start enough verdict inside => exact hdrop start
  | skip start enough verdict => exact hdrop start
  | part start enough verdict more => exact hpos
  | whole start enough verdict all =>
    have hlen := hstart start
    have hn := (headerVerdict_bounds verdict).2
    dsimp only
    rw [List.length_drop, List.length_append, length_startBytes]
    omega

/-- Behind a packet start whose header is not there yet. -/
theorem Call.consumes_header {m : Bool} {x ring : Bytes}
    {ev : Option Finding}
    (short : (startBytes m ++ x).length < pktHdrLen) (hne : ring ≠ [])
    (h : Call pdMode (some m) (x ++ ring) ev r) :
    r.ring.length < ring.length := by
  have hpos := List.length_pos_iff.mpr hne
  have hdrop := drop_four_lt short hne
  cases h with
  | dry hunts mark => cases hunts
  | short start few mark => exact hpos
  | nested start enough verdict inside => cases start; exact hdrop
  | bad start enough verdict inside => cases start; exact hdrop
  | skip start enough verdict => cases start; exact hdrop
  | part start enough verdict more => exact hpos
  | whole start enough verdict all =>
    cases start
    have hn := (headerVerdict_bounds verdict).2
    rw [← List.append_assoc]
    exact drop_frame_lt (by omega) hne

/-- Behind a header that was accepted. -/
theorem Call.consumes_frame {m : Bool} {x ring : Bytes} {n : Nat}
    {ev : Option Finding} (verdict : headerVerdict pdMode m x = n)
    (known : pktHdrLen ≤ (startBytes m ++ x).length)
    (short : (startBytes m ++ x).length < n) (hne : ring ≠ [])
    (h : Call pdMode (some m) (x ++ ring) ev r) :
    r.ring.length < ring.length := by
  have hpos := List.length_pos_iff.mpr hne
  have hsame : headerVerdict pdMode m (x ++ ring) = n := by
    rw [headerVerdict_append (three_le_of_header known), verdict]
  have hno {e : Int} (he : e < 0)
      (hv : headerVerdict pdMode m (x ++ ring) = e) : False := by
    rw [hsame] at hv
    omega
  cases h with
  | dry hunts mark => cases hunts
  | short start few mark => exact hpos
  | nested start enough hv inside =>
    cases start
    exact absurd hv fun hv => hno (by decide) hv
  | bad start enough hv inside =>
    cases start
    exact absurd hv fun hv => hno (by decide) hv
  | skip start enough hv =>
    cases start
    exact absurd hv fun hv => hno (by decide) hv
  | part start enough hv more => exact hpos
  | whole start enough hv all =>
    cases start
    have hn := Int.ofNat.inj (hsame.symm.trans hv)
    subst hn
    rw [← List.append_assoc]
    exact drop_frame_lt short hne

/-- One call: the receive side is sound again, and of a ring that is not
empty something was taken. -/
theorem RxSide.Sound.call (h : q.Sound pdMode) :
    (q.call pdMode []).2.Sound pdMode ∧
      (q.ring ≠ [] → (q.call pdMode []).2.ring.length < q.ring.length) := by
  cases h with
  | hunting ring mark =>
    have hat : RxSide.At pdMode ⟨[], 0, ring, mark⟩ none ring :=
      .hunting ring mark
    have hcall := call_spec hat []
    refine ⟨hcall.sound, fun hne => ?_⟩
    rw [List.append_nil] at hcall
    exact hcall.consumes_hunting hne
  | header m x ring mark short =>
    have hx : x.length ≤ 4 := by
      rw [List.length_append, length_startBytes, pktHdrLen] at short
      omega
    have hat : RxSide.At pdMode ⟨startBytes m ++ x, 0, ring, mark⟩
        (some m) (x ++ ring) := .header m x ring mark hx
    have hcall := call_spec hat []
    refine ⟨hcall.sound, fun hne => ?_⟩
    rw [List.append_nil] at hcall
    exact hcall.consumes_header short hne
  | frame m x ring n verdict known short =>
    have hcall := call_spec (.frame m x ring n verdict known short) []
    refine ⟨hcall.sound, fun hne => ?_⟩
    rw [List.append_nil] at hcall
    exact hcall.consumes_frame verdict known short hne

/-- A ring that gained bytes changes nothing of this. -/
theorem RxSide.Sound.ring (h : r.Sound pdMode) (ring : Bytes) :
    ({ r with ring := ring } : RxSide).Sound pdMode := by
  cases h with
  | hunting ring' mark => exact .hunting ring mark
  | header m x ring' mark short => exact .header m x ring mark short
  | frame m x ring' n verdict known short =>
    exact .frame m x ring n verdict known short

-- =================================================== the steps of a call

/-- A packet start in the buffer, and less than a header. -/
structure RxSide.Started (r : RxSide) (m : Bool) (x : Bytes) : Prop where
  buf : r.buf = startBytes m ++ x
  len : r.len = 0
  short : (startBytes m ++ x).length < pktHdrLen

theorem RxSide.Sound.found (h : r.Sound pdMode) (hlen : r.len = 0)
    (hq : r.findStart = some q) : ∃ m x, q.Started m x := by
  cases h with
  | hunting ring mark =>
    unfold RxSide.findStart at hq
    rw [if_neg (not_not.mpr rfl)] at hq
    cases hscan : scanSom 0 ring with
    | none =>
      dsimp only at hq
      rw [hscan] at hq
      cases hq
    | some mr =>
      obtain ⟨m, rest⟩ := mr
      dsimp only at hq
      rw [hscan] at hq
      cases hq
      refine ⟨m, [], (List.append_nil _).symm, rfl, ?_⟩
      rw [List.append_nil, length_startBytes, pktHdrLen]
      have hm := Bool.toNat_le m
      omega
  | header m x ring mark short =>
    have hne : startBytes m ++ x ≠ [] := by
      cases m <;> exact List.cons_ne_nil _ _
    unfold RxSide.findStart at hq
    rw [if_pos hne] at hq
    cases hq
    exact ⟨m, x, rfl, rfl, short⟩
  | frame m x ring n verdict known short =>
    have hn : n = 0 := hlen
    omega

/-- The header topped up: at most four bytes are behind the start. -/
theorem RxSide.Started.fill {m : Bool} {x : Bytes} (h : q.Started m x) :
    ∃ z, q.fillHeader.buf = startBytes m ++ z ∧ z.length ≤ 4 ∧
      q.fillHeader.len = 0 := by
  obtain ⟨buf, len, ring, mark⟩ := q
  obtain ⟨rfl, rfl, short⟩ := h
  have hx : x.length ≤ 4 := by
    rw [List.length_append, length_startBytes, pktHdrLen] at short
    omega
  rw [fillHeader_start hx]
  exact ⟨_, rfl, List.length_take_le _ _, rfl⟩

/-- A header that is accepted announces at least what is buffered. -/
theorem judgeHeader_bounds {m mark m' : Bool} {z : Bytes} {v : Int}
    (hz : z.length ≤ 4)
    (hv : judgeHeader pdMode mark (startBytes m ++ z) = (m', v))
    (hgood : ¬ v < 0) :
    v.toNat ≤ packetBufSize ∧ (startBytes m ++ z).length ≤ v.toNat ∧
      v.toNat ≠ 0 := by
  rw [judgeHeader_start] at hv
  split at hv
  · cases hv
    exact absurd (by decide) hgood
  · obtain ⟨-, hv⟩ := Prod.mk.inj hv
    rcases @headerVerdict_cases pdMode m z with h | h | ⟨n, h, -⟩
    · rw [← hv, h] at hgood
      exact absurd (by decide) hgood
    · rw [← hv, h] at hgood
      exact absurd (by decide) hgood
    · obtain ⟨hle, hge⟩ := headerVerdict_bounds h
      have hvn : v.toNat = n := by
        rw [← hv, h]
        rfl
      rw [hvn, List.length_append, length_startBytes]
      rw [pktHdrLen] at hge
      exact ⟨hle, by omega, by omega⟩

/-- A SOM that is found is in the buffer, where it was looked for. -/
theorem findSom_bounds {b : Bytes} {n k : Nat} (h : findSom b n = some k) :
    n ≤ k ∧ k < b.length := by
  unfold findSom at h
  dsimp only at h
  generalize ((b.drop n).takeWhile (· ≠ pktSom)).length = d at h
  by_cases hlt : n + d < b.length
  · rw [if_pos hlt] at h
    cases h
    exact ⟨Nat.le_add_right n d, hlt⟩
  · rw [if_neg hlt] at h
    cases h

/-- What a re-scan leaves is no longer than what it was given. -/
theorem length_phyRescanPacketBuf (m : Bool) (b : Bytes) :
    (phyRescanPacketBuf m b).1.length ≤ b.length := by
  unfold phyRescanPacketBuf
  cases hk : findSom b (if m then 2 else 1) with
  | none => exact Nat.zero_le _
  | some k =>
    have hpos := findSom_bounds hk
    have hone : 1 ≤ if m then 2 else 1 := by
      cases m <;> decide
    dsimp only
    split
    · rw [List.length_cons, List.length_drop]
      omega
    · rw [List.length_drop]
      omega

/-- The rest of a frame stays inside the frame. -/
theorem RxSide.Fits.complete (h : r.Fits) (hlen : r.len ≠ 0) :
    r.complete.2.Fits ∧ r.complete.1 ≠ errPktFmt := by
  have hin := h.within hlen
  unfold RxSide.complete
  rw [if_neg (by omega)]
  refine ⟨⟨?_, h.frame, fun _ => ?_⟩, ?_⟩
  · have hframe := h.frame
    unfold RxSide.topUp
    dsimp only
    rw [List.length_append, List.length_take]
    omega
  · unfold RxSide.topUp
    dsimp only
    rw [List.length_append, List.length_take]
    omega
  · dsimp only
    split <;> decide

end Side

-- ============================================================== the buffers

section Buffers

variable {i : Nat} {s t : Osdp}

theorem FullSize.of_buf (h : FullSize s) (e : t.buf = s.buf) : FullSize t := by
  intro ref
  rw [e]
  exact h ref

/-- A store inside a buffer leaves it its size. -/
theorem FullSize.write (h : FullSize s) {ref : BufRef} {off : Nat}
    {d : Bytes} (hfit : off + d.length ≤ packetBufSize) :
    FullSize (s.write ref off d) := by
  have hone {b : Bytes} (hb : b.length = packetBufSize) :
      (writeAt b off d).length = packetBufSize := by
    rw [length_writeAt (by omega), hb]
  intro ref'
  have hold := h ref'
  unfold Osdp.buf at hold
  unfold Osdp.write Osdp.buf
  by_cases hw : ref = .tx ∨ s.rxIsTx
  · rw [if_pos hw]
    dsimp only
    by_cases hr : ref' = .tx ∨ s.rxIsTx
    · rw [if_pos hr] at hold ⊢
      exact hone hold
    · rw [if_neg hr] at hold ⊢
      exact hold
  · rw [if_neg hw]
    dsimp only
    by_cases hr : ref' = .tx ∨ s.rxIsTx
    · rw [if_pos hr] at hold ⊢
      exact hold
    · rw [if_neg hr] at hold ⊢
      exact hone hold

theorem FullSize.writeBuf (h : FullSize s) {ref : BufRef} {off : Nat}
    {d : Bytes} {a : Unit} (hfit : off + d.length ≤ packetBufSize)
    (hw : writeBuf ref off d s = .ok a t) : FullSize t := by
  rw [writeBuf_eq] at hw
  cases hw
  exact h.write hfit

theorem FullSize.updPd (h : FullSize s) {f : OsdpPd → OsdpPd} {a : Unit}
    (hu : updPd i f s = .ok a t) : FullSize t := by
  rw [← updPd_ok.mp hu]
  exact h

theorem fullSize_phyFindStart {b : Bool} (h : FullSize s)
    (hf : phyFindStart i s = .ok b t) : FullSize t := by
  unfold phyFindStart at hf
  obtain ⟨p, u, hg, hf⟩ := bind_ok.mp hf
  obtain ⟨rfl, rfl⟩ := getPd_ok.mp hg
  split at hf
  · obtain ⟨-, rfl⟩ := pure_ok.mp hf
    exact h
  · generalize scanSom 0 (s.pd i).rxRb = found at hf
    cases found with
    | none =>
      obtain ⟨_, u, hu, hf⟩ := bind_ok.mp hf
      obtain ⟨-, rfl⟩ := pure_ok.mp hf
      exact h.updPd hu
    | some mr =>
      obtain ⟨_, u, hu, hf⟩ := bind_ok.mp hf
      obtain ⟨_, v, hv, hf⟩ := bind_ok.mp hf
      obtain ⟨-, rfl⟩ := pure_ok.mp hf
      refine (h.writeBuf ?_ hu).updPd hv
      split <;> decide

/-- Bytes popped behind the buffered ones, as far as there is room. -/
theorem fullSize_phyTopUp {n : Nat} {a : Unit} (h : FullSize s)
    (hfit : (s.pd i).packetBufLen + n ≤ packetBufSize)
    (hf : phyTopUp i n s = .ok a t) : FullSize t := by
  unfold phyTopUp at hf
  obtain ⟨p, u, hg, hf⟩ := bind_ok.mp hf
  obtain ⟨rfl, rfl⟩ := getPd_ok.mp hg
  obtain ⟨_, v, hv, hf⟩ := bind_ok.mp hf
  refine (h.writeBuf ?_ hv).updPd hf
  have hlen : ((s.pd i).rxRb.take n).length ≤ n := List.length_take_le _ _
  omega

theorem fullSize_phyFillHeader {a : Unit} (h : FullSize s)
    (hf : phyFillHeader i s = .ok a t) : FullSize t := by
  unfold phyFillHeader at hf
  obtain ⟨p, u, hg, hf⟩ := bind_ok.mp hf
  obtain ⟨rfl, rfl⟩ := getPd_ok.mp hg
  obtain ⟨buf, u, hb, hf⟩ := bind_ok.mp hf
  cases hb
  generalize hneed : pktHdrLen + (if byteAt (s.buf (s.pd i).packetBuf) 0
    = pktMark then 1 else 0) = need at hf
  have hsix : need ≤ 6 := by
    rw [← hneed]
    split <;> decide
  split at hf
  · refine fullSize_phyTopUp h ?_ hf
    rw [packetBufSize]
    omega
  · obtain ⟨-, rfl⟩ := pure_ok.mp hf
    exact h

theorem fullSize_phyJudgeHeader {rc : Int} (h : FullSize s)
    (hfill : (s.pd i).packetBufLen ≤ packetBufSize)
    (hf : phyJudgeHeader i s = .ok rc t) : FullSize t := by
  unfold phyJudgeHeader at hf
  obtain ⟨p, u, hg, hf⟩ := bind_ok.mp hf
  obtain ⟨rfl, rfl⟩ := getPd_ok.mp hg
  obtain ⟨buf, u, hb, hf⟩ := bind_ok.mp hf
  cases hb
  generalize phyValidateHeader (s.pd i) _ _ _ = v at hf
  obtain ⟨mark, ret⟩ := v
  obtain ⟨_, u, hu, hf⟩ := bind_ok.mp hf
  have hfull := h.updPd hu
  dsimp only at hf
  split at hf
  · have hlen := length_phyRescanPacketBuf mark
      ((s.buf (s.pd i).packetBuf).take (s.pd i).packetBufLen)
    rw [List.length_take] at hlen
    generalize phyRescanPacketBuf mark _ = c at hf hlen
    obtain ⟨cur, mark'⟩ := c
    obtain ⟨_, v, hv, hf⟩ := bind_ok.mp hf
    obtain ⟨_, w, hw, hf⟩ := bind_ok.mp hf
    obtain ⟨_, x, hx, hf⟩ := bind_ok.mp hf
    obtain ⟨-, rfl⟩ := pure_ok.mp hf
    have hcur : cur.length ≤ packetBufSize :=
      Nat.le_trans hlen (Nat.le_trans (Nat.min_le_left _ _) hfill)
    exact ((hfull.writeBuf (by rw [Nat.zero_add]; exact hcur) hv).updPd
      hw).updPd hx
  · obtain ⟨-, rfl⟩ := pure_ok.mp hf
    exact hfull

theorem fullSize_phyComplete {rc : Int} (h : FullSize s)
    (hlen : (s.pd i).packetLen ≤ packetBufSize)
    (hf : phyComplete i s = .ok rc t) : FullSize t := by
  unfold phyComplete at hf
  obtain ⟨p, u, hg, hf⟩ := bind_ok.mp hf
  obtain ⟨rfl, rfl⟩ := getPd_ok.mp hg
  split at hf
  · obtain ⟨-, rfl⟩ := pure_ok.mp hf
    exact h
  · obtain ⟨_, u, hu, hf⟩ := bind_ok.mp hf
    obtain ⟨p, v, hg, hf⟩ := bind_ok.mp hf
    obtain ⟨rfl, rfl⟩ := getPd_ok.mp hg
    obtain ⟨-, rfl⟩ := pure_ok.mp hf
    exact fullSize_phyTopUp h (by omega) hu

end Buffers

-- ============================================================ the moments

section Moments

variable {i : Nat} {pdMode : Bool} {s t : Osdp} {r q : RxSide}

/-- A receive side in bounds, on buffers of full size. -/
theorem TakesIn.inBounds (h : TakesIn i pdMode s r) (hr : r.Fits)
    (hz : FullSize s) : InBounds i s := by
  refine ⟨?_, ?_, ?_, hz⟩
  · rw [h.filled]
    exact hr.filled
  · rw [h.len]
    exact hr.frame
  · rw [h.filled, h.len]
    exact hr.within

/-- Less than a whole header is in the buffer, and no length is known. -/
theorem fits_of_short (hlen : r.len = 0) (hb : r.buf.length ≤ 6) :
    r.Fits := by
  refine ⟨Nat.le_trans hb (by decide), ?_, fun hne => absurd hlen hne⟩
  rw [hlen]
  exact Nat.zero_le _

/-- A packet start and `n` bytes more. -/
theorem length_started {m : Bool} {x : Bytes} {n : Nat} (hx : x.length ≤ n) :
    (startBytes m ++ x).length ≤ 2 + n := by
  have hm := Bool.toNat_le m
  rw [List.length_append, length_startBytes]
  omega

theorem found_spec {b : Bool} (h : TakesIn i pdMode s r)
    (hs : r.Sound pdMode) (hlen : r.len = 0)
    (hf : phyFindStart i s = .ok b t) :
    (b = false ∧ TakesIn i pdMode t { r with ring := [] }) ∨
      b = true ∧ ∃ q m x, TakesIn i pdMode t q ∧ q.Started m x := by
  cases hstart : r.findStart with
  | none =>
    obtain ⟨u, hu, hur, -⟩ := findStart_none h hstart
    rw [hu] at hf
    cases hf
    exact .inl ⟨rfl, hur⟩
  | some q =>
    obtain ⟨u, hu, hur, -⟩ := findStart_some h hstart
    rw [hu] at hf
    cases hf
    obtain ⟨m, x, hq⟩ := hs.found hlen hstart
    exact .inr ⟨rfl, q, m, x, hur, hq⟩

theorem topped_spec {m : Bool} {x : Bytes} (h : TakesIn i pdMode s q)
    (hq : q.Started m x) (hf : phyFillHeader i s = .ok () t) :
    ∃ r z, TakesIn i pdMode t r ∧ r.buf = startBytes m ++ z ∧
      z.length ≤ 4 ∧ r.len = 0 := by
  have hne : q.buf ≠ [] := by
    rw [hq.buf]
    cases m <;> exact List.cons_ne_nil _ _
  obtain ⟨u, hu, hur, -⟩ := fillHeader_ok h hne
  rw [hu] at hf
  cases hf
  obtain ⟨z, hz, hfour, hlen⟩ := hq.fill
  exact ⟨_, z, hur, hz, hfour, hlen⟩

/-- A header judged: what is in the buffer then, and that a header which
is accepted announces at least that. -/
theorem judged_spec {m : Bool} {z : Bytes} {rc : Int}
    (h : TakesIn i pdMode s r) (hb : r.buf = startBytes m ++ z)
    (hz : z.length ≤ 4) (hlen : r.len = 0)
    (hf : phyJudgeHeader i s = .ok rc t) :
    ∃ q, TakesIn i pdMode t q ∧ q.len = 0 ∧ q.buf.length ≤ 6 ∧
      rc ≠ errPktFmt ∧
      (¬ rc < 0 → rc.toNat ≤ packetBufSize ∧ q.buf.length ≤ rc.toNat ∧
        rc.toNat ≠ 0) := by
  have hsix : r.buf.length ≤ 6 := by
    rw [hb]
    exact length_started hz
  rcases hv : judgeHeader pdMode r.mark r.buf with ⟨m', v⟩
  by_cases hfmt : v = errPktFmt
  · subst hfmt
    rcases hc : phyRescanPacketBuf m' r.buf with ⟨cur, m''⟩
    obtain ⟨u, hu, hur, -⟩ := judgeHeader_fmt h hv hc
    rw [hu] at hf
    cases hf
    have hcur := length_phyRescanPacketBuf m' r.buf
    rw [hc] at hcur
    exact ⟨_, hur, hlen, Nat.le_trans hcur hsix, by decide,
      fun hn => absurd (by decide) hn⟩
  · obtain ⟨u, hu, hur, -⟩ := judgeHeader_pass h hv hfmt
    rw [hu] at hf
    cases hf
    refine ⟨_, hur, hlen, hsix, hfmt, fun hn => ?_⟩
    rw [hb] at hv
    have hbounds := judgeHeader_bounds hz hv hn
    refine ⟨hbounds.1, ?_, hbounds.2.2⟩
    show r.buf.length ≤ _
    rw [hb]
    exact hbounds.2.1

/-- A header accepted: what is buffered is part of the frame. -/
theorem accepted_spec {rc : Int} (h : TakesIn i pdMode s q)
    (hrc : rc.toNat ≤ packetBufSize ∧ q.buf.length ≤ rc.toNat ∧
      rc.toNat ≠ 0) :
    TakesIn i pdMode (s.updPd i fun p => { p with packetLen := rc.toNat })
        { q with len := rc.toNat } ∧
      ({ q with len := rc.toNat } : RxSide).Fits := by
  obtain ⟨u, hu, hur, -⟩ := setLen_ok h rc.toNat
  obtain rfl := updPd_ok.mp hu
  exact ⟨hur, Nat.le_trans hrc.2.1 hrc.1, hrc.1, fun _ => hrc.2.1⟩

/-- The end of a call that knows the length of the frame. -/
theorem completed_spec {rc : Int} (h : TakesIn i pdMode s q)
    (hq : q.Fits) (hz : FullSize s) (hlen : q.len ≠ 0)
    (hf : phyComplete i s = .ok rc t) : InBounds i t ∧ rc ≠ errPktFmt := by
  have hfull := fullSize_phyComplete hz (by rw [h.len]; exact hq.frame) hf
  obtain ⟨u, hu, hur, -⟩ := complete_ok h
  rw [hu] at hf
  cases hf
  obtain ⟨hfits, hrc⟩ := hq.complete hlen
  exact ⟨hur.inBounds hfits hfull, hrc⟩

/-- The whole of a call, short of the checks on a frame. -/
theorem assembled_spec {rc : Int} (h : TakesIn i pdMode s r)
    (hs : r.Sound pdMode) (hz : FullSize s)
    (hf : phyAssemble i s = .ok rc t) : InBounds i t ∧ rc ≠ errPktFmt := by
  obtain ⟨u, hu, hur, -, hbuf⟩ := phyReceive_takes h
  generalize (channelReceive (s.line.length + 1) r.ring s.line 0).1 = ring
    at hur
  have hsound := hs.ring ring
  have hzu := hz.of_buf hbuf
  unfold phyAssemble at hf
  obtain ⟨_, u', hu', hf⟩ := bind_ok.mp hf
  rw [hu] at hu'
  cases hu'
  obtain ⟨p, u', hg, hf⟩ := bind_ok.mp hf
  obtain ⟨rfl, rfl⟩ := getPd_ok.mp hg
  split at hf
  · next hlen =>
    rw [hur.len] at hlen
    obtain ⟨ret, w, hw, hf⟩ := bind_ok.mp hf
    unfold phyCheckHeader at hw
    obtain ⟨b, v, hv, hw⟩ := bind_ok.mp hw
    have hzv := fullSize_phyFindStart hzu hv
    rcases found_spec hur hsound hlen hv with ⟨rfl, hvr⟩ | ⟨rfl, q, m, x, hvr, hq⟩
    · obtain ⟨rfl, rfl⟩ := pure_ok.mp hw
      obtain ⟨rfl, rfl⟩ := pure_ok.mp hf
      exact ⟨hvr.inBounds (hsound.ring []).fits hzv, by decide⟩
    · obtain ⟨_, x', hx, hw⟩ := bind_ok.mp hw
      obtain ⟨r', z, hxr, hb, hz4, hl0⟩ := topped_spec hvr hq hx
      have hzx := fullSize_phyFillHeader hzv hx
      obtain ⟨q', hwr, hq0, hq6, hne, hacc⟩ := judged_spec hxr hb hz4 hl0 hw
      have hzw := fullSize_phyJudgeHeader hzx
        (by
          rw [hxr.filled, hb]
          exact Nat.le_trans (length_started hz4) (by decide)) hw
      split at hf
      · obtain ⟨rfl, rfl⟩ := pure_ok.mp hf
        exact ⟨hwr.inBounds (fits_of_short hq0 hq6) hzw, hne⟩
      · next hgood =>
        obtain ⟨_, y, hy, hf⟩ := bind_ok.mp hf
        obtain rfl := updPd_ok.mp hy
        obtain ⟨hyr, hfits⟩ := accepted_spec hwr (hacc hgood)
        exact completed_spec hyr hfits hzw (hacc hgood).2.2 hf
  · next hlen =>
    rw [hur.len] at hlen
    exact completed_spec hur hsound.fits hzu hlen hf

/-- Every moment of a call is in bounds. -/
theorem Moment.inBounds (m : Moment i s t) (h : TakesIn i pdMode s r)
    (hs : r.Sound pdMode) (hz : FullSize s) : InBounds i t := by
  obtain ⟨a, ha, har, -, hbuf⟩ := phyReceive_takes h
  generalize (channelReceive (s.line.length + 1) r.ring s.line 0).1 = ring
    at har
  have hsound := hs.ring ring
  have hza := hz.of_buf hbuf
  have hsame {t : Osdp} (ht : phyReceive i s = .ok () t) : t = a := by
    rw [ha] at ht
    cases ht
    rfl
  -- the part of a call the last three moments share
  have hto {t u v : Osdp} (ht : phyReceive i s = .ok () t)
      (hl : (t.pd i).packetLen = 0) (hu : phyFindStart i t = .ok true u)
      (hv : phyFillHeader i u = .ok () v) :
      FullSize v ∧ ∃ q m z, TakesIn i pdMode v q ∧
        q.buf = startBytes m ++ z ∧ z.length ≤ 4 ∧ q.len = 0 := by
    obtain rfl := hsame ht
    rw [har.len] at hl
    rcases found_spec har hsound hl hu with ⟨hb, -⟩ | ⟨-, q, m, x, hur, hq⟩
    · cases hb
    · obtain ⟨q', z, hvr, hb⟩ := topped_spec hur hq hv
      exact ⟨fullSize_phyFillHeader (fullSize_phyFindStart hza hu) hv,
        q', m, z, hvr, hb⟩
  cases m with
  | received ht =>
    obtain rfl := hsame ht
    exact har.inBounds hsound.fits hza
  | found ht hl hu =>
    obtain rfl := hsame ht
    rw [har.len] at hl
    have hzu := fullSize_phyFindStart hza hu
    rcases found_spec har hsound hl hu with ⟨-, hur⟩ | ⟨-, q, m, x, hur, hq⟩
    · exact hur.inBounds (hsound.ring []).fits hzu
    · refine hur.inBounds (fits_of_short hq.len ?_) hzu
      rw [hq.buf]
      exact Nat.le_trans (Nat.le_of_lt hq.short) (by decide)
  | topped ht hl hu hv =>
    obtain ⟨hzv, q, m, z, hvr, hb, hz4, hl0⟩ := hto ht hl hu hv
    refine hvr.inBounds (fits_of_short hl0 ?_) hzv
    rw [hb]
    exact length_started hz4
  | judged ht hl hu hv hj =>
    obtain ⟨hzv, q, m, z, hvr, hb, hz4, hl0⟩ := hto ht hl hu hv
    obtain ⟨q', hwr, hq0, hq6, -⟩ := judged_spec hvr hb hz4 hl0 hj
    refine hwr.inBounds (fits_of_short hq0 hq6) ?_
    refine fullSize_phyJudgeHeader hzv ?_ hj
    rw [hvr.filled, hb]
    exact Nat.le_trans (length_started hz4) (by decide)
  | accepted ht hl hu hv hj hgood =>
    obtain ⟨hzv, q, m, z, hvr, hb, hz4, hl0⟩ := hto ht hl hu hv
    obtain ⟨q', hwr, hq0, hq6, -, hacc⟩ := judged_spec hvr hb hz4 hl0 hj
    obtain ⟨hyr, hfits⟩ := accepted_spec hwr (hacc hgood)
    refine hyr.inBounds hfits
      ((fullSize_phyJudgeHeader hzv ?_ hj).of_buf rfl)
    rw [hvr.filled, hb]
    exact Nat.le_trans (length_started hz4) (by decide)
  | assembled hc => exact (assembled_spec h hs hz hc).1

end Moments

-- ================================================================= runs

/-- One read: nothing was there, or up to 64 bytes go into the ring and
that is all, or the reading goes on. -/
theorem channelReceive_cases (fuel : Nat) (rb line : Bytes) (total : Int) :
    (line.take 64 = [] ∧
      channelReceive (fuel + 1) rb line total = (rb, line, total)) ∨
    (∃ x, channelReceive (fuel + 1) rb line total
      = (osdpRbPushBuf rb (line.take 64), line.drop 64, x)) ∨
    (∃ y, channelReceive (fuel + 1) rb line total
      = channelReceive fuel (osdpRbPushBuf rb (line.take 64))
          (line.drop 64) y) := by
  by_cases hnil : line.take 64 = []
  · refine .inl ⟨hnil, ?_⟩
    show (if line.take 64 = [] then _ else _) = _
    rw [if_pos hnil]
  · right
    show (∃ x, (if line.take 64 = [] then _ else _) = _) ∨
      ∃ y, (if line.take 64 = [] then _ else _) = _
    rw [if_neg hnil]
    split
    · exact .inl ⟨_, rfl⟩
    · split
      · exact .inr ⟨_, rfl⟩
      · exact .inl ⟨_, rfl⟩

theorem length_osdpRbPushBuf (rb d : Bytes) :
    rb.length ≤ (osdpRbPushBuf rb d).length ∧
      (osdpRbPushBuf rb d).length ≤ rb.length + d.length := by
  unfold osdpRbPushBuf
  rw [List.length_append, List.length_take]
  omega

/-- Reading the line moves bytes or drops them. -/
theorem channelReceive_length (fuel : Nat) (rb line : Bytes) (total : Int) :
    rb.length ≤ (channelReceive fuel rb line total).1.length ∧
      (channelReceive fuel rb line total).1.length +
          (channelReceive fuel rb line total).2.1.length
        ≤ rb.length + line.length := by
  induction fuel generalizing rb line total with
  | zero => exact ⟨Nat.le_refl _, Nat.le_refl _⟩
  | succ fuel ih =>
    have hone := length_osdpRbPushBuf rb (line.take 64)
    have hsplit : (line.take 64).length + (line.drop 64).length
        = line.length := by
      rw [← List.length_append, List.take_append_drop]
    rcases channelReceive_cases fuel rb line total with
      ⟨-, e⟩ | ⟨x, e⟩ | ⟨y, e⟩
    · rw [e]
      exact ⟨Nat.le_refl _, Nat.le_refl _⟩
    · rw [e]
      exact ⟨hone.1, by dsimp only; omega⟩
    · have hrest := ih (osdpRbPushBuf rb (line.take 64)) (line.drop 64) y
      rw [e]
      omega

/-- A ring is left empty only where there was nothing to read. -/
theorem channelReceive_dry {fuel : Nat} {rb line : Bytes} {total : Int}
    (h : (channelReceive (fuel + 1) rb line total).1 = []) : line = [] := by
  have hrb : rb = [] := by
    have hle := (channelReceive_length (fuel + 1) rb line total).1
    rw [h, List.length_nil] at hle
    exact List.eq_nil_of_length_eq_zero (Nat.le_zero.mp hle)
  subst hrb
  have hpush : osdpRbPushBuf [] (line.take 64) = [] → line.take 64 = [] := by
    intro e
    unfold osdpRbPushBuf at e
    rw [List.nil_append] at e
    cases htake : line.take 64 with
    | nil => rfl
    | cons b d =>
      rw [htake] at e
      cases e
  have hnil : line.take 64 = [] := by
    rcases channelReceive_cases fuel [] line total with
      ⟨e, -⟩ | ⟨x, e⟩ | ⟨y, e⟩
    · exact e
    · rw [e] at h
      exact hpush h
    · have hle := (channelReceive_length fuel
        (osdpRbPushBuf [] (line.take 64)) (line.drop 64) y).1
      rw [← e, h, List.length_nil] at hle
      exact hpush (List.eq_nil_of_length_eq_zero (Nat.le_zero.mp hle))
  cases line with
  | nil => rfl
  | cons b line => cases hnil

section Runs

variable {env : Env} {i : Nat} {s t : Osdp}

/-- Between two calls. -/
def Polled (i : Nat) (s : Osdp) : Prop :=
  FullSize s ∧ ∃ pdMode r, TakesIn i pdMode s r ∧ r.Sound pdMode

/-- The bytes that are waiting to be framed. -/
def waiting (i : Nat) (s : Osdp) : Nat :=
  (s.pd i).rxRb.length + s.line.length

/-- No call adds to the ring it found. -/
theorem assemble_ring_le {pdMode : Bool} (q : RxSide) :
    (q.assemble pdMode).2.ring.length ≤ q.ring.length := by
  have htop (r : RxSide) (n : Nat) :
      (r.topUp n).ring.length ≤ r.ring.length := by
    show (r.ring.drop n).length ≤ _
    rw [List.length_drop]
    exact Nat.sub_le _ _
  have hcomplete (r : RxSide) : r.complete.2.ring.length ≤ r.ring.length := by
    unfold RxSide.complete
    split
    · exact Nat.le_refl _
    · exact htop r _
  have htake (r : RxSide) :
      (r.takeHeader pdMode).2.ring.length ≤ r.ring.length := by
    unfold RxSide.takeHeader
    dsimp only
    split
    · exact Nat.le_refl _
    · split
      · exact Nat.le_refl _
      · exact hcomplete _
  unfold RxSide.assemble
  split
  · cases hq : q.findStart with
    | none => exact Nat.zero_le _
    | some t =>
      have hstart : t.ring.length ≤ q.ring.length := by
        unfold RxSide.findStart at hq
        split at hq
        · cases hq
          exact Nat.le_refl _
        · cases hscan : scanSom 0 q.ring with
          | none =>
            rw [hscan] at hq
            cases hq
          | some mr =>
            obtain ⟨m, rest⟩ := mr
            have hlen := scanSom_length hscan
            rw [if_neg (by decide)] at hlen
            rw [hscan] at hq
            cases hq
            dsimp only
            omega
      exact Nat.le_trans (htake _) (Nat.le_trans (htop t _) hstart)
  · exact hcomplete q

/-- The call takes the ring to where its caller finds it. -/
theorem call_ring {pdMode : Bool} (q : RxSide) :
    (q.call pdMode []).2.ring = (q.assemble pdMode).2.ring := by
  unfold RxSide.call
  rw [List.append_nil]
  dsimp only
  split <;> rfl

/-- A call with `c` newly arrived: what it read, and what it made of it. -/
theorem Polled.assembles (h : Polled i s) (c : Bytes) :
    ∃ u rc t, phyReceive i (s.load c) = .ok () u ∧
      phyAssemble i (s.load c) = .ok rc t ∧ InBounds i t ∧
      rc ≠ errPktFmt ∧
      ((u.pd i).rxRb ≠ [] →
        (t.pd i).rxRb.length < (u.pd i).rxRb.length) := by
  obtain ⟨hz, pdMode, r, hr, hs⟩ := h
  have hload : TakesIn i pdMode (s.load c) r := ⟨hr.room, hr.mode, hr.side⟩
  have hzl : FullSize (s.load c) := hz.of_buf rfl
  obtain ⟨u, hu, hur, -⟩ := phyReceive_takes hload
  obtain ⟨t, ht, htr, -⟩ := assemble_takes hu hur
  obtain ⟨hin, hrc⟩ := assembled_spec hload hs hzl ht
  refine ⟨u, _, t, hu, ht, hin, hrc, fun hne => ?_⟩
  rw [hur.ring] at hne ⊢
  rw [htr.ring, ← call_ring]
  exact (hs.ring _).call.2 hne

/-- One call of a run. -/
theorem Polled.poll (h : Polled i s) (c : Bytes) :
    Polled i (phyPoll env i c s) ∧
      (waiting i (phyPoll env i c s) < waiting i (s.load c) ∨
        waiting i (phyPoll env i c s) = 0) := by
  obtain ⟨hz, pdMode, r, hr, hs⟩ := h
  have hload : TakesIn i pdMode (s.load c) r := ⟨hr.room, hr.mode, hr.side⟩
  have hzl : FullSize (s.load c) := hz.of_buf rfl
  obtain ⟨u, hu, hur, huline, -⟩ := phyReceive_takes hload
  obtain ⟨rc, t, ht, hnext, hline, hbuf⟩ := @phyPoll_takes env i _ _ _ _ _ hu hur
  have hsound := hs.ring (channelReceive ((s.load c).line.length + 1) r.ring
    (s.load c).line 0).1
  obtain ⟨hin, -⟩ := assembled_spec hload hs hzl ht
  refine ⟨⟨hin.sized.of_buf hbuf, pdMode, _, hnext, hsound.call.1⟩, ?_⟩
  have hlen := channelReceive_length ((s.load c).line.length + 1) r.ring
    (s.load c).line 0
  have hdry := @channelReceive_dry (s.load c).line.length r.ring
    (s.load c).line 0
  have htaken := hsound.call.2
  have hmore := @assemble_ring_le pdMode { r with
    ring := (channelReceive ((s.load c).line.length + 1) r.ring
      (s.load c).line 0).1 }
  rw [← call_ring] at hmore
  generalize channelReceive ((s.load c).line.length + 1) r.ring
    (s.load c).line 0 = d at *
  have hafter : (phyPoll env i c s).line.length ≤ d.2.1.length := by
    rcases hline with e | e
    · rw [e, huline]
    · rw [e]
      exact Nat.zero_le _
  unfold waiting
  rw [hnext.ring, hload.ring]
  by_cases hne : d.1 = []
  · -- nothing was read, and there is nothing to read
    right
    have hline := congrArg List.length (hdry hne)
    have hzero := congrArg List.length hne
    dsimp only at hmore
    rw [List.length_nil] at hline hzero
    omega
  · left
    have hlt := htaken hne
    dsimp only at hlt hlen
    omega

theorem polled_phyPolls {cs : List Bytes} (h : Polled i s) :
    Polled i (phyPolls env i cs s) := by
  induction cs generalizing s with
  | nil => exact h
  | cons c cs ih => exact ih (h.poll c).1

/-- Calls without new bytes get through all that is waiting. -/
theorem phyPolls_drain {n : Nat} (h : Polled i s) (hn : waiting i s ≤ n) :
    waiting i (phyPolls env i (List.replicate n []) s) = 0 := by
  induction n generalizing s with
  | zero => exact Nat.le_zero.mp hn
  | succ n ih =>
    rw [List.replicate_succ]
    obtain ⟨hnext, hless⟩ := @Polled.poll env i s h []
    refine ih hnext ?_
    have hsame : waiting i (s.load []) = waiting i s := by
      unfold waiting Osdp.load
      rw [List.append_nil]
    omega

end Runs

-- ================================================================ result

/-- From a fresh packet buffer, whatever bytes arrive for whichever call:
every moment of every call is in bounds, so `packet_buf_len` exceeds
neither an accepted header's length nor the buffer, and no store goes
behind its end; no call reports a frame that overran its length, which is
what the guard in `osdp_phy_check_packet` would do; and a call that finds
bytes in the ring takes some of them, so that calls alone, without new
bytes, get through all that is waiting. -/
theorem framer_in_bounds_and_live (env : Env) (i : Nat) (s : Osdp)
    (chunks : List Bytes) (hz : FullSize s)
    (hfill : (s.pd i).packetBufLen = 0) (hlen : (s.pd i).packetLen = 0) :
    let u := phyPolls env i chunks s
    InBounds i u ∧ (∀ c t, Moment i (u.load c) t → InBounds i t) ∧
    (∀ c, ∃ q rc t, phyReceive i (u.load c) = .ok () q ∧
      phyAssemble i (u.load c) = .ok rc t ∧ rc ≠ errPktFmt ∧
      ((q.pd i).rxRb ≠ [] →
        (t.pd i).rxRb.length < (q.pd i).rxRb.length)) ∧
    (∀ n, waiting i u ≤ n →
      waiting i (phyPolls env i (List.replicate n []) u) = 0) := by
  intro u
  have hfresh : Polled i s := by
    refine ⟨hz, (s.pd i).flags.pdMode,
      ⟨[], 0, (s.pd i).rxRb, (s.pd i).flags.pktHasMark⟩,
      ⟨?_, rfl, ?_⟩, .hunting _ _⟩
    · rw [hfill]
      exact Nat.zero_le _
    · unfold Osdp.rx
      dsimp only
      rw [hfill, hlen, List.take_zero]
  have hu : Polled i u := polled_phyPolls hfresh
  obtain ⟨hzu, pdMode, r, hr, hs⟩ := id hu
  refine ⟨hr.inBounds hs.fits hzu, fun c t m => ?_, fun c => ?_,
    fun n hn => phyPolls_drain hu hn⟩
  · have hload : TakesIn i pdMode (u.load c) r := ⟨hr.room, hr.mode, hr.side⟩
    exact m.inBounds hload hs (hzu.of_buf rfl)
  · obtain ⟨q, rc, t, hq, ht, -, hrc, htaken⟩ := hu.assembles c
    exact ⟨q, rc, t, hq, ht, hrc, htaken⟩

/-- A stray mark byte, a header with an impossible length, and a packet
start inside it, in three pieces. -/
theorem framer_in_bounds_and_live_nested :
    InBounds 0 (phyPolls (plainEnv (knownCipher []) fun _ => 0) 0
      [[0xFF], [0x53, 0x80, 0x53], [0x00, 0x09]] { pd := fun _ => {} }) :=
  (framer_in_bounds_and_live (plainEnv (knownCipher []) fun _ => 0) 0
    { pd := fun _ => {} } [[0xFF], [0x53, 0x80, 0x53], [0x00, 0x09]]
    (by intro ref; cases ref <;> decide +kernel) rfl rfl).1

end LibOsdp
