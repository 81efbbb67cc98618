/-
An event from the application of a PD to the application of a CP: what
`pd_build_reply` serialises and `cp_decode_response` parses (osdp_pd.c,
osdp_cp.c).

# What travels

`OsdpEvent.onWire` is the event as it can arrive: its array is cut to the
length that goes with it, nothing else is lost.  `osdp_pd_submit_event`
has checked what the encoder relies on; the decoder checks the rest again
against the capabilities the CP holds, so a status report arrives only at
a CP that knows how long it is to be.

# What the CP does with it

`Tells` describes a decoder that hands its application one event and
returns success: the history then has that event and what the
application's own calls add, nothing else.
-/
import LibOsdp.Cp.Api
import LibOsdp.Pd.Proofs.Polls
import LibOsdp.Proofs.Admission
import LibOsdp.Proofs.CommandCodec

namespace LibOsdp

open Lib

-- ============================================================= on the wire

/-- What the data block of a reply carries of an event. -/
def OsdpEvent.onWire : OsdpEvent → OsdpEvent
  | .cardread readerNo format length data =>
    .cardread readerNo format length (fieldBytes data ((length + 7) / 8))
  | .keypress readerNo length data =>
    .keypress readerNo length (fieldBytes data length)
  | .mfgrep vendorCode length data =>
    .mfgrep vendorCode length (fieldBytes data length)
  | .status r =>
    .status { r with report := fieldBytes r.report r.nrEntries.toNat }
  | .mfgstatr length data => .mfgstatr length (fieldBytes data length)
  | .mfgerrr length data => .mfgerrr length (fieldBytes data length)
  | .bioreadr r => .bioreadr { r with data := fieldBytes r.data r.length }
  | ev => ev

/-- The events that one reply carries whole. -/
def singleReply : OsdpEvent → Bool
  | .cardread .. | .keypress .. | .mfgrep .. | .status _ | .mfgstatr ..
  | .mfgerrr .. | .bioreadr _ | .biomatchr .. => true
  | _ => false

/-- Lengths within the arrays they count, and fields within the width
they have on the wire. -/
def OsdpEvent.fits : OsdpEvent → Prop
  | .cardread readerNo _ length _ =>
    (0 ≤ readerNo ∧ readerNo < 256) ∧ length < 65536 ∧
      (length + 7) / 8 ≤ 64
  | .keypress readerNo length _ =>
    (0 ≤ readerNo ∧ readerNo < 256) ∧ length ≤ 64
  | .mfgrep vendorCode length _ =>
    vendorCode.toNat < 256 ^ 3 ∧ length ≤ 128
  | .mfgstatr length _ => length ≤ 128
  | .mfgerrr length _ => length ≤ 128
  | .bioreadr r => r.length ≤ bioreadrMaxTemplateLen
  | _ => True

-- ============================================================ one event

/-- The history is as it was. -/
def SameLog (s t : Osdp) : Prop := t.log = s.log

instance : IsPreorder Osdp SameLog where
  refl _ := rfl
  trans _ _ _ h k := k.trans h

/-- The application of the CP is handed one event, and that is all there
is to it but for the calls it makes itself; once these return, so does the
run, with success. -/
def Tells (env : Env) (run : List ApiCall → OsdpM Unit) (i : Nat)
    (ev : OsdpEvent) (m : OsdpM Int) (s : Osdp) : Prop :=
  ∃ f x, env.eventCallback = some f ∧ x.log = .event i ev :: s.log ∧
    (leaves m s).log = (leaves (run (f s.log i ev).calls) x).log ∧
    ∀ u, run (f s.log i ev).calls x = .ok () u →
      ∃ t, m s = .ok cpErrNone t

section Decode

variable {env : Env} {run : List ApiCall → OsdpM Unit} {i : Nat}
variable {ev : OsdpEvent} {s : Osdp}
variable (hreg : env.eventCallback.isSome = true)
include hreg

theorem tells_decodeEvent :
    Tells env run i ev (decodeEvent env run i (some ev)) s := by
  obtain ⟨f, hf⟩ := Option.isSome_iff_exists.mp hreg
  have hdispatch : cpDispatchEvent env run i ev s
      = run (f s.log i ev).calls { s with log := .event i ev :: s.log } := by
    unfold cpDispatchEvent
    rw [hf]
    refine (bind_eq (get_ok.mpr ⟨rfl, rfl⟩)).trans ?_
    exact bind_eq (a := ()) (observe_ok.mpr rfl)
  refine ⟨f, { s with log := .event i ev :: s.log }, hf, rfl, ?_, ?_⟩
  · have hleaves : leaves (cpDispatchEvent env run i ev) s
        = leaves (run (f s.log i ev).calls)
          { s with log := .event i ev :: s.log } := by
      unfold leaves
      rw [hdispatch]
    rw [← hleaves]
    exact settles_bind (R := SameLog) (fun _ => .pure _) s
  · intro u hu
    exact ⟨u, bind_eq (hdispatch.trans hu)⟩

theorem tells_decodeActivity :
    Tells env run i ev (decodeActivity env run i (some ev)) s := by
  have htold : Tells env run i ev (decodeEvent env run i (some ev)) s :=
    tells_decodeEvent hreg
  obtain ⟨f, x, hf, hx, hlog, hret⟩ := htold
  have hnote (ret : Int) : Abides SameLog (do
      if ret = cpErrNone then
        let now ← osdpMillisNow
        updPd i fun p =>
          { p with trs := osdpTrsScanNoteActivity now p.trs }
      return ret) := by
    have hset (now : Int) : Abides SameLog (updPd i fun p =>
        { p with trs := osdpTrsScanNoteActivity now p.trs }) :=
      fun _ => rfl
    have hnow : Abides SameLog osdpMillisNow := fun _ => rfl
    split
    · exact .bind hnow fun now => .bind (hset now) fun _ => .pure _
    · exact .pure _
  refine ⟨f, x, hf, hx, ?_, ?_⟩
  · rw [← hlog]
    exact settles_bind (R := SameLog) hnote s
  · intro u hu
    obtain ⟨t, ht⟩ := hret u hu
    exact ⟨_, bind_eq ht⟩

end Decode

-- ============================================================= the records

/-- The sub-reader comes back as the number it was. -/
theorem readerByte_toNat {n : Int} (h : 0 ≤ n ∧ n < 256) :
    ((readerByte n).toNat : Int) = n := by
  unfold readerByte
  rw [UInt8.toNat_ofNat', Int.emod_eq_of_lt h.1 h.2]
  omega

theorem keypadEvent_bytes {r : Int} {n : Nat} (data : Bytes)
    (hr : 0 ≤ r ∧ r < 256) (hn : n ≤ 64) :
    keypadEvent ([readerByte r, UInt8.ofNat n] ++ fieldBytes data n)
      = some (.keypress r n (fieldBytes data n)) := by
  have hcount : (UInt8.ofNat n).toNat = n := by
    rw [UInt8.toNat_ofNat']
    omega
  have hlen : ([readerByte r, UInt8.ofNat n] ++ fieldBytes data n).length
      = n + 2 := by
    rw [List.length_append, length_fieldBytes]
    exact Nat.add_comm 2 n
  have hbyte : byteAt ([readerByte r, UInt8.ofNat n] ++ fieldBytes data n) 1
      = UInt8.ofNat n := rfl
  unfold keypadEvent
  rw [hbyte, hcount, hlen]
  dsimp only
  rw [if_neg (by omega)]
  show some (OsdpEvent.keypress ((readerByte r).toNat : Int) n
    (fieldBytes data n)) = _
  rw [readerByte_toNat hr]

/-- A card format the PD may send is recognised. -/
theorem cardFormatOf_code {f : CardFormat} (h : cardFormatOk f = true) :
    cardFormatOf (cardFormatCode f) = f := by
  cases f with
  | rawUnspecified => rfl
  | rawWiegand => rfl
  | ascii => cases h
  | reserved code => cases h

theorem rawEvent_bytes {r : Int} {f : CardFormat} {n : Nat} (data : Bytes)
    (hr : 0 ≤ r ∧ r < 256) (hf : cardFormatOk f = true) (hn : n < 65536)
    (hb : (n + 7) / 8 ≤ 64) :
    rawEvent ([readerByte r, cardFormatCode f] ++ writeLe 2 n ++
        fieldBytes data ((n + 7) / 8))
      = some (.cardread r f n (fieldBytes data ((n + 7) / 8))) := by
  have hread : readLe 2 (writeLe 2 n ++ fieldBytes data ((n + 7) / 8)) = n :=
    readLe_writeLe_two hn _
  have hlen : ([readerByte r, cardFormatCode f] ++ writeLe 2 n ++
      fieldBytes data ((n + 7) / 8)).length = (n + 7) / 8 + 4 := by
    rw [List.length_append, List.length_append, length_fieldBytes,
      length_writeLe]
    exact Nat.add_comm 4 _
  have hdrop : ([readerByte r, cardFormatCode f] ++ writeLe 2 n ++
      fieldBytes data ((n + 7) / 8)).drop 2
        = writeLe 2 n ++ fieldBytes data ((n + 7) / 8) := rfl
  have hfmt : byteAt ([readerByte r, cardFormatCode f] ++ writeLe 2 n ++
      fieldBytes data ((n + 7) / 8)) 1 = cardFormatCode f := rfl
  unfold rawEvent
  rw [hdrop, hread, hlen, hfmt, cardFormatOf_code hf]
  dsimp only
  rw [if_neg (by omega)]
  show some (OsdpEvent.cardread ((readerByte r).toNat : Int) f n
    (fieldBytes data ((n + 7) / 8))) = _
  rw [readerByte_toNat hr]

theorem mfgrepEvent_bytes {v : UInt32} {n : Nat} (data : Bytes)
    (hv : v.toNat < 256 ^ 3) (hn : n ≤ 128) :
    mfgrepEvent (writeLe 3 v.toNat ++ fieldBytes data n)
      = some (.mfgrep v n (fieldBytes data n)) := by
  have hread : UInt32.ofNat (readLe 3 (writeLe 3 v.toNat ++
      fieldBytes data n)) = v := by
    rw [readLe_writeLe_of_lt hv]
    exact UInt32.ofNat_toNat
  have hlen : (writeLe 3 v.toNat ++ fieldBytes data n).length = 3 + n := by
    rw [List.length_append, length_fieldBytes, length_writeLe]
  have hdrop : (writeLe 3 v.toNat ++ fieldBytes data n).drop 3
      = fieldBytes data n := List.drop_left' (length_writeLe 3 _)
  unfold mfgrepEvent
  rw [hread, hlen, hdrop, Nat.add_sub_cancel_left]
  dsimp only
  rw [if_neg (by omega)]

theorem bioreadrEvent_bytes {r : BioReadr}
    (hn : r.length ≤ bioreadrMaxTemplateLen) :
    bioreadrEvent ([r.reader, r.status, r.type, r.quality] ++
        writeLe 2 r.length ++ fieldBytes r.data r.length)
      = some (.bioreadr { r with data := fieldBytes r.data r.length }) := by
  have hn' : r.length ≤ 256 := hn
  have hread : readLe 2 (writeLe 2 r.length ++ fieldBytes r.data r.length)
      = r.length := readLe_writeLe_two (by omega) _
  have hlen : ([r.reader, r.status, r.type, r.quality] ++
      writeLe 2 r.length ++ fieldBytes r.data r.length).length
        = r.length + replyBioreadrDataLen := by
    rw [List.length_append, List.length_append, length_fieldBytes,
      length_writeLe]
    exact Nat.add_comm 6 _
  have hdrop : ([r.reader, r.status, r.type, r.quality] ++
      writeLe 2 r.length ++ fieldBytes r.data r.length).drop 4
        = writeLe 2 r.length ++ fieldBytes r.data r.length := rfl
  unfold bioreadrEvent
  rw [hdrop, hread, hlen, Nat.add_sub_cancel]
  dsimp only
  rw [if_neg (by omega)]
  rfl

/-- A full report, as long as the capability says on both sides. -/
theorem statusEvent_bytes {p q : OsdpPd} {type : StatusType} {fc : Nat}
    {r : StatusReport} {d : Bytes} {maxLen : Int} (hcap : q.cap = p.cap)
    (htype : r.type = type)
    (hd : (if r.nrEntries ≠ (p.cap fc).numItems.toNat ∨
        maxLen < (p.cap fc).numItems.toNat ∨ (p.cap fc).numItems.toNat > 64
      then none
      else some (fieldBytes r.report (p.cap fc).numItems.toNat)) = some d) :
    statusEvent q type fc d
      = some (.status
        { r with report := fieldBytes r.report r.nrEntries.toNat }) := by
  split at hd
  · cases hd
  · next hcond =>
    have hn : r.nrEntries = (p.cap fc).numItems.toNat := by
      by_contra hne
      exact hcond (.inl hne)
    have hle : (p.cap fc).numItems.toNat ≤ 64 :=
      Nat.not_lt.mp fun hlt => hcond (.inr (.inr hlt))
    obtain rfl := Option.some.inj hd
    unfold statusEvent
    rw [hcap, length_fieldBytes, if_neg (by omega), ← htype, ← hn]
    obtain ⟨type', n, report⟩ := r
    obtain rfl : n = (p.cap fc).numItems.toNat := hn
    rfl

/-- A status report that was accepted for submission is full. -/
theorem submittable_status {p : OsdpPd} {r : StatusReport}
    (h : eventSubmittable p (.status r) = true) :
    0 ≤ pdStatusReportCapacity p r.type ∧
      r.nrEntries = pdStatusReportCapacity p r.type := by
  unfold eventSubmittable at h
  simp only [Bool.and_eq_true, decide_eq_true_eq, beq_iff_eq] at h
  exact h.1

/-- A report on the PD itself has two entries. -/
theorem lstatrEvent_bytes {r : StatusReport} {d : Bytes} {maxLen : Int}
    (htype : r.type = .local) (hn : r.nrEntries = 2)
    (hd : (if r.nrEntries < 2 ∨ maxLen < 2 then none
      else some (fieldBytes r.report 2)) = some d) :
    lstatrEvent d
      = some (.status
        { r with report := fieldBytes r.report r.nrEntries.toNat }) := by
  split at hd
  · cases hd
  · obtain rfl := Option.some.inj hd
    obtain ⟨type, n, report⟩ := r
    obtain rfl : n = 2 := hn
    obtain rfl : type = .local := htype
    unfold lstatrEvent
    rw [length_fieldBytes, if_neg (by decide)]
    rfl

-- ========================================================== the CP's half

section Decode

variable {env : Env} {run : List ApiCall → OsdpM Unit} {i : Nat} {s : Osdp}
variable (hreg : env.eventCallback.isSome = true)
include hreg

omit hreg in
/-- Only what the run comes to matters. -/
theorem tells_congr {ev : OsdpEvent} {m m' : OsdpM Int}
    (h : m s = m' s) (ht : Tells env run i ev m' s) :
    Tells env run i ev m s := by
  obtain ⟨f, x, hf, hx, hlog, hret⟩ := ht
  refine ⟨f, x, hf, hx, ?_, fun u hu => h ▸ hret u hu⟩
  rw [← hlog]
  unfold leaves
  rw [h]

/-- An event found in a reply is handed on. -/
theorem tells_of_event {o : Option OsdpEvent} {ev : OsdpEvent}
    (h : o = some ev) : Tells env run i ev (decodeEvent env run i o) s := by
  rw [h]
  exact tells_decodeEvent hreg

theorem tells_of_activity {o : Option OsdpEvent} {ev : OsdpEvent}
    (h : o = some ev) :
    Tells env run i ev (decodeActivity env run i o) s := by
  rw [h]
  exact tells_decodeActivity hreg

/-- The data block of an event's own reply, decoded. -/
theorem tells_eventReplyBytes {p p₀ : OsdpPd} {id : Nat} {maxLen : Int}
    {ev : OsdpEvent} {d : Bytes} (hsub : eventSubmittable p₀ ev = true)
    (hone : singleReply ev = true) (hfit : ev.fits)
    (hid : pdTranslateEvent ev = some id)
    (hd : eventReplyBytes p id maxLen ev = some d)
    (hcap : (s.pd i).cap = p.cap)
    (hbio : (s.pd i).flags.bioreadrMp = false) :
    Tells env run i ev.onWire (cpDecodeCases env run i id d) s := by
  cases ev with
  | cardread r f n data =>
    have hf : cardFormatOk f = true := (Bool.and_eq_true _ _ ▸ hsub).1
    have hraw : id = replyRaw := by
      cases f <;> cases hid <;> rfl
    subst hraw
    obtain rfl := ifFits_some hd
    exact tells_of_activity hreg (rawEvent_bytes data hfit.1 hf hfit.2.1
      hfit.2.2)
  | keypress r n data =>
    cases hid
    obtain rfl := ifFits_some hd
    exact tells_of_activity hreg (keypadEvent_bytes data hfit.1 hfit.2)
  | mfgrep v n data =>
    cases hid
    obtain rfl := ifFits_some hd
    exact tells_of_event hreg (mfgrepEvent_bytes data hfit.1 hfit.2)
  | status r =>
    have hwhole := submittable_status hsub
    cases htype : r.type with
    | input =>
      rw [pdTranslateEvent, htype] at hid
      cases hid
      exact tells_of_event hreg (statusEvent_bytes hcap htype hd)
    | output =>
      rw [pdTranslateEvent, htype] at hid
      cases hid
      exact tells_of_event hreg (statusEvent_bytes hcap htype hd)
    | reader =>
      rw [pdTranslateEvent, htype] at hid
      cases hid
      exact tells_of_event hreg (statusEvent_bytes hcap htype hd)
    | «local» =>
      rw [pdTranslateEvent, htype] at hid
      cases hid
      rw [htype] at hwhole
      exact tells_of_event hreg (lstatrEvent_bytes htype hwhole.2 hd)
    | unlisted code =>
      rw [htype] at hwhole
      exact absurd hwhole.1 (show ¬ (0 : Int) ≤ -1 by decide)
  | mfgstatr n data =>
    cases hid
    obtain rfl := ifFits_some hd
    refine tells_of_event hreg ?_
    unfold mfgstatEvent
    rw [length_fieldBytes, if_neg (Nat.not_lt.mpr hfit)]
    rfl
  | mfgerrr n data =>
    cases hid
    obtain rfl := ifFits_some hd
    refine tells_of_event hreg ?_
    unfold mfgstatEvent
    rw [length_fieldBytes, if_neg (Nat.not_lt.mpr hfit)]
    rfl
  | bioreadr r =>
    cases hid
    have hblock : (if r.length > bioreadrMaxTemplateLen then none
      else ifFits maxLen _) = some d := hd
    rw [if_neg (Nat.not_lt.mpr hfit)] at hblock
    obtain rfl := ifFits_some hblock
    have hplain (data : Bytes) : cpDecodeCases env run i replyBioreadr data s
        = decodeEvent env run i (bioreadrEvent data) s := by
      show decodeBioreadr env run i data s = _
      unfold decodeBioreadr
      rw [bind_eq (getPd_ok.mpr ⟨rfl, rfl⟩), hbio]
      rfl
    exact tells_congr (hplain _)
      (tells_of_event hreg (bioreadrEvent_bytes hfit))
  | biomatchr r st sc =>
    cases hid
    obtain rfl := ifFits_some hd
    exact tells_of_event hreg rfl
  | _ => cases hone

end Decode

-- ========================================================== the PD's half

/-- The reply of such an event: read off it at once, or a template. -/
theorem kind_singleReply {p : OsdpPd} {ev : OsdpEvent} {id : Nat}
    (hsub : eventSubmittable p ev = true) (hone : singleReply ev = true)
    (hid : pdTranslateEvent ev = some id) :
    id ∈ singleReplies ∨ id = replyBioreadr := by
  cases ev with
  | cardread r f n data => cases f <;> cases hid <;> decide
  | status r =>
    have hlen := (submittable_status hsub).1
    rw [pdTranslateEvent] at hid
    cases htype : r.type with
    | unlisted code =>
      rw [htype] at hlen
      exact absurd hlen (show ¬ (0 : Int) ≤ -1 by decide)
    | _ =>
      rw [htype] at hid
      cases hid
      decide
  | keypress | mfgrep | mfgstatr | mfgerrr | biomatchr | bioreadr =>
    cases hid
    decide
  | _ => cases hone

/-- What the builder works out for an event's own reply. -/
theorem pdBuildData_event {env : Env} {run : List ApiCall → OsdpM Unit}
    {i id : Nat} {p p₀ : OsdpPd} {smb : Option Nat} {maxLen : Int}
    {e : SubmittedEvent} {o : Option Bytes} {x y : Osdp}
    (hev : p.activeEvent = some e)
    (hsub : eventSubmittable p₀ e.event = true)
    (hone : singleReply e.event = true)
    (hid : pdTranslateEvent e.event = some id) (hrep : p.replyId = id)
    (hx : x.pd i = p) (hbio : p.flags.bioreadrMp = false)
    (h : pdBuildData env run i p smb maxLen x = .ok o y) :
    o = eventReplyBytes p id maxLen e.event := by
  have hnot : ¬ replyUnbacked p id (some e.event) = true := by
    intro hun
    have hneed : replyNeedsEvent id = true := by
      unfold replyUnbacked at hun
      simp only [Bool.and_eq_true] at hun
      exact hun.1.1
    have hback : (some e.event).any (eventBacks id) = true :=
      backs_pdTranslateEvent hid hneed
    unfold replyUnbacked at hun
    rw [hneed, hback] at hun
    cases hun
  have hdata : pdBuildCases env run i id (some e.event) smb maxLen x
      = .ok o y := by
    unfold pdBuildData at h
    rw [hev, hrep] at h
    exact (if_neg hnot ▸ h :)
  rcases kind_singleReply hsub hone hid with hin | rfl
  · rw [pdBuildCases_single hin] at hdata
    cases hdata
    rw [hx]
    rfl
  · have hplain : buildBioreadr env run i (some e.event) maxLen x
        = .ok o y := hdata
    unfold buildBioreadr at hplain
    obtain ⟨q, u, hg, hplain⟩ := bind_ok.mp hplain
    obtain ⟨rfl, rfl⟩ := getPd_ok.mp hg
    rw [hx, hbio, if_neg Bool.false_ne_true] at hplain
    exact (pure_ok.mp hplain).1.symm

-- ============================================================ both halves

/-- A PD with the capabilities `cap` accepted `ev` for submission and took
it up with the reply `id`, and `pd_build_reply` emitted `payload`: that
reply, behind a header that `osdp_phy_packet_init` wrote. -/
def PdEmits (env : Env) (run : List ApiCall → OsdpM Unit) (j id : Nat)
    (ev : OsdpEvent) (cap : Nat → PdCap) (payload : Bytes) : Prop :=
  (∃ node s t, osdpPdSubmitEvent env j ⟨node, ev⟩ s = .ok 0 t) ∧
    pdTranslateEvent ev = some id ∧
    ∃ node size s hdr t len u, s.txBuf.length = packetBufSize ∧
      (s.pd j).flags.pdMode = true ∧ (s.pd j).flags.bioreadrMp = false ∧
      (s.pd j).cap = cap ∧ (s.pd j).activeEvent = some ⟨node, ev⟩ ∧
      (s.pd j).replyId = id ∧
      osdpPhyPacketInit j size s = .ok hdr t ∧ 0 ≤ hdr ∧
      pdBuildReply env run j size t = .ok len u ∧
      payload = (u.txBuf.drop (dataPos j t)).take len.toNat ∧
      payload.head? = some (UInt8.ofNat id)

/-- What a PD emits for an event is the event's data block. -/
theorem PdEmits.block {env : Env} {run : List ApiCall → OsdpM Unit}
    {j id : Nat} {ev : OsdpEvent} {cap : Nat → PdCap} {payload : Bytes}
    (hr : ∀ calls, Keeps Quiet (run calls)) (hone : singleReply ev = true)
    (h : PdEmits env run j id ev cap payload) :
    ∃ p p₀ maxLen d, p.cap = cap ∧ eventSubmittable p₀ ev = true ∧
      eventReplyBytes p id maxLen ev = some d ∧
      payload = UInt8.ofNat id :: d := by
  obtain ⟨⟨n₀, x, y, hsubmit⟩, hid, node, size, s, hdr, t, len, u, hbuf,
    hmode, hbio, hcap, hev, hrep, hinit, hhdr, hbuild, hpay, hown⟩ := h
  have hsub : eventSubmittable (x.pd j) ev = true :=
    (osdpPdSubmitEvent_ok hsubmit).1
  have hroom : packetBufSize ≤ s.txBuf.length := Nat.le_of_eq hbuf.symm
  have hmark : MarkAgrees (s.pd j) := markAgrees_pd hmode
  obtain ⟨hlaid, hpd, -⟩ := laid_init hinit hhdr hroom hmark
  have hstart : BlockStarted j t :=
    blockStarted_init hinit hhdr hroom hmark (by rw [hpd]; rfl) rfl rfl
  have hrep' : (t.pd j).replyId = id := by
    rw [hpd]
    exact hrep
  have hkind : hsReply id = false ∧
      UInt8.ofNat id ≠ UInt8.ofNat replyNak := by
    rcases kind_singleReply hsub hone hid with hin | rfl
    · simp only [singleReplies, List.mem_cons, List.not_mem_nil,
        or_false] at hin
      rcases hin with rfl | rfl | rfl | rfl | rfl | rfl | rfl | rfl | rfl |
        rfl <;> decide
    · decide
  rcases pdBuildReply_ok hr hbuild hlaid hstart
      (by rw [hrep']; exact hkind.1) with
    ⟨rfl, -⟩ | ⟨block, rfl, -, hbl, -, hwhat⟩
  · rw [hpay] at hown
    cases hown
  · have hblock : payload = block := by
      have heq := hbl.laid.block_eq
      rw [hbl.typed.pos, List.drop_take, Nat.add_sub_cancel_left] at heq
      rw [hpay]
      exact heq
    rcases hwhat with ⟨d, v, w, hv, hdata, hd⟩ | ⟨-, hnak, -⟩
    · rw [hrep'] at hd
      refine ⟨t.pd j, x.pd j, (size - dataPos j t - 1 : Nat), d, ?_, hsub,
        ?_, hblock.trans hd⟩
      · rw [hpd]
        exact hcap
      · exact (pdBuildData_event (by rw [hpd]; exact hev) hsub hone hid hrep'
          (congrFun hv j) (by rw [hpd]; exact hbio) hdata).symm
    · rw [hblock, hnak] at hown
      exact absurd (Option.some.inj hown).symm hkind.2

/-- A card read of 26 bits. -/
def codecCard : OsdpEvent :=
  .cardread 0 .rawWiegand 26 [0xA1, 0xB2, 0xC3, 0x40]

/-- The PD has taken it up. -/
def codecBusyPd : Osdp :=
  { pd := fun _ =>
      { codecPd.pd 0 with
        activeEvent := some ⟨1, codecCard⟩, replyId := replyRaw } }

/-- A CP that holds the PD's capabilities. -/
def codecPeer : Osdp := { pd := fun _ => { cap := (codecPd.pd 0).cap } }

end LibOsdp
