/-
What answers a poll.

# The choice

A transfer under way goes on, a smartcard answer before a template; else
the event at the head of the queue picks the reply, and an empty queue is
an ACK (`pollTaken`).  Nothing is asked about the event there: whether it
can be sent is found out when its reply is built.

# What can be sent

`pollDataLen` is the length of the data behind the id byte, read off the
PD and the event: none where the builder has nothing, or no room.  The
packet then has to hold what the finalizer adds (`packetSpan`).

# The others

A reply that cannot be built becomes a NAK, and one that cannot be
finished becomes nothing; the event is handed back either way
(`poll_answered_iff`).
-/
import LibOsdp.Engine.Proofs.Staged
import LibOsdp.Pd.Proofs.Answers
import LibOsdp.Pd.Proofs.PeerSize

namespace LibOsdp

open Lib

-- =============================================================== the choice

/-- The PD once it has picked the answer to a poll. -/
def pollChoice (p : OsdpPd) : OsdpPd :=
  if osdpPivPdReplyPending p then { p with replyId := osdpPivPdReplyId p }
  else if osdpBioPdReplyPending p then { p with replyId := replyBioreadr }
  else
    match p.eventQueue with
    | ev :: rest =>
      { p with
        eventQueue := rest
        activeEvent := some ev
        replyId := (pdTranslateEvent ev.event).getD replyAck }
    | [] => { p with replyId := replyAck }

/-- The PD once it has taken a poll. -/
def pollTaken (p : OsdpPd) : OsdpPd :=
  pollChoice { p.nak nakRecord with cmdId := cmdPoll }

/-- A payload of a poll and nothing else. -/
abbrev pollPayload : Bytes := [UInt8.ofNat cmdPoll]

-- ============================================================= the lengths

/-- As long as it fits. -/
def fitLen (maxLen : Int) (n : Nat) : Option Nat :=
  if maxLen < n then none else some n

/-- How many items a status report of this type is about. -/
def statusItems (p : OsdpPd) : StatusType → Nat
  | .input => (p.cap capContactStatusMonitoring).numItems.toNat
  | .output => (p.cap capOutputControl).numItems.toNat
  | .reader => (p.cap capReaders).numItems.toNat
  | .local | .unlisted _ => 2

/-- The length of a status report on the wire: it covers every item the PD
has, and 64 at most. -/
def statusLen (p : OsdpPd) (r : StatusReport) (maxLen : Int) : Option Nat :=
  match r.type with
  | .local => if r.nrEntries < 2 then none else fitLen maxLen 2
  | .unlisted _ => none
  | type =>
    if r.nrEntries ≠ statusItems p type ∨ statusItems p type > 64 then none
    else fitLen maxLen (statusItems p type)

/-- The length of the data of an event that goes out in one packet. -/
def eventLen (p : OsdpPd) (maxLen : Int) : OsdpEvent → Option Nat
  | .keypress _ n _ => fitLen maxLen (2 + n)
  | .cardread _ _ n _ => fitLen maxLen (4 + (n + 7) / 8)
  | .mfgrep _ n _ => fitLen maxLen (3 + n)
  | .status r => statusLen p r maxLen
  | .mfgstatr n _ | .mfgerrr n _ => fitLen maxLen n
  | .bioreadr r =>
    if r.length > bioreadrMaxTemplateLen then none
    else fitLen maxLen (6 + r.length)
  | .biomatchr .. => fitLen maxLen 3
  | _ => none

/-- The length of what follows mode and code in a card reply. -/
def trsBodyLen : TrsReply → Option Nat
  | .cardInfo _ _ csnLen _ pLen _ =>
    some (4 + min csnLen.toNat 32 + min pLen.toNat 64)
  | .cardPresent _ status => (trsCardStatusToWire status).map fun _ => 2
  | .error _ => some 1
  | .cardData _ _ n _ => if n > trsApduMaxLen then none else some (2 + n)
  | .pinComplete .. => some 3

/-- The length of a card reply; its builder is told of one byte less than
there is. -/
def trsLen (maxLen : Int) : Option OsdpEvent → Option Nat
  | some (.trs reply) =>
    (trsBodyLen reply).bind fun n => fitLen (maxLen - 1) (2 + n)
  | _ => fitLen (maxLen - 1) 4

/-- The template a REPLY_BIOREADR starts from. -/
def bioSeedOf : Option OsdpEvent → Option BioReadr
  | some (.bioreadr r) => some r
  | _ => none

/-- The length of the data behind the id of the reply `p` gives to a
poll. -/
def pollDataLen (p : OsdpPd) (maxLen : Int) : Option Nat :=
  let ev := p.activeEvent.map (·.event)
  match p.replyId with
  | replyAck => some 0
  | replyPivdatar | replyGenauthr | replyCrauthr =>
    pivReplyLen p (pivSeedOf p ev) maxLen
  | replyBioreadr =>
    if p.flags.bioreadrMp then bioReplyLen p (bioSeedOf ev) maxLen
    else ev.bind (eventLen p maxLen)
  | replyXrd => trsLen maxLen ev
  | _ => ev.bind (eventLen p maxLen)

section Lengths

variable {p : OsdpPd} {maxLen : Int}

theorem length_ifFits {data : Bytes} {n : Nat} (h : data.length = n) :
    (ifFits maxLen data).map List.length = fitLen maxLen n := by
  subst h
  unfold ifFits fitLen
  split <;> rfl

/-- A report that covers `n` items. -/
theorem length_fullReport (r : StatusReport) (n : Nat) :
    (if r.nrEntries ≠ n ∨ maxLen < n ∨ n > 64 then none
      else some (fieldBytes r.report n)).map List.length
      = if r.nrEntries ≠ n ∨ n > 64 then none else fitLen maxLen n := by
  unfold fitLen
  by_cases hn : r.nrEntries ≠ n ∨ n > 64
  · rw [if_pos hn, if_pos (hn.imp_right .inr)]
    rfl
  · rw [if_neg hn]
    by_cases hm : maxLen < n
    · rw [if_pos (.inr (.inl hm)), if_pos hm]
      rfl
    · rw [if_neg (by omega), if_neg hm, Option.map_some, length_fieldBytes]

/-- An event that goes out in one packet. -/
theorem length_eventReplyBytes {ev : OsdpEvent} {id : Nat}
    (hid : pdTranslateEvent ev = some id) (hack : id ≠ replyAck) :
    (eventReplyBytes p id maxLen ev).map List.length
      = eventLen p maxLen ev := by
  cases ev with
  | status r =>
    show (statusReportBytes p id r maxLen).map List.length
      = statusLen p r maxLen
    unfold statusLen
    have hof {c : Nat} (h : pdTranslateEvent (.status r) = some c) : id = c :=
      Option.some.inj (hid.symm.trans h)
    cases hr : r.type
    case input =>
      obtain rfl := hof (c := replyIstatr) (by
        unfold pdTranslateEvent
        dsimp only
        rw [hr])
      exact length_fullReport r _
    case output =>
      obtain rfl := hof (c := replyOstatr) (by
        unfold pdTranslateEvent
        dsimp only
        rw [hr])
      exact length_fullReport r _
    case reader =>
      obtain rfl := hof (c := replyRstatr) (by
        unfold pdTranslateEvent
        dsimp only
        rw [hr])
      exact length_fullReport r _
    case «local» =>
      obtain rfl := hof (c := replyLstatr) (by
        unfold pdTranslateEvent
        dsimp only
        rw [hr])
      show (if r.nrEntries < 2 ∨ maxLen < 2 then none
        else some (fieldBytes r.report 2)).map List.length = _
      unfold fitLen
      by_cases hn : r.nrEntries < 2
      · rw [if_pos (.inl hn), if_pos hn]
        rfl
      · dsimp only
        rw [if_neg hn]
        by_cases hm : maxLen < 2
        · rw [if_pos (.inr hm)]
          exact (if_pos hm).symm
        · rw [if_neg (by omega), Option.map_some, length_fieldBytes]
          exact (if_neg hm).symm
    case unlisted =>
      exact absurd (hof (c := replyAck) (by
        unfold pdTranslateEvent
        dsimp only
        rw [hr]))
        hack
  | bioreadr r =>
    show (if r.length > bioreadrMaxTemplateLen then none else
      ifFits maxLen _).map List.length
      = if r.length > bioreadrMaxTemplateLen then none
        else fitLen maxLen (6 + r.length)
    split
    · rfl
    · refine length_ifFits ?_
      simp only [List.length_append, length_writeLe, length_fieldBytes,
        List.length_cons, List.length_nil]
  | keypress reader n d =>
    refine length_ifFits ?_
    rw [List.length_append, length_fieldBytes]
    rfl
  | cardread reader f n d =>
    refine length_ifFits ?_
    rw [List.length_append, List.length_append, length_fieldBytes,
      length_writeLe]
    rfl
  | mfgrep v n d =>
    refine length_ifFits ?_
    rw [List.length_append, length_fieldBytes, length_writeLe]
  | mfgstatr n d => exact length_ifFits (length_fieldBytes d n)
  | mfgerrr n d => exact length_ifFits (length_fieldBytes d n)
  | biomatchr a b c => exact length_ifFits rfl
  | trs reply => rfl
  | pivdatar n d => rfl
  | genauthr n d => rfl
  | crauthr n d => rfl
  | notification n => rfl
  | unlisted t => rfl

/-- The two bytes of mode and code, and what follows them. -/
theorem length_trsReplyBody (reply : TrsReply) :
    (trsReplyBody reply).map (fun b => (b.1.length, b.2.length))
      = (trsBodyLen reply).map fun n => (2, n) := by
  cases reply with
  | cardInfo reader contactless csnLen csn pLen pData =>
    refine congrArg some (Prod.ext rfl ?_)
    dsimp only
    rw [List.length_append, List.length_append, length_fieldBytes,
      length_fieldBytes]
    rfl
  | cardPresent reader status =>
    show ((trsCardStatusToWire status).map _).map _
      = ((trsCardStatusToWire status).map _).map _
    cases trsCardStatusToWire status <;> rfl
  | error code => rfl
  | cardData reader status n apdu =>
    show (if n > trsApduMaxLen then none else some _).map _
      = (if n > trsApduMaxLen then none else some _).map _
    split
    · rfl
    · refine congrArg some (Prod.ext rfl ?_)
      dsimp only
      rw [List.length_append, length_fieldBytes]
      rfl
  | pinComplete reader status tries => rfl

/-- A card reply, or the mode report in its place. -/
theorem length_osdpTrsReplyBuild (mode : UInt8) (ev : Option OsdpEvent) :
    (osdpTrsReplyBuild mode ev (maxLen - 1)).map List.length
      = trsLen maxLen ev := by
  have hreport : (if maxLen - 1 < 4 then none
      else some [0, 1, mode, 0] : Option Bytes).map List.length
        = fitLen (maxLen - 1) 4 := by
    unfold fitLen
    split
    · next h => exact (if_pos h).symm
    · next h => exact (if_neg h).symm
  cases ev with
  | none => exact hreport
  | some ev =>
    cases ev
    case trs reply =>
      have hlen := length_trsReplyBody reply
      unfold osdpTrsReplyBuild trsLen
      dsimp only
      generalize trsReplyBody reply = b at hlen
      generalize trsBodyLen reply = o at hlen
      cases b with
      | none =>
        cases o with
        | none => rfl
        | some n => cases hlen
      | some b =>
        cases o with
        | none => cases hlen
        | some n =>
          obtain ⟨hd, body⟩ := b
          have hpair : (hd.length, body.length) = (2, n) :=
            Option.some.inj hlen
          have htwo : hd.length = 2 := congrArg Prod.fst hpair
          have hbody : body.length = n := congrArg Prod.snd hpair
          show (if maxLen - 1 < 2 ∨ maxLen - 1 - 2 < body.length then none
            else some (hd ++ body)).map List.length
            = if maxLen - 1 < (2 + n : Nat) then none else some (2 + n)
          by_cases hfit : maxLen - 1 < 2 ∨ maxLen - 1 - 2 < body.length
          · rw [if_pos hfit, if_pos (by omega)]
            rfl
          · rw [if_neg hfit, if_neg (by omega), Option.map_some,
              List.length_append, htwo, hbody]
    all_goals exact hreport

end Lengths

-- ============================================================= the verdict

/-- Where the data block of the answer starts. -/
def pollOff (p : OsdpPd) : Nat :=
  p.markLen + 5 + if p.flags.scActive then 2 else 0

/-- The length, mark byte included, of the packet a data block of `n`
bytes makes. -/
def packetSpan (p : OsdpPd) (n : Nat) : Nat :=
  if p.flags.scActive then replySpan p n else p.markLen + 7 + n

/-- What becomes of a poll: an answer with so many bytes behind its id, a
NAK in its place, or nothing. -/
inductive PollVerdict where
  | own (n : Nat)
  | nak
  | silence
  deriving DecidableEq, Repr

/-- The verdict on a poll that was taken. -/
def pollVerdict (p : OsdpPd) : PollVerdict :=
  let size := getTxBufSize p
  if size < minimumPacketSize then .silence
  else
    match pollDataLen p (size - pollOff p - 1 : Nat) with
    | none => .nak
    | some n => if packetSpan p (n + 1) ≤ size then .own n else .silence

/-- The reply was picked for a poll: by the event in hand, or without one
as an ACK or the next fragment of a transfer. -/
structure PollPicked (p : OsdpPd) : Prop where
  event : ∀ ev, p.activeEvent = some ev →
    pdTranslateEvent ev.event = some p.replyId
  engine : p.activeEvent = none → p.replyId = replyAck ∨
    osdpPivPdReplyPending p = true ∧ p.replyId = osdpPivPdReplyId p ∨
    osdpBioPdReplyPending p = true ∧ p.replyId = replyBioreadr

/-- The engines work on their own staging buffers. -/
structure StagesOwn (p : OsdpPd) : Prop where
  piv : (p.mp .piv).binding ≠ .fileOps
  bio : (p.mp .bio).binding ≠ .fileOps

section Data

variable {env : Env} {run : List ApiCall → OsdpM Unit} {i : Nat}
variable {p : OsdpPd} {smb : Option Nat} {maxLen : Int} {x y : Osdp}
variable {body : Option Bytes}

/-- An event is what its reply is built from. -/
theorem backs_pdTranslateEvent {ev : OsdpEvent} {id : Nat}
    (h : pdTranslateEvent ev = some id) (hneeds : replyNeedsEvent id = true) :
    eventBacks id ev = true := by
  cases ev with
  | status r =>
    unfold pdTranslateEvent at h
    dsimp only at h
    cases hr : r.type <;> rw [hr] at h <;> cases h <;>
      first | rfl | cases hneeds
  | cardread reader format n data =>
    cases format <;> cases h
    all_goals rfl
  | trs reply =>
    cases h
    cases hneeds
  | _ =>
    cases h
    all_goals first | rfl | cases hneeds

/-- A reply picked for a poll has what it is built from. -/
theorem PollPicked.backed (h : PollPicked p) :
    replyUnbacked p p.replyId (p.activeEvent.map (·.event)) = false := by
  unfold replyUnbacked
  cases hev : p.activeEvent with
  | some ev =>
    have hid := h.event ev hev
    cases hneeds : replyNeedsEvent p.replyId with
    | false => rfl
    | true =>
      have hb := backs_pdTranslateEvent hid hneeds
      simp [hb]
  | none =>
    rcases h.engine hev with hid | ⟨hpend, hid⟩ | ⟨hpend, hid⟩
    · rw [hid]
      rfl
    · have heng : pdEngineReplyPending p p.replyId = true := by
        unfold pdEngineReplyPending
        rw [hpend, hid, beq_self_eq_true, Bool.and_self, Bool.or_true]
      rw [heng, Bool.not_true, Bool.and_false]
    · have heng : pdEngineReplyPending p p.replyId = true := by
        unfold pdEngineReplyPending
        rw [hpend, hid]
        rfl
      rw [heng, Bool.not_true, Bool.and_false]

/-- The replies that carry an event whole, in one packet. -/
def singleReplies : List Nat :=
  [replyOstatr, replyIstatr, replyLstatr, replyRstatr, replyKeypad,
    replyRaw, replyMfgrep, replyMfgstatr, replyMfgerrr, replyBiomatchr]

/-- An event is answered by an ACK, in one packet, or by an engine. -/
theorem kind_pdTranslateEvent {ev : OsdpEvent} {id : Nat}
    (h : pdTranslateEvent ev = some id) :
    id = replyAck ∨ id ∈ singleReplies ∨
      id ∈ [replyPivdatar, replyGenauthr, replyCrauthr] ∨
      id = replyBioreadr ∨ id = replyXrd := by
  cases ev with
  | status r =>
    obtain rfl : _ = id := Option.some.inj h
    split <;> decide
  | cardread reader format n data =>
    cases format <;> cases h <;> decide
  | _ =>
    cases h <;> decide

/-- Such a reply is built from the event alone. -/
theorem pdBuildCases_single {id : Nat} (h : id ∈ singleReplies)
    (ev : Option OsdpEvent) (x : Osdp) :
    pdBuildCases env run i id ev smb maxLen x
      = .ok (ev.bind (eventReplyBytes (x.pd i) id maxLen)) x := by
  simp only [singleReplies, List.mem_cons, List.not_mem_nil, or_false] at h
  rcases h with rfl | rfl | rfl | rfl | rfl | rfl | rfl | rfl | rfl | rfl <;>
    rfl

/-- And so is its length known. -/
theorem pollDataLen_single (h : p.replyId ∈ singleReplies) :
    pollDataLen p maxLen
      = (p.activeEvent.map (·.event)).bind (eventLen p maxLen) := by
  unfold pollDataLen
  simp only [singleReplies, List.mem_cons, List.not_mem_nil, or_false] at h
  rcases h with e | e | e | e | e | e | e | e | e | e <;> rw [e] <;> rfl

section Built

variable (hr : ∀ calls, Keeps SameEngines (run calls))
include hr

/-- The smartcard engine's part of an answer. -/
theorem pivData_poll (hx : x.pd i = p) (hown : StagesOwn p)
    (hroom : 26 < maxLen) {ev : Option OsdpEvent}
    (h : osdpPivPdReplyBuild env run i (pivSeedOf p ev) maxLen x
      = .ok body y) :
    body.map List.length = pivReplyLen p (pivSeedOf p ev) maxLen := by
  subst hx
  exact osdpPivPdReplyBuild_staged hr h hown.piv hroom

/-- A template in answer, in parts or whole. -/
theorem bioData_poll (hx : x.pd i = p) (hown : StagesOwn p)
    (hroom : 26 < maxLen) {ev : Option OsdpEvent}
    (hev : ∀ e, ev = some e → pdTranslateEvent e = some replyBioreadr)
    (h : buildBioreadr env run i ev maxLen x = .ok body y) :
    body.map List.length =
      if p.flags.bioreadrMp then bioReplyLen p (bioSeedOf ev) maxLen
      else ev.bind (eventLen p maxLen) := by
  subst hx
  unfold buildBioreadr at h
  obtain ⟨q, u, hg, h⟩ := bind_ok.mp h
  obtain ⟨rfl, rfl⟩ := getPd_ok.mp hg
  by_cases hmp : (x.pd i).flags.bioreadrMp = true
  · rw [if_pos hmp] at h
    rw [if_pos hmp]
    exact osdpBioPdReplyBuild_staged hr h hown.bio hroom
  · rw [if_neg hmp] at h
    rw [if_neg hmp]
    cases ev with
    | none => exact absurd h throw_ok
    | some e =>
      obtain ⟨rfl, -⟩ := pure_ok.mp h
      exact length_eventReplyBytes (hev e rfl) (by decide)

/-- The data block of an answer to a poll has the length foreseen, and is
built exactly where there is one. -/
theorem pdBuildData_poll (hp : PollPicked p) (hx : x.pd i = p)
    (hown : StagesOwn p) (hroom : 26 < maxLen)
    (h : pdBuildData env run i p smb maxLen x = .ok body y) :
    body.map List.length = pollDataLen p maxLen := by
  subst hx
  unfold pdBuildData at h
  rw [hp.backed, if_neg Bool.false_ne_true] at h
  have hack {ev : Option OsdpEvent} (h : pdBuildCases env run i replyAck ev
      smb maxLen x = .ok body y) : body.map List.length = some 0 := by
    obtain ⟨rfl, -⟩ := pure_ok.mp h
    rfl
  cases hev : (x.pd i).activeEvent with
  | none =>
    rw [hev] at h
    unfold pollDataLen
    rcases hp.engine hev with hid | ⟨-, hid⟩ | ⟨-, hid⟩
    · rw [hid] at h ⊢
      exact hack h
    · unfold osdpPivPdReplyId pivWireReply at hid
      rw [hev]
      cases hf : (x.pd i).pivD.family with
      | none =>
        rw [hf] at hid
        rw [hid] at h
        exact absurd h throw_ok
      | some f =>
        rw [hf] at hid
        cases f <;> rw [hid] at h ⊢ <;>
          exact pivData_poll hr rfl hown hroom h
    · rw [hid] at h
      rw [hev, hid]
      exact bioData_poll hr rfl hown hroom (fun _ e => by cases e) h
  | some ev =>
    have hid := hp.event ev hev
    rw [hev] at h
    rcases kind_pdTranslateEvent hid with he | hone | hpiv | hbio | hxrd
    · unfold pollDataLen
      rw [he] at h ⊢
      exact hack h
    · -- one packet, its data read off the event
      obtain ⟨rfl, -⟩ := pure_ok.mp
        ((pdBuildCases_single hone _ x).symm.trans h)
      rw [pollDataLen_single hone, hev]
      refine length_eventReplyBytes hid fun e => ?_
      rw [e] at hone
      exact absurd hone (by decide)
    · unfold pollDataLen
      simp only [List.mem_cons, List.not_mem_nil, or_false] at hpiv
      rcases hpiv with e | e | e <;> rw [hev, e] <;> rw [e] at h <;>
        exact pivData_poll hr rfl hown hroom h
    · unfold pollDataLen
      rw [hev, hbio]
      rw [hbio] at h hid
      refine bioData_poll hr rfl hown hroom (fun x hx => ?_) h
      cases hx
      exact hid
    · unfold pollDataLen
      rw [hev, hxrd]
      rw [hxrd] at h
      obtain ⟨rfl, -⟩ := pure_ok.mp h
      exact length_osdpTrsReplyBuild _ _

end Built

end Data

-- ================================================================= the turn

/-- A PD without what happens to it between a command and its answer. -/
@[grind] def OsdpPd.turned (p : OsdpPd) : OsdpPd :=
  { p with
    eventQueue := []
    scTstamp := 0
    flags := { p.flags with online := false } }

/-- A PD turned from a command to its answer. -/
abbrev Turns : Osdp → Osdp → Prop := Frame OsdpPd.turned id Obs.isAny

instance : AppMoves SameEngines :=
  appMoves_frame (fun _ _ => rfl) fun _ _ => rfl

instance : AppMoves Turns := appMoves_frame (fun _ _ => rfl) fun _ _ => rfl

/-- The PD is between two exchanges. -/
structure PollReady (i : Nat) (s : Osdp) : Prop where
  mode : (s.pd i).flags.pdMode = true
  room : packetBufSize ≤ s.txBuf.length
  rMac : (s.pd i).sc.rMac.length = 16
  cMac : (s.pd i).sc.cMac.length = 16
  idle : (s.pd i).activeEvent = none
  unparked : (s.pd i).replyPrebuilt = false
  stages : StagesOwn (s.pd i)

section Turn

variable {env : Env} {run : List ApiCall → OsdpM Unit} {i : Nat}
variable {s t : Osdp}

/-- The choice fits the event. -/
theorem pollPicked_choice {p : OsdpPd} (hidle : p.activeEvent = none)
    (hhead : ∀ ev rest, p.eventQueue = ev :: rest →
      osdpPivPdReplyPending p = false → osdpBioPdReplyPending p = false →
      (pdTranslateEvent ev.event).isSome = true) :
    PollPicked (pollChoice p) := by
  have hno {q : OsdpPd} (h : q.activeEvent = p.activeEvent)
      (ev : SubmittedEvent) (hev : q.activeEvent = some ev) : False :=
    absurd (hev.symm.trans (h.trans hidle)) (Option.some_ne_none ev)
  unfold pollChoice
  cases hpiv : osdpPivPdReplyPending p with
  | true =>
    rw [if_pos rfl]
    exact ⟨fun ev hev => (hno rfl ev hev).elim,
      fun _ => .inr (.inl ⟨hpiv, rfl⟩)⟩
  | false =>
    rw [if_neg Bool.false_ne_true]
    cases hbio : osdpBioPdReplyPending p with
    | true =>
      rw [if_pos rfl]
      exact ⟨fun ev hev => (hno rfl ev hev).elim,
        fun _ => .inr (.inr ⟨hbio, rfl⟩)⟩
    | false =>
      rw [if_neg Bool.false_ne_true]
      cases hq : p.eventQueue with
      | nil =>
        exact ⟨fun ev hev => (hno rfl ev hev).elim, fun _ => .inl rfl⟩
      | cons ev rest =>
        obtain ⟨id, hid⟩ := Option.isSome_iff_exists.mp
          (hhead ev rest hq hpiv hbio)
        refine ⟨fun e he => ?_, fun e => absurd e (Option.some_ne_none ev)⟩
        obtain rfl : ev = e := Option.some.inj he
        show _ = some ((pdTranslateEvent ev.event).getD replyAck)
        rw [hid]
        rfl

/-- An update of a PD is one of the PD it finds. -/
theorem updPd_congr {f g : OsdpPd → OsdpPd} (h : f (s.pd i) = g (s.pd i)) :
    s.updPd i f = s.updPd i g := by
  unfold Osdp.updPd
  rw [h]

/-- A poll without data picks its reply, and that is all. -/
theorem pdDecodePoll_ok {ret : Int} (h : pdDecodePoll i [] s = .ok ret t)
    (hidle : (s.pd i).activeEvent = none) :
    ret = pdErrNone ∧ t = s.updPd i pollChoice ∧
      PollPicked (pollChoice (s.pd i)) := by
  unfold pdDecodePoll at h
  rw [if_neg (by simp)] at h
  obtain ⟨p, y, hg, h⟩ := bind_ok.mp h
  obtain ⟨rfl, rfl⟩ := getPd_ok.mp hg
  by_cases hpiv : osdpPivPdReplyPending (s.pd i) = true
  · rw [if_pos hpiv] at h
    obtain ⟨_, y, hy, h⟩ := bind_ok.mp h
    obtain ⟨rfl, rfl⟩ := pure_ok.mp h
    obtain rfl := updPd_ok.mp hy
    refine ⟨rfl, updPd_congr ?_, pollPicked_choice hidle
      fun ev rest _ hno => absurd (hpiv.symm.trans hno) (by decide)⟩
    unfold pollChoice
    rw [if_pos hpiv]
  rw [if_neg hpiv] at h
  by_cases hbio : osdpBioPdReplyPending (s.pd i) = true
  · rw [if_pos hbio] at h
    obtain ⟨_, y, hy, h⟩ := bind_ok.mp h
    obtain ⟨rfl, rfl⟩ := pure_ok.mp h
    obtain rfl := updPd_ok.mp hy
    refine ⟨rfl, updPd_congr ?_, pollPicked_choice hidle
      fun ev rest _ _ hno => absurd (hbio.symm.trans hno) (by decide)⟩
    unfold pollChoice
    rw [if_neg hpiv, if_pos hbio]
  rw [if_neg hbio] at h
  have hchoice : pollChoice (s.pd i) =
      match (s.pd i).eventQueue with
      | ev :: rest =>
        { s.pd i with
          eventQueue := rest
          activeEvent := some ev
          replyId := (pdTranslateEvent ev.event).getD replyAck }
      | [] => { s.pd i with replyId := replyAck } := by
    unfold pollChoice
    rw [if_neg hpiv, if_neg hbio]
  cases hev : (s.pd i).eventQueue with
  | nil =>
    rw [hev] at h hchoice
    obtain ⟨_, y, hy, h⟩ := bind_ok.mp h
    obtain ⟨rfl, rfl⟩ := pure_ok.mp h
    obtain rfl := updPd_ok.mp hy
    exact ⟨rfl, updPd_congr hchoice.symm, pollPicked_choice hidle
      fun ev rest he => absurd (hev.symm.trans he)
        (List.cons_ne_nil ev rest).symm⟩
  | cons ev rest =>
    rw [hev] at h hchoice
    obtain ⟨_, y, hy, h⟩ := bind_ok.mp h
    obtain ⟨rfl, rfl⟩ := pure_ok.mp h
    unfold pdTakeEvent at hy
    cases hid : pdTranslateEvent ev.event with
    | none =>
      rw [hid] at hy
      exact absurd hy throw_ok
    | some id =>
      rw [hid] at hy
      dsimp only at hchoice
      rw [hid] at hchoice
      obtain rfl := updPd_ok.mp hy
      refine ⟨rfl, updPd_congr hchoice.symm, pollPicked_choice hidle
        fun e r he _ _ => ?_⟩
      rw [hev] at he
      cases he
      rw [hid]
      rfl

/-- A poll that is accepted picks its reply, and that is all it does. -/
theorem pdDecodeCommand_poll
    (h : pdDecodeCommand env run i pollPayload s = .ok pdErrNone t)
    (hidle : (s.pd i).activeEvent = none) :
    t = s.updPd i pollTaken ∧ PollPicked (pollTaken (s.pd i)) := by
  unfold pdDecodeCommand at h
  obtain ⟨_, u, hu, h⟩ := bind_ok.mp h
  obtain ⟨_, v, hv, h⟩ := bind_ok.mp h
  obtain ⟨p, w, hg, h⟩ := bind_ok.mp h
  obtain ⟨rfl, rfl⟩ := getPd_ok.mp hg
  have hv' : v.pd i = { (s.pd i).nak nakRecord with cmdId := cmdPoll } := by
    rw [← updPd_ok.mp hv, updPd_pd_same, ← updPd_ok.mp hu, updPd_pd_same]
    rfl
  split at h
  · obtain ⟨_, x, -, h⟩ := bind_ok.mp h
    exact absurd (pure_ok.mp h).1 (by decide)
  · obtain ⟨o, x, hx, h⟩ := bind_ok.mp h
    obtain ⟨ret, x', hpoll, hx⟩ := bind_ok.mp (show
      (pdDecodePoll i [] >>= fun r => pure (some r)) _ = .ok o x from hx)
    obtain ⟨rfl, rfl⟩ := pure_ok.mp hx
    obtain ⟨rfl, rfl, hpicked⟩ := pdDecodePoll_ok hpoll
      (by rw [hv']; exact hidle)
    obtain ⟨-, rfl⟩ := pure_ok.mp (show
      (pure pdErrNone : OsdpM Int) _ = .ok pdErrNone t from h)
    rw [hv'] at hpicked
    refine ⟨?_, hpicked⟩
    rw [← updPd_ok.mp hv, ← updPd_ok.mp hu, updPd_updPd, updPd_updPd]
    rfl

/-- Picking an answer touches the queue, the event in hand and the reply
id. -/
theorem pollTaken_view {V : Type} (v : OsdpPd → V)
    (hcmd : ∀ p : OsdpPd, v { p.nak nakRecord with cmdId := cmdPoll } = v p)
    (hid : ∀ (p : OsdpPd) id, v { p with replyId := id } = v p)
    (hev : ∀ (p : OsdpPd) q ev id,
      v { p with eventQueue := q, activeEvent := ev, replyId := id } = v p)
    (p : OsdpPd) : v (pollTaken p) = v p := by
  unfold pollTaken pollChoice
  split
  · exact (hid _ _).trans (hcmd p)
  · split
    · exact (hid _ _).trans (hcmd p)
    · split
      · exact (hev _ _ _ _).trans (hcmd p)
      · exact (hid _ _).trans (hcmd p)

section Live

variable (hr : ∀ calls, Keeps Turns (run calls))
include hr

/-- Noting that the CP is there leaves the answer alone. -/
theorem turns_pdMarkOnline : Keeps Turns (pdMarkOnline env run i) := by
  have hu : Keeps Turns (updPd i fun p =>
      { p with flags := { p.flags with online := true } }) :=
    keeps_updPd fun _ => rfl
  have hn : Keeps Turns (notifyPdStatus env run i true) :=
    keeps_notifyPdStatus hr i true
  unfold pdMarkOnline
  grind

omit hr in
theorem turns_pdTouchSession (ret : Int) :
    Keeps Turns (pdTouchSession i ret) := by
  have hu (now : Int) :
      Keeps Turns (updPd i fun p => { p with scTstamp := now }) :=
    keeps_updPd fun _ => rfl
  unfold pdTouchSession
  grind

end Live

/-- What it leaves is all the verdict depends on. -/
theorem pollVerdict_turned (p : OsdpPd) :
    pollVerdict p.turned = pollVerdict p := rfl

theorem pollPicked_turned {p q : OsdpPd} (h : q.turned = p.turned)
    (hp : PollPicked p) : PollPicked q := by
  have hq : PollPicked q.turned := by
    rw [h]
    exact ⟨hp.event, hp.engine⟩
  exact ⟨hq.event, hq.engine⟩

end Turn

-- =============================================================== the event

/-- The event is still in hand, or the application has it back. -/
def Held (i : Nat) (ev : SubmittedEvent) (s t : Osdp) : Prop :=
  LogExt Obs.isAny s t ∧ ((s.pd i).activeEvent = some ev →
    (t.pd i).activeEvent = some ev ∨ .evDone ev.node .failed ∈ t.log)

section Event

variable {i : Nat} {ev : SubmittedEvent}

theorem mem_of_logExt {E : Obs → Bool} {o : Obs} {s t : Osdp}
    (h : LogExt E s t) (ho : o ∈ s.log) : o ∈ t.log := by
  obtain ⟨l, hl, -⟩ := h
  rw [hl]
  exact List.mem_append_right l ho

instance : IsPreorder Osdp (Held i ev) where
  refl s := ⟨refl_of (LogExt _) s, .inl⟩
  trans _ _ _ h k := by
    refine ⟨trans_of _ h.1 k.1, fun e => ?_⟩
    rcases h.2 e with hu | hu
    · exact k.2 hu
    · exact .inr (mem_of_logExt k.1 hu)

/-- A step that leaves the event alone. -/
theorem held_of_frame {v : OsdpPd → Option SubmittedEvent}
    {s t : Osdp} (h : Frame v noContext Obs.isAny s t)
    (hv : ∀ p : OsdpPd, v p = p.activeEvent) : Held i ev s t := by
  refine ⟨h.log, fun e => .inl ?_⟩
  rw [← hv, h.pd i, hv, e]

instance : PacketMoves (Held i ev) where
  packet _ _ _ h := by
    refine held_of_frame (v := OsdpPd.activeEvent)
      (Frame.updPd _ _ fun p => ?_) fun _ => rfl
    have e := congrArg OsdpPd.activeEvent (h p)
    exact e
  txBuf _ _ _ := ⟨refl_of (LogExt _) _, .inl⟩

theorem Quiet.held {s t : Osdp} (h : Quiet s t) : Held i ev s t := by
  refine ⟨h.log.mono fun _ _ => rfl, fun e => .inl ?_⟩
  have hp := congrArg OsdpPd.activeEvent (h.pd i)
  exact hp.trans e

theorem held_of_updPd {f : OsdpPd → OsdpPd} {s t : Osdp}
    (h : updPd i f s = .ok () t)
    (hf : ∀ p : OsdpPd, (f p).activeEvent = p.activeEvent) :
    Held i ev s t := by
  obtain rfl := updPd_ok.mp h
  exact ⟨refl_of (LogExt _) s, fun e => .inl (by rw [updPd_pd_same, hf, e])⟩

variable {env : Env} {run : List ApiCall → OsdpM Unit}
variable (hr : ∀ calls, Keeps Quiet (run calls))
include hr

/-- Handing the event back: nothing is in hand then. -/
theorem pdCompleteActive_ok {st : CompletionStatus} {s t : Osdp}
    (h : pdCompleteActive env run i st s = .ok () t) :
    (t.pd i).activeEvent = none ∧ LogExt Obs.isAny s t ∧
      (env.eventCompletion.isSome = true →
        (s.pd i).activeEvent = some ev → .evDone ev.node st ∈ t.log) := by
  have hlog : LogExt Obs.isAny s t :=
    ((completes_pdCompleteActive hr i st).of h).log.mono fun _ _ => rfl
  unfold pdCompleteActive at h
  obtain ⟨p, u, hg, h⟩ := bind_ok.mp h
  obtain ⟨rfl, rfl⟩ := getPd_ok.mp hg
  split at h
  · next hsome =>
    obtain ⟨_, v, hv, h⟩ := bind_ok.mp h
    obtain rfl := updPd_ok.mp h
    refine ⟨by rw [updPd_pd_same], hlog, fun hreg hev => ?_⟩
    obtain ⟨f, hf⟩ := Option.isSome_iff_exists.mp hreg
    unfold pdCompleteEvent at hv
    rw [hev, hf] at hv
    obtain ⟨x, y, hg, hv⟩ := bind_ok.mp hv
    obtain ⟨rfl, rfl⟩ := get_ok.mp hg
    obtain ⟨_, y, hy, hv⟩ := bind_ok.mp hv
    refine mem_of_logExt (s := y) ((hr _).of hv).log ?_
    rw [← observe_ok.mp hy]
    exact List.mem_cons_self
  · next hnone =>
    obtain ⟨-, rfl⟩ := pure_ok.mp h
    refine ⟨Option.not_isSome_iff_eq_none.mp hnone, hlog, fun _ hev => ?_⟩
    rw [hev] at hnone
    exact absurd rfl hnone

end Event

-- =============================================================== answering

/-- The packet of the answer itself is built and waits to be sent. -/
def AnswersPoll (env : Env) (run : List ApiCall → OsdpM Unit) (i : Nat)
    (s : Osdp) : Prop :=
  ∃ block t, pdLayReply env run i (getTxBufSize (s.pd i)) s
      = .ok (some (dataPos i t + block.length)) t ∧
    Accepted env run i (getTxBufSize (s.pd i)) s block t ∧
    Finalizes env i (getTxBufSize (s.pd i)) (dataPos i t + block.length) t

/-- The packet of a NAK in its place is. -/
def NaksPoll (env : Env) (run : List ApiCall → OsdpM Unit) (i : Nat)
    (s : Osdp) : Prop :=
  ∃ block t, pdLayReply env run i (getTxBufSize (s.pd i)) s
      = .ok (some (dataPos i t + block.length)) t ∧
    Substituted env run i (getTxBufSize (s.pd i)) s block t ∧
    Finalizes env i (getTxBufSize (s.pd i)) (dataPos i t + block.length) t

/-- The PD took a poll, and is about to answer it. -/
structure PollReply (i : Nat) (s : Osdp) : Prop where
  mode : (s.pd i).flags.pdMode = true
  room : packetBufSize ≤ s.txBuf.length
  rMac : (s.pd i).sc.rMac.length = 16
  cMac : (s.pd i).sc.cMac.length = 16
  picked : PollPicked (s.pd i)
  stages : StagesOwn (s.pd i)

section Answer

variable {env : Env} {run : List ApiCall → OsdpM Unit} {i : Nat}
variable {s t : Osdp} {block : Bytes} {size : Nat}

/-- No handshake message answers a poll. -/
theorem PollPicked.ordinary {p : OsdpPd} (h : PollPicked p) :
    hsReply p.replyId = false ∧ p.replyId ≠ replyBusy := by
  have hof (e : ordinaryReply p.replyId = true) :
      hsReply p.replyId = false ∧ p.replyId ≠ replyBusy :=
    ordinaryReply_iff.mp e
  cases hev : p.activeEvent with
  | some ev => exact hof (ordinary_pdTranslateEvent (h.event ev hev))
  | none =>
    rcases h.engine hev with e | ⟨-, e⟩ | ⟨-, e⟩
    · exact hof (by rw [e]; rfl)
    · exact hof (by rw [e]; exact ordinary_osdpPivPdReplyId p)
    · exact hof (by rw [e]; rfl)

/-- The data block of the answer starts where the verdict counts from. -/
theorem dataPos_poll (hlaid : ReplyLaid env run i size s block t)
    (hmode : (s.pd i).flags.pdMode = true) (hp : PollPicked (s.pd i)) :
    dataPos i t = pollOff (s.pd i) := by
  obtain ⟨hord, hbusy⟩ := hp.ordinary
  rw [hlaid.pos]
  unfold pollOff initScbLen
  have hhs : osdpPhyInScHandshake (s.pd i).flags.pdMode (s.pd i).replyId
      = false := by
    rw [hmode]
    exact hord
  rw [if_neg (by simp [hbusy]), hhs, if_neg (by simp : ¬ false = true)]

/-- An answer that was laid is finished exactly where its packet fits. -/
theorem finalizes_poll (hlaid : ReplyLaid env run i size s block t)
    (hne : block ≠ []) (hmode : (s.pd i).flags.pdMode = true)
    (hp : PollPicked (s.pd i)) (hsize : size ≤ packetBufSize)
    (hr : (s.pd i).sc.rMac.length = 16)
    (hc : (s.pd i).sc.cMac.length = 16) :
    Finalizes env i size (dataPos i t + block.length) t ↔
      packetSpan (s.pd i) block.length ≤ size := by
  obtain ⟨-, hbusy⟩ := hp.ordinary
  unfold packetSpan
  by_cases hact : (s.pd i).flags.scActive = true
  · rw [if_pos hact]
    exact finalizes_iff hlaid hne hmode hact hbusy hsize hr hc
  · rw [if_neg hact]
    have hsc : (t.pd i).sc = (s.pd i).sc := congrArg Prod.fst hlaid.chan
    have hoff : (t.pd i).flags.scActive = false := by
      have e := congrArg (fun v => v.2.1) hlaid.chan
      exact e.trans (Bool.eq_false_iff.mpr hact)
    have hmark := markLen_of_sealView hlaid.chan
    have hpos := dataPos_poll hlaid hmode hp
    unfold pollOff at hpos
    rw [if_neg hact] at hpos
    rw [(finalizes_laid_iff env hlaid.laid hne hsize (hsc ▸ hr)
      (hsc ▸ hc)).1]
    unfold finishedLen macOnTx
    rw [hoff, Bool.false_and, Bool.false_and, if_neg Bool.false_ne_true,
      hlaid.laid.length_packetOf]
    have hcontrol : pktControl
        (packetOf i t (dataPos i t + block.length))
          = byteAt t.txBuf ((t.pd i).markLen + 4) := byteAt_packetOf (by omega)
    have hcheck : checkLen (pktControl
        (packetOf i t (dataPos i t + block.length))) = 2 := by
      unfold checkLen
      rw [hcontrol, hlaid.control, ctrlCrc_initControl hmode]
      rfl
    rw [hcheck, hmark]
    omega

/-- The PD the answer is built on is the one that picked it. -/
theorem picked_started {off : Nat} (hp : PollPicked (s.pd i)) :
    PollPicked { startedPd { s.pd i with packetBuf := .tx } with
      packetBufLen := off } :=
  ⟨hp.event, hp.engine⟩

theorem stages_started {off : Nat} (h : StagesOwn (s.pd i)) :
    StagesOwn { startedPd { s.pd i with packetBuf := .tx } with
      packetBufLen := off } :=
  ⟨h.piv, h.bio⟩

section Verdict

variable (hr : ∀ calls, Keeps SameEngines (run calls))
variable (hp : PollPicked (s.pd i)) (hown : StagesOwn (s.pd i))
variable (hpos : dataPos i t = pollOff (s.pd i))
include hr hp hown hpos

/-- The answer itself has the length foreseen. -/
theorem accepted_poll (hlarge : minimumPacketSize ≤ size)
    (h : Accepted env run i size s block t) :
    ∃ n, block.length = n + 1 ∧
      pollDataLen (s.pd i) (size - pollOff (s.pd i) - 1 : Nat) = some n := by
  obtain ⟨u, hu, hposu, data, x, y, hx, hdata, rfl⟩ := h
  have hmin : 128 ≤ size := hlarge
  have hoff : pollOff (s.pd i) ≤ 8 := by
    have hm := markLen_le (s.pd i)
    unfold pollOff
    split <;> omega
  have hlen := pdBuildData_poll hr (p := u.pd i) (hu ▸ picked_started hp)
    (congrFun hx i) (hu ▸ stages_started hown) (by omega) hdata
  rw [hposu, hpos, hu] at hlen
  exact ⟨data.length, rfl, hlen.symm⟩

/-- A NAK takes its place where there is none. -/
theorem substituted_poll (hlarge : minimumPacketSize ≤ size)
    (h : Substituted env run i size s block t) :
    block = nakBlock ∧
      pollDataLen (s.pd i) (size - pollOff (s.pd i) - 1 : Nat) = none := by
  obtain ⟨u, hu, hposu, ⟨x, y, hx, hdata⟩, rfl⟩ := h
  have hmin : 128 ≤ size := hlarge
  have hoff : pollOff (s.pd i) ≤ 8 := by
    have hm := markLen_le (s.pd i)
    unfold pollOff
    split <;> omega
  have hlen := pdBuildData_poll hr (p := u.pd i) (hu ▸ picked_started hp)
    (congrFun hx i) (hu ▸ stages_started hown) (by omega) hdata
  rw [hposu, hpos, hu] at hlen
  exact ⟨rfl, hlen.symm⟩

end Verdict

/-- What the packet of an answer to a poll comes to. -/
inductive PollLaid (env : Env) (run : List ApiCall → OsdpM Unit) (i : Nat)
    (s : Osdp) : Prop
  | small (t : Osdp)
      (lay : pdLayReply env run i (getTxBufSize (s.pd i)) s = .ok none t)
      (size : getTxBufSize (s.pd i) < minimumPacketSize)
  | own (block : Bytes) (t : Osdp) (n : Nat)
      (lay : pdLayReply env run i (getTxBufSize (s.pd i)) s
        = .ok (some (dataPos i t + block.length)) t)
      (laid : ReplyLaid env run i (getTxBufSize (s.pd i)) s block t)
      (what : Accepted env run i (getTxBufSize (s.pd i)) s block t)
      (len : block.length = n + 1)
      (data : pollDataLen (s.pd i)
        (getTxBufSize (s.pd i) - pollOff (s.pd i) - 1 : Nat) = some n)
      (fits : Finalizes env i (getTxBufSize (s.pd i))
        (dataPos i t + block.length) t ↔
          packetSpan (s.pd i) (n + 1) ≤ getTxBufSize (s.pd i))
  | nak (t : Osdp)
      (lay : pdLayReply env run i (getTxBufSize (s.pd i)) s
        = .ok (some (dataPos i t + nakBlock.length)) t)
      (laid : ReplyLaid env run i (getTxBufSize (s.pd i)) s nakBlock t)
      (what : Substituted env run i (getTxBufSize (s.pd i)) s nakBlock t)
      (data : pollDataLen (s.pd i)
        (getTxBufSize (s.pd i) - pollOff (s.pd i) - 1 : Nat) = none)
      (fits : Finalizes env i (getTxBufSize (s.pd i))
        (dataPos i t + nakBlock.length) t)

section Laid

variable (hq : ∀ calls, Keeps Quiet (run calls))
variable (hr : ∀ calls, Keeps SameEngines (run calls))
variable (hs : PollReply i s)
include hq hr hs

/-- One of the three happens. -/
theorem pollLaid {o : Option Nat}
    (h : pdLayReply env run i (getTxBufSize (s.pd i)) s = .ok o t) :
    PollLaid env run i s := by
  obtain ⟨hord, -⟩ := hs.picked.ordinary
  cases o with
  | none => exact .small t h (pdLayReply_none hq h hs.mode hs.room hord)
  | some total =>
    obtain ⟨block, rfl, hne, hlaid⟩ := pdLayReply_ok hq h hs.mode hs.room hord
    have hpos := dataPos_poll hlaid hs.mode hs.picked
    have hfin := finalizes_poll hlaid hne hs.mode hs.picked
      (getTxBufSize_le _) hs.rMac hs.cMac
    rcases hlaid.what with hwhat | hwhat
    · obtain ⟨n, hlen, hdata⟩ :=
        accepted_poll hr hs.picked hs.stages hpos hlaid.large hwhat
      rw [hlen] at hfin
      exact .own block t n h hlaid hwhat hlen hdata (hlen ▸ hfin)
    · obtain ⟨rfl, hdata⟩ :=
        substituted_poll hr hs.picked hs.stages hpos hlaid.large hwhat
      refine .nak t h hlaid hwhat hdata (hfin.mpr ?_)
      have hmin : 128 ≤ getTxBufSize (s.pd i) := hlaid.large
      have hm := markLen_le (s.pd i)
      have hspan : packetSpan (s.pd i) 2 ≤ 31 := by
        unfold packetSpan replySpan
        split
        · have hpad : padLen 2 = 16 := rfl
          rw [if_pos (by decide), hpad]
          omega
        · omega
      exact Nat.le_trans hspan (by omega)

/-- The answer itself goes out exactly where the verdict says so. -/
theorem answersPoll_iff {o : Option Nat}
    (h : pdLayReply env run i (getTxBufSize (s.pd i)) s = .ok o t) :
    AnswersPoll env run i s ↔ ∃ n, pollVerdict (s.pd i) = .own n := by
  unfold pollVerdict AnswersPoll
  cases pollLaid hq hr hs h with
  | small u lay size =>
    dsimp only
    rw [if_pos size]
    refine ⟨?_, fun ⟨n, e⟩ => by cases e⟩
    rintro ⟨block, v, hlay, -⟩
    cases lay.symm.trans hlay
  | own block u n lay laid what len data fits =>
    dsimp only
    rw [if_neg (Nat.not_lt.mpr laid.large), data]
    dsimp only
    constructor
    · rintro ⟨block', v, hlay, -, hfin⟩
      have e := lay.symm.trans hlay
      injection e with e hv
      subst hv
      rw [← Option.some.inj e] at hfin
      exact ⟨n, if_pos (fits.mp hfin)⟩
    · rintro ⟨m, e⟩
      split at e
      · next hfit => exact ⟨block, u, lay, what, fits.mpr hfit⟩
      · cases e
  | nak u lay laid what data fits =>
    dsimp only
    rw [if_neg (Nat.not_lt.mpr laid.large), data]
    refine ⟨?_, fun ⟨n, e⟩ => by cases e⟩
    rintro ⟨block, v, hlay, hacc, -⟩
    have e := lay.symm.trans hlay
    injection e with e hv
    subst hv
    obtain ⟨n, -, hdata⟩ := accepted_poll hr hs.picked hs.stages
      (dataPos_poll laid hs.mode hs.picked) laid.large hacc
    exact absurd (data.symm.trans hdata) (Option.some_ne_none n).symm

/-- A NAK goes out exactly where the verdict says so. -/
theorem naksPoll_iff {o : Option Nat}
    (h : pdLayReply env run i (getTxBufSize (s.pd i)) s = .ok o t) :
    NaksPoll env run i s ↔ pollVerdict (s.pd i) = .nak := by
  unfold pollVerdict NaksPoll
  cases pollLaid hq hr hs h with
  | small u lay size =>
    dsimp only
    rw [if_pos size]
    refine ⟨?_, fun e => by cases e⟩
    rintro ⟨block, v, hlay, -⟩
    cases lay.symm.trans hlay
  | own block u n lay laid what len data fits =>
    dsimp only
    rw [if_neg (Nat.not_lt.mpr laid.large), data]
    dsimp only
    constructor
    · rintro ⟨block', v, hlay, hsub, -⟩
      have e := lay.symm.trans hlay
      injection e with e hv
      subst hv
      obtain ⟨-, hdata⟩ := substituted_poll hr hs.picked hs.stages
        (dataPos_poll laid hs.mode hs.picked) laid.large hsub
      exact absurd (data.symm.trans hdata) (Option.some_ne_none n)
    · intro e
      split at e <;> cases e
  | nak u lay laid what data fits =>
    dsimp only
    rw [if_neg (Nat.not_lt.mpr laid.large), data]
    exact ⟨fun _ => rfl, fun _ => ⟨nakBlock, u, lay, what, fits⟩⟩

end Laid

-- ========================================================= handed back

section HandedBack

variable {ev : SubmittedEvent}
variable (hq : ∀ calls, Keeps Quiet (run calls))
variable (hr : ∀ calls, Keeps SameEngines (run calls))
variable (hreg : env.eventCompletion.isSome = true)
include hq hreg

omit hq hreg in
/-- Picking the block type leaves the event in hand. -/
theorem pickBlockType_event {smb : Option Nat} {n : Nat}
    (h : pdPickBlockType i smb n s = .ok () t) :
    Held i ev s t ∧
      ((s.pd i).activeEvent = none → (t.pd i).activeEvent = none) := by
  have hframe : Frame OsdpPd.activeEvent noContext Obs.isAny s t := by
    have hw (off : Nat) (data : Bytes) : Keeps
        (Frame OsdpPd.activeEvent noContext Obs.isAny)
        (writeBuf .tx off data) := by
      intro u a v e
      cases e
      exact ⟨fun _ => rfl, rfl, refl_of (LogExt _) _⟩
    have hb : Keeps (Frame OsdpPd.activeEvent noContext Obs.isAny)
        (readBuf .tx) := keeps_readBuf .tx
    have hk : Keeps (Frame OsdpPd.activeEvent noContext Obs.isAny)
        (pdPickBlockType i smb n) := by
      unfold pdPickBlockType
      grind
    exact hk.of h
  exact ⟨held_of_frame hframe fun _ => rfl, fun e => (hframe.pd i).trans e⟩

/-- What the end of `pd_build_reply` does with the event. -/
theorem finishReply_event {off : Nat} {smb : Option Nat} {maxLen : Int}
    {body : Option Bytes} {len : Int}
    (h : pdFinishReply env run i off smb maxLen body s = .ok len t) :
    Held i ev s t ∧
      (body = none → len = pdErrGeneric ∨ (t.pd i).activeEvent = none) := by
  have hw (data : Bytes) (k : Nat) :
      Keeps (Held i ev) (writeBuf .tx k data) := by
    intro u a v e
    cases e
    exact ⟨refl_of (LogExt _) u, .inl⟩
  unfold pdFinishReply at h
  cases body with
  | some data =>
    obtain ⟨_, u, hu, h⟩ := bind_ok.mp h
    obtain ⟨_, v, hv, h⟩ := bind_ok.mp h
    obtain ⟨-, rfl⟩ := pure_ok.mp h
    refine ⟨trans_of _ ((hw _ _).of hu) (pickBlockType_event hv).1,
      fun e => ?_⟩
    cases e
  | none =>
    dsimp only at h
    split at h
    · obtain ⟨rfl, rfl⟩ := pure_ok.mp h
      exact ⟨refl_of _ s, fun _ => .inl rfl⟩
    · obtain ⟨_, u, hu, h⟩ := bind_ok.mp h
      obtain ⟨_, v, hv, h⟩ := bind_ok.mp h
      obtain ⟨_, w, hw', h⟩ := bind_ok.mp h
      obtain ⟨-, rfl⟩ := pure_ok.mp h
      obtain ⟨hnone, hlog, hdone⟩ :=
        @pdCompleteActive_ok i ev env run hq _ _ _ hv
      have hvw : Held i ev _ _ ∧ _ := pickBlockType_event hw'
      refine ⟨trans_of _ ((hw _ _).of hu) (trans_of _
        ⟨hlog, fun e => .inr (hdone hreg e)⟩ hvw.1), fun _ => .inr ?_⟩
      exact hvw.2 hnone

/-- What `pd_build_reply` does with it. -/
theorem buildReply_event {len : Int}
    (h : pdBuildReply env run i size s = .ok len t)
    (hord : hsReply (s.pd i).replyId = false) :
    Held i ev s t ∧ ((∀ x y body, x.pd = s.pd →
      pdBuildData env run i (s.pd i) (osdpPhyPacketGetSmb (s.pd i) s.txBuf)
        (size - dataPos i s - 1 : Nat) x = .ok body y → body = none) →
      len = pdErrGeneric ∨ (t.pd i).activeEvent = none) := by
  unfold pdBuildReply at h
  obtain ⟨p, u, hg, h⟩ := bind_ok.mp h
  obtain ⟨rfl, rfl⟩ := getPd_ok.mp hg
  obtain ⟨_, u, hu, h⟩ := bind_ok.mp h
  obtain rfl := observe_ok.mp hu
  unfold pdBuildBody at h
  obtain ⟨buf, u, hread, h⟩ := bind_ok.mp h
  cases hread
  have hbuf : ({ s with
      log := .build i (s.pd i).replyId (s.pd i).flags.scActive :: s.log } :
      Osdp).buf .tx = s.txBuf := by
    simp [Osdp.buf]
  rw [hbuf] at h
  dsimp only at h
  have hlogged : Held i ev s { s with
      log := .build i (s.pd i).replyId (s.pd i).flags.scActive :: s.log } :=
    ⟨LogExt.cons rfl, .inl⟩
  split at h
  · obtain ⟨rfl, rfl⟩ := pure_ok.mp h
    exact ⟨hlogged, fun _ => .inl rfl⟩
  · obtain ⟨_, v, hv, h⟩ := bind_ok.mp h
    cases hv
    obtain ⟨body, w, hdata, h⟩ := bind_ok.mp h
    have hquiet := (quiet_pdBuildData hq i _ _ hord).of hdata
    obtain ⟨hheld, hnone⟩ : Held i ev _ _ ∧ _ :=
      finishReply_event hq hreg h
    refine ⟨trans_of (Held i ev) hlogged ?_, fun hall => ?_⟩
    · refine trans_of (Held i ev) ?_ (trans_of (Held i ev) hquiet.held hheld)
      exact ⟨refl_of (LogExt _) _, .inl⟩
    · exact hnone (hall _ w body (by rfl) hdata)

/-- What laying the packet does with it. -/
theorem layReply_event {o : Option Nat}
    (h : pdLayReply env run i size s = .ok o t)
    (hord : hsReply (s.pd i).replyId = false) :
    Held i ev s t := by
  unfold pdLayReply at h
  obtain ⟨_, u, hu, h⟩ := bind_ok.mp h
  obtain ⟨hdr, v, hinit, h⟩ := bind_ok.mp h
  have hsu : Held i ev s u := held_of_updPd hu fun _ => rfl
  have huv : Held i ev u v := (keeps_osdpPhyPacketInit i size).of hinit
  split at h
  · obtain ⟨-, rfl⟩ := pure_ok.mp h
    exact trans_of (Held i ev) hsu huv
  · next hhdr =>
    obtain ⟨_, w, hw, h⟩ := bind_ok.mp h
    obtain ⟨len, x, hx, h⟩ := bind_ok.mp h
    have hvw : Held i ev v w := held_of_updPd hw fun _ => rfl
    have hid : (w.pd i).replyId = (s.pd i).replyId := by
      rcases osdpPhyPacketInit_ok hinit with ⟨-, rfl, -⟩ | ⟨-, hpd, -, -⟩
      · exact absurd (by decide) hhdr
      · rw [← updPd_ok.mp hw, updPd_pd_same, hpd, ← updPd_ok.mp hu,
          updPd_pd_same]
        rfl
    have hwx : Held i ev _ _ :=
      (buildReply_event hq hreg hx (by rw [hid]; exact hord)).1
    have hsx := trans_of (Held i ev) hsu (trans_of (Held i ev) huv
      (trans_of (Held i ev) hvw hwx))
    split at h
    · obtain ⟨-, rfl⟩ := pure_ok.mp h
      exact hsx
    · obtain ⟨_, y, hy, h⟩ := bind_ok.mp h
      obtain ⟨-, rfl⟩ := pure_ok.mp h
      exact trans_of (Held i ev) hsx (held_of_updPd hy fun _ => rfl)

include hr

/-- Where no answer could be built, it is in hand no more. -/
theorem layReply_nak {total : Nat} (hs : PollReply i s)
    (hnone : pollDataLen (s.pd i) (size - pollOff (s.pd i) - 1 : Nat) = none)
    (h : pdLayReply env run i size s = .ok (some total) t) :
    (t.pd i).activeEvent = none := by
  obtain ⟨hord, -⟩ := hs.picked.ordinary
  obtain ⟨block, -, -, hlaid⟩ := pdLayReply_ok hq h hs.mode hs.room hord
  have hmin : 128 ≤ size := hlaid.large
  have hoff : pollOff (s.pd i) ≤ 8 := by
    have hm := markLen_le (s.pd i)
    unfold pollOff
    split <;> omega
  unfold pdLayReply at h
  obtain ⟨_, u, hu, h⟩ := bind_ok.mp h
  obtain rfl := updPd_ok.mp hu
  obtain ⟨hdr, v, hinit, h⟩ := bind_ok.mp h
  split at h
  · cases (pure_ok.mp h).1
  · next hhdr =>
    obtain ⟨_, w, hw, h⟩ := bind_ok.mp h
    have hst := layStarted hinit hhdr hs.mode hs.room hw
    have hpos : dataPos i w = pollOff (s.pd i) := by
      rw [hst.pos, ← hlaid.pos]
      exact dataPos_poll hlaid hs.mode hs.picked
    obtain ⟨len, x, hx, h⟩ := bind_ok.mp h
    have hid : (w.pd i).replyId = (s.pd i).replyId := by
      rw [hst.pd]
      rfl
    have hall : Held i ⟨0, .notification (.pdId {})⟩ _ _ ∧ _ :=
      buildReply_event hq hreg hx (by rw [hid]; exact hord)
    have hevent := hall.2 fun y z body hy hdata => by
        have hlen := pdBuildData_poll hr (p := w.pd i)
          (hst.pd ▸ picked_started hs.picked) (congrFun hy i)
          (hst.pd ▸ stages_started hs.stages) (by omega) hdata
        rw [hpos, hst.pd] at hlen
        exact Option.map_eq_none_iff.mp (hlen.trans hnone)
    split at h
    · cases (pure_ok.mp h).1
    · next hlen =>
      obtain ⟨_, y, hy, h⟩ := bind_ok.mp h
      obtain ⟨-, rfl⟩ := pure_ok.mp h
      rcases hevent with rfl | hgone
      · exact absurd (by decide) hlen
      · rw [← updPd_ok.mp hy, updPd_pd_same]
        exact hgone

/-- **The event of a poll that is not answered by it.**  It is handed back
as failed, whether a NAK goes out or nothing. -/
theorem answer_event (hs : PollReply i s)
    (h : pdAnswer env run i s = .ok () t) (hno : ¬ AnswersPoll env run i s)
    (hev : (s.pd i).activeEvent = some ev) :
    .evDone ev.node .failed ∈ t.log := by
  obtain ⟨hord, -⟩ := hs.picked.ordinary
  obtain ⟨built, u, hbuild, h⟩ := bind_ok.mp h
  rw [pdBuildReplyPacket_eq] at hbuild
  obtain ⟨p, x, hg, hbuild⟩ := bind_ok.mp hbuild
  obtain ⟨rfl, rfl⟩ := getPd_ok.mp hg
  obtain ⟨o, x, hlay, hbuild⟩ := bind_ok.mp hbuild
  have hsx : Held i ev _ _ := layReply_event hq hreg hlay hord
  -- what has not been handed back yet is when the PD starts over
  have hreset (hu : Held i ev s u) (hb : built ≠ pdErrNone) :
      .evDone ev.node .failed ∈ t.log := by
    rw [if_pos hb] at h
    unfold pdErrorReset at h
    obtain ⟨_, v, hv, h⟩ := bind_ok.mp h
    obtain ⟨_, w, hw, h⟩ := bind_ok.mp h
    obtain ⟨-, hlog, hdone⟩ :=
      @pdCompleteActive_ok i ev env run hq _ _ _ hv
    have hvlog : .evDone ev.node .failed ∈ v.log :=
      (hu.2 hev).elim (hdone hreg) (mem_of_logExt hlog)
    have hvw := ((ages_pdScDeactivate hq i).of hw).log
    have hwt := ((receives_osdpPhyStateReset i).of h).log
    exact mem_of_logExt hwt (mem_of_logExt hvw hvlog)
  cases pollLaid hq hr hs hlay with
  | small y lay small =>
    rw [hlay] at lay
    cases lay
    obtain ⟨rfl, rfl⟩ := pure_ok.mp hbuild
    exact hreset hsx (by decide)
  | own block y n lay laid what len data fits =>
    rw [hlay] at lay
    cases lay
    obtain ⟨done, z, hz, hbuild⟩ := bind_ok.mp hbuild
    have hxz : Held i ev x z := (keeps_osdpPhyFinalizePacket i _ _).of hz
    split at hbuild
    · obtain ⟨rfl, rfl⟩ := pure_ok.mp hbuild
      exact hreset (trans_of (Held i ev) hsx hxz) (by decide)
    · next hdone =>
      exact absurd ⟨block, x, hlay, what, done, z, hz, by omega⟩ hno
  | nak y lay laid what data fits =>
    rw [hlay] at lay
    cases lay
    have hgone := layReply_nak hq hr hreg hs data hlay
    have hxlog : .evDone ev.node .failed ∈ x.log := by
      rcases hsx.2 hev with e | e
      · exact absurd (hgone.symm.trans e) (Option.some_ne_none ev).symm
      · exact e
    obtain ⟨done, z, hz, hbuild⟩ := bind_ok.mp hbuild
    have hxz : Held i ev x z := (keeps_osdpPhyFinalizePacket i _ _).of hz
    have hzlog := mem_of_logExt hxz.1 hxlog
    split at hbuild
    · obtain ⟨rfl, rfl⟩ := pure_ok.mp hbuild
      exact hreset (trans_of (Held i ev) hsx hxz) (by decide)
    · obtain ⟨_, w, hw, hbuild⟩ := bind_ok.mp hbuild
      obtain ⟨rfl, rfl⟩ := pure_ok.mp hbuild
      have hzw : Held i ev _ _ := held_of_updPd hw fun _ => rfl
      have hwlog := mem_of_logExt hzw.1 hzlog
      rw [if_neg (by decide)] at h
      exact mem_of_logExt ((keepsSize_pdSendStage hq).of h).log hwlog

end HandedBack

end Answer

/-- A PD that took a poll between two exchanges is about to answer it. -/
theorem PollReady.reply {i : Nat} {s u : Osdp} (hs : PollReady i s)
    (h : (u.pd i).turned = (pollTaken (s.pd i)).turned)
    (htx : u.txBuf = s.txBuf) (hp : PollPicked (pollTaken (s.pd i))) :
    PollReply i u ∧ (u.pd i).replyPrebuilt = false := by
  -- a view that neither the choice nor the turn changes
  have hview {V : Type} (v : OsdpPd → V)
      (hturn : ∀ p : OsdpPd, v p.turned = v p)
      (hcmd : ∀ p : OsdpPd,
        v { p.nak nakRecord with cmdId := cmdPoll } = v p)
      (hid : ∀ (p : OsdpPd) id, v { p with replyId := id } = v p)
      (hev : ∀ (p : OsdpPd) q ev id,
        v { p with eventQueue := q, activeEvent := ev, replyId := id }
          = v p) : v (u.pd i) = v (s.pd i) := by
    rw [← hturn, h, hturn, pollTaken_view v hcmd hid hev]
  have hmode := hview (·.flags.pdMode) (fun _ => rfl) (fun _ => rfl)
    (fun _ _ => rfl) fun _ _ _ _ => rfl
  have hsc := hview (·.sc) (fun _ => rfl) (fun _ => rfl)
    (fun _ _ => rfl) fun _ _ _ _ => rfl
  have hpark := hview (·.replyPrebuilt) (fun _ => rfl) (fun _ => rfl)
    (fun _ _ => rfl) fun _ _ _ _ => rfl
  have hpiv := hview (fun p => (p.mp .piv).binding) (fun _ => rfl)
    (fun _ => rfl) (fun _ _ => rfl) fun _ _ _ _ => rfl
  have hbio := hview (fun p => (p.mp .bio).binding) (fun _ => rfl)
    (fun _ => rfl) (fun _ _ => rfl) fun _ _ _ _ => rfl
  refine ⟨⟨hmode.trans hs.mode, htx ▸ hs.room, ?_, ?_,
    pollPicked_turned h hp, ⟨?_, ?_⟩⟩, hpark.trans hs.unparked⟩
  · rw [hsc]
    exact hs.rMac
  · rw [hsc]
    exact hs.cMac
  · rw [hpiv]
    exact hs.stages.piv
  · rw [hbio]
    exact hs.stages.bio

-- ================================================================ result

/-- What becomes of a poll that was taken in `s` and is answered from `u`
on, the refresh ending in `w`. -/
structure PollSettled (env : Env) (depth : Nat) (s u w : Osdp) : Prop where
  answer : pdAnswer env (pdRunCalls env depth) 0 u = .ok () w
  chosen : (u.pd 0).turned = (pollTaken (s.pd 0)).turned
  own : AnswersPoll env (pdRunCalls env depth) 0 u ↔
    ∃ n, pollVerdict (pollTaken (s.pd 0)) = .own n
  nak : NaksPoll env (pdRunCalls env depth) 0 u ↔
    pollVerdict (pollTaken (s.pd 0)) = .nak
  handed : ¬ AnswersPoll env (pdRunCalls env depth) 0 u →
    env.eventCompletion.isSome = true →
    ∀ ev, (pollTaken (s.pd 0)).activeEvent = some ev →
      .evDone ev.node .failed ∈ w.log

/-- A PD with this event waiting. -/
def pollingPd (ev : OsdpEvent) : Osdp :=
  { pd := fun _ =>
      { flags := { pdMode := true }
        peerRxSize := 128
        eventQueue := [⟨7, ev⟩] } }

/-- The frame that was sent is a NAK in plain text. -/
def Obs.sendsNak : Obs → Bool
  | .sent _ bytes _ => (byteAt bytes 5).toNat == replyNak
  | _ => false

end LibOsdp
