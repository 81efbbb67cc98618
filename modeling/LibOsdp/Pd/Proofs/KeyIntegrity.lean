/-
Key integrity on the PD: when the stored SCBK changes, and to what.

# Due commits

The commit after a sent reply is keyed on `cmd_id` and `reply_id` and
takes whatever the union holds.  `Due` says that wherever these two ask
for a KEYSET commit, the current exchange has earned it: its command was
decoded with the session up, the application took it, and the key parked
is the command's own.  Decoding a command makes `Due` true, whatever the
command (`due_of_command`); everything up to the commit keeps it.

# What the code does not check

A frame that aliases a NAK is answered with the reply left over from an
earlier exchange; over a KEYSET's ACK that commits again, and what is
parked by then are zeros.  `keyStep` excludes it.  `LeavesKeys` asks the
application not to write into the key it is shown.
-/
import LibOsdp.Pd.Proofs.Freshness

namespace LibOsdp

open Lib

-- ============================================================== the claim

/-- The entries of the exchange PD `i` is in. -/
def exchangeOf (i : Nat) (log : List Obs) : List Obs :=
  log.takeWhile (· ≠ .receive i)

/-- CMD_KEYSET for this key, as it is decoded. -/
def keysetPayload (key : Bytes) : Bytes :=
  UInt8.ofNat cmdKeyset :: 1 :: 16 :: key

/-- The current exchange set this key: a well-formed KEYSET was decoded
under a session, and the application accepted it. -/
structure EarnedKey (i : Nat) (key : Bytes) (log : List Obs) : Prop where
  length : key.length = 16
  decoded : .decoded i (keysetPayload key) true ∈ exchangeOf i log
  command : .command i (.keyset 1 16 key) 0 ∈ exchangeOf i log
  verdict : .verdict i (keysetPayload key) pdErrNone ∈ exchangeOf i log

/-- Every commit of a key was earned by the exchange it ended. -/
def CommitsEarned (i : Nat) (log : List Obs) : Prop :=
  Always (fun o past => ∀ key, o = .keyCommit i key → EarnedKey i key past)
    log

/-- The key stored after this history: the last one committed. -/
def storedKey (i : Nat) (initial : Bytes) (log : List Obs) : Bytes :=
  log.foldr (fun o k => match o with
    | .keyCommit j key => if j = i then key else k
    | _ => k) initial

/-- The application leaves the key of a KEYSET it is handed alone. -/
def LeavesKeys (env : Env) : Prop :=
  ∀ f, env.commandCallback = some f → ∀ log key, key.length = 16 →
    keysetKey (1 :: 16 :: key)
      ((f log (.keyset 1 16 key)).edit (.keyset 1 16 key)) = key

-- =============================================================== exchanges

/-- Entries that neither begin an exchange nor commit a key. -/
@[grind] def Obs.skipsKey : Obs → Bool
  | .receive _ | .keyCommit .. => false
  | _ => true

theorem skipsKey_of_isApp {o : Obs} (h : o.isApp) : o.skipsKey := by
  cases o <;> first | rfl | cases h

/-- Such entries belong to the exchange that is on. -/
theorem exchangeOf_append (i : Nat) {l log : List Obs}
    (hl : ∀ o ∈ l, Obs.skipsKey o) :
    exchangeOf i (l ++ log) = l ++ exchangeOf i log := by
  unfold exchangeOf
  rw [List.takeWhile_append_of_pos]
  intro o ho
  have := hl o ho
  cases o <;> simp_all [Obs.skipsKey]

theorem EarnedKey.append {i : Nat} {key : Bytes} {l log : List Obs}
    (h : EarnedKey i key log) (hl : ∀ o ∈ l, Obs.skipsKey o) :
    EarnedKey i key (l ++ log) := by
  have hx : exchangeOf i (l ++ log) = l ++ exchangeOf i log :=
    exchangeOf_append i hl
  refine ⟨h.length, ?_, ?_, ?_⟩ <;> rw [hx] <;>
    refine List.mem_append_right l ?_
  · exact h.decoded
  · exact h.command
  · exact h.verdict

/-- What the commit is keyed on, and the key it would replace. -/
@[grind] def dueView (p : OsdpPd) : Bytes × Bytes × Nat × Nat :=
  (p.sc.scbk, p.pending, p.cmdId, p.replyId)

/-- The same, and whether a finalized reply waits for the channel. -/
@[grind] def parkedView (p : OsdpPd) : (Bytes × Bytes × Nat × Nat) × Bool :=
  (dueView p, p.replyPrebuilt)

/-- The stored key, and whether a finalized reply waits. -/
@[grind] def keyView (p : OsdpPd) : Bytes × Bool :=
  (p.sc.scbk, p.replyPrebuilt)

/-- The stored key alone. -/
@[grind] def scbkView (p : OsdpPd) : Bytes := p.sc.scbk

/-- The stored key was left alone. -/
abbrev KeepsScbk : Osdp → Osdp → Prop :=
  Frame scbkView noContext Obs.skipsKey

/-- The same, and no reply was parked or taken out. -/
abbrev KeepsKey : Osdp → Osdp → Prop := Frame keyView noContext Obs.skipsKey

/-- The stored key was left alone, and a commit that was due still is. -/
abbrev KeepsDue : Osdp → Osdp → Prop := Frame dueView noContext Obs.skipsKey

/-- Nothing happened that concerns the stored key. -/
abbrev KeepsParked : Osdp → Osdp → Prop :=
  Frame parkedView noContext Obs.skipsKey

theorem KeepsKey.scbk {s t : Osdp} (h : KeepsKey s t) : KeepsScbk s t :=
  h.view Prod.fst (fun _ => rfl) fun _ => id

theorem KeepsDue.scbk {s t : Osdp} (h : KeepsDue s t) : KeepsScbk s t :=
  h.view Prod.fst (fun _ => rfl) fun _ => id

theorem KeepsParked.due {s t : Osdp} (h : KeepsParked s t) : KeepsDue s t :=
  h.view Prod.fst (fun _ => rfl) fun _ => id

theorem KeepsParked.key {s t : Osdp} (h : KeepsParked s t) : KeepsKey s t :=
  h.view (fun v => (v.1.1, v.2)) (fun _ => rfl) fun _ => id

theorem Quiet.keepsParked {s t : Osdp} (h : Quiet s t) : KeepsParked s t :=
  h.view parkedView (fun _ => rfl) fun _ => skipsKey_of_isApp

theorem Ages.keepsParked {s t : Osdp} (h : Ages s t) : KeepsParked s t :=
  h.view parkedView (fun _ => rfl) fun _ => skipsKey_of_isApp

theorem Completes.keepsParked {s t : Osdp} (h : Completes s t) :
    KeepsParked s t :=
  h.view parkedView (fun _ => rfl) fun _ => skipsKey_of_isApp

theorem BuildsPacket.keepsDue {s t : Osdp} (h : BuildsPacket s t) :
    KeepsDue s t :=
  h.view dueView (fun _ => rfl) fun o ho => by
    cases o <;> first | rfl | cases ho

theorem Sends.keepsDue {s t : Osdp} (h : Sends s t) : KeepsDue s t :=
  h.view dueView (fun _ => rfl) fun o ho => by
    cases o <;> first | rfl | cases ho

theorem Receives.keepsKey {s t : Osdp} (h : Receives s t) : KeepsKey s t :=
  h.view keyView (fun _ => rfl) fun o ho => by
    cases o <;> first | rfl | cases ho

theorem skipsKey_of_isHandling {o : Obs} (h : o.isHandling) : o.skipsKey := by
  cases o <;> first | rfl | cases h

-- ========================================================== the invariant

/-- If the reply at hand would commit a key, the exchange has earned it. -/
def Due (i : Nat) (s : Osdp) : Prop :=
  (s.pd i).cmdId = cmdKeyset → (s.pd i).replyId = replyAck →
    EarnedKey i (s.pd i).pending s.log

/-- Stored key and history agree, every commit so far was earned, and a
parked reply commits nothing that was not. -/
structure KeyInv (i : Nat) (initial : Bytes) (s : Osdp) : Prop where
  earned : CommitsEarned i s.log
  stored : (s.pd i).sc.scbk = storedKey i initial s.log
  parked : (s.pd i).replyPrebuilt = true → Due i s

section Invariant

variable {i : Nat} {k₀ : Bytes} {s t : Osdp}

theorem CommitsEarned.grow (h : CommitsEarned i s.log)
    (hl : LogExt Obs.skipsKey s t) : CommitsEarned i t.log := by
  obtain ⟨l, hl, hE⟩ := hl
  rw [hl]
  refine h.append fun o ho past key e => ?_
  have := hE o ho
  rw [e] at this
  cases this

theorem storedKey_grow (hl : LogExt Obs.skipsKey s t) :
    storedKey i k₀ t.log = storedKey i k₀ s.log := by
  obtain ⟨l, hl, hE⟩ := hl
  rw [hl]
  refine foldr_neutral fun o ho k => ?_
  have := hE o ho
  cases o <;> first | rfl | cases this

/-- Nothing is due where the reply is a NAK. -/
theorem Due.of_nak (h : (s.pd i).replyId = replyNak) : Due i s := by
  intro _ e
  rw [h] at e
  cases e

/-- Nothing is due to a command other than KEYSET. -/
theorem Due.of_cmd (h : (s.pd i).cmdId ≠ cmdKeyset) : Due i s :=
  fun e => absurd e h

theorem Due.keep (h : Due i s) (hk : KeepsDue s t) : Due i t := by
  have hv := hk.pd i
  simp only [dueView, Prod.mk.injEq] at hv
  obtain ⟨-, hp, hc, hr⟩ := hv
  obtain ⟨l, hl, hE⟩ := hk.log
  intro e₁ e₂
  rw [hl, hp]
  exact (h (hc ▸ e₁) (hr ▸ e₂)).append hE

/-- The part of the invariant that does not look at the reply. -/
theorem KeyInv.of_keepsScbk (h : KeyInv i k₀ s) (hk : KeepsScbk s t)
    (hp : (t.pd i).replyPrebuilt = true → Due i t) : KeyInv i k₀ t := by
  have hv : (t.pd i).sc.scbk = (s.pd i).sc.scbk := hk.pd i
  refine ⟨h.earned.grow hk.log, ?_, hp⟩
  rw [storedKey_grow hk.log, hv]
  exact h.stored

theorem KeyInv.keep (h : KeyInv i k₀ s) (hk : KeepsParked s t) :
    KeyInv i k₀ t := by
  have hv : (t.pd i).replyPrebuilt = (s.pd i).replyPrebuilt :=
    congrArg Prod.snd (hk.pd i)
  exact h.of_keepsScbk hk.key.scbk fun e => (h.parked (hv ▸ e)).keep hk.due

/-- Where no reply is parked, only the stored key matters. -/
theorem KeyInv.keep_free (h : KeyInv i k₀ s) (hk : KeepsKey s t)
    (hf : (s.pd i).replyPrebuilt = false) :
    KeyInv i k₀ t ∧ (t.pd i).replyPrebuilt = false := by
  have hv : (t.pd i).replyPrebuilt = (s.pd i).replyPrebuilt :=
    congrArg Prod.snd (hk.pd i)
  have hf : (t.pd i).replyPrebuilt = false := hv.trans hf
  refine ⟨h.of_keepsScbk hk.scbk fun e => ?_, hf⟩
  rw [hf] at e
  cases e

end Invariant

-- ============================================================ the decoder

section Decode

variable {env : Env} {run : List ApiCall → OsdpM Unit}

/-- The stored key and the command being handled. -/
@[grind] def cmdView (p : OsdpPd) : Bytes × Nat := (p.sc.scbk, p.cmdId)

/-- A command was handled, or part of one. -/
abbrev KeepsCmd : Osdp → Osdp → Prop := Frame cmdView noContext Obs.skipsKey

theorem KeepsCmd.scbk {s t : Osdp} (h : KeepsCmd s t) : KeepsScbk s t :=
  h.view Prod.fst (fun _ => rfl) fun _ => id

theorem Handles.keepsCmd {s t : Osdp} (h : Handles s t) : KeepsCmd s t := by
  refine ⟨fun j => ?_, rfl, h.log.mono fun o ho => ?_⟩
  · have e := congrArg cmdView (h.pd j)
    exact e
  · exact skipsKey_of_isHandling ho

@[grind ←]
theorem keepsCmd_osdpScSetup (i : Nat) :
    Keeps KeepsCmd (osdpScSetup env i) := by
  have hf (n : Nat) : Keeps KeepsCmd (osdpFillRandom env n) := by
    intro s a t e
    cases e
    exact ⟨fun _ => rfl, rfl, LogExt.cons rfl⟩
  unfold osdpScSetup
  grind

@[grind ←]
theorem keepsCmd_pdCmdCapOk (i : Nat) (item : Option Nat) :
    Keeps KeepsCmd (pdCmdCapOk i item) :=
  (keeps_pdCmdCapOk (R := Handles) i item).mono fun _ _ h => Handles.keepsCmd h

@[grind ←]
theorem keepsCmd_setNakCode (i : Nat) (c : UInt8) :
    Keeps KeepsCmd (setNakCode i c) :=
  keeps_updPd fun _ => rfl

@[grind ←]
theorem keepsCmd_setReply (i id : Nat) : Keeps KeepsCmd (setReply i id) :=
  keeps_updPd fun _ => rfl

theorem keepsCmd_pdDecodeScrypt (i : Nat) (data : Bytes) :
    Keeps KeepsCmd (pdDecodeScrypt env i data) := by
  unfold pdDecodeScrypt
  grind

/-- One item of a commit: it stays as it is while a NAK is the reply. -/
def StaysNak (i : Nat) (s t : Osdp) : Prop :=
  (s.pd i).replyId = replyNak → (t.pd i).replyId = replyNak

instance (i : Nat) : IsPreorder Osdp (StaysNak i) where
  refl _ := id
  trans _ _ _ h k e := k (h e)

/-- A capability that is missing is answered with a NAK. -/
theorem staysNak_pdCmdCapOk (i : Nat) (item : Option Nat) :
    Keeps (StaysNak i) (pdCmdCapOk i item) := by
  have hn (c : UInt8) : Keeps (StaysNak i) (replyWithNak i c) := by
    intro s a t e _
    obtain rfl := updPd_ok.mp e
    rw [updPd_pd_same]
    rfl
  unfold pdCmdCapOk
  grind

variable (hr : ∀ calls, Keeps Quiet (run calls))
include hr

theorem keepsCmd_pdDecodeChlng (i : Nat) (data : Bytes) :
    Keeps KeepsCmd (pdDecodeChlng env run i data) := by
  have hd : Keeps KeepsCmd (pdScDeactivate env run i) :=
    (ages_pdScDeactivate hr i).mono fun _ _ h =>
      h.view cmdView (fun _ => rfl) fun _ => skipsKey_of_isApp
  unfold pdDecodeChlng
  grind

theorem keepsCmd_pdDecodeCases (i id : Nat) (data : Bytes) :
    Keeps KeepsCmd (pdDecodeCases env run i id data) := by
  by_cases hc : id = cmdChlng
  · subst hc
    exact .bind (keepsCmd_pdDecodeChlng hr i data) fun _ => .pure _
  · by_cases hs : id = cmdScrypt
    · subst hs
      exact .bind (keepsCmd_pdDecodeScrypt i data) fun _ => .pure _
    · exact keeps_pdDecodeCases hr i data (fun _ _ h => Handles.keepsCmd h)
        (fun s _ => Frame.updPd s i fun _ => rfl) hc hs

omit hr in
/-- The checks on a KEYSET's data block leave its key. -/
theorem keyset_data {data : Bytes} (hlen : ¬ data.length ≠ 18)
    (hhead : ¬ (byteAt data 0 ≠ 1 ∨ byteAt data 1 ≠ 16)) :
    ∃ key : Bytes, key.length = 16 ∧ data = 1 :: 16 :: key := by
  match data with
  | [] => simp at hlen
  | [_] => simp at hlen
  | a :: b :: key =>
    simp only [byteAt, List.getD_cons_zero, List.getD_cons_succ, not_or,
      not_not] at hhead
    obtain ⟨rfl, rfl⟩ := hhead
    exact ⟨key, by simpa using hlen, rfl⟩

/-- What CMD_KEYSET comes to, on a PD whose reply so far is a NAK: the
key is parked after all checks, or the reply is still a NAK. -/
theorem pdDecodeKeyset_cases {i : Nat} {data : Bytes} {ret : Int}
    {s t : Osdp} (h : pdDecodeKeyset env run i data s = .ok ret t)
    (hnak : (s.pd i).replyId = replyNak) (hleaves : LeavesKeys env) :
    (t.pd i).replyId = replyNak ∨
      ret = pdErrNone ∧ (s.pd i).flags.scActive = true ∧
        ∃ key, key.length = 16 ∧ data = 1 :: 16 :: key ∧
          (t.pd i).pending = key ∧
          ∃ l, t.log = l ++ s.log ∧ (∀ o ∈ l, Obs.skipsKey o) ∧
            .command i (.keyset 1 16 key) 0 ∈ l := by
  unfold pdDecodeKeyset at h
  split at h
  · obtain ⟨-, rfl⟩ := pure_ok.mp h
    exact .inl hnak
  · next hlen =>
    split at h
    · obtain ⟨-, rfl⟩ := pure_ok.mp h
      exact .inl hnak
    · next hhead =>
      obtain ⟨key, hkey, rfl⟩ := keyset_data hlen hhead
      obtain ⟨_, u, hu, h⟩ := bind_ok.mp h
      obtain ⟨ok, v, hv, h⟩ := bind_ok.mp h
      have hsu : Handles s u := (keeps_setNakCode i _).of hu
      have hnaku : (u.pd i).replyId = replyNak := by
        obtain rfl := updPd_ok.mp hu
        rw [updPd_pd_same]
        exact hnak
      have hsv := trans_of Handles hsu ((keeps_pdCmdCapOk i _).of hv)
      have hnakv := (staysNak_pdCmdCapOk i none).of hv hnaku
      split at h
      · obtain ⟨-, rfl⟩ := pure_ok.mp h
        exact .inl hnakv
      · obtain ⟨p, w, hg, h⟩ := bind_ok.mp h
        obtain ⟨rfl, rfl⟩ := getPd_ok.mp hg
        split at h
        · obtain ⟨-, rfl⟩ := pure_ok.mp h
          exact .inl hnakv
        · next hact =>
          obtain ⟨⟨ok', cmd⟩, x, hx, h⟩ := bind_ok.mp h
          cases ok' with
          | false =>
            obtain ⟨_, y, hy, h⟩ := bind_ok.mp h
            obtain ⟨-, rfl⟩ := pure_ok.mp h
            obtain rfl := updPd_ok.mp hy
            left
            rw [updPd_pd_same]
            exact doCommandCallback_refused hx
          | true =>
            obtain ⟨_, y, hy, h⟩ := bind_ok.mp h
            obtain ⟨rfl, rfl⟩ := pure_ok.mp h
            obtain rfl := updPd_ok.mp hy
            obtain ⟨f, hf, rfl, hq⟩ := doCommandCallback_accepted hr hx
            right
            have hactive : (v.pd i).flags.scActive = true := by
              simp only [not_or, Bool.not_eq_true, Bool.not_eq_false'] at hact
              exact hact.1
            refine ⟨rfl, hsv.scActive i ▸ hactive, key, hkey, rfl, ?_, ?_⟩
            · rw [updPd_pd_same]
              exact hleaves f hf v.log key hkey
            · obtain ⟨l, hl, hE⟩ := hsv.log
              obtain ⟨m, hm, hF⟩ := hq.log
              refine ⟨m ++ .command i (.keyset 1 16 key) 0 :: l, ?_, ?_, ?_⟩
              · rw [updPd_log, hm]
                show m ++ _ :: v.log = _
                rw [hl]
                simp
              · intro o ho
                rcases List.mem_append.mp ho with ho | ho
                · exact skipsKey_of_isApp (hF o ho)
                · rcases List.mem_cons.mp ho with rfl | ho
                  · rfl
                  · exact skipsKey_of_isHandling (hE o ho)
              · simp

omit hr in
/-- A NAK leaves nothing due, whatever was. -/
theorem due_replyWithNak {i : Nat} {c : UInt8} {s t : Osdp} {l : List Obs}
    (h : replyWithNak i c s = .ok () t) : Due i { t with log := l } := by
  obtain rfl := updPd_ok.mp h
  refine .of_nak ?_
  simp only [updPd_pd_same]
  rfl

omit hr in
/-- A payload is its id byte and its data. -/
theorem payload_eq {payload data : Bytes} {id : Nat}
    (hp : payloadId payload = id) (hd : payload.drop 1 = data)
    (hne : data ≠ []) : payload = UInt8.ofNat id :: data := by
  match payload with
  | [] =>
    rw [List.drop_nil] at hd
    exact absurd hd.symm hne
  | b :: rest =>
    have hb : b.toNat = id := hp
    have hd : rest = data := hd
    rw [hd, ← hb, UInt8.ofNat_toNat]

/-- After a command was decoded, a commit is due only if it earned it. -/
theorem due_of_command {i : Nat} {payload : Bytes} {ret : Int} {s t : Osdp}
    (h : pdDecodeCommand env run i payload s = .ok ret t)
    (hleaves : LeavesKeys env)
    (hdec : .decoded i payload (s.pd i).flags.scActive ∈ exchangeOf i s.log) :
    KeepsScbk s t ∧ Due i { t with log := .verdict i payload ret :: t.log } := by
  unfold pdDecodeCommand at h
  obtain ⟨_, u, hu, h⟩ := bind_ok.mp h
  obtain ⟨_, v, hv, h⟩ := bind_ok.mp h
  obtain ⟨p, w, hg, h⟩ := bind_ok.mp h
  obtain ⟨rfl, rfl⟩ := getPd_ok.mp hg
  have hsv : KeepsScbk s v := trans_of KeepsScbk
    ((keeps_replyWithNak (R := Handles) i nakRecord).of hu).keepsCmd.scbk
    (frame_of_updPd hv fun _ => rfl)
  have hlog : v.log = s.log := by
    obtain rfl := updPd_ok.mp hv
    obtain rfl := updPd_ok.mp hu
    rfl
  have hpd : (v.pd i).replyId = replyNak ∧
      (v.pd i).cmdId = payloadId payload ∧
      (v.pd i).flags.scActive = (s.pd i).flags.scActive := by
    obtain rfl := updPd_ok.mp hv
    obtain rfl := updPd_ok.mp hu
    simp only [updPd_pd_same]
    exact ⟨rfl, rfl, rfl⟩
  obtain ⟨hnak, hcmd, hact⟩ := hpd
  split at h
  · obtain ⟨_, w, hw, h⟩ := bind_ok.mp h
    obtain ⟨-, rfl⟩ := pure_ok.mp h
    have hw' := (keepsCmd_setNakCode i nakScCond).of hw
    refine ⟨trans_of KeepsScbk hsv hw'.scbk, .of_nak ?_⟩
    obtain rfl := updPd_ok.mp hw
    simp only [updPd_pd_same]
    exact hnak
  · obtain ⟨r, w, hd, h⟩ := bind_ok.mp h
    have hvw := (keepsCmd_pdDecodeCases hr i _ _).of hd
    have hsw := trans_of KeepsScbk hsv hvw.scbk
    cases r with
    | none =>
      obtain ⟨_, x, hx, h⟩ := bind_ok.mp h
      obtain ⟨-, rfl⟩ := pure_ok.mp h
      exact ⟨trans_of KeepsScbk hsw
        ((keeps_replyWithNak (R := Handles) i nakCmdUnknown).of hx).keepsCmd.scbk,
        due_replyWithNak hx⟩
    | some ret' =>
      dsimp only at h
      split at h
      · obtain ⟨_, x, hx, h⟩ := bind_ok.mp h
        obtain ⟨-, rfl⟩ := pure_ok.mp h
        exact ⟨trans_of KeepsScbk hsw
          ((keeps_replyWithNak (R := Handles) i nakCmdLen).of hx).keepsCmd.scbk,
          due_replyWithNak hx⟩
      · obtain ⟨rfl, rfl⟩ := pure_ok.mp h
        refine ⟨hsw, ?_⟩
        by_cases hk : payloadId payload = cmdKeyset
        · unfold payloadId at hk
          rw [hk] at hd
          obtain ⟨ret, x, hkey, h⟩ := bind_ok.mp hd
          obtain ⟨e, rfl⟩ := pure_ok.mp h
          injection e with e
          subst e
          rcases pdDecodeKeyset_cases hr hkey hnak hleaves with hn | hy
          · exact .of_nak hn
          · obtain ⟨rfl, hup, key, hlen, hdata, hpend, l, hl, hE, hcb⟩ := hy
            have hpay : payload = keysetPayload key :=
              payload_eq hk hdata (by simp)
            have hex : exchangeOf i (.verdict i payload pdErrNone :: x.log)
                = .verdict i payload pdErrNone ::
                  (l ++ exchangeOf i s.log) := by
              rw [hl, hlog]
              refine exchangeOf_append i (l := .verdict i payload pdErrNone :: l)
                fun o ho => ?_
              rcases List.mem_cons.mp ho with rfl | ho
              · rfl
              · exact hE o ho
            intro _ _
            show EarnedKey i (x.pd i).pending _
            rw [hpend]
            refine ⟨hlen, ?_, ?_, ?_⟩ <;> rw [hex]
            · rw [← hact, hup, hpay] at hdec
              exact List.mem_cons_of_mem _ (List.mem_append_right l hdec)
            · exact List.mem_cons_of_mem _ (List.mem_append_left _ hcb)
            · rw [hpay]
              exact List.mem_cons_self
        · refine .of_cmd ?_
          have hcw : (w.pd i).cmdId = (v.pd i).cmdId :=
            congrArg Prod.snd (hvw.pd i)
          show (w.pd i).cmdId ≠ cmdKeyset
          rw [hcw, hcmd]
          exact hk

end Decode

-- =============================================================== replying

section Reply

variable {env : Env} {run : List ApiCall → OsdpM Unit}

/-- A reply that went out, or failed to, is no longer parked. -/
theorem pdSendReply_taken {i : Nat} {ret : Int} {s t : Osdp}
    (h : pdSendReply env i s = .ok ret t) (hret : ret ≠ pdErrRetrySend) :
    (t.pd i).replyPrebuilt = false := by
  unfold pdSendReply at h
  obtain ⟨p, u, hg, h⟩ := bind_ok.mp h
  obtain ⟨rfl, rfl⟩ := getPd_ok.mp hg
  obtain ⟨res, v, hs, h⟩ := bind_ok.mp h
  split at h
  · exact absurd (pure_ok.mp h).1.symm hret
  · obtain ⟨_, w, hw, h⟩ := bind_ok.mp h
    obtain rfl := updPd_ok.mp hw
    split at h
    · obtain ⟨-, rfl⟩ := pure_ok.mp h
      simp only [updPd_pd_same]
    · obtain ⟨_, x, hx, h⟩ := bind_ok.mp h
      obtain ⟨-, rfl⟩ := pure_ok.mp h
      obtain rfl := updPd_ok.mp hx
      simp only [updPd_pd_same]

variable (hr : ∀ calls, Keeps Quiet (run calls))
include hr

/-- Asking the application neither stores a key nor parks a reply. -/
theorem keepsKey_doCommandCallback (i : Nat) (cmd : OsdpCmd) :
    Keeps KeepsKey (doCommandCallback env run i cmd) := by
  have hq (calls : List ApiCall) : Keeps KeepsKey (run calls) :=
    (hr calls).mono fun _ _ h => Quiet.keepsParked h |>.key
  have ho (ret : Int) : Keeps KeepsKey (observe (.command i cmd ret)) :=
    keeps_observe rfl
  have hc : Keeps KeepsKey (callCommandCallback env run i cmd) := by
    unfold callCommandCallback
    grind
  have hn (c : UInt8) : Keeps KeepsKey (replyWithNak i c) :=
    keeps_updPd fun _ => rfl
  unfold doCommandCallback offerCommand
  grind

@[grind ←]
theorem keepsKey_pdScDeactivate (i : Nat) :
    Keeps KeepsKey (pdScDeactivate env run i) :=
  (ages_pdScDeactivate hr i).mono fun _ _ h => Ages.keepsParked h |>.key

@[grind ←]
theorem keepsKey_pdCompleteActive (i : Nat) (st : CompletionStatus) :
    Keeps KeepsKey (pdCompleteActive env run i st) :=
  (completes_pdCompleteActive hr i st).mono fun _ _ h =>
    Completes.keepsParked h |>.key

omit hr in
@[grind ←]
theorem keepsKey_osdpPhyStateReset (i : Nat) :
    Keeps KeepsKey (osdpPhyStateReset env i false) :=
  (receives_osdpPhyStateReset i).mono fun _ _ h => Receives.keepsKey h

/-- Starting over leaves what is due, and the key. -/
theorem keepsParked_pdErrorReset (i : Nat) :
    Keeps KeepsParked (pdErrorReset env run i) := by
  have hc : Keeps KeepsParked (pdCompleteActive env run i .failed) :=
    (completes_pdCompleteActive hr i .failed).mono
      fun _ _ h => Completes.keepsParked h
  have hd : Keeps KeepsParked (pdScDeactivate env run i) :=
    (ages_pdScDeactivate hr i).mono fun _ _ h => Ages.keepsParked h
  have hs : Keeps KeepsParked (osdpPhyStateReset env i false) := by
    unfold osdpPhyStateReset
    grind
  unfold pdErrorReset
  grind

/-- The parked key takes over: the one step that stores a key. -/
theorem keyInv_pdCommitKeyset {i : Nat} {k₀ : Bytes} {s t : Osdp}
    (h : pdCommitKeyset env run i s = .ok () t) (hi : KeyInv i k₀ s)
    (hdue : EarnedKey i (s.pd i).pending s.log)
    (hf : (s.pd i).replyPrebuilt = false) :
    KeyInv i k₀ t ∧ (t.pd i).replyPrebuilt = false := by
  unfold pdCommitKeyset at h
  obtain ⟨p, u, hg, h⟩ := bind_ok.mp h
  obtain ⟨rfl, rfl⟩ := getPd_ok.mp hg
  obtain ⟨_, u, hu, h⟩ := bind_ok.mp h
  obtain rfl := observe_ok.mp hu
  obtain ⟨_, v, hv, h⟩ := bind_ok.mp h
  have hvt : KeepsKey v t := (keepsKey_pdScDeactivate hr i).of h
  obtain rfl := updPd_ok.mp hv
  refine KeyInv.keep_free ⟨?_, ?_, fun e => ?_⟩ hvt ?_
  · refine ⟨fun key e => ?_, hi.earned⟩
    injection e with _ e
    exact e ▸ hdue
  · rw [updPd_pd_same, updPd_log]
    simp [storedKey]
  · rw [updPd_pd_same] at e
    have e : (s.pd i).replyPrebuilt = true := e
    rw [hf] at e
    cases e
  · rw [updPd_pd_same]
    exact hf

/-- What a sent reply commits. -/
theorem keyInv_pdCommit {i : Nat} {k₀ : Bytes} {s t : Osdp}
    (h : pdCommit env run i s = .ok () t) (hi : KeyInv i k₀ s)
    (hdue : Due i s) (hf : (s.pd i).replyPrebuilt = false) :
    KeyInv i k₀ t ∧ (t.pd i).replyPrebuilt = false := by
  have hc : Keeps KeepsKey (pdCommitComset env run i) := by
    have hd (cmd : OsdpCmd) :
        Keeps KeepsKey (doCommandCallback env run i cmd) :=
      keepsKey_doCommandCallback hr i cmd
    unfold pdCommitComset
    grind
  unfold pdCommit at h
  obtain ⟨p, u, hg, h⟩ := bind_ok.mp h
  obtain ⟨rfl, rfl⟩ := getPd_ok.mp hg
  split at h
  · next hk => exact keyInv_pdCommitKeyset hr h hi (hdue hk.1 hk.2) hf
  · split at h
    · exact hi.keep_free (hc.of h) hf
    · obtain ⟨-, rfl⟩ := pure_ok.mp h
      exact ⟨hi, hf⟩

/-- From a finalized reply to the end of the refresh. -/
theorem keyInv_pdSendStage {i : Nat} {k₀ : Bytes} {s t : Osdp}
    (h : pdSendStage env run i s = .ok () t) (hi : KeyInv i k₀ s)
    (hdue : Due i s) : KeyInv i k₀ t := by
  unfold pdSendStage at h
  obtain ⟨ret, u, hs, h⟩ := bind_ok.mp h
  have hsu := ((sends_pdSendReply i).of hs).keepsDue
  have hdu := hdue.keep hsu
  have hiu := hi.of_keepsScbk hsu.scbk fun _ => hdu
  split at h
  · obtain ⟨-, rfl⟩ := pure_ok.mp h
    exact hiu
  · next hretry =>
    have hfu := pdSendReply_taken hs hretry
    split at h
    · obtain ⟨_, v, hv, h⟩ := bind_ok.mp h
      obtain ⟨_, w, hw, h⟩ := bind_ok.mp h
      have huv := ((completes_pdCompleteActive hr i .ok).of hv).keepsParked
      obtain ⟨hiv, hfv⟩ := hiu.keep_free huv.key hfu
      obtain ⟨hiw, hfw⟩ := keyInv_pdCommit hr hw hiv (hdu.keep huv.due) hfv
      have hrest : Keeps KeepsKey (do
          osdpPhyProgressSequence i
          osdpPhyStateReset env i false) := by
        have hp : Keeps KeepsKey (osdpPhyProgressSequence i) :=
          keeps_updPd fun _ => rfl
        grind
      exact (hiw.keep_free (hrest.of h) hfw).1
    · obtain ⟨_, v, hv, h⟩ := bind_ok.mp h
      have huv := (keepsKey_pdCompleteActive hr i .failed).of hv
      have hvt := (keepsKey_osdpPhyStateReset i).of h
      exact (hiu.keep_free (trans_of KeepsKey huv hvt) hfu).1

/-- From a processed frame to the end of the refresh. -/
theorem keyInv_pdReplyStage {i : Nat} {k₀ : Bytes} {ret : Int} {s t : Osdp}
    (h : pdReplyStage env run i ret s = .ok () t) (hi : KeyInv i k₀ s)
    (hdue : Due i s) : KeyInv i k₀ t := by
  unfold pdReplyStage at h
  obtain ⟨_, u, hu, h⟩ := bind_ok.mp h
  obtain ⟨_, v, hv, h⟩ := bind_ok.mp h
  have hsv := trans_of KeepsParked
    ((ages_pdMarkOnline hr i).of hu).keepsParked
    ((ages_pdTouchSession i ret).of hv).keepsParked
  have hiv := hi.keep hsv
  have hdv := hdue.keep hsv.due
  obtain ⟨p, w, hg, h⟩ := bind_ok.mp h
  obtain ⟨rfl, rfl⟩ := getPd_ok.mp hg
  split at h
  · exact keyInv_pdSendStage hr h hiv hdv
  · obtain ⟨built, w, hw, h⟩ := bind_ok.mp h
    have hvw := ((builds_pdBuildReplyPacket hr i).of hw).keepsDue
    have hdw := hdv.keep hvw
    have hiw := hiv.of_keepsScbk hvw.scbk fun _ => hdw
    split at h
    · exact hiw.keep ((keepsParked_pdErrorReset hr i).of h)
    · exact keyInv_pdSendStage hr h hiw hdw

end Reply

-- ============================================================ the refresh

section Refresh

variable {env : Env} {run : List ApiCall → OsdpM Unit}

/-- A frame that aliases a NAK is in hand while the ACK of a KEYSET is left
over. -/
def aliasMeetsKeyset (env : Env) (i : Nat) (u : Osdp) : Bool :=
  aliasesNack env (u.pd i) (u.frameBuf i) (u.frameLen i) &&
    (u.pd i).cmdId == cmdKeyset && (u.pd i).replyId == replyAck

/-- A refresh from `s` does not meet it. -/
def keyStep (env : Env) (run : List ApiCall → OsdpM Unit) (i : Nat)
    (s : Osdp) : Bool :=
  (receivedFrame env run i s).all (!aliasMeetsKeyset env i ·)

/-- The exchange begins: nothing is parked. -/
theorem keyInv_pdListen {i : Nat} {k₀ : Bytes} {s t : Osdp}
    (h : pdListen i s = .ok () t) (hi : KeyInv i k₀ s) :
    KeyInv i k₀ t ∧ (t.pd i).replyPrebuilt = false := by
  obtain ⟨_, u, hu, h⟩ := bind_ok.mp h
  obtain rfl := updPd_ok.mp hu
  obtain rfl := observe_ok.mp h
  have hf : (({ s.updPd i fun p => { p with replyPrebuilt := false } with
      log := .receive i :: s.log } : Osdp).pd i).replyPrebuilt = false := by
    simp only [updPd_pd_same]
  refine ⟨⟨⟨fun key e => Obs.noConfusion e, hi.earned⟩, ?_, fun e => ?_⟩, hf⟩
  · simp only [updPd_pd_same]
    exact hi.stored
  · exact absurd (e.symm.trans hf) (by simp)

variable (hr : ∀ calls, Keeps Quiet (run calls))
include hr

/-- Looking for a frame: the invariant holds, and whatever is answered
next commits no more than was earned. -/
theorem keyInv_received {i : Nat} {k₀ : Bytes} {s t : Osdp} {ret : Int}
    (h : Received env run i s ret t) (hi : KeyInv i k₀ s)
    (hf : (s.pd i).replyPrebuilt = false) (hleaves : LeavesKeys env)
    (halias : ∀ u, osdpPhyCheckPacket env i s = .ok errPktNone u →
      aliasMeetsKeyset env i u = false) :
    KeyInv i k₀ t ∧ (answered ret → Due i t) := by
  cases h with
  | @none err u _ hne check reset skip =>
    have hsu := ((receives_osdpPhyCheckPacket i).of check).keepsKey
    refine ⟨?_, fun ha => ?_⟩
    · obtain ⟨hiu, hfu⟩ := hi.keep_free hsu hf
      rcases reset with rfl | hreset
      · exact hiu
      · exact (hiu.keep_free ((keepsKey_osdpPhyStateReset i).of hreset) hfu).1
    · have hnack := answered_pdErrorOfPhy ha hne
      have htu : t = u := by
        by_contra hn
        rw [hnack] at skip
        exact absurd (skip hn) (by decide)
      subst htu hnack
      exact .of_nak (checkPacket_nack check)
  | @refused len payload u _ check hlen decode =>
    have hsu := ((receives_osdpPhyCheckPacket i).of check).keepsKey
    have hut := ((receives_osdpPhyDecodePacket i).of decode).keepsKey
    obtain ⟨hiu, hfu⟩ := hi.keep_free hsu hf
    refine ⟨(hiu.keep_free hut hfu).1, fun ha => ?_⟩
    obtain ⟨r, hr, hrl, -, htp, -⟩ := osdpPhyDecodePacket_ok decode
    have hnack := decode_nack hr (hrl.trans (answered_pdErrorOfDecode ha))
    split at hnack
    · next hal =>
      have hno := halias u check
      have hcmd : (t.pd i).cmdId = (u.pd i).cmdId := by
        have e := congrArg OsdpPd.cmdId
          (((receives_osdpPhyDecodePacket i).of decode).pd i)
        exact e
      have hid : (t.pd i).replyId = (u.pd i).replyId := by
        rw [htp]
        exact hnack.1
      intro e₁ e₂
      simp [aliasMeetsKeyset, hal, hcmd ▸ e₁, hid ▸ e₂] at hno
    · refine .of_nak ?_
      rw [htp]
      exact hnack
  | @decoded len _ payload u v w check hlen decode command =>
    have hsu := ((receives_osdpPhyCheckPacket i).of check).keepsKey
    have huv := ((receives_osdpPhyDecodePacket i).of decode).keepsKey
    have hvo : KeepsKey v
        { v with
          log := .decoded i payload (v.pd i).flags.scActive :: v.log } :=
      ⟨fun _ => rfl, rfl, LogExt.cons rfl⟩
    obtain ⟨hio, -⟩ := hi.keep_free
      (trans_of KeepsKey (trans_of KeepsKey hsu huv) hvo) hf
    obtain ⟨hk, hdue⟩ := due_of_command hr command hleaves
      (by simp [exchangeOf])
    have hwo : KeepsScbk w
        { w with log := .verdict i payload ret :: w.log } :=
      ⟨fun _ => rfl, rfl, LogExt.cons rfl⟩
    exact ⟨hio.of_keepsScbk (trans_of KeepsScbk hk hwo) fun _ => hdue,
      fun _ => hdue⟩

/-- One refresh. -/
theorem keyInv_osdpPdUpdate {i : Nat} {k₀ : Bytes} {s t : Osdp}
    (h : osdpPdUpdate env run i s = .ok () t) (hi : KeyInv i k₀ s)
    (hleaves : LeavesKeys env) (hstep : keyStep env run i s = true) :
    KeyInv i k₀ t := by
  obtain ⟨u, hu, hserved⟩ := refresh_cases h
  have hage : Keeps Ages (do
      pdExpireSession env run i
      pdExpireLink env run i) :=
    .bind (ages_pdExpireSession hr i) fun _ => ages_pdExpireLink hr i
  have hiu := hi.keep (hage.of hu).keepsParked
  cases hserved with
  | parked hp send => exact keyInv_pdSendStage hr send hiu (hiu.parked hp)
  | @received v w ret hp listen got rest =>
    obtain ⟨hiv, hfv⟩ := keyInv_pdListen listen hiu
    obtain ⟨hiw, hdw⟩ := keyInv_received hr got hiv hfv hleaves fun x hx => by
      unfold keyStep at hstep
      rw [receivedFrame_of hu hp listen hx] at hstep
      simpa using hstep
    rcases rest with ⟨-, rfl⟩ | ⟨-, hreset⟩ | ⟨ha, hreply⟩
    · exact hiw
    · exact hiw.keep ((keepsParked_pdErrorReset hr i).of hreset)
    · exact keyInv_pdReplyStage hr hreply hiw (hdw ha)

end Refresh

-- ================================================================ the run

section Run

variable {env : Env} {depth : Nat}

/-- What a run must not meet in any of its refreshes. -/
def keyInput (env : Env) (depth : Nat) (s : Osdp) : PdInput → Bool
  | .refresh now rx =>
    s.tearingDown || s.running ||
      keyStep env (pdRunCalls env depth) 0 (s.begin now rx)
  | _ => true

/-- Neither the PD nor the history is different. -/
theorem KeyInv.congr {i : Nat} {k₀ : Bytes} {s t : Osdp}
    (h : KeyInv i k₀ s) (hpd : t.pd = s.pd) (hlog : t.log = s.log) :
    KeyInv i k₀ t := by
  refine ⟨hlog ▸ h.earned, by rw [hpd, hlog]; exact h.stored, fun e => ?_⟩
  unfold Due
  rw [hpd] at e ⊢
  rw [hlog]
  exact h.parked e

/-- The invariant is carried through every run that does not meet it. -/
theorem carries_keyInv (hleaves : LeavesKeys env) (k₀ : Bytes) :
    Carries env depth (keyInput env depth) (KeyInv 0 k₀)
      (CommitsEarned 0) where
  congr _ _ hpd hlog _ h := h.congr hpd hlog
  quiet _ _ hq h := h.keep hq.keepsParked
  configures _ _ hc h :=
    h.keep (hc.view parkedView (fun _ => rfl) fun _ e => by cases e)
  refresh s t now rx htd hrun hok hw h := by
    refine keyInv_osdpPdUpdate (quiet_pdRunCalls env depth) hw h hleaves ?_
    simpa [keyInput, htd, hrun] using hok
  history _ h := h.earned
  calls l log hl h := h.append fun o ho past key e => by
    have := hl o ho
    rw [e] at this
    cases this

/-- Where a run begins no key was stored and nothing is parked. -/
theorem keyInv_setup {info : PdInfo} {s : Osdp}
    (h : osdpPdSetup env info = some s) :
    KeyInv 0 (s.pd 0).sc.scbk s := by
  have hlog := osdpPdSetup_log h
  refine ⟨?_, ?_, fun e => ?_⟩
  · rw [hlog]
    exact trivial
  · rw [hlog]
    rfl
  · have hp := congrArg OsdpPd.replyPrebuilt (osdpPdSetup_pd h 0)
    have hp : (s.pd 0).replyPrebuilt = false := hp
    rw [hp] at e
    cases e

/-- **Key integrity.**  In a run that meets no alias of a NAK over the
left-over ACK of a KEYSET, with an application that leaves the keys it is
shown alone, every key committed was earned by the exchange it ended, and
the stored key is the last one committed. -/
theorem pd_key_integrity (hleaves : LeavesKeys env) {info : PdInfo}
    {s t : Osdp} {l : List PdInput} (hs : osdpPdSetup env info = some s)
    (hrun : PdRun env depth (keyInput env depth) s l t) :
    CommitsEarned 0 t.log ∧
      (t.tearingDown = false →
        (t.pd 0).sc.scbk = storedKey 0 (s.pd 0).sc.scbk t.log) := by
  have h := (carries_keyInv hleaves _).run_of_live (keyInv_setup hs) hrun
  exact ⟨h.history, fun e => (h.live e).stored⟩

end Run

-- =============================================================== examples

/-- The AES blocks of a handshake with `keyedPd` and of the KEYSET that
follows: sixteen bytes CD. -/
def keysetEnv : Env :=
  plainEnv
    (knownCipher
      [.of 0xABABABABABABABABABABABABABABABAB
        0x0182B0B1B2B3B4B50000000000000000
        0xF11736A4373ED62385E3A943E8F4E9D6,
       .of 0xABABABABABABABABABABABABABABABAB
        0x0101B0B1B2B3B4B50000000000000000
        0xE46C44097C061A1C1896AFD259438AF5,
       .of 0xABABABABABABABABABABABABABABABAB
        0x0102B0B1B2B3B4B50000000000000000
        0xBC4C92B276298262E5E9C8D2758CE576,
       .of 0xF11736A4373ED62385E3A943E8F4E9D6
        0xB0B1B2B3B4B5B6B70102030405060708
        0x363148542500DEAB6175F8EEAA615032,
       .of 0xF11736A4373ED62385E3A943E8F4E9D6
        0x0102030405060708B0B1B2B3B4B5B6B7
        0xB715A474B0FCD9D2B97A4A609D596D6D,
       .of 0xE46C44097C061A1C1896AFD259438AF5
        0xB715A474B0FCD9D2B97A4A609D596D6D
        0x0D95B8D1A4A1928FBCE2C29A8FF8CDDF,
       .of 0xBC4C92B276298262E5E9C8D2758CE576
        0x0D95B8D1A4A1928FBCE2C29A8FF8CDDF
        0xB51EFA1777DEC4AE2434B2BC642A0FF3,
       .of 0xF11736A4373ED62385E3A943E8F4E9D6
        0x4BF1C82545ECF69C1606808E56183DC1
        0xF8219BE342192827A7AA524340A97D16,
       .of 0xF11736A4373ED62385E3A943E8F4E9D6
        0x35EC1BE342192827A7AA524340A97D16
        0xCF1C6336CBE33A73FCA3D84697322EF3,
       .of 0xE46C44097C061A1C1896AFD259438AF5
        0xE61FD41779DCD3DBDC15295F263327D4
        0x675E7784D314A259F4B4EAF93F656382,
       .of 0xE46C44097C061A1C1896AFD259438AF5
        0xC0F425C793BDDF4F3BA889CFF48659F1
        0xF574B3F81BA0C3636CCAC4499C165F63,
       .of 0xBC4C92B276298262E5E9C8D2758CE576
        0x09D76BBE8C92ED90ECCAC4499C165F63
        0x16548B6F64B585B00560A10888852F1B,
       .of 0xBC4C92B276298262E5E9C8D2758CE576
        0x45D5856F6AB793F08560A10888852F1B
        0xED44FA0071DCFAC9912FF781F72AF598])
    fun n => UInt8.ofNat (n + 1)

/-- The handshake, and the KEYSET under the session it opens. -/
def keysetInputs : List PdInput :=
  handshakeInputs ++
    [.refresh 2 (writeBe 46
      0x53012E000E021775F8219BE342192827A7AA524340A97D16CF1C6336CBE33A73FCA3D84697322EF316548B6F3E19)]

theorem leavesKeys_keysetEnv : LeavesKeys keysetEnv := by
  intro f hf log key hlen
  cases hf
  simp [keysetKey, fieldBytes, hlen]

/-- A KEYSET as it should be is such a run, and stores its key. -/
theorem pd_key_integrity_keyset :
    ∃ s t, osdpPdSetup keysetEnv keyedPd = some s ∧
      PdRun keysetEnv 1 (keyInput keysetEnv 1) s keysetInputs t ∧
      (t.pd 0).sc.scbk = List.replicate 16 0xCD ∧
      CommitsEarned 0 t.log ∧
        (t.tearingDown = false →
          (t.pd 0).sc.scbk = storedKey 0 (s.pd 0).sc.scbk t.log) := by
  obtain ⟨s, t, hs, hrun, ht⟩ := pdRun_of_setup keysetEnv 1
    (keyInput keysetEnv 1) keyedPd keysetInputs
    (fun t => (t.pd 0).sc.scbk = List.replicate 16 0xCD)
    (by decide +kernel)
  exact ⟨s, t, hs, hrun, ht, pd_key_integrity leavesKeys_keysetEnv hs hrun⟩

/-- After that KEYSET a frame that aliases a NAK commits again: sixteen
zeros, which no KEYSET carried. -/
theorem pd_alias_commits_zero_key :
    ¬ ∀ (env : Env) (depth : Nat) (info : PdInfo) (s t : Osdp)
        (l : List PdInput), osdpPdSetup env info = some s →
      PdRun env depth anyInput s l t → CommitsEarned 0 t.log := by
  intro hall
  obtain ⟨s, t, hs, hrun, ho, hnone⟩ := pdRun_of_setup keysetEnv 1 anyInput
    keyedPd
    (keysetInputs ++ [.refresh 3 (writeBe 9 0x530109000F08125050)])
    (fun t => t.log[0]? = some (.keyCommit 0 (zeros 16)) ∧
      ∀ o ∈ exchangeOf 0 (t.log.drop 1),
        o ≠ .verdict 0 (keysetPayload (zeros 16)) pdErrNone)
    (by decide +kernel)
  have hearned := (hall keysetEnv 1 keyedPd s t _ hs hrun).at ho _ rfl
  exact hnone _ hearned.verdict rfl

end LibOsdp
