/-
What the status masks tell.

Bit `i % 8` of byte `i / 8` is for PD `i`.  The loop stands at the byte of
the PD before the next one, so it opens a byte when a PD is the first of
eight, except for the very first: that byte is cleared before the loop.
After `i` PDs the bytes that are open are those that `i` bits take, and at
least one (`maskLen`); that, and which bits are set in them, is the
invariant (`BitMap`), and the loop keeps it with one rule for each of its
two stores.

# No PD at all

A CP may be set up with no PD, to be filled by `osdp_cp_add_pd`.  Its
masks are one byte of zeros.  But `osdp_get_status_mask` asks the first PD
which role the context has before it counts them, and there is none.
-/
import LibOsdp.Cp.Status
import LibOsdp.Cp.Proofs.PeerSize
import LibOsdp.Cp.Proofs.Restore

namespace LibOsdp

open Lib

-- ============================================================== the loop

/-- The bytes of a mask of `n` bits: there is always one. -/
def maskLen (n : Nat) : Nat := max 1 ((n + 7) / 8)

section Loop

variable {s : Osdp} {test : OsdpPd → Bool} {on : Nat → Bool}
variable {i mask : Nat} {b c : Bytes}

theorem maskStore_ok (h : mask < b.length) (x : UInt8) :
    maskStore mask x b = .ok () (b.set mask x) := if_pos h

/-- `i & 0x07`. -/
theorem and_seven (i : Nat) : i &&& 7 = i % 8 :=
  Nat.and_two_pow_sub_one_eq_mod i 3

/-- Before the bit of a PD comes its byte. -/
theorem maskAdvance_ok (h : BitMap (mask + 1) i on b c)
    (hmask : mask + 1 = maskLen i) (hroom : i / 8 < b.length) :
    ∃ d, maskAdvance i mask c = .ok (i / 8) d ∧
      BitMap (i / 8 + 1) i on b d := by
  unfold maskLen at hmask
  unfold maskAdvance
  rw [and_seven]
  by_cases hnew : i ≠ 0 ∧ i % 8 = 0
  · have hbyte : mask + 1 = i / 8 := by omega
    have hstore := @maskStore_ok (mask + 1) c (by rw [h.length]; omega) 0
    have hopen := h.opened (by omega) (by rw [h.length]; omega)
    rw [if_pos hnew, bind_eq hstore, hbyte]
    rw [hbyte] at hopen
    exact ⟨_, rfl, hopen⟩
  · have hbyte : mask = i / 8 := by omega
    rw [if_neg hnew, hbyte]
    rw [hbyte] at h
    exact ⟨c, rfl, h⟩

/-- The bit of a PD. -/
theorem maskPd_ok {p : OsdpPd} (h : BitMap (i / 8 + 1) i on b c)
    (hon : on i = test p) (hroom : i / 8 < b.length) :
    ∃ d, maskPd test p (i / 8) (i &&& 7) c = .ok () d ∧
      BitMap (i / 8 + 1) (i + 1) on b d := by
  have hlen : i / 8 < c.length := by rw [h.length]; exact hroom
  unfold maskPd
  rw [and_seven]
  by_cases ht : test p = true
  · rw [if_pos ht]
    refine ⟨_, ?_, h.mark (hon.trans ht) (Nat.lt_succ_self _) hlen⟩
    exact maskStore_ok hlen _
  · rw [if_neg ht]
    exact ⟨c, rfl, h.pass (hon.trans (Bool.not_eq_true _ ▸ ht))⟩

/-- The loop, from PD `i` on. -/
theorem maskPds_ok {n : Nat} (hn : i + n ≤ s.numPd)
    (hlen : maskLen (i + n) ≤ b.length) (hmask : mask + 1 = maskLen i)
    (h : BitMap (mask + 1) i (fun j => test (s.pd j)) b c) :
    ∃ d, maskPds s test n i mask c = .ok () d ∧
      BitMap (maskLen (i + n)) (i + n) (fun j => test (s.pd j)) b d := by
  induction n generalizing i mask c with
  | zero =>
    rw [hmask] at h
    exact ⟨c, rfl, h⟩
  | succ n ih =>
    have hroom : i / 8 < b.length := by
      unfold maskLen at hlen
      omega
    obtain ⟨c₁, h₁, hb₁⟩ := maskAdvance_ok h hmask hroom
    have hpd : osdpToPd s i c₁ = .ok (s.pd i) c₁ := by
      unfold osdpToPd
      rw [if_pos (by omega)]
      rfl
    obtain ⟨c₂, h₂, hb₂⟩ := @maskPd_ok test _ i b c₁ (s.pd i) hb₁ rfl hroom
    have hnext : i / 8 + 1 = maskLen (i + 1) := by
      unfold maskLen
      omega
    have hsum : i + (n + 1) = i + 1 + n := by omega
    rw [hsum] at hn hlen ⊢
    obtain ⟨d, hd, hbd⟩ := ih hn hlen hnext hb₂
    refine ⟨d, ?_, hbd⟩
    rw [maskPds, bind_eq h₁, bind_eq hpd, bind_eq h₂]
    exact hd

/-- The first byte, and the loop over all PDs. -/
theorem maskAll_ok (test : OsdpPd → Bool)
    (hlen : maskLen s.numPd ≤ b.length) :
    ∃ c, (do maskStore 0 0; maskPds s test s.numPd 0 0 : MaskM Unit) b
        = .ok () c ∧
      BitMap (maskLen s.numPd) s.numPd (fun j => test (s.pd j)) b c := by
  have hpos : 0 < b.length := by
    unfold maskLen at hlen
    omega
  have hfirst : BitMap 1 0 (fun j => test (s.pd j)) b (b.set 0 0) :=
    (BitMap.start _ b).opened (Nat.zero_le _) hpos
  have hrun := @maskPds_ok s test 0 0 b (b.set 0 0) s.numPd
    (by omega) (by rw [Nat.zero_add]; exact hlen) rfl hfirst
  rw [Nat.zero_add] at hrun
  obtain ⟨c, hc, hmap⟩ := hrun
  exact ⟨c, (bind_eq (maskStore_ok hpos 0)).trans hc, hmap⟩

end Loop

-- =============================================================== results

/-- `osdp_get_status_mask` leaves, in any buffer that is large enough, the
bits of the PDs that are online, and the bytes behind them alone. -/
def StatusMaskRight (s : Osdp) : Prop :=
  ∀ b, maskLen s.numPd ≤ b.length → ∃ c, osdpGetStatusMask s b = .ok () c ∧
    BitMap (maskLen s.numPd) s.numPd (fun i => cpIsOnline (s.pd i)) b c

/-- And `osdp_get_sc_status_mask` those of the PDs with a session on a key
of their own. -/
def ScStatusMaskRight (s : Osdp) : Prop :=
  ∀ b, maskLen s.numPd ≤ b.length →
    ∃ c, osdpGetScStatusMask s b = .ok () c ∧
      BitMap (maskLen s.numPd) s.numPd (fun i => hasOwnSc (s.pd i)) b c

theorem scStatusMask_right (s : Osdp) : ScStatusMaskRight s :=
  fun _ hlen => maskAll_ok hasOwnSc hlen

/-- The mask of the PDs online is right where there is a PD to ask for the
role of the context. -/
theorem statusMask_right_iff {s : Osdp}
    (hrole : ∀ i, (s.pd i).flags.pdMode = false) :
    StatusMaskRight s ↔ 0 < s.numPd := by
  constructor
  · intro h
    by_contra hno
    obtain ⟨c, hc, -⟩ := h (zeros (maskLen s.numPd))
      (List.length_replicate ..).ge
    have hfault : osdpToPd s 0 (zeros (maskLen s.numPd))
        = .error .outOfBounds (zeros (maskLen s.numPd)) := by
      unfold osdpToPd
      rw [if_neg hno]
      rfl
    obtain ⟨p, u, hp, -⟩ := bind_ok.mp hc
    rw [hfault] at hp
    cases hp
  · intro hpos b hlen
    have hpd : osdpToPd s 0 b = .ok (s.pd 0) b := by
      unfold osdpToPd
      rw [if_pos hpos]
      rfl
    obtain ⟨c, hc, hmap⟩ := maskAll_ok cpIsOnline hlen
    refine ⟨c, ?_, hmap⟩
    rw [osdpGetStatusMask, bind_eq hpd, hrole 0, if_neg (by decide)]
    exact hc

/-- The status masks of a CP are right, whatever has happened to it since
its setup, if and only if it has a PD. -/
theorem cp_status_masks_iff (env : Env) (depth : Nat)
    (ok : Osdp → CpInput → Bool) (infos : List CpPdInfo) (s t : Osdp)
    (l : List CpInput) (hs : osdpCpSetup env infos = some s)
    (hrun : CpRun env depth ok s l t) :
    (StatusMaskRight t ∧ ScStatusMaskRight t) ↔ 0 < t.numPd := by
  have hroom : RoomInv t :=
    (roomInv_invariant env depth).run hrun (roomInv_setup hs)
  rw [statusMask_right_iff hroom.mode]
  exact and_iff_left (scStatusMask_right t)

/-- A PD that is brought online, alone on its line. -/
theorem cp_status_masks_online :
    ∃ s t, osdpCpSetup cardEnv [cardPd] = some s ∧
      CpRun cardEnv 1 anyCpInput s (cardOpening.take 6) t ∧
      cpIsOnline (t.pd 0) = true ∧
      StatusMaskRight t ∧ ScStatusMaskRight t := by
  obtain ⟨s, t, hs, hrun, honline, hnum⟩ :=
    run_of_setup (cpStep cardEnv 1) anyCpInput
      (osdpCpSetup cardEnv [cardPd]) (cardOpening.take 6)
      (fun t => cpIsOnline (t.pd 0) = true ∧ 0 < t.numPd) (by decide +kernel)
  exact ⟨s, t, hs, hrun, honline,
    (cp_status_masks_iff cardEnv 1 anyCpInput [cardPd] s t _ hs hrun).mpr
      hnum⟩

/-- A CP without PDs is asked for the role of the first. -/
theorem cp_status_masks_empty :
    ∃ s, osdpCpSetup cardEnv [] = some s ∧ s.numPd = 0 ∧
      osdpGetStatusMask s [0] = .error .outOfBounds [0] ∧
      ¬ (StatusMaskRight s ∧ ScStatusMaskRight s) := by
  refine ⟨_, rfl, rfl, rfl, fun h => ?_⟩
  obtain ⟨c, hc, -⟩ := h.1 [0] (by decide)
  cases hc

end LibOsdp
