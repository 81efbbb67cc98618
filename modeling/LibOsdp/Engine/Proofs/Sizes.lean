/-
How long the data blocks of the transfer engines are.

A builder is told how many bytes it may fill.  A fragment takes what the
read hook delivers, up to that number less the reserve for the security
block (`txBuildEx_length`); a block that carries no data, or one small
enough for a single packet, is bounded on its own.  The read hook is the
application's where a file is sent, and the bound rests on its filling no
more than it was given (`ReadsWithin`).
-/
import LibOsdp.Engine.Engines
import LibOsdp.Common.Frame
import LibOsdp.Engine.Proofs.Reassembly

namespace LibOsdp

open Lib

section Sizes

variable {env : Env} {run : List ApiCall → OsdpM Unit}
variable {i : Nat} {slot : MpSlot} {maxLen : Int} {s t : Osdp}

-- ============================================================ read hooks

/-- The application reads at most as many bytes of a file as it was asked
for. -/
def ReadsWithin (env : Env) : Prop :=
  ∀ log size offset, (env.fileOps.readFile log size offset).1 ≤ size

theorem mpRead_le (hread : ReadsWithin env) {size offset : Nat} {n : Int}
    {d : Bytes} (h : mpRead env i slot size offset s = .ok (n, d) t) :
    n ≤ size := by
  unfold mpRead at h
  obtain ⟨p, u, hg, h⟩ := bind_ok.mp h
  obtain ⟨rfl, rfl⟩ := getPd_ok.mp hg
  generalize ((s.pd i).mp slot).binding = b at h
  cases b with
  | unbound => exact absurd h throw_ok
  | fileOps =>
    obtain ⟨log, u, hl, h⟩ := bind_ok.mp h
    obtain ⟨rfl, rfl⟩ := get_ok.mp hl
    obtain ⟨_, u, hu, h⟩ := bind_ok.mp h
    obtain ⟨e, -⟩ := pure_ok.mp h
    have hn : (env.fileOps.readFile s.log size offset).1 = n :=
      congrArg Prod.fst e
    rw [← hn]
    exact hread s.log size offset
  | buffer len =>
    dsimp only at h
    split at h
    · obtain ⟨e, -⟩ := pure_ok.mp h
      have hn : (0 : Int) = n := congrArg Prod.fst e
      omega
    · obtain ⟨e, -⟩ := pure_ok.mp h
      have hn : ((min size (len - offset) : Nat) : Int) = n :=
        congrArg Prod.fst e
      omega

-- ============================================================= fragments

theorem mpHdrSize_bounds (w : MpWidth) :
    6 ≤ mpHdrSize w ∧ mpHdrSize w ≤ 10 := by
  cases w <;> decide

/-- A fragment has a header, and fits. -/
theorem txBuildEx_length (hread : ReadsWithin env) {pfx frag : Bytes}
    (h : osdpMpTxBuildEx env i slot maxLen pfx s = .ok (some frag) t) :
    6 ≤ frag.length ∧ (frag.length : Int) ≤ maxLen := by
  unfold osdpMpTxBuildEx at h
  obtain ⟨m, u, hm, h⟩ := bind_ok.mp h
  have hhdr := mpHdrSize_bounds m.width
  dsimp only at h
  generalize (if m.offset = 0 then pfx else []) = skip at h
  split at h
  · cases (pure_ok.mp h).1
  · next hroom =>
    obtain ⟨⟨n, data⟩, v, hv, h⟩ := bind_ok.mp h
    have hn := mpRead_le hread hv
    dsimp only at h
    split at h
    · cases (pure_ok.mp h).1
    · next hneg =>
      split at h
      · obtain ⟨_, w, hw, h⟩ := bind_ok.mp h
        obtain rfl := Option.some.inj (pure_ok.mp h).1
        rw [length_osdpMpHdrWrite]
        omega
      · obtain ⟨_, w, hw, h⟩ := bind_ok.mp h
        obtain rfl := Option.some.inj (pure_ok.mp h).1
        rw [List.length_append, List.length_append, length_osdpMpHdrWrite,
          List.length_take, List.length_append, zeros,
          List.length_replicate]
        omega

theorem txBuildIdle_length {frag : Bytes}
    (h : osdpMpTxBuildIdle i slot s = .ok frag t) :
    frag.length ≤ 10 := by
  obtain ⟨_, u, hu, h⟩ := bind_ok.mp h
  obtain ⟨m, v, hm, h⟩ := bind_ok.mp h
  obtain ⟨rfl, -⟩ := pure_ok.mp h
  rw [length_osdpMpHdrWrite]
  exact (mpHdrSize_bounds m.width).2

-- ============================================================== builders

/-- A data block of a builder that was given `maxLen` bytes: inside them,
and short of the reserve unless it is no longer than `small`. -/
structure Sized (small : Nat) (maxLen : Int) (d : Bytes) : Prop where
  inside : (d.length : Int) ≤ maxLen
  reserve : d.length ≤ small ∨ (d.length : Int) + mpScReserve ≤ maxLen

/-- CMD_FILETRANSFER: a fragment behind the file's type, or a header that
only keeps the transfer alive. -/
theorem osdpFileCmdTxBuild_sized (hread : ReadsWithin env) {d : Bytes}
    (h : osdpFileCmdTxBuild env run i maxLen s = .ok (some d) t) :
    Sized 11 maxLen d := by
  unfold osdpFileCmdTxBuild at h
  obtain ⟨p, u, hg, h⟩ := bind_ok.mp h
  obtain ⟨_, v, hv, h⟩ := bind_ok.mp h
  obtain ⟨_, w, hw, h⟩ := bind_ok.mp h
  dsimp only at h
  split at h
  · obtain ⟨_, x, hx, h⟩ := bind_ok.mp h
    cases (pure_ok.mp h).1
  · next hmax =>
    split at h
    · obtain ⟨idle, x, hx, h⟩ := bind_ok.mp h
      obtain rfl := Option.some.inj (pure_ok.mp h).1
      have hidle := txBuildIdle_length hx
      exact ⟨by rw [List.length_cons]; omega,
        .inl (by rw [List.length_cons]; omega)⟩
    · split at h
      · obtain ⟨_, x, hx, h⟩ := bind_ok.mp h
        cases (pure_ok.mp h).1
      · obtain ⟨frag, x, hx, h⟩ := bind_ok.mp h
        cases frag with
        | none =>
          obtain ⟨_, y, hy, h⟩ := bind_ok.mp h
          cases (pure_ok.mp h).1
        | some frag =>
          have hlen := (txBuildEx_length hread hx).2
          have hlen : (frag.length : Int) ≤ maxLen - 1 - 16 := hlen
          obtain ⟨m, y, hy, h⟩ := bind_ok.mp h
          have hd : UInt8.ofNat (p.file.getD {}).fileId :: frag = d := by
            split at h
            · split at h
              · obtain ⟨_, z, hz, h⟩ := bind_ok.mp h
                exact Option.some.inj (pure_ok.mp h).1
              · exact Option.some.inj (pure_ok.mp h).1
            · obtain ⟨_, z, hz, h⟩ := bind_ok.mp h
              exact Option.some.inj (pure_ok.mp h).1
          subst hd
          refine ⟨by rw [List.length_cons]; omega, .inr ?_⟩
          rw [List.length_cons]
          show ((frag.length + 1 : Nat) : Int) + 16 ≤ maxLen
          omega

/-- CMD_PIVDATA, CMD_GENAUTH and CMD_CRAUTH. -/
theorem osdpPivCpCmdBuild_sized (hread : ReadsWithin env) {d : Bytes}
    (h : osdpPivCpCmdBuild env run i maxLen s = .ok (some d) t) :
    Sized 5 maxLen d := by
  unfold osdpPivCpCmdBuild at h
  obtain ⟨p, u, hg, h⟩ := bind_ok.mp h
  split at h
  · cases (pure_ok.mp h).1
  · split at h
    · split at h
      · cases (pure_ok.mp h).1
      · next hmax =>
        obtain rfl := Option.some.inj (pure_ok.mp h).1
        have hlen : ((p.pivD.req.oid ++ zeros 3).take 3 ++
            [p.pivD.req.element, p.pivD.req.offset]).length = 5 := by
          rw [List.length_append, List.length_take, List.length_append,
            zeros, List.length_replicate]
          simp
        exact ⟨by rw [hlen]; omega, .inl (by rw [hlen])⟩
    · obtain ⟨frag, x, hx, h⟩ := bind_ok.mp h
      cases frag with
      | none => cases (pure_ok.mp h).1
      | some frag =>
        have hlen := (txBuildEx_length hread hx).2
        have hlen : (frag.length : Int) ≤ maxLen - 1 - 16 := hlen
        obtain ⟨_, y, hy, h⟩ := bind_ok.mp h
        obtain rfl := Option.some.inj (pure_ok.mp h).1
        refine ⟨by omega, .inr ?_⟩
        show (frag.length : Int) + 16 ≤ maxLen
        omega

theorem pivPdFragment_sized (hread : ReadsWithin env) {d : Bytes}
    (h : pivPdFragment env run i maxLen s = .ok (some d) t) :
    Sized 0 maxLen d := by
  unfold pivPdFragment at h
  obtain ⟨frag, x, hx, h⟩ := bind_ok.mp h
  cases frag with
  | none =>
    obtain ⟨_, y, hy, h⟩ := bind_ok.mp h
    cases (pure_ok.mp h).1
  | some frag =>
    have hlen := (txBuildEx_length hread hx).2
    have hlen : (frag.length : Int) ≤ maxLen - 16 := hlen
    obtain ⟨_, y, hy, h⟩ := bind_ok.mp h
    obtain ⟨now, z, hz, h⟩ := bind_ok.mp h
    obtain ⟨_, y, hy, h⟩ := bind_ok.mp h
    obtain ⟨m, z, hz, h⟩ := bind_ok.mp h
    have hd : frag = d := by
      split at h
      · obtain ⟨_, y, hy, h⟩ := bind_ok.mp h
        obtain ⟨_, z, hz, h⟩ := bind_ok.mp h
        exact Option.some.inj (pure_ok.mp h).1
      · exact Option.some.inj (pure_ok.mp h).1
    subst hd
    refine ⟨by omega, .inr ?_⟩
    show (frag.length : Int) + 16 ≤ maxLen
    omega

/-- REPLY_PIVDATAR, REPLY_GENAUTHR and REPLY_CRAUTHR. -/
theorem osdpPivPdReplyBuild_sized (hread : ReadsWithin env)
    {seed : Option (Nat × Bytes)} {d : Bytes}
    (h : osdpPivPdReplyBuild env run i seed maxLen s = .ok (some d) t) :
    Sized 0 maxLen d := by
  unfold osdpPivPdReplyBuild at h
  obtain ⟨p, u, hg, h⟩ := bind_ok.mp h
  split at h
  · cases (pure_ok.mp h).1
  · cases seed with
    | some seed =>
      obtain ⟨ok, v, hv, h⟩ := bind_ok.mp h
      split at h
      · cases (pure_ok.mp h).1
      · exact pivPdFragment_sized hread h
    | none =>
      dsimp only at h
      split at h
      · cases (pure_ok.mp h).1
      · exact pivPdFragment_sized hread h

theorem length_bioStdHeader (b : OsdpBio) (total : Nat) :
    (bioStdHeader b total).length = 6 := by
  simp [bioStdHeader]

theorem bioPdFragment_sized (hread : ReadsWithin env) {d : Bytes}
    (h : bioPdFragment env run i maxLen s = .ok (some d) t) :
    Sized 0 maxLen d := by
  unfold bioPdFragment at h
  obtain ⟨m, u, hm, h⟩ := bind_ok.mp h
  obtain ⟨frag, x, hx, h⟩ := bind_ok.mp h
  cases frag with
  | none =>
    obtain ⟨_, y, hy, h⟩ := bind_ok.mp h
    cases (pure_ok.mp h).1
  | some frag =>
    obtain ⟨hsix, hlen⟩ := txBuildEx_length hread hx
    have hlen : (frag.length : Int) ≤ maxLen - 16 := hlen
    obtain ⟨p, y, hy, h⟩ := bind_ok.mp h
    dsimp only at h
    -- the standard header takes the place of the engine's
    have hfrag : (if m.offset = 0 then
        writeAt frag 0 (bioStdHeader p.bioD (p.mp .bio).total)
        else frag).length = frag.length := by
      split
      · exact length_writeAt (by rw [length_bioStdHeader]; omega)
      · rfl
    generalize (if m.offset = 0 then
      writeAt frag 0 (bioStdHeader p.bioD (p.mp .bio).total)
      else frag) = f at h hfrag
    obtain ⟨_, y, hy, h⟩ := bind_ok.mp h
    obtain ⟨now, z, hz, h⟩ := bind_ok.mp h
    obtain ⟨_, y, hy, h⟩ := bind_ok.mp h
    obtain ⟨m', z, hz, h⟩ := bind_ok.mp h
    have hd : f = d := by
      split at h
      · obtain ⟨_, y, hy, h⟩ := bind_ok.mp h
        obtain ⟨_, z, hz, h⟩ := bind_ok.mp h
        exact Option.some.inj (pure_ok.mp h).1
      · exact Option.some.inj (pure_ok.mp h).1
    subst hd
    refine ⟨by omega, .inr ?_⟩
    show (f.length : Int) + 16 ≤ maxLen
    omega

/-- REPLY_BIOREADR of a PD that sends templates in parts. -/
theorem osdpBioPdReplyBuild_sized (hread : ReadsWithin env)
    {seed : Option BioReadr} {d : Bytes}
    (h : osdpBioPdReplyBuild env run i seed maxLen s = .ok (some d) t) :
    Sized 0 maxLen d := by
  unfold osdpBioPdReplyBuild at h
  cases seed with
  | some r =>
    obtain ⟨_, u, hu, h⟩ := bind_ok.mp h
    split at h
    · cases (pure_ok.mp h).1
    · obtain ⟨_, v, hv, h⟩ := bind_ok.mp h
      split at h
      · next hfit =>
        have hfit : (r.length : Int) ≤ maxLen - 6 - 16 := hfit
        obtain ⟨p, w, hw, h⟩ := bind_ok.mp h
        obtain rfl := Option.some.inj (pure_ok.mp h).1
        have hlen : (bioStdHeader p.bioD r.length ++
            r.data.take r.length).length ≤ 6 + r.length := by
          rw [List.length_append, length_bioStdHeader, List.length_take]
          omega
        refine ⟨by omega, .inr ?_⟩
        show ((bioStdHeader p.bioD r.length ++
          r.data.take r.length).length : Int) + 16 ≤ maxLen
        omega
      · obtain ⟨_, w, hw, h⟩ := bind_ok.mp h
        obtain ⟨_, v, hv, h⟩ := bind_ok.mp h
        obtain ⟨_, w, hw, h⟩ := bind_ok.mp h
        obtain ⟨_, v, hv, h⟩ := bind_ok.mp h
        obtain ⟨_, w, hw, h⟩ := bind_ok.mp h
        obtain ⟨_, v, hv, h⟩ := bind_ok.mp h
        exact bioPdFragment_sized hread h
  | none =>
    obtain ⟨p, u, hu, h⟩ := bind_ok.mp h
    split at h
    · cases (pure_ok.mp h).1
    · exact bioPdFragment_sized hread h

end Sizes

end LibOsdp
