/-
How a stream is cut into frames, call by call.

# Position

Between two calls the receive side is at one of two places: hunting for
a packet start, or behind one.  `RxSide.At` names the place and the bytes
in hand, and `Call` lists what a call can do from there.  `call_spec` is
the only proof that looks into the framer; everything else is said of
`Call`.

# The whole stream

`Cuts` is the same hunt over a list of bytes with nothing left to
arrive: which frames it holds, and which headers are refused on the way.
A call makes one step of it, provided that it did not forget something
(`Call.cuts`), and a run of calls that never forgets makes all of it.

# What is forgotten

The byte in front of the one being looked at is kept in a local
variable.  A call that runs dry on a mark byte has lost it when SOM comes
in with the next one.  And a marked header is judged by its first five
bytes, of which the mark is one: when the fifth is all that is there, a
refused header is thrown away without its control byte, and that byte is
hunted through like any other.
-/
import LibOsdp.Phy.Proofs.Intake

namespace LibOsdp

open Lib

-- ============================================================== the scan

/-- A packet start found stays found when more bytes come. -/
theorem scanSom_append_some {p : UInt8} {l y : Bytes} {m : Bool}
    (h : scanSom p l = some (m, y)) (f : Bytes) :
    scanSom p (l ++ f) = some (m, y ++ f) := by
  induction l generalizing p with
  | nil => cases h
  | cons b l ih =>
    rw [List.cons_append]
    unfold scanSom at h ⊢
    by_cases hb : b = pktSom
    · rw [if_pos hb] at h ⊢
      cases h
      rfl
    · rw [if_neg hb] at h ⊢
      exact ih h

/-- A scan that found none goes on from its last byte. -/
theorem scanSom_append_none {p : UInt8} {l : Bytes}
    (h : scanSom p l = none) (f : Bytes) :
    scanSom p (l ++ f) = scanSom (l.getLastD p) f := by
  induction l generalizing p with
  | nil => rfl
  | cons b l ih =>
    unfold scanSom at h
    by_cases hb : b = pktSom
    · rw [if_pos hb] at h
      cases h
    · rw [if_neg hb] at h
      rw [List.cons_append, List.getLastD_cons, ← ih h]
      show (if b = pktSom then some (p == pktMark, l ++ f)
        else scanSom b (l ++ f)) = _
      rw [if_neg hb]

/-- A mark byte is the last of `b`, and SOM comes next. -/
def markLost (b f : Bytes) : Bool :=
  b.getLast? == some pktMark && f.head? == some pktSom

/-- Otherwise nothing is lost with the last byte. -/
theorem scanSom_forget {p : UInt8} {f : Bytes}
    (h : ¬ (p = pktMark ∧ f.head? = some pktSom)) :
    scanSom p f = scanSom 0 f := by
  cases f with
  | nil => rfl
  | cons b f =>
    unfold scanSom
    by_cases hb : b = pktSom
    · rw [if_pos hb, if_pos hb]
      have hp : (p == pktMark) = false := by
        rw [beq_eq_false_iff_ne]
        exact fun hp => h ⟨hp, by rw [hb]; rfl⟩
      rw [hp]
      rfl
    · rw [if_neg hb, if_neg hb]

/-- A dry scan over `l` is one over nothing, unless a mark is lost. -/
theorem scanSom_dry {l f : Bytes} (h : scanSom 0 l = none)
    (hkeep : markLost l f = false) :
    scanSom 0 (l ++ f) = scanSom 0 f := by
  rw [scanSom_append_none h]
  apply scanSom_forget
  rintro ⟨hlast, hhead⟩
  have hmark : l.getLast? = some pktMark := by
    cases hl : l.getLast? with
    | none =>
      rw [List.getLastD_eq_getLast?, hl] at hlast
      cases hlast
    | some b =>
      rw [List.getLastD_eq_getLast?, hl, Option.getD_some] at hlast
      rw [hlast]
  unfold markLost at hkeep
  rw [hmark, hhead] at hkeep
  cases hkeep

/-- The scan, by the first SOM in the list. -/
theorem scanSom_eq (p : UInt8) (l : Bytes) :
    scanSom p l =
      let n := (l.takeWhile (· ≠ pktSom)).length
      if n < l.length then
        some ((if n = 0 then p else byteAt l (n - 1)) == pktMark,
          l.drop (n + 1))
      else none := by
  induction l generalizing p with
  | nil => rfl
  | cons b l ih =>
    unfold scanSom
    by_cases hb : b = pktSom
    · rw [if_pos hb]
      simp [hb]
    · rw [if_neg hb, ih]
      have htake : (b :: l).takeWhile (· ≠ pktSom)
          = b :: l.takeWhile (· ≠ pktSom) := by
        simp [hb]
      rw [htake]
      dsimp only
      rw [List.length_cons, List.length_cons]
      generalize (l.takeWhile (· ≠ pktSom)).length = n
      by_cases hlt : n < l.length
      · have hlt' : n + 1 < l.length + 1 := by omega
        rw [if_pos hlt, if_pos hlt', if_neg (Nat.succ_ne_zero n),
          List.drop_succ_cons, Nat.add_sub_cancel]
        cases n with
        | zero => rfl
        | succ k => rfl
      · have hlt' : ¬ n + 1 < l.length + 1 := by omega
        rw [if_neg hlt, if_neg hlt']

/-- A packet start and what is behind it are no more than there was. -/
theorem scanSom_length {p : UInt8} {l y : Bytes} {m : Bool}
    (h : scanSom p l = some (m, y)) :
    1 + m.toNat + y.length
      ≤ l.length + if p = pktMark then 1 else 0 := by
  induction l generalizing p with
  | nil => cases h
  | cons b l ih =>
    unfold scanSom at h
    by_cases hb : b = pktSom
    · rw [if_pos hb] at h
      cases h
      rw [List.length_cons]
      by_cases hp : p = pktMark
      · rw [if_pos hp, hp]
        have hm : (pktMark == pktMark).toNat = 1 := rfl
        omega
      · rw [if_neg hp, beq_eq_false_iff_ne.mpr hp, Bool.toNat_false]
        omega
    · rw [if_neg hb] at h
      have hl := ih h
      rw [List.length_cons]
      have hone : (if b = pktMark then 1 else 0) ≤ 1 := by
        split <;> omega
      omega

-- =============================================================== headers

/-- What `phy_validate_header` says of the header behind a packet start:
`x` are the bytes behind SOM. -/
def headerVerdict (pdMode m : Bool) (x : Bytes) : Int :=
  let n := (byteAt x 2).toNat * 256 + (byteAt x 1).toNat
  if n + m.toNat > packetBufSize ∨ n < pktHdrLen + 1 then errPktFmt
  else if pdMode = (byteAt x 0 &&& 0x80 != 0) then errPktSkip
  else (n + m.toNat : Nat)

theorem length_startBytes (m : Bool) :
    (startBytes m).length = 1 + m.toNat := by
  cases m <;> rfl

/-- A buffer that starts a packet is judged by what follows the start. -/
theorem judgeHeader_start (pdMode mark m : Bool) (x : Bytes) :
    judgeHeader pdMode mark (startBytes m ++ x) =
      if (startBytes m ++ x).length < pktHdrLen then (mark, errPktWait)
      else (m, headerVerdict pdMode m x) := by
  unfold judgeHeader phyValidateHeader headerVerdict
  by_cases hshort : (startBytes m ++ x).length < pktHdrLen
  · rw [if_pos hshort, if_pos hshort]
  · rw [if_neg hshort, if_neg hshort]
    have h1 : byteAt (pktSom :: x) 1 = byteAt x 0 := rfl
    have h2 : byteAt (pktSom :: x) 2 = byteAt x 1 := rfl
    have h3 : byteAt (pktSom :: x) 3 = byteAt x 2 := rfl
    cases m with
    | true =>
      have hmark : byteAt (startBytes true ++ x) 0 = pktMark := rfl
      have hsom : byteAt (startBytes true ++ x) 1 = pktSom := rfl
      have hdrop : (startBytes true ++ x).drop 1 = pktSom :: x := rfl
      simp only [hmark, hsom, beq_self_eq_true, Bool.and_self, if_true,
        Bool.not_true, Bool.false_and, Bool.false_eq_true, if_false, hdrop,
        h1, h2, h3, Bool.toNat_true]
      split
      · rfl
      · split <;> rfl
    | false =>
      have hfirst : byteAt (startBytes false ++ x) 0 = pktSom := rfl
      have hne : (pktSom == pktMark) = false := rfl
      have hdrop : (startBytes false ++ x).drop 0 = pktSom :: x := rfl
      simp only [hfirst, hne, bne_self_eq_false, Bool.false_and,
        Bool.and_false, Bool.false_eq_true, if_false, hdrop, h1, h2, h3,
        Bool.toNat_false]
      split
      · rfl
      · split <;> rfl

/-- Behind the bytes in front of the first SOM stands SOM. -/
theorem drop_untilSom {x : Bytes}
    (h : (x.takeWhile (· ≠ pktSom)).length < x.length) :
    x.drop (x.takeWhile (· ≠ pktSom)).length
      = pktSom :: x.drop ((x.takeWhile (· ≠ pktSom)).length + 1) := by
  induction x with
  | nil => exact absurd h (Nat.lt_irrefl 0)
  | cons b x ih =>
    by_cases hb : b = pktSom
    · simp [hb]
    · have htake : (b :: x).takeWhile (· ≠ pktSom)
          = b :: x.takeWhile (· ≠ pktSom) := by
        simp [hb]
      rw [htake] at h ⊢
      rw [List.length_cons, List.length_cons] at h
      rw [List.length_cons, List.drop_succ_cons, List.drop_succ_cons]
      exact ih (by omega)

/-- A refused header is searched as the ring is. -/
theorem rescan_eq (m : Bool) (x : Bytes) :
    phyRescanPacketBuf m (startBytes m ++ x) =
      match scanSom 0 x with
      | none => ([], m)
      | some (m', y) => (startBytes m' ++ y, m') := by
  have hskip : (startBytes m ++ x).drop (if m = true then 2 else 1) = x := by
    cases m <;> rfl
  have hlen : (startBytes m ++ x).length
      = (if m = true then 2 else 1) + x.length := by
    rw [List.length_append, length_startBytes]
    cases m <;> rfl
  have hfirst : byteAt (startBytes m ++ x)
      ((if m = true then 2 else 1) - 1) = pktSom := by
    cases m <;> rfl
  have hbyte (k : Nat) : byteAt (startBytes m ++ x)
      ((if m = true then 2 else 1) + k) = byteAt x k := by
    cases m
    · rw [Nat.add_comm]
      rfl
    · rw [Nat.add_comm]
      rfl
  unfold phyRescanPacketBuf findSom
  rw [hskip, scanSom_eq, hlen]
  dsimp only
  have hfound := drop_untilSom (x := x)
  generalize (x.takeWhile (· ≠ pktSom)).length = n at hfound ⊢
  generalize (if m = true then 2 else 1) = j at *
  by_cases hlt : n < x.length
  · have hlt' : j + n < j + x.length := by omega
    rw [if_pos hlt, if_pos hlt']
    dsimp only
    have hcur : (startBytes m ++ x).drop (j + n)
        = pktSom :: x.drop (n + 1) := by
      rw [← List.drop_drop, hskip, hfound hlt]
    have hprev : byteAt (startBytes m ++ x) (j + n - 1) = pktMark ↔
        ((if n = 0 then 0 else byteAt x (n - 1)) == pktMark) = true := by
      cases n with
      | zero =>
        rw [Nat.add_zero, hfirst, if_pos rfl]
        decide
      | succ k =>
        rw [← Nat.add_assoc, Nat.add_sub_cancel, hbyte k,
          if_neg (Nat.succ_ne_zero k), Nat.add_sub_cancel, beq_iff_eq]
    rw [hcur]
    by_cases hmark : byteAt (startBytes m ++ x) (j + n - 1) = pktMark
    · rw [if_pos hmark, hprev.mp hmark]
      rfl
    · rw [if_neg hmark, Bool.eq_false_iff.mpr fun hc => hmark (hprev.mpr hc)]
      rfl
  · have hlt' : ¬ j + n < j + x.length := by omega
    rw [if_neg hlt, if_neg hlt']

/-- The first three bytes decide. -/
theorem headerVerdict_append {pdMode m : Bool} {x : Bytes}
    (h : 3 ≤ x.length) (y : Bytes) :
    headerVerdict pdMode m (x ++ y) = headerVerdict pdMode m x := by
  have hbyte (k : Nat) (hk : k < 3) : byteAt (x ++ y) k = byteAt x k := by
    unfold byteAt
    rw [List.getD_eq_getElem?_getD, List.getD_eq_getElem?_getD,
      List.getElem?_append_left (by omega)]
  unfold headerVerdict
  rw [hbyte 0 (by omega), hbyte 1 (by omega), hbyte 2 (by omega)]

-- ========================================================= one call heard

/-- What a call makes known: a frame it hands to `phy_check_packet`, or a
header it refuses. -/
inductive Finding where
  | frame (mark : Bool) (header payload : Bytes)
  | rejected (mark : Bool) (header : Bytes)
  deriving DecidableEq, Repr

/-- A whole frame, in the buffer with its mark. -/
def frameHeard (mark : Bool) (b : Bytes) : Finding :=
  let pkt := b.drop mark.toNat
  .frame mark (pkt.take pktHdrLen) (pkt.drop pktHdrLen)

/-- A header, in the buffer with its mark: SOM, address and length. -/
def headerHeard (mark : Bool) (b : Bytes) : Finding :=
  .rejected mark ((b.drop mark.toNat).take 4)

/-- The header that is judged in a call, with its verdict. -/
def RxSide.judged (pdMode : Bool) (r : RxSide) :
    Option (Bytes × Bool × Int) :=
  if r.len = 0 then
    r.findStart.map fun t =>
      (t.fillHeader.buf, judgeHeader pdMode t.mark t.fillHeader.buf)
  else none

/-- What a call makes known. -/
def RxSide.heard (pdMode : Bool) (r : RxSide) : Option Finding :=
  let a := r.assemble pdMode
  if a.1 = errPktNone then some (frameHeard a.2.mark (a.2.buf.take a.2.len))
  else
    match r.judged pdMode with
    | some (b, m, v) =>
      if v = errPktFmt ∨ v = errPktSkip then some (headerHeard m b) else none
    | none => none

/-- A call with `c` newly arrived, and what its caller does with a frame
or a packet to be skipped: start over. -/
def RxSide.call (pdMode : Bool) (r : RxSide) (c : Bytes) :
    Option Finding × RxSide :=
  let q : RxSide := { r with ring := r.ring ++ c }
  let a := q.assemble pdMode
  (q.heard pdMode,
    if a.1 = errPktWait ∨ a.1 = errPktNoData then a.2
    else { a.2 with buf := [], len := 0 })

-- ============================================================== positions

/-- Where the receive side is: hunting, or behind a packet start with or
without a mark; and the bytes in hand from there on. -/
inductive RxSide.At (pdMode : Bool) : RxSide → Option Bool → Bytes → Prop
  | hunting (ring : Bytes) (mark : Bool) :
    At pdMode ⟨[], 0, ring, mark⟩ none ring
  | header (m : Bool) (x ring : Bytes) (mark : Bool)
      (short : x.length ≤ 4) :
    At pdMode ⟨startBytes m ++ x, 0, ring, mark⟩ (some m) (x ++ ring)
  | frame (m : Bool) (x ring : Bytes) (n : Nat)
      (verdict : headerVerdict pdMode m x = n)
      (known : pktHdrLen ≤ (startBytes m ++ x).length)
      (short : (startBytes m ++ x).length < n) :
    At pdMode ⟨startBytes m ++ x, n, ring, m⟩ (some m) (x ++ ring)

/-- The packet start the bytes `l` at a position have, and what is behind
it. -/
def behind : Option Bool → Bytes → Option (Bool × Bytes)
  | none, l => scanSom 0 l
  | some m, l => some (m, l)

/-- The bytes in the buffer and in the ring. -/
def RxSide.size (r : RxSide) : Nat := r.buf.length + r.ring.length

/-- The position, as the buffer tells it. -/
def RxSide.pos (r : RxSide) : Option Bool :=
  if r.buf = [] then none else some (byteAt r.buf 0 == pktMark)

/-- The bytes in hand, as buffer and ring hold them. -/
def RxSide.held (r : RxSide) : Bytes :=
  match r.pos with
  | none => r.ring
  | some m => r.buf.drop (1 + m.toNat) ++ r.ring

/-- What a call does with the bytes `l` at a position. -/
inductive Call (pdMode : Bool) (pos : Option Bool) (l : Bytes) :
    Option Finding → RxSide → Prop
  /-- no packet start in the ring -/
  | dry (hunts : behind pos l = none) (mark : Bool) :
    Call pdMode pos l none ⟨[], 0, [], mark⟩
  /-- not enough of a header to judge it -/
  | short {m : Bool} {x : Bytes} (start : behind pos l = some (m, x))
      (few : (startBytes m ++ x).length < pktHdrLen) (mark : Bool) :
    Call pdMode pos l none ⟨startBytes m ++ x, 0, [], mark⟩
  /-- a header that is none, with another packet start in it -/
  | nested {m m' : Bool} {x y : Bytes} (start : behind pos l = some (m, x))
      (enough : pktHdrLen ≤ (startBytes m ++ x).length)
      (verdict : headerVerdict pdMode m x = errPktFmt)
      (inside : scanSom 0 (x.take 4) = some (m', y)) :
    Call pdMode pos l (some (.rejected m (pktSom :: x.take 3)))
      ⟨startBytes m' ++ y, 0, x.drop 4, m'⟩
  /-- a header that is none, and nothing in it -/
  | bad {m : Bool} {x : Bytes} (start : behind pos l = some (m, x))
      (enough : pktHdrLen ≤ (startBytes m ++ x).length)
      (verdict : headerVerdict pdMode m x = errPktFmt)
      (inside : scanSom 0 (x.take 4) = none) :
    Call pdMode pos l (some (.rejected m (pktSom :: x.take 3)))
      ⟨[], 0, x.drop 4, m⟩
  /-- a header that goes the wrong way -/
  | skip {m : Bool} {x : Bytes} (start : behind pos l = some (m, x))
      (enough : pktHdrLen ≤ (startBytes m ++ x).length)
      (verdict : headerVerdict pdMode m x = errPktSkip) :
    Call pdMode pos l (some (.rejected m (pktSom :: x.take 3)))
      ⟨[], 0, x.drop 4, m⟩
  /-- a frame of which there is more to come -/
  | part {m : Bool} {x : Bytes} {n : Nat} (start : behind pos l = some (m, x))
      (enough : pktHdrLen ≤ (startBytes m ++ x).length)
      (verdict : headerVerdict pdMode m x = n)
      (more : (startBytes m ++ x).length < n) :
    Call pdMode pos l none ⟨startBytes m ++ x, n, [], m⟩
  /-- a whole frame -/
  | whole {m : Bool} {x : Bytes} {n : Nat} (start : behind pos l = some (m, x))
      (enough : pktHdrLen ≤ (startBytes m ++ x).length)
      (verdict : headerVerdict pdMode m x = n)
      (all : n ≤ (startBytes m ++ x).length) :
    Call pdMode pos l (some (frameHeard m ((startBytes m ++ x).take n)))
      ⟨[], 0, (startBytes m ++ x).drop n, m⟩

section CallSpec

variable {pdMode : Bool}

/-- The three verdicts. -/
theorem headerVerdict_cases (m : Bool) (x : Bytes) :
    headerVerdict pdMode m x = errPktFmt ∨
      headerVerdict pdMode m x = errPktSkip ∨
      ∃ n : Nat, headerVerdict pdMode m x = n ∧ pktHdrLen < n := by
  unfold headerVerdict
  dsimp only
  split
  · exact .inl rfl
  · next hok =>
    split
    · exact .inr (.inl rfl)
    · refine .inr (.inr ⟨_, rfl, ?_⟩)
      omega

/-- A header is there, or some of it: at least three bytes behind SOM. -/
theorem three_le_of_header {m : Bool} {x : Bytes}
    (h : pktHdrLen ≤ (startBytes m ++ x).length) : 3 ≤ x.length := by
  have hm : m.toNat ≤ 1 := Bool.toNat_le m
  rw [List.length_append, length_startBytes, pktHdrLen] at h
  omega

/-- The rest of a frame, from a buffer that is part of it. -/
theorem complete_start {m mark : Bool} {x ring : Bytes} {n : Nat}
    (hx : (startBytes m ++ x).length ≤ n) :
    (⟨startBytes m ++ x, n, ring, mark⟩ : RxSide).complete =
      if (startBytes m ++ (x ++ ring)).length < n then
        (errPktWait, ⟨startBytes m ++ (x ++ ring), n, [], mark⟩)
      else
        (errPktNone, ⟨(startBytes m ++ (x ++ ring)).take n, n,
          (startBytes m ++ (x ++ ring)).drop n, mark⟩) := by
  unfold RxSide.complete
  dsimp only
  rw [if_neg (by omega)]
  unfold RxSide.topUp
  dsimp only
  rw [← List.append_assoc]
  generalize startBytes m ++ x = b at hx ⊢
  by_cases hmore : (b ++ ring).length < n
  · have hall : ring.length ≤ n - b.length := by
      rw [List.length_append] at hmore
      omega
    rw [if_pos hmore, List.take_of_length_le hall,
      List.drop_of_length_le hall, if_pos (by omega)]
  · have htake : b ++ ring.take (n - b.length) = (b ++ ring).take n := by
      rw [List.take_append, List.take_of_length_le hx]
    have hdrop : ring.drop (n - b.length) = (b ++ ring).drop n := by
      rw [List.drop_append, List.drop_of_length_le hx, List.nil_append]
    have hlen : ((b ++ ring).take n).length = n := by
      rw [List.length_take]
      omega
    rw [if_neg hmore, htake, hdrop, if_neg (not_not.mpr hlen)]

/-- The header is topped up to four bytes behind SOM. -/
theorem fillHeader_start {m mark : Bool} {x ring : Bytes} {len : Nat}
    (hx : x.length ≤ 4) :
    (⟨startBytes m ++ x, len, ring, mark⟩ : RxSide).fillHeader =
      ⟨startBytes m ++ (x ++ ring).take 4, len, (x ++ ring).drop 4, mark⟩ := by
  have hneed : pktHdrLen + (if byteAt (startBytes m ++ x) 0 = pktMark
      then 1 else 0) - (startBytes m ++ x).length = 4 - x.length := by
    rw [List.length_append, length_startBytes]
    cases m with
    | true =>
      have hfirst : byteAt (startBytes true ++ x) 0 = pktMark := rfl
      rw [if_pos hfirst, Bool.toNat_true, pktHdrLen]
      omega
    | false =>
      have hfirst : ¬ byteAt (startBytes false ++ x) 0 = pktMark := by
        show ¬ pktSom = pktMark
        decide
      rw [if_neg hfirst, Bool.toNat_false, pktHdrLen]
      omega
  unfold RxSide.fillHeader
  dsimp only
  rw [hneed]
  unfold RxSide.topUp
  dsimp only
  rw [List.take_append, List.take_of_length_le hx, List.drop_append,
    List.drop_of_length_le hx, List.nil_append, List.append_assoc]

/-- A refused header, by what is behind its start. -/
theorem headerHeard_start (m : Bool) (x : Bytes) :
    headerHeard m (startBytes m ++ x.take 4)
      = .rejected m (pktSom :: x.take 3) := by
  have hdrop : (startBytes m ++ x.take 4).drop m.toNat
      = pktSom :: x.take 4 := by
    cases m <;> rfl
  unfold headerHeard
  rw [hdrop, List.take_succ_cons, List.take_take]
  rfl

/-- A call that finds the receive side behind a packet start. -/
theorem takeHeader_spec {pos : Option Bool} {l x : Bytes} {m mark : Bool}
    (hx : behind pos l = some (m, x)) :
    let q : RxSide := ⟨startBytes m ++ x.take 4, 0, x.drop 4, mark⟩
    let a := q.takeHeader pdMode
    let v := judgeHeader pdMode mark q.buf
    Call pdMode pos l
      (if a.1 = errPktNone then
        some (frameHeard a.2.mark (a.2.buf.take a.2.len))
      else if v.2 = errPktFmt ∨ v.2 = errPktSkip then
        some (headerHeard v.1 q.buf)
      else none)
      (if a.1 = errPktWait ∨ a.1 = errPktNoData then a.2
        else { a.2 with buf := [], len := 0 }) := by
  intro q a v
  have hlen : (startBytes m ++ x.take 4).length < pktHdrLen ↔
      (startBytes m ++ x).length < pktHdrLen := by
    simp only [List.length_append, length_startBytes, List.length_take,
      pktHdrLen]
    omega
  have hv : v = if (startBytes m ++ x).length < pktHdrLen
      then (mark, errPktWait) else (m, headerVerdict pdMode m x) := by
    show judgeHeader pdMode mark (startBytes m ++ x.take 4) = _
    rw [judgeHeader_start]
    by_cases hshort : (startBytes m ++ x).length < pktHdrLen
    · rw [if_pos (hlen.mpr hshort), if_pos hshort]
    · rw [if_neg (fun hc => hshort (hlen.mp hc)), if_neg hshort]
      have h3 : 3 ≤ (x.take 4).length := by
        have hx3 := three_le_of_header (Nat.le_of_not_lt hshort)
        rw [List.length_take]
        omega
      have happ := @headerVerdict_append pdMode m _ h3
        (x.drop 4)
      rw [List.take_append_drop] at happ
      rw [happ]
  have ha : a = if v.2 = errPktFmt then
        (errPktWait,
          { q with
            buf := (phyRescanPacketBuf v.1 q.buf).1
            mark := (phyRescanPacketBuf v.1 q.buf).2 })
      else if v.2 < 0 then (v.2, { q with mark := v.1 })
      else ({ q with mark := v.1, len := v.2.toNat } : RxSide).complete := rfl
  clear_value v
  by_cases hshort : (startBytes m ++ x).length < pktHdrLen
  · rw [if_pos hshort] at hv
    subst hv
    have ha : a = (errPktWait, q) := ha
    rw [ha]
    have hx4 : x.length ≤ 4 := by
      rw [List.length_append, length_startBytes, pktHdrLen] at hshort
      omega
    have hq : q = ⟨startBytes m ++ x, 0, [], mark⟩ := by
      show (⟨startBytes m ++ x.take 4, 0, x.drop 4, mark⟩ : RxSide) = _
      rw [List.take_of_length_le hx4, List.drop_of_length_le hx4]
    rw [hq]
    exact .short hx hshort mark
  · rw [if_neg hshort] at hv
    have henough : pktHdrLen ≤ (startBytes m ++ x).length := by omega
    rcases @headerVerdict_cases pdMode m x with hfmt | hskip |
      ⟨n, hn, hpos⟩
    · rw [hfmt] at hv
      subst hv
      have ha : a = (errPktWait,
          { q with
            buf := (phyRescanPacketBuf m q.buf).1
            mark := (phyRescanPacketBuf m q.buf).2 }) := ha
      have hscan := rescan_eq m (x.take 4)
      cases hin : scanSom 0 (x.take 4) with
      | none =>
        rw [hin] at hscan
        have ha : a = (errPktWait, ⟨[], 0, x.drop 4, m⟩) := by
          rw [ha]
          show (errPktWait, (⟨(phyRescanPacketBuf m (startBytes m ++
            x.take 4)).1, 0, x.drop 4, _⟩ : RxSide)) = _
          rw [hscan]
        rw [ha]
        have hcall := Call.bad hx henough hfmt hin
        rw [← headerHeard_start] at hcall
        exact hcall
      | some my =>
        obtain ⟨m', y⟩ := my
        rw [hin] at hscan
        have ha : a = (errPktWait, ⟨startBytes m' ++ y, 0, x.drop 4, m'⟩) := by
          rw [ha]
          show (errPktWait, (⟨(phyRescanPacketBuf m (startBytes m ++
            x.take 4)).1, 0, x.drop 4, _⟩ : RxSide)) = _
          rw [hscan]
        rw [ha]
        have hcall := Call.nested hx henough hfmt hin
        rw [← headerHeard_start] at hcall
        exact hcall
    · rw [hskip] at hv
      subst hv
      have ha : a = (errPktSkip, { q with mark := m }) := ha
      rw [ha]
      have hcall := Call.skip hx henough hskip
      rw [← headerHeard_start] at hcall
      exact hcall
    · rw [hn] at hv
      subst hv
      have hbuf : (startBytes m ++ x.take 4).length ≤ n := by
        rw [List.length_append, length_startBytes, List.length_take]
        have hm : m.toNat ≤ 1 := Bool.toNat_le m
        rw [pktHdrLen] at hpos
        omega
      have hdone := @complete_start m m _ (x.drop 4) _ hbuf
      rw [List.take_append_drop] at hdone
      have ha : a = ({ q with mark := m, len := n } : RxSide).complete := by
        rw [ha, if_neg (by rw [errPktFmt]; omega), if_neg (by omega)]
        rfl
      have ha := ha.trans hdone
      have hnone : ¬ ((n : Int) = errPktFmt ∨ (n : Int) = errPktSkip) := by
        simp only [errPktFmt, errPktSkip]
        omega
      by_cases hmore : (startBytes m ++ x).length < n
      · rw [if_pos hmore] at ha
        have hwait : ¬ errPktWait = errPktNone := by decide
        rw [ha, if_neg hwait, if_neg hnone, if_pos (.inl rfl)]
        exact .part hx henough hn hmore
      · rw [if_neg hmore] at ha
        have htwice : ((startBytes m ++ x).take n).take n
            = (startBytes m ++ x).take n := by
          rw [List.take_take, Nat.min_self]
        have hdone : ¬ (errPktNone = errPktWait ∨ errPktNone = errPktNoData) :=
          by decide
        rw [ha, if_pos rfl, if_neg hdone]
        dsimp only
        rw [htwice]
        exact .whole hx henough hn (by omega)

/-- A call that has or finds a packet start takes a header. -/
theorem assemble_of_start {r q : RxSide} (hlen : r.len = 0)
    (hstart : r.findStart = some q) :
    r.assemble pdMode = q.fillHeader.takeHeader pdMode ∧
      r.judged pdMode = some (q.fillHeader.buf,
        judgeHeader pdMode q.mark q.fillHeader.buf) := by
  unfold RxSide.assemble RxSide.judged
  rw [if_pos hlen, if_pos hlen, hstart]
  exact ⟨rfl, rfl⟩

theorem call_header {pos : Option Bool} {l x : Bytes} {m : Bool}
    {r q : RxSide} {c : Bytes} (hlen : r.len = 0)
    (hstart : ({ r with ring := r.ring ++ c } : RxSide).findStart = some q)
    (hfill : q.fillHeader = ⟨startBytes m ++ x.take 4, 0, x.drop 4, q.mark⟩)
    (hx : behind pos l = some (m, x)) :
    Call pdMode pos l (r.call pdMode c).1 (r.call pdMode c).2 := by
  have hspec := @takeHeader_spec pdMode _ _ _ _ q.mark hx
  obtain ⟨hasm, hjudged⟩ := @assemble_of_start pdMode
    { r with ring := r.ring ++ c } q hlen hstart
  unfold RxSide.call RxSide.heard
  dsimp only
  rw [hasm, hjudged, hfill]
  exact hspec

/-- Every call does one of these things. -/
theorem call_spec {r : RxSide} {pos : Option Bool} {l : Bytes}
    (h : r.At pdMode pos l) (c : Bytes) :
    Call pdMode pos (l ++ c) (r.call pdMode c).1 (r.call pdMode c).2 := by
  cases h with
  | hunting ring mark =>
    cases hscan : scanSom 0 (l ++ c) with
    | none =>
      have hcall : (⟨[], 0, l, mark⟩ : RxSide).call pdMode c
          = (none, ⟨[], 0, [], mark⟩) := by
        unfold RxSide.call RxSide.heard RxSide.judged RxSide.assemble
          RxSide.findStart
        simp only [hscan]
        rfl
      rw [hcall]
      exact @Call.dry pdMode none _ hscan mark
    | some mx =>
      obtain ⟨m, x⟩ := mx
      refine call_header (q := ⟨startBytes m, 0, x, mark⟩) rfl ?_ ?_ hscan
      · unfold RxSide.findStart
        simp only [hscan]
        rfl
      · have hfill := @fillHeader_start m mark [] x 0 (Nat.zero_le _)
        rw [List.append_nil, List.nil_append] at hfill
        exact hfill
  | header m x ring mark short =>
    have hne : startBytes m ++ x ≠ [] := by
      cases m <;> exact List.cons_ne_nil _ _
    have hx : behind (some m) (x ++ ring ++ c) = some (m, x ++ (ring ++ c)) := by
      rw [List.append_assoc]
      rfl
    refine call_header (q := ⟨startBytes m ++ x, 0, ring ++ c, mark⟩)
      rfl ?_ ?_ hx
    · unfold RxSide.findStart
      dsimp only
      rw [if_pos hne]
    · exact fillHeader_start short
  | frame m x ring n verdict known short =>
    have hdone := @complete_start m m x (ring ++ c) n
      (Nat.le_of_lt short)
    have hn : n ≠ 0 := by omega
    have hv : headerVerdict pdMode m (x ++ (ring ++ c)) = n := by
      rw [headerVerdict_append (three_le_of_header known), verdict]
    have h5 : pktHdrLen ≤ (startBytes m ++ (x ++ (ring ++ c))).length := by
      rw [← List.append_assoc, List.length_append]
      omega
    have hasm : (⟨startBytes m ++ x, n, ring ++ c, m⟩ : RxSide).assemble
        pdMode = (⟨startBytes m ++ x, n, ring ++ c, m⟩ : RxSide).complete := by
      unfold RxSide.assemble
      exact if_neg hn
    have hjudged : (⟨startBytes m ++ x, n, ring ++ c, m⟩ : RxSide).judged
        pdMode = none := by
      unfold RxSide.judged
      exact if_neg hn
    have hx : behind (some m) (x ++ ring ++ c) = some (m, x ++ (ring ++ c)) := by
      rw [List.append_assoc]
      rfl
    unfold RxSide.call RxSide.heard
    dsimp only
    rw [hasm, hjudged, hdone]
    by_cases hmore : (startBytes m ++ (x ++ (ring ++ c))).length < n
    · have hwait : ¬ errPktWait = errPktNone := by decide
      rw [if_pos hmore, if_neg hwait, if_pos (.inl rfl)]
      exact .part hx h5 hv hmore
    · have htwice : ((startBytes m ++ (x ++ (ring ++ c))).take n).take n
          = (startBytes m ++ (x ++ (ring ++ c))).take n := by
        rw [List.take_take, Nat.min_self]
      have hfull : ¬ (errPktNone = errPktWait ∨ errPktNone = errPktNoData) :=
        by decide
      rw [if_neg hmore, if_pos rfl, if_neg hfull]
      dsimp only
      rw [htwice]
      exact .whole hx h5 hv (by omega)

end CallSpec

-- ======================================================= the whole stream

/-- What a framer does next that has all the bytes there are: whatever it
makes known, and the position and bytes it goes on with. -/
def nextOf (pdMode : Bool) :
    Option Bool → Bytes → Option (Option Finding × Option Bool × Bytes)
  | none, l => (scanSom 0 l).map fun mx => (none, some mx.1, mx.2)
  | some m, x =>
    let b := startBytes m ++ x
    let v := headerVerdict pdMode m x
    if b.length < pktHdrLen then none
    else if v = errPktFmt then
      some (some (.rejected m (pktSom :: x.take 3)),
        match scanSom 0 (x.take 4) with
        | none => (none, x.drop 4)
        | some (m', y) => (some m', y ++ x.drop 4))
    else if v = errPktSkip then
      some (some (.rejected m (pktSom :: x.take 3)), none, x.drop 4)
    else if b.length < v.toNat then none
    else some (some (frameHeard m (b.take v.toNat)), none, b.drop v.toNat)

/-- The frames and the refused headers in the bytes from a position on. -/
inductive Cuts (pdMode : Bool) : Option Bool → Bytes → List Finding → Prop
  | done {pos : Option Bool} {l : Bytes} (last : nextOf pdMode pos l = none) :
    Cuts pdMode pos l []
  | step {pos pos' : Option Bool} {l l' : Bytes} {ev : Option Finding}
      {evs : List Finding} (next : nextOf pdMode pos l = some (ev, pos', l'))
      (rest : Cuts pdMode pos' l' evs) :
    Cuts pdMode pos l (ev.toList ++ evs)

/-- There is one answer. -/
theorem Cuts.unique {pdMode : Bool} {pos : Option Bool} {l : Bytes}
    {e₁ e₂ : List Finding} (h₁ : Cuts pdMode pos l e₁)
    (h₂ : Cuts pdMode pos l e₂) : e₁ = e₂ := by
  induction h₁ generalizing e₂ with
  | done last =>
    cases h₂ with
    | done _ => rfl
    | step next _ =>
      rw [last] at next
      cases next
  | step next _ ih =>
    cases h₂ with
    | done last =>
      rw [last] at next
      cases next
    | step next' rest' =>
      rw [next] at next'
      cases next'
      rw [ih rest']

/-- Something is forgotten in a call that has the bytes `l`, when `f` is
what comes after: a mark byte in front of SOM; or the control byte of a
marked header that was refused without it, where that makes a
difference. -/
def slips (pdMode : Bool) (pos : Option Bool) (l f : Bytes) : Bool :=
  match behind pos l with
  | none => markLost l f
  | some (m, x) =>
    let v := headerVerdict pdMode m x
    m && x.length == 3 &&
      (v == errPktFmt && (scanSom 0 x).isNone &&
          (markLost x f || markLost (f.take 1) (f.drop 1)) ||
        v == errPktSkip &&
          (f.head? == some pktSom || markLost (f.take 1) (f.drop 1)))

/-- The bytes in hand, the packet start included. -/
def inHand (pos : Option Bool) (l : Bytes) : Nat :=
  (match pos with
    | none => 0
    | some m => 1 + m.toNat) + l.length

section Stream

variable {pdMode : Bool} {pos : Option Bool} {l f : Bytes}
  {ev : Option Finding} {r : RxSide}

theorem nextOf_hunt (l : Bytes) :
    nextOf pdMode none l
      = (scanSom 0 l).map fun mx => (none, some mx.1, mx.2) := rfl

theorem nextOf_short {m : Bool} {x : Bytes}
    (h : (startBytes m ++ x).length < pktHdrLen) :
    nextOf pdMode (some m) x = none := by
  unfold nextOf
  dsimp only
  rw [if_pos h]

theorem nextOf_fmt {m : Bool} {x : Bytes}
    (h : pktHdrLen ≤ (startBytes m ++ x).length)
    (hv : headerVerdict pdMode m x = errPktFmt) :
    nextOf pdMode (some m) x
      = some (some (.rejected m (pktSom :: x.take 3)),
        match scanSom 0 (x.take 4) with
        | none => (none, x.drop 4)
        | some (m', y) => (some m', y ++ x.drop 4)) := by
  unfold nextOf
  dsimp only
  rw [if_neg (Nat.not_lt.mpr h), if_pos hv]

theorem nextOf_skip {m : Bool} {x : Bytes}
    (h : pktHdrLen ≤ (startBytes m ++ x).length)
    (hv : headerVerdict pdMode m x = errPktSkip) :
    nextOf pdMode (some m) x
      = some (some (.rejected m (pktSom :: x.take 3)), none, x.drop 4) := by
  unfold nextOf
  dsimp only
  rw [if_neg (Nat.not_lt.mpr h), hv, if_neg (by decide), if_pos rfl]

theorem nextOf_known {m : Bool} {x : Bytes} {n : Nat}
    (h : pktHdrLen ≤ (startBytes m ++ x).length)
    (hv : headerVerdict pdMode m x = n) :
    nextOf pdMode (some m) x
      = if (startBytes m ++ x).length < n then none
        else some (some (frameHeard m ((startBytes m ++ x).take n)), none,
          (startBytes m ++ x).drop n) := by
  have hfmt : ¬ (n : Int) = errPktFmt := by
    rw [errPktFmt]
    omega
  have hskip : ¬ (n : Int) = errPktSkip := by
    rw [errPktSkip]
    omega
  unfold nextOf
  dsimp only
  rw [if_neg (Nat.not_lt.mpr h), hv, if_neg hfmt, if_neg hskip,
    Int.toNat_natCast]

/-- A hunt depends on what it finds only. -/
theorem Cuts.of_scan {l' : Bytes} {evs : List Finding}
    (h : Cuts pdMode none l evs) (hscan : scanSom 0 l' = scanSom 0 l) :
    Cuts pdMode none l' evs := by
  have hnext : nextOf pdMode none l' = nextOf pdMode none l := by
    rw [nextOf_hunt, nextOf_hunt, hscan]
  cases h with
  | done last => exact .done (hnext.trans last)
  | step next rest => exact .step (hnext.trans next) rest

/-- What is behind a packet start decides. -/
theorem Cuts.of_behind {m : Bool} {x : Bytes} {evs : List Finding}
    (hx : behind pos l = some (m, x))
    (h : Cuts pdMode (some m) (x ++ f) evs) :
    Cuts pdMode pos (l ++ f) evs := by
  cases pos with
  | none =>
    have hscan : scanSom 0 (l ++ f) = some (m, x ++ f) :=
      scanSom_append_some hx f
    refine @Cuts.step _ _ _ _ _ none _ ?_ h
    rw [nextOf_hunt, hscan]
    rfl
  | some m' =>
    cases hx
    exact h

/-- The header of `x` is that of `x` with more behind it. -/
theorem take_three {x : Bytes} (h : 3 ≤ x.length) (f : Bytes) :
    (x ++ f).take 3 = x.take 3 := by
  rw [List.take_append_of_le_length h]

/-- A scan behind a byte that is no mark, or not in front of SOM. -/
theorem Cuts.of_cons {b : UInt8} {evs : List Finding} (hb : b ≠ pktSom)
    (hkeep : markLost [b] f = false)
    (h : Cuts pdMode none (b :: f) evs) : Cuts pdMode none f evs := by
  refine h.of_scan ?_
  have hdry : scanSom 0 [b] = none := by
    show (if b = pktSom then some _ else none) = none
    rw [if_neg hb]
  exact (scanSom_dry hdry hkeep).symm

/-- A hunt that begins at SOM. -/
theorem Cuts.of_som {evs : List Finding}
    (h : Cuts pdMode none (pktSom :: f) evs) :
    Cuts pdMode (some false) f evs := by
  have hnext : nextOf pdMode none (pktSom :: f) = some (none, some false, f) :=
    rfl
  cases h with
  | done last =>
    rw [hnext] at last
    cases last
  | step next rest =>
    rw [hnext] at next
    cases next
    exact rest

/-- Nothing is forgotten when nothing more comes. -/
theorem slips_nil : slips pdMode pos l [] = false := by
  have hlost (b : Bytes) : markLost b [] = false := by
    unfold markLost
    rw [List.head?_nil]
    exact Bool.and_false _
  unfold slips
  split
  · exact hlost l
  · simp [hlost]

/-- A header of three bytes behind a mark and SOM, refused: nothing that
comes next may make it matter that its control byte was not there. -/
theorem slips_header {m : Bool} {x : Bytes}
    (hkeep : slips pdMode pos l f = false)
    (start : behind pos l = some (m, x))
    (enough : pktHdrLen ≤ (startBytes m ++ x).length)
    (h3 : x.length ≤ 3) :
    (headerVerdict pdMode m x = errPktFmt → scanSom 0 x = none →
        markLost x f = false ∧ markLost (f.take 1) (f.drop 1) = false) ∧
      (headerVerdict pdMode m x = errPktSkip →
        f.head? ≠ some pktSom ∧ markLost (f.take 1) (f.drop 1) = false) := by
  have hlen : x.length = 3 := by
    have h := three_le_of_header enough
    omega
  have hm : m = true := by
    rw [List.length_append, length_startBytes, pktHdrLen, hlen] at enough
    cases m with
    | true => rfl
    | false =>
      rw [Bool.toNat_false] at enough
      omega
  unfold slips at hkeep
  rw [start, hm] at hkeep
  subst hm
  constructor
  · intro hv hnone
    simp only [hlen, hv, hnone, beq_self_eq_true, Option.isNone_none,
      Bool.true_and, Bool.or_eq_false_iff] at hkeep
    exact hkeep.1
  · intro hv
    simp only [hlen, hv, beq_self_eq_true, Bool.true_and,
      Bool.or_eq_false_iff, beq_eq_false_iff_ne] at hkeep
    exact hkeep.2

/-- A header, and where it ends, with more bytes behind it. -/
theorem header_append {m : Bool} {x : Bytes}
    (enough : pktHdrLen ≤ (startBytes m ++ x).length) :
    pktHdrLen ≤ (startBytes m ++ (x ++ f)).length ∧
      headerVerdict pdMode m (x ++ f) = headerVerdict pdMode m x ∧
      (x ++ f).take 3 = x.take 3 ∧
      (x ++ f).take 4 = x.take 4 ++ f.take (4 - x.length) ∧
      (x ++ f).drop 4 = x.drop 4 ++ f.drop (4 - x.length) := by
  have h3 := three_le_of_header enough
  refine ⟨?_, headerVerdict_append h3 f, take_three h3 f, List.take_append,
    List.drop_append⟩
  rw [← List.append_assoc, List.length_append]
  omega

/-- What is behind a header, with more bytes behind it. -/
theorem header_rest (x f : Bytes) :
    f.take (4 - x.length) ++ (x.drop 4 ++ f.drop (4 - x.length))
      = x.drop 4 ++ f := by
  by_cases h4 : x.length ≤ 4
  · rw [List.drop_of_length_le h4, List.nil_append, List.take_append_drop,
      List.nil_append]
  · have hzero : 4 - x.length = 0 := by omega
    rw [hzero, List.take_zero, List.drop_zero, List.nil_append]

/-- A refused header with no packet start in it is left behind with its
control byte, in whichever call that byte comes. -/
theorem cuts_bad {m : Bool} {x : Bytes} {evs : List Finding}
    (enough : pktHdrLen ≤ (startBytes m ++ x).length)
    (verdict : headerVerdict pdMode m x = errPktFmt)
    (inside : scanSom 0 (x.take 4) = none)
    (hkeep : x.length ≤ 3 → scanSom 0 x = none →
      markLost x f = false ∧ markLost (f.take 1) (f.drop 1) = false)
    (h : Cuts pdMode none (x.drop 4 ++ f) evs) :
    Cuts pdMode (some m) (x ++ f)
      (.rejected m (pktSom :: x.take 3) :: evs) := by
  obtain ⟨henough, hv, hthree, htake, hdrop⟩ :=
    @header_append pdMode f _ _ enough
  have hnext := nextOf_fmt henough (hv.trans verdict)
  rw [hthree, htake, hdrop] at hnext
  by_cases h3 : x.length ≤ 3
  · have hlen : 4 - x.length = 1 := by
      have hge := three_le_of_header enough
      omega
    have hx4 : x.take 4 = x := List.take_of_length_le (by omega)
    rw [hx4] at inside hnext
    obtain ⟨hmark, hcons⟩ := hkeep h3 inside
    rw [List.drop_of_length_le (by omega), List.nil_append] at h hnext
    rw [hlen] at hnext
    cases f with
    | nil =>
      rw [List.take_nil, List.append_nil, inside, List.drop_nil] at hnext
      rw [List.append_nil]
      exact .step hnext h
    | cons b f =>
      rw [List.take_succ_cons, List.take_zero, List.drop_succ_cons,
        List.drop_zero] at hcons hnext
      have hdry : scanSom 0 (x ++ [b]) = scanSom 0 [b] :=
        scanSom_dry inside hmark
      rw [hdry] at hnext
      by_cases hb : b = pktSom
      · subst hb
        exact .step hnext h.of_som
      · have hnone : scanSom 0 [b] = none := by
          show (if b = pktSom then some _ else none) = none
          rw [if_neg hb]
        rw [hnone] at hnext
        exact .step hnext (h.of_cons hb hcons)
  · have hlen : 4 - x.length = 0 := by omega
    rw [hlen, List.take_zero, List.append_nil, inside, List.drop_zero]
      at hnext
    exact .step hnext h

/-- The same of a header that goes the wrong way. -/
theorem cuts_skip {m : Bool} {x : Bytes} {evs : List Finding}
    (enough : pktHdrLen ≤ (startBytes m ++ x).length)
    (verdict : headerVerdict pdMode m x = errPktSkip)
    (hkeep : x.length ≤ 3 →
      f.head? ≠ some pktSom ∧ markLost (f.take 1) (f.drop 1) = false)
    (h : Cuts pdMode none (x.drop 4 ++ f) evs) :
    Cuts pdMode (some m) (x ++ f)
      (.rejected m (pktSom :: x.take 3) :: evs) := by
  obtain ⟨henough, hv, hthree, -, hdrop⟩ :=
    @header_append pdMode f _ _ enough
  have hnext := nextOf_skip henough (hv.trans verdict)
  rw [hthree, hdrop] at hnext
  by_cases h3 : x.length ≤ 3
  · have hlen : 4 - x.length = 1 := by
      have hge := three_le_of_header enough
      omega
    obtain ⟨hsom, hcons⟩ := hkeep h3
    rw [List.drop_of_length_le (by omega), List.nil_append] at h hnext
    rw [hlen] at hnext
    cases f with
    | nil => exact .step hnext h
    | cons b f =>
      rw [List.take_succ_cons, List.take_zero, List.drop_succ_cons,
        List.drop_zero] at hcons
      have hb : b ≠ pktSom := fun hb => hsom (by rw [hb]; rfl)
      exact .step hnext (h.of_cons hb hcons)
  · have hlen : 4 - x.length = 0 := by omega
    rw [hlen, List.drop_zero] at hnext
    exact .step hnext h

/-- A call makes a step of what the whole stream is framed into, if
nothing is forgotten in it. -/
theorem Call.cuts (h : Call pdMode pos l ev r)
    (hkeep : slips pdMode pos l f = false) :
    ∃ pos' l', r.At pdMode pos' l' ∧ ∀ evs,
      Cuts pdMode pos' (l' ++ f) evs →
        Cuts pdMode pos (l ++ f) (ev.toList ++ evs) := by
  cases h with
  | dry hunts mark =>
    refine ⟨none, [], .hunting [] mark, fun evs hevs => ?_⟩
    cases pos with
    | some m => cases hunts
    | none =>
      unfold slips at hkeep
      rw [hunts] at hkeep
      exact hevs.of_scan (scanSom_dry hunts hkeep)
  | @short m x start few mark =>
    have hx4 : x.length ≤ 4 := by
      rw [List.length_append, length_startBytes, pktHdrLen] at few
      omega
    have hat := @RxSide.At.header pdMode m x [] mark hx4
    rw [List.append_nil] at hat
    exact ⟨some m, x, hat, fun evs hevs => .of_behind start hevs⟩
  | @nested m m' x y start enough verdict inside =>
    obtain ⟨henough, hv, hthree, htake, hdrop⟩ :=
      @header_append pdMode f _ _ enough
    have hy : y.length ≤ 4 := by
      have hy := scanSom_length inside
      rw [List.length_take, if_neg (by decide)] at hy
      omega
    refine ⟨some m', y ++ x.drop 4, .header m' y (x.drop 4) m' hy,
      fun evs hevs => .of_behind start (.step ?_ hevs)⟩
    have hscan := scanSom_append_some inside (f.take (4 - x.length))
    rw [nextOf_fmt henough (hv.trans verdict), hthree, htake, hscan, hdrop]
    dsimp only
    rw [List.append_assoc, header_rest, ← List.append_assoc]
  | @bad m x start enough verdict inside =>
    refine ⟨none, x.drop 4, .hunting (x.drop 4) m,
      fun evs hevs => .of_behind start ?_⟩
    exact cuts_bad enough verdict inside
      (fun h3 => (slips_header hkeep start enough h3).1 verdict) hevs
  | @skip m x start enough verdict =>
    refine ⟨none, x.drop 4, .hunting (x.drop 4) m,
      fun evs hevs => .of_behind start ?_⟩
    exact cuts_skip enough verdict
      (fun h3 => (slips_header hkeep start enough h3).2 verdict) hevs
  | @part m x n start enough verdict more =>
    have hat := RxSide.At.frame m x [] n verdict enough more
    rw [List.append_nil] at hat
    exact ⟨some m, x, hat, fun evs hevs => .of_behind start hevs⟩
  | @whole m x n start enough verdict all =>
    obtain ⟨henough, hv, -⟩ := @header_append pdMode f _ _ enough
    refine ⟨none, (startBytes m ++ x).drop n, .hunting _ m,
      fun evs hevs => .of_behind start (.step ?_ hevs)⟩
    have hlen : ¬ (startBytes m ++ (x ++ f)).length < n := by
      rw [← List.append_assoc, List.length_append]
      omega
    rw [nextOf_known henough (hv.trans verdict), if_neg hlen,
      ← List.append_assoc, List.take_append_of_le_length all,
      List.drop_append_of_le_length all]

/-- A call leaves the receive side at a position. -/
theorem Call.at (h : Call pdMode pos l ev r) :
    ∃ pos' l', r.At pdMode pos' l' := by
  obtain ⟨pos', l', hat, -⟩ := h.cuts (f := []) slips_nil
  exact ⟨pos', l', hat⟩

-- ============================================================ the bytes

/-- What a packet start is found in has it in hand. -/
theorem behind_inHand {m : Bool} {x : Bytes}
    (start : behind pos l = some (m, x)) :
    1 + m.toNat + x.length ≤ inHand pos l := by
  cases pos with
  | none =>
    have h := scanSom_length start
    rw [if_neg (by decide)] at h
    unfold inHand
    omega
  | some m' =>
    cases start
    exact Nat.le_refl _

/-- No call holds more than it was given, and one that makes something
known holds less. -/
theorem Call.size (h : Call pdMode pos l ev r) :
    r.size ≤ inHand pos l ∧ (ev ≠ none → r.size < inHand pos l) := by
  have hstart {m : Bool} {x : Bytes} (start : behind pos l = some (m, x)) :
      (startBytes m ++ x).length ≤ inHand pos l := by
    rw [List.length_append, length_startBytes]
    exact behind_inHand start
  have hrest {m : Bool} {x : Bytes} (start : behind pos l = some (m, x))
      (mark : Bool) :
      (⟨[], 0, x.drop 4, mark⟩ : RxSide).size < inHand pos l := by
    have hlen := behind_inHand start
    unfold RxSide.size
    rw [List.length_nil, List.length_drop]
    omega
  cases h with
  | dry hunts mark => exact ⟨Nat.zero_le _, fun hc => absurd rfl hc⟩
  | short start few mark => exact ⟨hstart start, fun hc => absurd rfl hc⟩
  | @nested m m' x y start enough verdict inside =>
    have hin := scanSom_length inside
    have hlen := behind_inHand start
    rw [List.length_take, if_neg (by decide)] at hin
    have hlt : (⟨startBytes m' ++ y, 0, x.drop 4, m'⟩ : RxSide).size
        < inHand pos l := by
      unfold RxSide.size
      rw [List.length_append, length_startBytes, List.length_drop]
      omega
    exact ⟨Nat.le_of_lt hlt, fun _ => hlt⟩
  | bad start enough verdict inside =>
    exact ⟨Nat.le_of_lt (hrest start _), fun _ => hrest start _⟩
  | skip start enough verdict =>
    exact ⟨Nat.le_of_lt (hrest start _), fun _ => hrest start _⟩
  | part start enough verdict more =>
    exact ⟨hstart start, fun hc => absurd rfl hc⟩
  | @whole m x n start enough verdict all =>
    have hpos : pktHdrLen < n := by
      rcases @headerVerdict_cases pdMode m x with e | e | ⟨k, e, hk⟩
      · rw [verdict, errPktFmt] at e
        omega
      · rw [verdict, errPktSkip] at e
        omega
      · rw [verdict] at e
        omega
    have hlen := hstart start
    have hlt : (⟨[], 0, (startBytes m ++ x).drop n, m⟩ : RxSide).size
        < inHand pos l := by
      unfold RxSide.size
      rw [List.length_nil, List.length_drop]
      omega
    exact ⟨Nat.le_of_lt hlt, fun _ => hlt⟩

/-- A call that makes nothing known leaves nothing to be done with the
bytes there are. -/
theorem Call.quiet (h : Call pdMode pos l none r) :
    ∃ pos' l', r.At pdMode pos' l' ∧ nextOf pdMode pos' l' = none := by
  cases h with
  | dry hunts mark => exact ⟨none, [], .hunting [] mark, rfl⟩
  | @short m x start few mark =>
    have hx4 : x.length ≤ 4 := by
      rw [List.length_append, length_startBytes, pktHdrLen] at few
      omega
    have hat := @RxSide.At.header pdMode m x [] mark hx4
    rw [List.append_nil] at hat
    exact ⟨some m, x, hat, nextOf_short few⟩
  | @part m x n start enough verdict more =>
    have hat := RxSide.At.frame m x [] n verdict enough more
    rw [List.append_nil] at hat
    refine ⟨some m, x, hat, ?_⟩
    rw [nextOf_known enough verdict, if_pos more]

/-- Where nothing is to be done, nothing is to be done behind the packet
start. -/
theorem quiet_behind {m : Bool} {x : Bytes}
    (hq : nextOf pdMode pos l = none)
    (start : behind pos l = some (m, x)) :
    nextOf pdMode (some m) x = none := by
  cases pos with
  | none =>
    have hscan : scanSom 0 l = some (m, x) := start
    rw [nextOf_hunt, hscan] at hq
    cases hq
  | some m' =>
    cases start
    exact hq

/-- And nothing is made known there. -/
theorem Call.of_quiet (hq : nextOf pdMode pos l = none)
    (h : Call pdMode pos l ev r) : ev = none := by
  cases h with
  | dry hunts mark => rfl
  | short start few mark => rfl
  | nested start enough verdict inside =>
    have hnext := quiet_behind hq start
    rw [nextOf_fmt enough verdict] at hnext
    cases hnext
  | bad start enough verdict inside =>
    have hnext := quiet_behind hq start
    rw [nextOf_fmt enough verdict] at hnext
    cases hnext
  | skip start enough verdict =>
    have hnext := quiet_behind hq start
    rw [nextOf_skip enough verdict] at hnext
    cases hnext
  | part start enough verdict more => rfl
  | whole start enough verdict all =>
    have hnext := quiet_behind hq start
    rw [nextOf_known enough verdict, if_neg (Nat.not_lt.mpr all)] at hnext
    cases hnext

end Stream

-- ================================================================ the run

/-- What is heard in a run of calls, one chunk arriving for each. -/
def RxSide.heardAll (pdMode : Bool) : List Bytes → RxSide → List Finding
  | [], _ => []
  | c :: cs, r =>
    (r.call pdMode c).1.toList ++ heardAll pdMode cs (r.call pdMode c).2

/-- No call of the run forgets anything. -/
def RxSide.KeepsPlace (pdMode : Bool) : List Bytes → RxSide → Prop
  | [], _ => True
  | c :: cs, r =>
    slips pdMode r.pos (r.held ++ c) cs.flatten = false ∧
      KeepsPlace pdMode cs (r.call pdMode c).2

section Runs

variable {pdMode : Bool} {pos : Option Bool} {l : Bytes} {r : RxSide}

/-- Position and bytes are those of the buffer and the ring. -/
theorem RxSide.At.eq (h : r.At pdMode pos l) :
    r.pos = pos ∧ r.held = l ∧ inHand pos l = r.size := by
  have hstart (m : Bool) (x ring : Bytes) (n : Nat) (mark : Bool) :
      let q : RxSide := ⟨startBytes m ++ x, n, ring, mark⟩
      q.pos = some m ∧ q.held = x ++ ring ∧
        inHand (some m) (x ++ ring) = q.size := by
    intro q
    have hpos : q.pos = some m := by
      cases m <;> rfl
    have hdrop : (startBytes m ++ x).drop (1 + m.toNat) = x := by
      rw [← length_startBytes]
      exact List.drop_left
    refine ⟨hpos, ?_, ?_⟩
    · unfold RxSide.held
      rw [hpos]
      show (startBytes m ++ x).drop (1 + m.toNat) ++ ring = _
      rw [hdrop]
    · show 1 + m.toNat + (x ++ ring).length
        = (startBytes m ++ x).length + ring.length
      rw [List.length_append, List.length_append, length_startBytes]
      omega
  cases h with
  | hunting ring mark =>
    refine ⟨rfl, rfl, ?_⟩
    unfold inHand RxSide.size
    rw [List.length_nil]
  | header m x ring mark short => exact hstart m x ring 0 mark
  | frame m x ring n verdict known short => exact hstart m x ring n m

/-- Nothing is heard of calls that bring nothing when nothing is left to
be done. -/
theorem heardAll_quiet (h : r.At pdMode pos l)
    (hq : nextOf pdMode pos l = none) (n : Nat) :
    r.heardAll pdMode (List.replicate n []) = [] := by
  induction n generalizing r pos l with
  | zero => rfl
  | succ n ih =>
    have hcall := call_spec h []
    rw [List.append_nil] at hcall
    have hev := hcall.of_quiet hq
    rw [hev] at hcall
    obtain ⟨pos', l', hat, hq'⟩ := hcall.quiet
    rw [List.replicate_succ]
    show (r.call pdMode []).1.toList ++ _ = []
    rw [hev, ih hat hq']
    rfl

/-- Calls that bring nothing, enough of them, make known what the bytes
in hand are framed into. -/
theorem heardAll_idle {n : Nat} (h : r.At pdMode pos l)
    (hn : r.size < n) :
    Cuts pdMode pos l (r.heardAll pdMode (List.replicate n [])) := by
  induction n generalizing r pos l with
  | zero => omega
  | succ n ih =>
    have hcall := call_spec h []
    rw [List.append_nil] at hcall
    obtain ⟨pos', l', hat, hstep⟩ := hcall.cuts (f := []) slips_nil
    have hsize := hcall.size
    rw [h.eq.2.2] at hsize
    rw [List.append_nil, List.append_nil] at hstep
    rw [List.replicate_succ]
    show Cuts pdMode pos l ((r.call pdMode []).1.toList ++ _)
    refine hstep _ ?_
    cases hev : (r.call pdMode []).1 with
    | some e =>
      have hlt := hsize.2 (by rw [hev]; exact Option.some_ne_none e)
      exact ih hat (by omega)
    | none =>
      rw [hev] at hcall
      obtain ⟨pos'', l'', hat', hq⟩ := hcall.quiet
      obtain ⟨hpos, hheld, -⟩ := hat.eq
      obtain ⟨hpos', hheld', -⟩ := hat'.eq
      rw [← hpos', ← hheld', hpos, hheld] at hq
      rw [heardAll_quiet hat hq]
      exact .done hq

/-- A run of calls that forgets nothing, and then enough that bring
nothing, makes known what all of the bytes are framed into. -/
theorem heardAll_cuts {cs : List Bytes} {n : Nat}
    (h : r.At pdMode pos l) (hkeep : r.KeepsPlace pdMode cs)
    (hn : r.size + cs.flatten.length < n) :
    Cuts pdMode pos (l ++ cs.flatten)
      (r.heardAll pdMode (cs ++ List.replicate n [])) := by
  induction cs generalizing r pos l with
  | nil =>
    rw [List.flatten_nil, List.append_nil]
    exact heardAll_idle h (by omega)
  | cons c cs ih =>
    obtain ⟨hslip, hrest⟩ := hkeep
    obtain ⟨hpos, hheld, hin⟩ := h.eq
    rw [hpos, hheld] at hslip
    have hcall := call_spec h c
    obtain ⟨pos', l', hat, hstep⟩ := hcall.cuts hslip
    have hsize := hcall.size.1
    have hgrow : inHand pos (l ++ c) = r.size + c.length := by
      rw [← hin]
      unfold inHand
      rw [List.length_append]
      omega
    rw [List.flatten_cons, List.length_append] at hn
    rw [List.flatten_cons, ← List.append_assoc]
    exact hstep _ (ih hat hrest (by omega))

end Runs

end LibOsdp
