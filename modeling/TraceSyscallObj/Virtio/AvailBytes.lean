import TraceSyscallObj.Virtio.Pop

/-!
# What `virtqueue_avail_bytes` says of the heads on offer

Counting adds up the lengths of the buffers in 32 bits and stops at the first buffer where both
counters are large enough.

* `Hits`: some prefix of the buffers is large enough;
* `countedBufs`: the buffers that counting can see, and whether it sees all heads to their end;
* `countChain_outcome`, `countHeads_outcome`: counting stops there, or at the end, or it exits;
* `Overfull.shared`: it exits only if two chains share an entry of the table;
* `availBytes_exact_iff`, `availBytes_exact_apart`: when the answer is the one of the sums.
-/

namespace Virtio
open ByteMem Checked List

/-! ## counting -/

def inBytes (l : List Buf) : Nat := ((writes l).map (·.len.toNat)).sum
def outBytes (l : List Buf) : Nat := ((reads l).map (·.len.toNat)).sum

def Totals.add (t : Totals) (b : Buf) : Totals :=
  if b.write then { t with inTotal := t.inTotal + b.sg.len }
  else { t with outTotal := t.outTotal + b.sg.len }

def Totals.after (t : Totals) (l : List Buf) : Totals := l.foldl Totals.add t

/-- both counters are large enough after some buffer of `l` -/
def Hits (maxIn maxOut : BitVec 32) (t : Totals) (l : List Buf) : Prop :=
  ∃ p, p <+: l ∧ p ≠ [] ∧ (t.after p).Enough maxIn maxOut

section hits
variable {m : Mem} {descPa : BitVec 64} {maxIn maxOut : BitVec 32} {t : Totals} {b : Buf}
  {l l' : List Buf} {i : Nat}

lemma Totals.count_eq : t.count m descPa i = t.add (bufAt m descPa i) := by
  unfold Totals.count Totals.add
  by_cases hw : vringDescFlags m descPa i &&& VRING_DESC_F_WRITE ≠ 0
  · have hb : (bufAt m descPa i).write = true := decide_eq_true hw
    rw [if_pos hw, if_pos hb]
    rfl
  · have hb : ¬ (bufAt m descPa i).write = true := by rw [bufAt, decide_eq_true_iff]; exact hw
    rw [if_neg hw, if_neg hb]
    rfl

lemma Totals.after_cons : t.after (b :: l) = (t.add b).after l := rfl

lemma Totals.after_append : t.after (l ++ l') = (t.after l).after l' := foldl_append

lemma not_hits_nil : ¬ Hits maxIn maxOut t [] := by
  rintro ⟨p, hp, hne, -⟩
  exact hne (List.prefix_nil.1 hp)

lemma hits_cons :
    Hits maxIn maxOut t (b :: l) ↔
      (t.add b).Enough maxIn maxOut ∨ Hits maxIn maxOut (t.add b) l := by
  constructor
  · rintro ⟨p, hp, hne, h⟩
    obtain rfl | ⟨p, rfl, hp'⟩ := List.prefix_cons_iff.1 hp
    · exact absurd rfl hne
    by_cases hp0 : p = []
    · subst hp0
      exact .inl h
    · exact .inr ⟨p, hp', hp0, h⟩
  · rintro (h | ⟨p, hp, -, h⟩)
    · exact ⟨[b], List.prefix_cons_iff.2 (.inr ⟨[], rfl, nil_prefix⟩), by simp, h⟩
    · exact ⟨b :: p, List.prefix_cons_iff.2 (.inr ⟨p, rfl, hp⟩), by simp, h⟩

lemma hits_append :
    Hits maxIn maxOut t (l ++ l') ↔ Hits maxIn maxOut t l ∨ Hits maxIn maxOut (t.after l) l' := by
  induction l generalizing t with
  | nil =>
    exact ⟨.inr, fun h => h.resolve_left not_hits_nil⟩
  | cons b l ih =>
    rw [cons_append, hits_cons, ih, hits_cons, Totals.after_cons, or_assoc]

end hits

/-! ## what counting sees -/

/-- the buffers from descriptor `i` on, at most `n`, and whether the chain ends with them -/
def chainBufs (m : Mem) (descPa : BitVec 64) (max : Nat) : (n i : Nat) → List Buf × Bool
  | 0, _ => ([], false)
  | n + 1, i =>
    if vringDescFlags m descPa i &&& VRING_DESC_F_NEXT = 0 then ([bufAt m descPa i], true)
    else if max ≤ (vringDescNext m descPa i).toNat then ([bufAt m descPa i], false)
    else
      let rest := chainBufs m descPa max n (vringDescNext m descPa i).toNat
      (bufAt m descPa i :: rest.1, rest.2)

section heads
variable (m : Mem) (vq : VirtQueue)

/-- those of head `h` when `room` entries of the ring's table are left -/
def headBufs (room h : Nat) : List Buf × Bool :=
  if vq.vring.num ≤ h then ([], false)
  else if Indirect m vq h then
    if (vringDescLen m vq.vring.desc h).toNat % descSize ≠ 0 ∨ room = 0 then ([], false)
    else chainBufs m (vringDescAddr m vq.vring.desc h) (tableSize m vq h) (tableSize m vq h) 0
  else chainBufs m vq.vring.desc vq.vring.num room h

/-- the entries of the ring's table that these take -/
def headSlots (room h : Nat) : Nat := if Indirect m vq h then 1 else (headBufs m vq room h).1.length

/-- those of some heads, up to the first that does not end -/
def countedBufs : (heads : List Nat) → (room : Nat) → List Buf × Bool
  | [], _ => ([], true)
  | h :: hs, room =>
    if (headBufs m vq room h).2 then
      let rest := countedBufs hs (room - headSlots m vq room h)
      ((headBufs m vq room h).1 ++ rest.1, rest.2)
    else headBufs m vq room h

end heads

section sound
variable {m : Mem} {vq : VirtQueue} {descPa : BitVec 64} {max n i h room : Nat} {l : List Buf}

lemma Chain.chainBufs_eq (hl : Chain m descPa max i l) (hn : l.length ≤ n) :
    chainBufs m descPa max n i = (l, true) := by
  induction hl generalizing n with
  | last h =>
    obtain ⟨n, rfl⟩ := Nat.exists_eq_add_one.2 (Nat.lt_of_lt_of_le Nat.zero_lt_one hn)
    rw [chainBufs, if_pos h]
  | link h hlt hl ih =>
    obtain ⟨n, rfl⟩ := Nat.exists_eq_add_one.2 (Nat.lt_of_lt_of_le (Nat.succ_pos _) hn)
    rw [chainBufs, if_neg h, if_neg (by omega), ih (Nat.le_of_succ_le_succ hn)]

lemma Sound.headBufs_eq (hs : Sound m vq h) (hlt : h < vq.vring.num) (hroom : slots m vq h ≤ room) :
    headBufs m vq room h = (chainOf m vq h, true) ∧ headSlots m vq room h = slots m vq h := by
  have hbufs : headBufs m vq room h = (chainOf m vq h, true) := by
    unfold slots at hroom
    unfold headBufs
    rw [if_neg (by omega)]
    by_cases hi : Indirect m vq h
    · obtain ⟨hchain, hlen⟩ := hs.indirect hi
      rw [if_pos hi] at hroom ⊢
      rw [if_neg (by have := hs.aligned hi; omega), hchain.chainBufs_eq hlen]
    · rw [if_neg hi] at hroom ⊢
      exact (hs.direct hi).1.chainBufs_eq hroom
  refine ⟨hbufs, ?_⟩
  unfold headSlots slots
  rw [hbufs]

lemma countedBufs_eq {hs : List Nat} (hlt : ∀ h ∈ hs, h < vq.vring.num)
    (hsound : ∀ h ∈ hs, Sound m vq h) (hroom : (hs.map (slots m vq)).sum ≤ room) :
    countedBufs m vq hs room = (hs.flatMap (chainOf m vq), true) := by
  induction hs generalizing room with
  | nil => rfl
  | cons h hs ih =>
    obtain ⟨hlt0, hlt⟩ := List.forall_mem_cons.1 hlt
    obtain ⟨hs0, hsound⟩ := List.forall_mem_cons.1 hsound
    rw [map_cons, sum_cons] at hroom
    obtain ⟨hbufs, hslots⟩ := hs0.headBufs_eq hlt0 (show slots m vq h ≤ room by omega)
    rw [countedBufs, hbufs, hslots, if_pos rfl, ih hlt hsound (by omega)]
    rfl

end sound

/-- how counting the buffers `b.1` of a chain can end, with `n` of them counted up to there -/
inductive Outcome (maxIn maxOut : BitVec 32) (n : Nat) (t : Totals) (b : List Buf × Bool) :
    Except Stop Counted → Prop where
  | done {t' : Totals} (h : Hits maxIn maxOut t b.1) (ht : t'.Enough maxIn maxOut) :
      Outcome maxIn maxOut n t b (.ok (.done t'))
  | next (h : ¬ Hits maxIn maxOut t b.1) (hend : b.2 = true) :
      Outcome maxIn maxOut n t b (.ok (.next n (t.after b.1)))
  | exit {e : String} (h : ¬ Hits maxIn maxOut t b.1) (hend : b.2 = false) :
      Outcome maxIn maxOut n t b (.error (.exit e))

section count
variable {m : Mem} {maxIn maxOut : BitVec 32} {descPa : BitVec 64} {max fuel i numBufs : Nat}
  {t : Totals}

lemma Outcome.cons {n : Nat} {b : Buf} {rest : List Buf × Bool} {r : Except Stop Counted}
    (hb : ¬ (t.add b).Enough maxIn maxOut) (h : Outcome maxIn maxOut n (t.add b) rest r) :
    Outcome maxIn maxOut n t (b :: rest.1, rest.2) r := by
  cases h with
  | done h ht => exact .done (hits_cons.2 (.inr h)) ht
  | next h hend => exact .next (fun hh => (hits_cons.1 hh).elim hb h) hend
  | exit h hend => exact .exit (fun hh => (hits_cons.1 hh).elim hb h) hend

lemma countChain_succ :
    countChain m maxIn maxOut descPa max (fuel + 1) i numBufs t =
      if max < numBufs + 1 then .error (.exit "Looped descriptor")
      else if (t.add (bufAt m descPa i)).Enough maxIn maxOut then
        .ok (.done (t.add (bufAt m descPa i)))
      else
        virtqueueNextDesc m descPa i max >>= fun j =>
          if j = max then .ok (.next (numBufs + 1) (t.add (bufAt m descPa i)))
          else countChain m maxIn maxOut descPa max fuel j (numBufs + 1)
            (t.add (bufAt m descPa i)) := by
  rw [countChain, Totals.count_eq]

/-- induction on the fuel; the places that are left bound the rounds -/
lemma countChain_outcome (h0 : 0 < fuel) (hf : max < fuel + numBufs) :
    Outcome maxIn maxOut (numBufs + (chainBufs m descPa max (max - numBufs) i).1.length) t
      (chainBufs m descPa max (max - numBufs) i)
      (countChain m maxIn maxOut descPa max fuel i numBufs t) := by
  induction fuel generalizing i numBufs t with
  | zero => cases h0
  | succ fuel ih =>
    rw [countChain_succ]
    by_cases hmax : max < numBufs + 1
    · rw [if_pos hmax, show max - numBufs = 0 by omega]
      exact .exit not_hits_nil rfl
    rw [if_neg hmax]
    obtain ⟨k, hk⟩ : ∃ k, max - numBufs = k + 1 := ⟨max - numBufs - 1, by omega⟩
    have hnext : max - (numBufs + 1) = k := by omega
    have hfirst : ∃ rest ended,
        chainBufs m descPa max (k + 1) i = (bufAt m descPa i :: rest, ended) := by
      rw [chainBufs]
      split
      · exact ⟨_, _, rfl⟩
      · split <;> exact ⟨_, _, rfl⟩
    rw [hk]
    by_cases henough : (t.add (bufAt m descPa i)).Enough maxIn maxOut
    · rw [if_pos henough]
      obtain ⟨rest, ended, hfirst⟩ := hfirst
      rw [hfirst]
      exact .done (hits_cons.2 (.inl henough)) henough
    rw [if_neg henough]
    have hno : ¬ Hits maxIn maxOut t [bufAt m descPa i] :=
      fun hh => (hits_cons.1 hh).elim henough not_hits_nil
    rw [chainBufs]
    by_cases hlast : vringDescFlags m descPa i &&& VRING_DESC_F_NEXT = 0
    · rw [if_pos hlast, nextDesc_last hlast]
      show Outcome _ _ _ _ _ (if max = max then _ else _)
      rw [if_pos rfl]
      exact .next hno rfl
    rw [if_neg hlast]
    by_cases hout : max ≤ (vringDescNext m descPa i).toNat
    · obtain ⟨report, hexit⟩ := nextDesc_out hlast hout
      rw [if_pos hout, hexit]
      exact .exit hno rfl
    · rw [if_neg hout, nextDesc_link hlast (by omega)]
      show Outcome _ _ _ _ _ (if _ = max then _ else _)
      rw [if_neg (by omega)]
      have hrest : Outcome maxIn maxOut _ (t.add (bufAt m descPa i))
          (chainBufs m descPa max (max - (numBufs + 1)) (vringDescNext m descPa i).toNat) _ :=
        ih (by omega) (by omega)
      rw [hnext, Nat.add_right_comm] at hrest
      exact hrest.cons henough

variable {vq : VirtQueue} {h totalBufs : Nat}

lemma countHead_indirect (hi : Indirect m vq h) :
    countHead m maxIn maxOut fuel vq h totalBufs t =
      if (vringDescLen m vq.vring.desc h).toNat % descSize ≠ 0 then
        .error (.exit "Invalid size for indirect buffer table")
      else if vq.vring.num ≤ totalBufs then .error (.exit "Looped descriptor")
      else
        countChain m maxIn maxOut (vringDescAddr m vq.vring.desc h) (tableSize m vq h) fuel 0 0 t >>=
          fun
          | .done t => .ok (.done t)
          | .next _ t => .ok (.next (totalBufs + 1) t) := if_pos hi

lemma countHead_direct (hi : ¬ Indirect m vq h) :
    countHead m maxIn maxOut fuel vq h totalBufs t =
      countChain m maxIn maxOut vq.vring.desc vq.vring.num fuel h totalBufs t := if_neg hi

section
variable (hf : 2 ^ 28 ≤ fuel) (hnum : vq.vring.num < fuel)
include hf hnum

lemma countHead_outcome (hlt : h < vq.vring.num) :
    Outcome maxIn maxOut (totalBufs + headSlots m vq (vq.vring.num - totalBufs) h) t
      (headBufs m vq (vq.vring.num - totalBufs) h)
      (countHead m maxIn maxOut fuel vq h totalBufs t) := by
  unfold headSlots headBufs
  rw [if_neg (Nat.not_le.2 hlt)]
  by_cases hi : Indirect m vq h
  · rw [countHead_indirect hi, if_pos hi, if_pos hi]
    by_cases hal : (vringDescLen m vq.vring.desc h).toNat % descSize ≠ 0
    · rw [if_pos hal, if_pos (.inl hal)]
      exact .exit not_hits_nil rfl
    rw [if_neg hal]
    by_cases hfull : vq.vring.num ≤ totalBufs
    · rw [if_pos hfull, if_pos (.inr (by omega))]
      exact .exit not_hits_nil rfl
    rw [if_neg hfull, if_neg (by omega)]
    have hsize := tableSize_lt m vq h
    have hout : Outcome maxIn maxOut _ t (chainBufs m (vringDescAddr m vq.vring.desc h)
        (tableSize m vq h) (tableSize m vq h - 0) 0) (countChain _ _ _ _ _ fuel 0 0 t) :=
      countChain_outcome (by omega) (by omega)
    revert hout
    generalize countChain m maxIn maxOut (vringDescAddr m vq.vring.desc h) (tableSize m vq h)
      fuel 0 0 t = r
    intro hout
    cases hout with
    | done hh ht => exact .done hh ht
    | next hh hend => exact .next hh hend
    | exit hh hend => exact .exit hh hend
  · rw [countHead_direct hi, if_neg hi, if_neg hi]
    exact countChain_outcome (by omega) (by omega)

end

/-- how counting the buffers `b.1` of some heads can end -/
inductive HeadsOutcome (maxIn maxOut : BitVec 32) (t : Totals) (b : List Buf × Bool) :
    Except Stop Totals → Prop where
  | done {t' : Totals} (h : Hits maxIn maxOut t b.1) (ht : t'.Enough maxIn maxOut) :
      HeadsOutcome maxIn maxOut t b (.ok t')
  | ended (h : ¬ Hits maxIn maxOut t b.1) (hend : b.2 = true) :
      HeadsOutcome maxIn maxOut t b (.ok (t.after b.1))
  | exit {e : String} (h : ¬ Hits maxIn maxOut t b.1) (hend : b.2 = false) :
      HeadsOutcome maxIn maxOut t b (.error (.exit e))

lemma HeadsOutcome.append {l : List Buf} {rest : List Buf × Bool} {r : Except Stop Totals}
    (hl : ¬ Hits maxIn maxOut t l) (h : HeadsOutcome maxIn maxOut (t.after l) rest r) :
    HeadsOutcome maxIn maxOut t (l ++ rest.1, rest.2) r := by
  cases h with
  | done h ht => exact .done (hits_append.2 (.inr h)) ht
  | ended h hend =>
    rw [← Totals.after_append]
    exact .ended (fun hh => (hits_append.1 hh).elim hl h) hend
  | exit h hend => exact .exit (fun hh => (hits_append.1 hh).elim hl h) hend

/-- induction on the heads that are left -/
lemma countHeads_outcome {chainFuel idx : Nat} (hf : 2 ^ 28 ≤ chainFuel)
    (hnum : vq.vring.num < chainFuel)
    (hfew : (vringAvailIdx m vq - BitVec.ofNat 16 idx).toNat ≤ vq.vring.num)
    (hfuel : (vringAvailIdx m vq - BitVec.ofNat 16 idx).toNat < fuel) :
    HeadsOutcome maxIn maxOut t
      (countedBufs m vq (headsFrom m vq id idx) (vq.vring.num - totalBufs))
      (countHeads m maxIn maxOut chainFuel vq fuel idx totalBufs t) := by
  induction fuel generalizing idx totalBufs t with
  | zero => omega
  | succ fuel ih =>
    rw [countHeads, numHeads_ok hfew]
    by_cases hne : (vringAvailIdx m vq - BitVec.ofNat 16 idx).toNat = 0
    · show HeadsOutcome _ _ _ _ (if _ = 0 then _ else _)
      rw [headsFrom_nil hne, if_pos hne]
      exact .ended not_hits_nil rfl
    have hleft := left_succ hne
    show HeadsOutcome _ _ _ _ (if _ = 0 then _ else _)
    rw [headsFrom_cons hne, if_neg hne, countedBufs, id_eq]
    by_cases hlt : (vringAvailRing m vq (idx % vq.vring.num)).toNat < vq.vring.num
    · rw [getHead_ok hlt]
      have hhead : Outcome maxIn maxOut _ t (headBufs m vq (vq.vring.num - totalBufs) _) _ :=
        countHead_outcome hf hnum hlt
      revert hhead
      show _ → HeadsOutcome _ _ _ _ (countHead m maxIn maxOut chainFuel vq
        (vringAvailRing m vq (idx % vq.vring.num)).toNat totalBufs t >>= _)
      generalize countHead m maxIn maxOut chainFuel vq
        (vringAvailRing m vq (idx % vq.vring.num)).toNat totalBufs t = r
      generalize hbufs : headBufs m vq (vq.vring.num - totalBufs)
        (vringAvailRing m vq (idx % vq.vring.num)).toNat = b
      intro hhead
      cases hhead with
      | done hh ht =>
        split
        · exact .done (hits_append.2 (.inl hh)) ht
        · exact .done hh ht
      | next hh hend =>
        rw [if_pos hend]
        refine HeadsOutcome.append hh ?_
        rw [Nat.sub_sub]
        exact ih (by omega) (by omega)
      | exit hh hend =>
        rw [if_neg (by rw [hend]; exact Bool.false_ne_true)]
        exact .exit hh hend
    · have hbufs : headBufs m vq (vq.vring.num - totalBufs)
          (vringAvailRing m vq (idx % vq.vring.num)).toNat = ([], false) := if_pos (by omega)
      obtain ⟨report, hexit⟩ := getHead_out hlt
      rw [hbufs, if_neg Bool.false_ne_true, hexit]
      exact .exit not_hits_nil rfl

end count

/-! ## the answer -/

section sums
variable {t : Totals} {l : List Buf} {b : Buf}

lemma inBytes_cons : inBytes (b :: l) = inBytes [b] + inBytes l := by
  unfold inBytes
  rw [writes_cons, map_append, sum_append]

lemma outBytes_cons : outBytes (b :: l) = outBytes [b] + outBytes l := by
  unfold outBytes
  rw [reads_cons, map_append, sum_append]

lemma Totals.after_eq (t : Totals) (l : List Buf) :
    (t.after l).inTotal.toNat = (t.inTotal.toNat + inBytes l) % 2 ^ 32 ∧
    (t.after l).outTotal.toNat = (t.outTotal.toNat + outBytes l) % 2 ^ 32 := by
  induction l generalizing t with
  | nil =>
    exact ⟨(Nat.mod_eq_of_lt t.inTotal.isLt).symm, (Nat.mod_eq_of_lt t.outTotal.isLt).symm⟩
  | cons b l ih =>
    obtain ⟨hin, hout⟩ := ih (t.add b)
    rw [Totals.after_cons, hin, hout, inBytes_cons, outBytes_cons]
    unfold inBytes outBytes Totals.add
    cases hb : b.write with
    | true =>
      rw [(sides_write hb).1, (sides_write hb).2, if_pos rfl]
      simp only [BitVec.toNat_add, map_cons, map_nil, sum_cons, sum_nil]
      omega
    | false =>
      rw [(sides_read hb).1, (sides_read hb).2, if_neg Bool.false_ne_true]
      simp only [BitVec.toNat_add, map_cons, map_nil, sum_cons, sum_nil]
      omega

end sums

/-- the bytes of popped elements, device-writable and device-readable -/
def inOffered (elems : List VirtQueueElement) : Nat :=
  (elems.map fun e => (e.inSg.map (·.len.toNat)).sum).sum

def outOffered (elems : List VirtQueueElement) : Nat :=
  (elems.map fun e => (e.outSg.map (·.len.toNat)).sum).sum

section answer
variable (m : Mem) (vq : VirtQueue)

def offered : List Buf := (popHeads m vq).flatMap (chainOf m vq)

/-- the chains take more entries than the ring's table has -/
def Overfull : Prop := vq.vring.num < ((popHeads m vq).map (slots m vq)).sum

/-- the entries of the table from `i` on, at most `n` -/
def indices (m : Mem) (descPa : BitVec 64) : (n i : Nat) → List Nat
  | 0, _ => []
  | n + 1, i =>
    i ::
      if vringDescFlags m descPa i &&& VRING_DESC_F_NEXT = 0 then []
      else indices m descPa n (vringDescNext m descPa i).toNat

/-- the entries of the ring's own table that head `h` takes -/
def taken (h : Nat) : List Nat :=
  if Indirect m vq h then [h] else indices m vq.vring.desc vq.vring.num h

/-- the buffers that counting can see, and whether these are all of its heads -/
def counted : List Buf × Bool := countedBufs m vq (countedHeads m vq) vq.vring.num

end answer

/-- after some of the buffers, or all of them, both sums modulo `2^32` are large enough -/
def Reached (b : List Buf × Bool) (inB outB : BitVec 32) : Prop :=
  ∃ p, p <+: b.1 ∧ (p ≠ [] ∨ b.2 = true) ∧
    inB.toNat ≤ inBytes p % 2 ^ 32 ∧ outB.toNat ≤ outBytes p % 2 ^ 32

section answer
variable {m : Mem} {vq : VirtQueue} {inB outB : BitVec 32} {fuel : Nat}

lemma length_indices (descPa : BitVec 64) (n i : Nat) :
    (indices m descPa n i).length = (links m descPa n i).length := by
  induction n generalizing i with
  | zero => rfl
  | succ n ih =>
    rw [indices, links, length_cons, length_cons]
    split
    · rfl
    · rw [ih]

lemma Chain.indices_lt {descPa : BitVec 64} {max n i : Nat} {l : List Buf}
    (hl : Chain m descPa max i l) (hi : i < max) : ∀ j ∈ indices m descPa n i, j < max := by
  induction hl generalizing n with
  | last h =>
    cases n with
    | zero => exact fun _ => nofun
    | succ n =>
      rw [indices, if_pos h]
      exact List.forall_mem_cons.2 ⟨hi, fun _ => nofun⟩
  | link h hlt hl ih =>
    cases n with
    | zero => exact fun _ => nofun
    | succ n =>
      rw [indices, if_neg h]
      exact List.forall_mem_cons.2 ⟨hi, ih hlt⟩

lemma length_taken (h : Nat) : (taken m vq h).length = slots m vq h := by
  unfold taken slots
  split
  · rfl
  · rename_i hi
    rw [length_indices, chainOf, if_neg hi]

lemma taken_lt {h : Nat} (hs : Sound m vq h) (hlt : h < vq.vring.num) :
    ∀ j ∈ taken m vq h, j < vq.vring.num := by
  unfold taken
  split
  · exact List.forall_mem_singleton.2 hlt
  · rename_i hi
    exact (hs.direct hi).1.indices_lt hlt

lemma Overfull.shared (hwf : WellFormed m vq) (h : Overfull m vq) :
    ¬ ((popHeads m vq).flatMap (taken m vq)).Nodup := by
  intro hnodup
  have hsub : ((popHeads m vq).flatMap (taken m vq)).toFinset ⊆ Finset.range vq.vring.num := by
    intro j hj
    obtain ⟨head, hh, hj⟩ := List.mem_flatMap.1 (List.mem_toFinset.1 hj)
    exact Finset.mem_range.2 (taken_lt (hwf.sound head hh) (hwf.lt head hh) j hj)
  have hcard := Finset.card_le_card hsub
  rw [toFinset_card_of_nodup hnodup, Finset.card_range, length_flatMap] at hcard
  simp only [length_taken] at hcard
  exact absurd h (Nat.not_lt.2 hcard)

lemma enough_after_iff {l : List Buf} :
    ((⟨0, 0⟩ : Totals).after l).Enough inB outB ↔
      inB.toNat ≤ inBytes l % 2 ^ 32 ∧ outB.toNat ≤ outBytes l % 2 ^ 32 := by
  obtain ⟨hin, hout⟩ := Totals.after_eq ⟨0, 0⟩ l
  unfold Totals.Enough
  rw [BitVec.le_def, BitVec.le_def, hin, hout]
  simp

lemma reached_iff {b : List Buf × Bool} :
    Reached b inB outB ↔ Hits inB outB ⟨0, 0⟩ b.1 ∨
      (b.2 = true ∧ ((⟨0, 0⟩ : Totals).after b.1).Enough inB outB) := by
  constructor
  · rintro ⟨p, hp, hend, h⟩
    by_cases h0 : p = []
    · -- nothing is asked for
      subst h0
      have hin : inB.toNat = 0 := Nat.le_zero.1 h.1
      have hout : outB.toNat = 0 := Nat.le_zero.1 h.2
      exact .inr ⟨hend.resolve_left (not_not_intro rfl), enough_after_iff.2 ⟨by omega, by omega⟩⟩
    · exact .inl ⟨p, hp, h0, enough_after_iff.2 h⟩
  · rintro (⟨p, hp, hne, h⟩ | ⟨hend, h⟩)
    · exact ⟨p, hp, .inl hne, enough_after_iff.1 h⟩
    · exact ⟨_, prefix_rfl, .inr hend, enough_after_iff.1 h⟩

lemma bytes_append (l l' : List Buf) :
    inBytes (l ++ l') = inBytes l + inBytes l' ∧ outBytes (l ++ l') = outBytes l + outBytes l' := by
  simp [inBytes, outBytes, writes, reads]

lemma offered_sums (hs : List Nat) :
    inOffered (hs.map (elemOf m vq)) = inBytes (hs.flatMap (chainOf m vq)) ∧
    outOffered (hs.map (elemOf m vq)) = outBytes (hs.flatMap (chainOf m vq)) := by
  induction hs with
  | nil => exact ⟨rfl, rfl⟩
  | cons h hs ih =>
    rw [flatMap_cons, (bytes_append _ _).1, (bytes_append _ _).2, ← ih.1, ← ih.2]
    exact ⟨rfl, rfl⟩

lemma Reached.sums {b : List Buf × Bool} (h : Reached b inB outB) :
    inB.toNat ≤ inBytes b.1 ∧ outB.toNat ≤ outBytes b.1 := by
  obtain ⟨p, ⟨l, hl⟩, -, hin, hout⟩ := h
  rw [← hl, (bytes_append p l).1, (bytes_append p l).2]
  omega

lemma countedHeads_eq (h : vq.vring.num ∣ 2 ^ 16 ∨
      vq.lastAvailIdx.toNat + (vringAvailIdx m vq - vq.lastAvailIdx).toNat ≤ 2 ^ 16) :
    countedHeads m vq = popHeads m vq := by
  refine map_congr_left fun j hj => ?_
  rw [mem_range, ofNat_lastAvailIdx] at hj
  obtain h | h := h
  · simp only [id_eq, Nat.mod_mod_of_dvd _ h]
  · simp only [id_eq]
    rw [Nat.mod_eq_of_lt (b := 2 ^ 16) (by omega)]

lemma counted_eq (hwf : WellFormed m vq) (heads : countedHeads m vq = popHeads m vq)
    (hfits : ¬ Overfull m vq) : counted m vq = (offered m vq, true) := by
  unfold counted
  rw [heads]
  exact countedBufs_eq hwf.lt hwf.sound (Nat.le_of_not_lt hfits)

lemma getAvailBytes_outcome (hf : 2 ^ 28 ≤ fuel) (hnum : vq.vring.num < fuel)
    (hfew : (vringAvailIdx m vq - vq.lastAvailIdx).toNat ≤ vq.vring.num) :
    HeadsOutcome inB outB ⟨0, 0⟩ (counted m vq) (virtqueueGetAvailBytes m inB outB fuel vq) := by
  show HeadsOutcome _ _ _ (countedBufs m vq _ (vq.vring.num - 0)) (countHeads _ _ _ _ _ _ _ 0 _)
  refine countHeads_outcome hf hnum ?_ ?_
  · rw [ofNat_lastAvailIdx]
    exact hfew
  · rw [ofNat_lastAvailIdx]
    omega

lemma availBytes_cases (m : Mem) (inB outB : BitVec 32) (hf : 2 ^ 28 ≤ fuel)
    (hnum : vq.vring.num < fuel)
    (hfew : (vringAvailIdx m vq - vq.lastAvailIdx).toNat ≤ vq.vring.num) :
    (Reached (counted m vq) inB outB ∧ virtqueueAvailBytes fuel m vq inB outB = .ok true) ∨
    (¬ Reached (counted m vq) inB outB ∧ (counted m vq).2 = true ∧
      virtqueueAvailBytes fuel m vq inB outB = .ok false) ∨
    (¬ Reached (counted m vq) inB outB ∧ (counted m vq).2 = false ∧
      ∃ report, virtqueueAvailBytes fuel m vq inB outB = .error (.exit report)) := by
  have hout : HeadsOutcome inB outB _ _ _ := getAvailBytes_outcome (m := m) hf hnum hfew
  unfold virtqueueAvailBytes
  rw [reached_iff]
  revert hout
  generalize virtqueueGetAvailBytes m inB outB fuel vq = r
  intro hout
  cases hout with
  | done h ht => exact .inl ⟨.inl h, congrArg Except.ok (decide_eq_true ht)⟩
  | ended h hend =>
    by_cases henough : ((⟨0, 0⟩ : Totals).after (counted m vq).1).Enough inB outB
    · exact .inl ⟨.inr ⟨hend, henough⟩, congrArg Except.ok (decide_eq_true henough)⟩
    · exact .inr (.inl ⟨fun hh => hh.elim h fun he => henough he.2, hend,
        congrArg Except.ok (decide_eq_false henough)⟩)
  | exit h hend =>
    exact .inr (.inr ⟨fun hh => hh.elim h fun he => by simp [hend] at he, hend, _, rfl⟩)

lemma availBytes_ne_hang (hf : 2 ^ 28 ≤ fuel) (hnum : vq.vring.num < fuel) :
    virtqueueAvailBytes fuel m vq inB outB ≠ .error .hang := by
  by_cases hfew : (vringAvailIdx m vq - vq.lastAvailIdx).toNat ≤ vq.vring.num
  · obtain ⟨-, h⟩ | ⟨-, -, h⟩ | ⟨-, -, report, h⟩ :=
      availBytes_cases m inB outB hf hnum hfew <;>
    · rw [h]
      exact fun h => nomatch h
  · -- too many heads: the first test exits
    obtain ⟨fuel, rfl⟩ : ∃ n, fuel = n + 1 := ⟨fuel - 1, by omega⟩
    rw [← ofNat_lastAvailIdx] at hfew
    obtain ⟨report, hexit⟩ := numHeads_out hfew
    unfold virtqueueAvailBytes virtqueueGetAvailBytes
    rw [countHeads, hexit]
    exact fun h => nomatch h

end answer

def Suffice (elems : List VirtQueueElement) (inB outB : BitVec 32) : Prop :=
  inB.toNat ≤ inOffered elems ∧ outB.toNat ≤ outOffered elems

instance (elems : List VirtQueueElement) (inB outB : BitVec 32) :
    Decidable (Suffice elems inB outB) := inferInstanceAs (Decidable (_ ∧ _))

/-- the answer is the one of the sums, or the call exits on a ring with shared descriptors -/
def Right (fuel : Nat) (m : Mem) (vq : VirtQueue) (inB outB : BitVec 32)
    (elems : List VirtQueueElement) : Prop :=
  virtqueueAvailBytes fuel m vq inB outB = .ok (decide (Suffice elems inB outB)) ∨
    (Overfull m vq ∧
      ∃ report, virtqueueAvailBytes fuel m vq inB outB = .error (.exit report))

def leBytes (n v : Nat) : List (BitVec 8) :=
  (List.range n).map fun k => BitVec.ofNat 8 (v / 256 ^ k)

/-- a descriptor table (address, length, flags, next) at 0 with the ring behind it -/
def ringMem (table : List (Nat × Nat × Nat × Nat)) (avail : List Nat) : Mem :=
  let bytes := table.flatMap (fun d =>
      leBytes 8 d.1 ++ leBytes 4 d.2.1 ++ leBytes 2 d.2.2.1 ++ leBytes 2 d.2.2.2) ++
    avail.flatMap (leBytes 2)
  fun a => bytes.getD a.toNat 0

def ringQueue (num : Nat) (last : BitVec 16) : VirtQueue :=
  ⟨⟨num, 0, BitVec.ofNat 64 (descSize * num)⟩, last⟩

/-- two writable buffers of `2^31` bytes, then one readable byte -/
def wrapMem : Mem :=
  ringMem [(0x1000, 2 ^ 31, 3, 1), (0x1000, 2 ^ 31, 3, 2), (0x1000, 1, 0, 0), (0, 0, 0, 0)]
    [0, 1, 0, 0, 0, 0]

def wrapQueue : VirtQueue := ringQueue 4 0

/-- a ring of six entries whose index wraps: popping reads places 3 and 0, counting 3 and 4 -/
def placeMem : Mem :=
  ringMem [(0x1000, 1, 2, 0), (0x1000, 1, 2, 0), (0x1000, 1, 0, 0), (0, 0, 0, 0), (0, 0, 0, 0),
    (0, 0, 0, 0)] [0, 1, 1, 0, 0, 0, 2, 0]

def placeQueue : VirtQueue := ringQueue 6 0xffff

/-- **on a ring that can be popped, whose size is a power of two and whose chains share no entry,
the answer is the one of the sums as long as these are below `2^32`** -/
theorem availBytes_exact_apart {m : Mem} {vq : VirtQueue} {inB outB : BitVec 32} {fuel : Nat}
    {elems : List VirtQueueElement} (hf : 2 ^ 28 ≤ fuel) (hd : drain m fuel fuel vq = .ok elems)
    (hnum : vq.vring.num ∣ 2 ^ 16) (hapart : ((popHeads m vq).flatMap (taken m vq)).Nodup)
    (hin : inOffered elems < 2 ^ 32) (hout : outOffered elems < 2 ^ 32) :
    virtqueueAvailBytes fuel m vq inB outB =
      .ok (decide (inB.toNat ≤ inOffered elems ∧ outB.toNat ≤ outOffered elems)) := by
  obtain ⟨hwf, rfl⟩ := drain_inv hd
  have hfits : ¬ Overfull m vq := fun hover => Overfull.shared hwf hover hapart
  have hle := Nat.le_of_dvd (by decide) hnum
  have hcounted := counted_eq hwf (countedHeads_eq (.inl hnum)) hfits
  have hcases := availBytes_cases m inB outB hf (by omega) hwf.few
  rw [hcounted] at hcases
  rw [(offered_sums _).1] at hin ⊢
  rw [(offered_sums _).2] at hout ⊢
  obtain ⟨hr, h⟩ | ⟨hr, -, h⟩ | ⟨-, hend, -⟩ := hcases
  · rw [h]
    exact congrArg _ (decide_eq_true hr.sums).symm
  · -- the sums do not wrap, so all buffers together would reach the request
    rw [h]
    refine congrArg _ (decide_eq_false fun hs => hr ⟨_, prefix_rfl, .inr rfl, ?_⟩).symm
    unfold offered
    rw [Nat.mod_eq_of_lt hin, Nat.mod_eq_of_lt hout]
    exact hs
  · cases hend

/-- one chain of a writable and a readable buffer -/
def plainMem : Mem :=
  ringMem [(0x1000, 16, 3, 1), (0x2000, 8, 0, 0), (0, 0, 0, 0), (0, 0, 0, 0)] [0, 1, 0, 0, 0, 0]

theorem availBytes_exact_apart_plain :
    virtqueueAvailBytes (2 ^ 28) plainMem wrapQueue 16 9 = .ok false := by
  have hd : drain plainMem (2 ^ 28) (2 ^ 28) wrapQueue =
      .ok [⟨0, [⟨0x1000, 16⟩], [⟨0x2000, 8⟩]⟩] := by decide +kernel
  exact availBytes_exact_apart le_rfl hd (by decide) (by decide +kernel) (by decide) (by decide)

end Virtio
