import Mathlib.Tactic.Common

/-!
# Notifications of a virtqueue (`hw/virtio/virtio.c`)

The device publishes used entries with `virtqueue_flush` and asks `vring_notify` whether the guest
wants to hear of them.  All indices are 16 bits wide and wrap.  `signalled_used` is the index at the
last decision.  It says nothing once 2^15 entries were published since, and is marked invalid then.

* `virtqueueFlush`, `vringNotify`: the two calls;
* `Covers`: what a valid `signalled_used` says about the entries since;
* `notification_not_lost`: no notification that the guest asks for is lost.
-/

namespace Virtio

def VIRTIO_F_NOTIFY_ON_EMPTY : Nat := 24
def VIRTIO_RING_F_EVENT_IDX : Nat := 29
def VRING_AVAIL_F_NO_INTERRUPT : BitVec 16 := 1

/-- the fields of a queue for its used ring; `used_idx` stands in guest memory -/
structure UsedSide where
  lastAvailIdx : BitVec 16
  usedIdx : BitVec 16
  signalledUsed : BitVec 16
  signalledUsedValid : Bool
  inuse : Int

/-- what the guest has written when the ring is read -/
structure GuestView where
  availFlags : BitVec 16
  availIdx : BitVec 16
  usedEvent : BitVec 16

def virtqueueFlush (vq : UsedSide) (count : Nat) : UsedSide :=
  let old := vq.usedIdx
  let new := old + BitVec.ofNat 16 count
  let vq := { vq with usedIdx := new, inuse := vq.inuse - count }
  if (new - vq.signalledUsed).toInt < (new - old).toNat then
    { vq with signalledUsedValid := false }
  else vq

def vringNeedEvent (event new old : BitVec 16) : Bool := new - event - 1 < new - old

def vringNotify (guestFeatures : BitVec 32) (g : GuestView) (vq : UsedSide) : Bool × UsedSide :=
  if guestFeatures &&& 1#32 <<< VIRTIO_F_NOTIFY_ON_EMPTY ≠ 0 ∧ vq.inuse = 0 ∧
      g.availIdx = vq.lastAvailIdx then
    (true, vq)
  else if guestFeatures &&& 1#32 <<< VIRTIO_RING_F_EVENT_IDX = 0 then
    (g.availFlags &&& VRING_AVAIL_F_NO_INTERRUPT = 0, vq)
  else
    let v := vq.signalledUsedValid
    let old := vq.signalledUsed
    let new := vq.usedIdx
    (!v || vringNeedEvent g.usedEvent new old,
      { vq with signalledUsedValid := true, signalledUsed := new })

/-! ## runs -/

inductive QueueCall where
  | pop
  | flush (count : Nat)
  | notify (g : GuestView)

/-- a queue and the indices of the entries published since the last `vring_notify` -/
structure Published where
  vq : UsedSide
  since : List (BitVec 16)

def Published.call (guestFeatures : BitVec 32) (s : Published) : QueueCall → Published
  | .pop =>
    { s with vq := { s.vq with lastAvailIdx := s.vq.lastAvailIdx + 1, inuse := s.vq.inuse + 1 } }
  | .flush count =>
    { vq := virtqueueFlush s.vq count
      since := s.since ++ (List.range count).map fun i => s.vq.usedIdx + BitVec.ofNat 16 i }
  | .notify g => { vq := (vringNotify guestFeatures g s.vq).2, since := [] }

/-- the ring has at most `VIRTQUEUE_MAX_SIZE` entries -/
def QueueCall.Fits : QueueCall → Prop
  | .flush count => 1 ≤ count ∧ count ≤ 1024
  | _ => True

/-- fewer than 2^15 entries were published since `signalled_used`, those of `since` among them -/
def Covers (s : Published) : Prop :=
  s.vq.signalledUsedValid = true → ∃ n < 0x8000,
    s.vq.usedIdx = s.vq.signalledUsed + BitVec.ofNat 16 n ∧
      ∀ e ∈ s.since, ∃ k < n, e = s.vq.signalledUsed + BitVec.ofNat 16 k

section
variable {s : Published} {guestFeatures : BitVec 32} {g : GuestView}

lemma add_ofNat_sub (a : BitVec 16) (n : Nat) : a + BitVec.ofNat 16 n - a = BitVec.ofNat 16 n := by
  rw [BitVec.add_comm, BitVec.add_sub_cancel]

lemma Covers.flush {count : Nat} (h : Covers s) (hc : count ≤ 1024) :
    Covers (s.call guestFeatures (.flush count)) := by
  intro hvalid
  unfold Published.call virtqueueFlush at *
  dsimp only at *
  split at hvalid
  · cases hvalid
  rename_i hbig
  rw [if_neg hbig]
  obtain ⟨n, hn, hused, hsince⟩ := h hvalid
  have hnew : s.vq.usedIdx + BitVec.ofNat 16 count =
      s.vq.signalledUsed + BitVec.ofNat 16 (n + count) := by
    rw [hused, BitVec.add_assoc, BitVec.ofNat_add]
  -- past 2^15 the difference is negative as `int16_t`
  have hlt : n + count < 0x8000 := by
    rw [hnew, add_ofNat_sub, BitVec.toInt_eq_toNat_bmod, BitVec.toNat_ofNat, Int.bmod_def] at hbig
    omega
  refine ⟨n + count, hlt, hnew, fun e he => ?_⟩
  rcases List.mem_append.mp he with he | he
  · obtain ⟨k, hk, rfl⟩ := hsince e he
    exact ⟨k, by omega, rfl⟩
  · obtain ⟨i, hi, rfl⟩ := List.mem_map.mp he
    refine ⟨n + i, Nat.add_lt_add_left (List.mem_range.mp hi) n, ?_⟩
    rw [hused, BitVec.add_assoc, BitVec.ofNat_add]

lemma Covers.notify (h : Covers s) : Covers (s.call guestFeatures (.notify g)) := by
  have hsame : Covers { s with since := [] } := by
    intro hvalid
    obtain ⟨n, hn, hused, _⟩ := h hvalid
    exact ⟨n, hn, hused, fun e he => absurd he List.not_mem_nil⟩
  unfold Published.call vringNotify
  dsimp only
  split
  · exact hsame
  split
  · exact hsame
  · exact fun _ => ⟨0, by decide, (BitVec.add_zero _).symm, fun e he => absurd he List.not_mem_nil⟩

lemma Covers.run {calls : List QueueCall} (h : Covers s) (hfits : ∀ c ∈ calls, c.Fits) :
    Covers (calls.foldl (Published.call guestFeatures) s) := by
  induction calls generalizing s with
  | nil => exact h
  | cons c calls ih =>
    rw [List.forall_mem_cons] at hfits
    refine ih ?_ hfits.2
    cases c with
    | pop => exact h
    | flush count => exact h.flush hfits.1.2
    | notify g => exact h.notify

lemma Covers.notified (h : Covers s)
    (hidx : guestFeatures &&& 1#32 <<< VIRTIO_RING_F_EVENT_IDX ≠ 0) (hask : g.usedEvent ∈ s.since) :
    (vringNotify guestFeatures g s.vq).1 = true := by
  unfold vringNotify
  split
  · rfl
  cases hvalid : s.vq.signalledUsedValid with
  | false => rfl
  | true =>
    obtain ⟨n, hn, hused, hsince⟩ := h hvalid
    obtain ⟨k, hk, hevent⟩ := hsince _ hask
    show vringNeedEvent _ _ _ = true
    unfold vringNeedEvent
    rw [decide_eq_true_eq, hused, add_ofNat_sub]
    bv_omega

/-- **No requested notification is lost.**  A queue starts after a reset, with an invalid
`signalled_used`. -/
theorem notification_not_lost (vq : UsedSide) (hreset : vq.signalledUsedValid = false)
    (guestFeatures : BitVec 32) (hidx : guestFeatures &&& 1#32 <<< VIRTIO_RING_F_EVENT_IDX ≠ 0)
    (calls : List QueueCall) (hfits : ∀ c ∈ calls, c.Fits) (g : GuestView)
    (hask : g.usedEvent ∈ (calls.foldl (Published.call guestFeatures) ⟨vq, []⟩).since) :
    (vringNotify guestFeatures g
      (calls.foldl (Published.call guestFeatures) ⟨vq, []⟩).vq).1 = true := by
  have hstart : Covers ⟨vq, []⟩ := fun h => by rw [hreset] at h; cases h
  exact (hstart.run hfits).notified hidx hask

theorem notification_not_lost_wrapped :
    (vringNotify 0x20000000 ⟨0, 0, 0xffff⟩ (([.notify ⟨0, 0, 0⟩, .flush 3] : List QueueCall).foldl
      (Published.call 0x20000000) ⟨⟨0, 0xfffe, 0, false, 3⟩, []⟩).vq).1 = true :=
  notification_not_lost ⟨0, 0xfffe, 0, false, 3⟩ rfl 0x20000000 (by decide)
    [.notify ⟨0, 0, 0⟩, .flush 3]
    (by simp [QueueCall.Fits]) ⟨0, 0, 0xffff⟩ (by decide)
end

end Virtio
