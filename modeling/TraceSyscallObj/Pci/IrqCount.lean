import TraceSyscallObj.Lib.Run
import TraceSyscallObj.Pci.Irq

/-!
# The counters count the asserted pins

* `Asserted`: the pin is set and INTx is not disabled;
* `expected`: the number of asserted pins that are routed to an input;
* `Counted`: the counters are these numbers and the lines follow the counters;
* `Counted.setIrq`, `Counted.writeConfig`, `Counted.reset`: what one call keeps, and when;
* `counts_exact`: the counters are right in every run of such calls;
* `counts_wrong`: a reset, and a write to the upper byte of the command register, that do not keep
  them.
-/

namespace Pci
open Function Run

variable {Bus : Type} [DecidableEq Bus] {n : Nat} {P : Platform Bus n}

def Asserted (D : PCIDevice) (pin : Fin 4) : Prop :=
  D.irqState.getLsbD pin = true ∧ pciIrqDisabled D = false

instance (D : PCIDevice) (pin : Fin 4) : Decidable (Asserted D pin) :=
  inferInstanceAs (Decidable (_ ∧ _))

/-- the asserted pins that are routed to the input `k` of the bus `b` -/
def assertedPins (P : Platform Bus n) (dev : Fin n → PCIDevice) (b : Bus) (k : Nat) :
    Finset (Fin n × Fin 4) :=
  Finset.univ.filter fun x => route P x.1 x.2 = some (b, k) ∧ Asserted (dev x.1) x.2

def weight (D : PCIDevice) (pin : Fin 4) : Int := if Asserted D pin then 1 else 0

def expected (P : Platform Bus n) (dev : Fin n → PCIDevice) (b : Bus) (k : Nat) : Int :=
  ∑ d, ∑ pin : Fin 4, if route P d pin = some (b, k) then weight (dev d) pin else 0

lemma expected_eq_card (dev : Fin n → PCIDevice) (b : Bus) (k : Nat) :
    expected P dev b k = (assertedPins P dev b k).card := by
  rw [expected, assertedPins, Finset.card_filter, ← Fintype.sum_prod_type']
  push_cast
  refine Finset.sum_congr rfl fun x _ => ?_
  unfold weight
  by_cases h1 : route P x.1 x.2 = some (b, k)
  · by_cases h2 : Asserted (dev x.1) x.2
    · simp [h1]
    · simp [h1]
  · simp [h1]

lemma expected_update (dev : Fin n → PCIDevice) (d : Fin n) (D : PCIDevice) (b : Bus) (k : Nat) :
    expected P (update dev d D) b k = expected P dev b k + ∑ pin : Fin 4,
      if route P d pin = some (b, k) then weight D pin - weight (dev d) pin else 0 := by
  rw [← sub_eq_iff_eq_add', expected, expected, ← Finset.sum_sub_distrib,
    Finset.sum_eq_single d ?_ (fun h => absurd (Finset.mem_univ d) h)]
  · rw [← Finset.sum_sub_distrib]
    refine Finset.sum_congr rfl fun pin _ => ?_
    split <;> simp
  · intro d' _ hne
    rw [update_of_ne hne, sub_self]

/-! ## the counters -/

/-- the counters are the numbers of asserted pins, and the lines follow the counters -/
structure Counted (P : Platform Bus n) (s : State Bus n) : Prop where
  count : ∀ b k, s.irqCount b k = expected P s.dev b k
  line : ∀ b k, s.line b k = decide (s.irqCount b k ≠ 0)

lemma changeIrqLevel_dev (s : State Bus n) (d : Fin n) (i : Nat) (δ : Int) :
    (pciChangeIrqLevel P s d i δ).dev = s.dev := by
  unfold pciChangeIrqLevel
  split <;> rfl

lemma changeIrqLevel_count (s : State Bus n) (d : Fin n) (i : Nat) (δ : Int) (b : Bus) (k : Nat) :
    (pciChangeIrqLevel P s d i δ).irqCount b k =
      s.irqCount b k + if route P d i = some (b, k) then δ else 0 := by
  unfold pciChangeIrqLevel
  cases hr : route P d i with
  | none => simp
  | some x =>
    obtain ⟨b', k'⟩ := x
    by_cases h : b = b' ∧ k = k'
    · obtain ⟨rfl, rfl⟩ := h
      simp
    have h' : ¬ (some (b', k') = some (b, k)) := by
      intro e
      injection e with e
      injection e with e1 e2
      exact h ⟨e1.symm, e2.symm⟩
    simp only [if_neg h, if_neg h', add_zero]

variable {s : State Bus n}

lemma changeIrqLevel_line (h : ∀ b k, s.line b k = decide (s.irqCount b k ≠ 0)) (d : Fin n)
    (i : Nat) (δ : Int) (b : Bus) (k : Nat) :
    (pciChangeIrqLevel P s d i δ).line b k =
      decide ((pciChangeIrqLevel P s d i δ).irqCount b k ≠ 0) := by
  unfold pciChangeIrqLevel
  split
  · exact h b k
  · rename_i b' k' _
    by_cases hk : b = b' ∧ k = k'
    · simp only [if_pos hk]
    · simp only [if_neg hk]
      exact h b k

variable {d : Fin n} {D : PCIDevice}

lemma Counted.setDev (h : Counted P s)
    (hw : ∀ pin, weight D pin = weight (s.dev d) pin) : Counted P (s.setDev d D) := by
  refine ⟨fun b k => ?_, h.line⟩
  show s.irqCount b k = expected P (update s.dev d D) b k
  rw [expected_update, h.count]
  simp [hw]

lemma Counted.change (h : Counted P s) {pin : Fin 4} {δ : Int}
    (hself : weight D pin = weight (s.dev d) pin + δ)
    (hother : ∀ i, i ≠ pin → weight D i = weight (s.dev d) i) :
    Counted P (pciChangeIrqLevel P (s.setDev d D) d pin δ) := by
  refine ⟨fun b k => ?_, changeIrqLevel_line (s := s.setDev d D) h.line _ _ _⟩
  rw [changeIrqLevel_count, changeIrqLevel_dev]
  show s.irqCount b k + _ = expected P (update s.dev d D) b k
  rw [expected_update, h.count, Finset.sum_eq_single pin ?_ (fun hn => absurd (Finset.mem_univ _) hn)]
  · rw [hself, add_sub_cancel_left]
  · intro i _ hi
    rw [hother i hi, sub_self, ite_self]

/-! ## `pci_set_irq` -/

lemma pciIrqState_eq (D : PCIDevice) (i : Nat) :
    pciIrqState D i = if D.irqState.getLsbD i then 1 else 0 := by
  have h : ((D.irqState >>> i) &&& 1).toNat = (D.irqState.getLsbD i).toNat := by
    have hone : (1 : BitVec 8) = BitVec.twoPow 8 0 := rfl
    rw [hone, BitVec.and_twoPow]
    rw [BitVec.getLsbD_ushiftRight, Nat.add_zero]
    split
    · rename_i hb
      rw [hb]
      rfl
    · rename_i hb
      rw [Bool.not_eq_true] at hb
      rw [hb]
      rfl
  rw [pciIrqState, h]
  cases D.irqState.getLsbD i <;> rfl

lemma getLsbD_setIrqState (D : PCIDevice) (pin i : Fin 4) (level : Bool) :
    (pciSetIrqState D pin level).irqState.getLsbD i =
      if i = pin then level else D.irqState.getLsbD i := by
  have hi : (i : Nat) < 8 := by omega
  simp only [pciSetIrqState, BitVec.getLsbD_or, BitVec.getLsbD_and, BitVec.getLsbD_not,
    BitVec.getLsbD_shiftLeft, hi]
  by_cases h : i = pin
  · subst h
    cases level <;> simp
  rw [if_neg h]
  by_cases hlt : (i : Nat) < pin
  · simp [hlt]
  · have hpos : ¬ (i : Nat) - pin = 0 := by omega
    cases level <;> simp [hpos]

lemma pciIrqDisabled_eq (D : PCIDevice) : pciIrqDisabled D = (D.config 5).getLsbD 2 := by
  have hmask : PCI_COMMAND_INTX_DISABLE = BitVec.twoPow 16 10 := rfl
  have hbit : (pciGetWord D.config PCI_COMMAND).getLsbD 10 = (D.config 5).getLsbD 2 := by
    rw [pciGetWord, BitVec.getLsbD_append]
    rfl
  rw [pciIrqDisabled, hmask, BitVec.and_twoPow, hbit]
  cases (D.config 5).getLsbD 2 <;> rfl

lemma weight_of_disabled (h : pciIrqDisabled D = true) (pin : Fin 4) : weight D pin = 0 := by
  rw [weight, if_neg]
  rintro ⟨-, h'⟩
  rw [h] at h'
  cases h'

lemma weight_of_enabled (h : pciIrqDisabled D = false) (pin : Fin 4) :
    weight D pin = pciIrqState D pin := by
  rw [weight, pciIrqState_eq]
  by_cases hb : D.irqState.getLsbD pin = true
  · rw [if_pos ⟨hb, h⟩, if_pos hb]
  · rw [if_neg (fun ha => hb ha.1), if_neg hb]

lemma weight_congr {D' : PCIDevice} (h1 : D'.irqState = D.irqState)
    (h2 : pciIrqDisabled D' = pciIrqDisabled D) (pin : Fin 4) : weight D' pin = weight D pin := by
  have hiff : Asserted D' pin ↔ Asserted D pin := by
    unfold Asserted
    rw [h1, h2]
  unfold weight
  simp only [hiff]

lemma weight_of_low {pin : Fin 4} (h : D.irqState.getLsbD pin = false) : weight D pin = 0 := by
  rw [weight, if_neg]
  rintro ⟨h', -⟩
  rw [h] at h'
  cases h'

lemma Counted.setIrq (h : Counted P s) (d : Fin n) (pin : Fin 4)
    (level : Bool) : Counted P (pciSetIrq P s d pin level) := by
  unfold pciSetIrq
  obtain ⟨D, hD⟩ : ∃ D, D = pciUpdateIrqStatus (pciSetIrqState (s.dev d) pin level) := ⟨_, rfl⟩
  have hbits : ∀ i : Fin 4, D.irqState.getLsbD i =
      if i = pin then level else (s.dev d).irqState.getLsbD i := by
    intro i
    rw [hD]
    exact getLsbD_setIrqState _ pin i level
  have hdis : pciIrqDisabled D = pciIrqDisabled (s.dev d) := by
    rw [hD]
    rfl
  simp only [← hD]
  obtain ⟨δ, hδ⟩ : ∃ δ : Int, δ = (if level then 1 else 0) - pciIrqState (s.dev d) pin := ⟨_, rfl⟩
  rw [← hδ]
  by_cases h0 : δ = 0
  · rw [if_pos h0]
    exact h
  rw [if_neg h0]
  cases hd : pciIrqDisabled D with
  | true =>
    refine h.setDev fun i => ?_
    rw [weight_of_disabled hd, weight_of_disabled (hdis ▸ hd)]
  | false =>
    have hw : ∀ i : Fin 4, weight D i = pciIrqState D i := weight_of_enabled hd
    have hw' : ∀ i : Fin 4, weight (s.dev d) i = pciIrqState (s.dev d) i :=
      weight_of_enabled (hdis ▸ hd)
    refine h.change ?_ fun i hi => ?_
    · rw [hw, hw', pciIrqState_eq D, hbits, if_pos rfl, hδ]
      ring
    · rw [hw, hw', pciIrqState_eq, pciIrqState_eq, hbits, if_neg hi]

lemma Counted.setIrqs (h : Counted P s)
    (calls : List (Fin n × Fin 4 × Bool)) : Counted P (setIrqs P s calls) := by
  induction calls generalizing s with
  | nil => exact h
  | cons c calls ih => exact ih (h.setIrq c.1 c.2.1 c.2.2)

/-! ## `pci_default_write_config` -/

lemma foldl_change (s : State Bus n) (d : Fin n) (δ : Fin 4 → Int) (pins : List (Fin 4)) :
    (pins.foldl (fun s' (i : Fin 4) => pciChangeIrqLevel P s' d i (δ i)) s).dev = s.dev ∧
    ((∀ b k, s.line b k = decide (s.irqCount b k ≠ 0)) → ∀ b k,
      (pins.foldl (fun s' (i : Fin 4) => pciChangeIrqLevel P s' d i (δ i)) s).line b k = decide
        ((pins.foldl (fun s' (i : Fin 4) => pciChangeIrqLevel P s' d i (δ i)) s).irqCount b k ≠ 0)) ∧
    ∀ b k, (pins.foldl (fun s' (i : Fin 4) => pciChangeIrqLevel P s' d i (δ i)) s).irqCount b k =
      s.irqCount b k +
        (pins.map fun i : Fin 4 => if route P d i = some (b, k) then δ i else 0).sum := by
  induction pins generalizing s with
  | nil => exact ⟨rfl, fun h => h, fun b k => by simp⟩
  | cons i pins ih =>
    obtain ⟨h1, h2, h3⟩ := ih (pciChangeIrqLevel P s d i (δ i))
    refine ⟨h1.trans (changeIrqLevel_dev ..), fun h => h2 (changeIrqLevel_line h _ _ _),
      fun b k => ?_⟩
    rw [List.foldl_cons, h3, changeIrqLevel_count, List.map_cons, List.sum_cons, add_assoc]

lemma Counted.updateIrqDisabled (h : Counted P s) {c : Config} :
    Counted P (pciUpdateIrqDisabled P (s.setDev d { s.dev d with config := c }) d
      (pciIrqDisabled (s.dev d))) := by
  obtain ⟨D, hD⟩ : ∃ D, D = ({ s.dev d with config := c } : PCIDevice) := ⟨_, rfl⟩
  have hirq : D.irqState = (s.dev d).irqState := by rw [hD]
  rw [← hD]
  unfold pciUpdateIrqDisabled
  have hdev : (s.setDev d D).dev d = D := update_self ..
  simp only [hdev]
  split
  · rename_i hsame
    exact h.setDev (weight_congr hirq hsame)
  rename_i hdiff
  obtain ⟨h1, h2, h3⟩ := foldl_change (P := P) (s.setDev d D) d
    (fun i => if pciIrqDisabled D = true then -pciIrqState D i else pciIrqState D i)
    (List.finRange 4)
  refine ⟨fun b k => ?_, h2 h.line⟩
  rw [h3, h1]
  show s.irqCount b k + _ = expected P (update s.dev d D) b k
  rw [expected_update, h.count, ← List.ofFn_eq_map, List.sum_ofFn]
  congr 1
  refine Finset.sum_congr rfl fun pin _ => ?_
  congr 1
  have hstate : pciIrqState D pin = pciIrqState (s.dev d) pin := by
    rw [pciIrqState, pciIrqState, hirq]
  cases hd : pciIrqDisabled D with
  | true =>
    have hwas : pciIrqDisabled (s.dev d) = false := by
      cases hw : pciIrqDisabled (s.dev d) with
      | false => rfl
      | true => exact absurd (hd.trans hw.symm) hdiff
    rw [weight_of_disabled hd, weight_of_enabled hwas, if_pos rfl, hstate, zero_sub]
  | false =>
    have hwas : pciIrqDisabled (s.dev d) = true := by
      cases hw : pciIrqDisabled (s.dev d) with
      | true => rfl
      | false => exact absurd (hd.trans hw.symm) hdiff
    rw [weight_of_enabled hd, weight_of_disabled hwas, if_neg (by decide), sub_zero]

lemma msiClamp_command (c : Config) {cap : Nat} (h : PCI_CONFIG_HEADER_SIZE ≤ cap) :
    msiClamp c cap 5 = c 5 := by
  have h' : 0x40 ≤ cap := h
  have h1 : 5 ≠ cap + PCI_MSI_FLAGS := by
    omega
  have h2 : 5 ≠ cap + PCI_MSI_FLAGS + 1 := by
    omega
  unfold msiClamp
  split
  · rw [pciSetWord, update_of_ne h2, update_of_ne h1]
  · rfl

lemma Counted.msiWriteConfig (h : Counted P s) (d : Fin n) (addr len : Nat) :
    Counted P (msiWriteConfig P s d addr len) := by
  unfold Pci.msiWriteConfig
  split
  · exact h
  rename_i cap hcap
  dsimp only
  split
  · refine (h.setIrqs _).setDev (weight_congr rfl ?_)
    rw [pciIrqDisabled_eq, pciIrqDisabled_eq]
    exact congrArg (BitVec.getLsbD · 2) (msiClamp_command _ (P.msi_ge d cap hcap))
  · exact h

lemma Counted.msixWriteConfig (h : Counted P s) (d : Fin n) (addr len : Nat) :
    Counted P (msixWriteConfig P s d addr len) := by
  unfold Pci.msixWriteConfig
  split
  · exact h
  · split
    · exact h.setIrqs _
    · exact h

def Quiet (D : PCIDevice) : Prop :=
  pciIrqDisabled D = true ∨ ∀ pin : Fin 4, D.irqState.getLsbD pin = false

lemma Quiet.weight (h : Quiet D) (pin : Fin 4) : weight D pin = 0 := by
  rcases h with h | h
  · exact weight_of_disabled h pin
  · exact weight_of_low (h pin)

def written (P : Platform Bus n) (D : PCIDevice) (d : Fin n) (addr : Nat) (val : BitVec 32)
    (len : Nat) : PCIDevice :=
  { D with config := writeBytes (P.wmask d) (P.w1cmask d) len addr val D.config }

/-- The write covers the lower byte of the command register, or leaves the disable bit as it is,
or no pin is set. -/
def WriteSeen (P : Platform Bus n) (D : PCIDevice) (d : Fin n) (addr : Nat) (val : BitVec 32)
    (len : Nat) : Prop :=
  rangeCoversByte addr len PCI_COMMAND = true ∨
    pciIrqDisabled (written P D d addr val len) = pciIrqDisabled D ∨
    ∀ pin : Fin 4, D.irqState.getLsbD pin = false

lemma Counted.writeConfig (h : Counted P s) {addr : Nat} {val : BitVec 32} {len : Nat}
    (hc : WriteSeen P (s.dev d) d addr val len) :
    Counted P (pciDefaultWriteConfig P s d addr val len) := by
  refine Counted.msixWriteConfig (Counted.msiWriteConfig ?_ d addr len) d addr len
  split
  · exact h.updateIrqDisabled
  rename_i hcov
  rcases hc with hc | hc | hc
  · exact absurd hc hcov
  · exact h.setDev (weight_congr rfl hc)
  · refine h.setDev fun pin => ?_
    rw [weight_of_low (hc pin)]
    exact weight_of_low (hc pin)

/-! ## `pci_device_reset` -/

lemma deassertIntx_of_zero (h : (s.dev d).irqState = 0) : pciDeviceDeassertIntx P s d = s := by
  have hone : ∀ pin : Fin 4, pciSetIrq P s d pin false = s := by
    intro pin
    have h0 : pciIrqState (s.dev d) pin = 0 := by
      rw [pciIrqState, h]
      simp
    rw [pciSetIrq, h0, if_pos (by simp)]
  have hfold : ∀ pins : List (Fin 4),
      Pci.setIrqs P s (pins.map fun i => (d, i, false)) = s := by
    intro pins
    induction pins with
    | nil => rfl
    | cons pin pins ih =>
      show Pci.setIrqs P (pciSetIrq P s d pin false) _ = s
      rw [hone, ih]
  exact hfold _

lemma Counted.reset (h : Counted P s) {handler : List (Fin n × Fin 4 × Bool)}
    (hq : Quiet ((Pci.setIrqs P s handler).dev d)) : Counted P (pciDeviceReset P s d handler) := by
  unfold pciDeviceReset
  obtain ⟨D, hD⟩ : ∃ D, D = pciUpdateIrqStatus
      { (Pci.setIrqs P s handler).dev d with irqState := 0 } := ⟨_, rfl⟩
  have hzero : D.irqState = 0 := by rw [hD]; rfl
  have hlow : ∀ pin, weight D pin = 0 := fun pin => weight_of_low (by rw [hzero]; simp)
  simp only [← hD]
  have hdev : ((Pci.setIrqs P s handler).setDev d D).dev d = D := update_self ..
  rw [deassertIntx_of_zero (by rw [hdev, hzero])]
  have h1 : Counted P ((Pci.setIrqs P s handler).setDev d D) :=
    (h.setIrqs handler).setDev fun pin => by rw [hlow, hq.weight]
  refine h1.setDev fun pin => ?_
  rw [hdev, hlow]
  exact weight_of_low (by show D.irqState.getLsbD pin = false; rw [hzero]; simp)

/-! ## runs -/

def Op.Clean (P : Platform Bus n) : Op n → State Bus n → Prop
  | .setIrq _ _ _, _ => True
  | .writeConfig d addr val len _, s => WriteSeen P (s.dev d) d addr val len
  | .reset d handler, s => Quiet ((setIrqs P s handler).dev d)

def Op.step (P : Platform Bus n) (op : Op n) : EStateM Empty (State Bus n) Unit :=
  fun s => .ok () (op.exec P s)

lemma Counted.exec (h : Counted P s) {op : Op n} (hc : op.Clean P s) : Counted P (op.exec P s) := by
  cases op with
  | setIrq d pin level => exact h.setIrq d pin level
  | writeConfig d addr val len hlen => exact h.writeConfig hc
  | reset d handler => exact h.reset hc

lemma counted_init (config : Fin n → Config) : Counted P (.init config) := by
  refine ⟨fun b k => ?_, fun _ _ => rfl⟩
  have hlow : ∀ d pin, weight ((State.init config : State Bus n).dev d) pin = 0 :=
    fun d pin => weight_of_low (by simp [State.init])
  simp only [expected, hlow, ite_self, Finset.sum_const_zero]
  rfl

def CountsRight (P : Platform Bus n) (s : State Bus n) : Prop :=
  ∀ b k, s.irqCount b k = (assertedPins P s.dev b k).card ∧
    (s.line b k = true ↔ ∃ d pin, route P d (pin : Fin 4) = some (b, k) ∧ Asserted (s.dev d) pin)

lemma Counted.right (h : Counted P s) : CountsRight P s := by
  intro b k
  have hcount : s.irqCount b k = (assertedPins P s.dev b k).card := by
    rw [h.count, expected_eq_card]
  refine ⟨hcount, ?_⟩
  rw [h.line, hcount, decide_eq_true_eq, Nat.cast_ne_zero, Finset.card_ne_zero]
  constructor
  · rintro ⟨x, hx⟩
    exact ⟨x.1, x.2, (Finset.mem_filter.mp hx).2⟩
  · rintro ⟨d, pin, hx⟩
    exact ⟨(d, pin), Finset.mem_filter.mpr ⟨Finset.mem_univ _, hx⟩⟩

/-- **In every run of calls that meet the condition the counters are the numbers of asserted pins,
and a line is raised exactly when some pin routed to it is asserted.** -/
theorem counts_exact (P : Platform Bus n) (config : Fin n → Config) (ops : List (Op n))
    (hc : Meets (Op.step P) (Op.Clean P) (.init config) ops) :
    Visits (Op.step P) (CountsRight P) (.init config) ops := by
  refine visits_of_meets (P := fun _ s => Counted P s) ?_ (fun _ _ h => h.right)
    (counted_init config) hc
  intro _ op s s' h hq hrun
  injection hrun with _ hrun
  exact hrun ▸ h.exec hq

/-! ## one device on one bus -/

def lone : Platform Unit 1 where
  bus _ := ()
  mapIrq _ _ i := i
  hasSetIrq _ := true
  parentDev _ := 0
  depth _ := 0
  depth_lt _ h := by cases h
  wmask _ a := if a = 4 then 0x07 else if a = 5 then 0x05 else if 0x40 ≤ a then 0xff else 0
  w1cmask _ _ := 0
  masks_apart _ _ := BitVec.and_zero
  ioRegions _ _ := ⟨0, 0⟩
  msiCap _ := none
  msixCap _ := none
  msi_ge _ _ h := by cases h
  msix_ge _ _ h := by cases h

def cleared (_ : Fin 1) : Config := fun _ => 0

/-- INTx is disabled by a word write while the pin is set; the pin is lowered before the reset -/
theorem counts_exact_word : Visits (Op.step lone) (CountsRight lone) (.init cleared)
    [.setIrq 0 0 true, .writeConfig 0 4 0x0400 2 (by decide), .setIrq 0 0 false, .reset 0 []] := by
  refine counts_exact lone cleared _ ?_
  refine .cons trivial rfl (.cons (.inl rfl) rfl (.cons trivial rfl ⟨?_, fun _ _ => trivial⟩))
  exact .inr (by decide)

/-- A reset forgets a pin that is still set, and a byte write at offset 5 disables INTx without
the counter being told: in both states the counter is one and no pin is asserted. -/
theorem counts_wrong :
    (∃ s, runAll (Op.step lone) [.setIrq 0 0 true, .reset 0 []] (.init cleared) = .ok () s ∧
      s.irqCount () 0 = 1 ∧ s.line () 0 = true ∧ assertedPins lone s.dev () 0 = ∅) ∧
    ∃ s, runAll (Op.step lone) [.setIrq 0 0 true, .writeConfig 0 5 0x04 1 (by decide)]
        (.init cleared) = .ok () s ∧
      s.irqCount () 0 = 1 ∧ s.line () 0 = true ∧ assertedPins lone s.dev () 0 = ∅ :=
  ⟨⟨_, rfl, by decide, by decide, by decide⟩, ⟨_, rfl, by decide, by decide, by decide⟩⟩

end Pci
