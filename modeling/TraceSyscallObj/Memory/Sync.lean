import TraceSyscallObj.Memory.Notices

/-!
# The maps follow the regions

Rendering reads a region only if it is enabled, its list of subregions only as far as they are
enabled, and its address only through a parent that is enabled or as the root.  An operation that
leaves all this alone may skip the update.

* `Alike`, `render_alike`: two heaps that are rendered alike;
* `Inv`: the maps are current, or an update is pending;
* `Noticed`: the calls that keep it;
* `maps_follow`.
-/

namespace Memory
open Checked List Run
variable {mr : RegionId} {h : Heap} {sub : RegionId} {offset : Hwaddr}

/-! ## regions that are rendered alike -/

/-- what is rendered of an enabled region, its place and its subregions apart -/
def MemoryRegion.look (r : MemoryRegion) :
    Int × Bool × Bool × Bool × BitVec 8 × Option RegionId × Hwaddr :=
  (r.size, r.terminates, r.romdMode, r.readonly, r.dirtyLogMask, r.aliasOf, r.aliasOffset)

structure Alike (h h' : Heap) : Prop where
  enabled : ∀ mr, (h' mr).enabled = (h mr).enabled
  look : ∀ mr, (h mr).enabled = true → (h' mr).look = (h mr).look
  subregions : ∀ mr, (h mr).enabled = true →
    (h' mr).subregions.filter (fun s => (h s).enabled) =
      (h mr).subregions.filter fun s => (h s).enabled
  addr : ∀ mr, (h mr).enabled = true → ∀ s ∈ (h mr).subregions, (h s).enabled = true →
    (h' s).addr = (h s).addr

lemma Alike.refl (h : Heap) : Alike h h :=
  ⟨fun _ => rfl, fun _ _ => rfl, fun _ _ => rfl, fun _ _ _ _ _ => rfl⟩

lemma render_disabled (hd : (h mr).enabled = false) (n : Nat)
    (view : FlatView) (base : Int) (clip : AddrRange) (readonly : Bool) :
    renderMemoryRegion h (n + 1) view mr base clip readonly = .ok view := by
  rw [renderMemoryRegion, hd]
  rfl

variable {h' : Heap}

lemma render_alike (hs : Alike h h') :
    ∀ n view mr base base' clip readonly v,
      ((h mr).enabled = true →
        base + int128Make64 (h mr).addr = base' + int128Make64 (h' mr).addr) →
      renderMemoryRegion h n view mr base clip readonly = .ok v →
      renderMemoryRegion h' (n + 1) view mr base' clip readonly = .ok v := by
  intro n
  induction n with
  | zero =>
    intro view mr base base' clip readonly v _ hrun
    cases hrun
  | succ n ih =>
    intro view mr base base' clip readonly v hbase hrun
    cases hen : (h mr).enabled with
    | false =>
      rw [render_disabled hen] at hrun
      rw [render_disabled ((hs.enabled mr).trans hen)]
      exact hrun
    | true =>
      have hlook := hs.look mr hen
      simp only [MemoryRegion.look, Prod.mk.injEq] at hlook
      obtain ⟨hsize, hterm, hromd, hro, hmask, halias, hoff⟩ := hlook
      rw [renderMemoryRegion] at hrun ⊢
      rw [hs.enabled, hen, hro, hsize, hterm, halias, hoff, ← hbase hen]
      rw [hen] at hrun
      dsimp only at hrun ⊢
      rw [if_neg (by decide)] at hrun ⊢
      split at hrun
      next hi =>
        rw [if_pos hi]
        exact hrun
      next hi =>
        rw [if_neg hi]
        generalize base + int128Make64 (h mr).addr = origin at hrun ⊢
        generalize addrrangeIntersection _ clip = visible at hrun ⊢
        generalize (readonly || (h mr).readonly) = readonly at hrun ⊢
        cases ha : (h mr).aliasOf with
        | some target =>
          rw [ha] at hrun
          exact ih view target _ _ _ _ v (fun _ => by omega) hrun
        | none =>
          rw [ha] at hrun
          obtain ⟨view₁, h1, h2⟩ := bind_ok_inv hrun
          have hsubs := foldlM_transfer (p := fun s => (h s).enabled) (hs.subregions mr hen)
            (g := fun view s => renderMemoryRegion h' (n + 1) view s origin visible readonly) ?_ ?_ ?_ h1
          · show Except.bind _ _ = _
            rw [hsubs]
            show (if _ then _ else _) = _
            unfold renderInto at h2 ⊢
            rw [hromd, hmask]
            exact h2
          · intro view s v' hd hrun'
            cases n with
            | zero => cases hrun'
            | succ n =>
              rw [render_disabled hd] at hrun'
              exact (Except.ok.inj hrun').symm
          · intro view s hd
            exact render_disabled ((hs.enabled s).trans hd) n view _ _ _
          · intro s hmem hsen view v' hrun'
            exact ih view s _ _ _ _ v' (fun _ => by rw [hs.addr mr hen s hmem hsen]) hrun'

/-- the map shows what the root and its subregions are -/
def Shows (h : Heap) (root : Option RegionId) (view : FlatView) : Prop :=
  ∃ n, generateMemoryTopology h n root = .ok view

variable {root : Option RegionId} {view : FlatView}

lemma generate_alike (hs : Alike h h')
    (hroot : ∀ mr, root = some mr → (h mr).enabled = true → (h' mr).addr = (h mr).addr) {n : Nat}
    (hrun : generateMemoryTopology h n root = .ok view) :
    generateMemoryTopology h' (n + 1) root = .ok view := by
  cases root with
  | none => exact hrun
  | some mr =>
    obtain ⟨v, h1, h2⟩ := bind_ok_inv hrun
    have hrender := render_alike hs n [] mr 0 0 wholeSpace false v
      (fun hen => by rw [hroot mr rfl hen]) h1
    show Except.bind _ _ = _
    rw [hrender]
    exact h2

lemma Shows.alike (hs : Alike h h') (hshow : Shows h root view)
    (hroot : ∀ mr, root = some mr → (h mr).enabled = true → (h' mr).addr = (h mr).addr) :
    Shows h' root view := by
  obtain ⟨n, hn⟩ := hshow
  exact ⟨n + 1, generate_alike hs hroot hn⟩

lemma Shows.disabled {root : RegionId} (hd : (h root).enabled = false) :
    Shows h (some root) [] := by
  refine ⟨1, ?_⟩
  show Except.bind _ _ = _
  rw [render_disabled hd]
  rfl

lemma Shows.enough (hshow : Shows h root view) :
    ∃ n, ∀ m ≥ n, generateMemoryTopology h m root = .ok view := by
  obtain ⟨n, hn⟩ := hshow
  refine ⟨n, fun m hm => ?_⟩
  induction hm with
  | refl => exact hn
  | step _ ih => exact generate_alike (.refl h) (fun _ _ _ => rfl) ih

/-! ## links between regions -/

structure Linked (h : Heap) : Prop where
  mem : ∀ mr s, s ∈ (h mr).subregions ↔ (h s).parent = some mr
  nodup : ∀ mr, (h mr).subregions.Nodup

lemma Linked.congr (hl : Linked h) (hsubs : ∀ mr, (h' mr).subregions = (h mr).subregions)
    (hparent : ∀ mr, (h' mr).parent = (h mr).parent) : Linked h' := by
  constructor
  · intro mr s
    rw [hsubs, hparent]
    exact hl.mem mr s
  · intro mr
    rw [hsubs]
    exact hl.nodup mr

lemma Linked.not_mem (hl : Linked h) {s : RegionId} (hs : (h s).parent = none)
    (mr : RegionId) : s ∉ (h mr).subregions := by
  intro hmem
  rw [(hl.mem mr s).mp hmem] at hs
  cases hs

lemma insertSubregion_perm (h : Heap) (s : RegionId) (l : List RegionId) :
    (insertSubregion h s l).Perm (s :: l) := by
  induction l with
  | nil => exact .refl _
  | cons other rest ih =>
    unfold insertSubregion
    split
    · exact .refl _
    · exact (ih.cons other).trans (.swap s other rest)

lemma insertSubregion_filter (h : Heap) {s : RegionId} (l : List RegionId) {p : RegionId → Bool}
    (hp : p s = false) : (insertSubregion h s l).filter p = l.filter p := by
  have hs : ∀ l, (s :: l).filter p = l.filter p := fun l =>
    filter_cons_of_neg (by rw [hp]; exact Bool.false_ne_true)
  induction l with
  | nil => exact hs []
  | cons other rest ih =>
    unfold insertSubregion
    split
    · exact hs _
    · rw [filter_cons, filter_cons, ih]

/-! ## one region -/

section
variable {f : MemoryRegion → MemoryRegion}

lemma modify_self : h.modify mr f mr = f (h mr) := if_pos rfl

lemma modify_ne {r : RegionId} (hr : r ≠ mr) : h.modify mr f r = h r := if_neg hr

lemma modify_field {α : Type} (field : MemoryRegion → α) (hf : ∀ r, field (f r) = field r)
    (r : RegionId) : field (h.modify mr f r) = field (h r) := by
  by_cases hr : r = mr
  · rw [hr, modify_self, hf]
  · rw [modify_ne hr]

lemma Alike.disabled (hd : (h mr).enabled = false) (hf : ∀ r, (f r).enabled = r.enabled) :
    Alike h (h.modify mr f) := by
  have hsame : ∀ r, (h r).enabled = true → h.modify mr f r = h r := fun r hr =>
    modify_ne fun heq => by rw [heq, hd] at hr; cases hr
  refine ⟨modify_field _ hf, fun r hr => ?_, fun r hr => ?_, fun r hr s _ hs => ?_⟩
  · rw [hsame r hr]
  · rw [hsame r hr]
  · rw [hsame s hs]

lemma Alike.unseen (henabled : ∀ r, (f r).enabled = r.enabled) (hlook : ∀ r, (f r).look = r.look)
    (hsubs : ∀ r, (f r).subregions = r.subregions) (haddr : ∀ r, (f r).addr = r.addr) :
    Alike h (h.modify mr f) := by
  refine ⟨modify_field _ henabled, fun r _ => modify_field _ hlook r, fun r _ => ?_,
    fun r _ s _ _ => modify_field _ haddr s⟩
  rw [modify_field _ hsubs]

lemma Alike.moved (hl : Linked h) (hparent : (h mr).parent = none) (addr : Hwaddr) :
    Alike h (h.modify mr fun r => { r with addr := addr }) := by
  refine ⟨modify_field _ fun _ => rfl, fun r _ => modify_field _ (by exact fun _ => rfl) r,
    fun r _ => ?_, fun r _ s hs _ => ?_⟩
  · exact congrArg (List.filter _) (modify_field MemoryRegion.subregions (by exact fun _ => rfl) r)
  · rw [modify_ne]
    rintro rfl
    exact hl.not_mem hparent r hs
end

/-! ## a subregion comes and goes -/

def Heap.link (h : Heap) (mr : RegionId) (offset : Hwaddr) (subregion : RegionId) : Heap :=
  let h := h.modify subregion fun r => { r with parent := some mr, addr := offset }
  h.modify mr fun r => { r with subregions := insertSubregion h subregion r.subregions }

def Heap.unlink (h : Heap) (mr subregion : RegionId) : Heap :=
  let h := h.modify subregion fun r => { r with parent := none }
  h.modify mr fun r => { r with subregions := r.subregions.erase subregion }

lemma link_enabled (r : RegionId) : (h.link mr offset sub r).enabled = (h r).enabled := by
  unfold Heap.link Heap.modify
  split_ifs <;> rfl

lemma link_look (r : RegionId) : (h.link mr offset sub r).look = (h r).look := by
  unfold Heap.link Heap.modify
  split_ifs <;> rfl

lemma link_parent (r : RegionId) :
    (h.link mr offset sub r).parent = if r = sub then some mr else (h r).parent := by
  unfold Heap.link Heap.modify
  split_ifs <;> rfl

lemma link_addr (r : RegionId) :
    (h.link mr offset sub r).addr = if r = sub then offset else (h r).addr := by
  unfold Heap.link Heap.modify
  split_ifs <;> rfl

lemma link_subregions (h : Heap) (mr : RegionId) (offset : Hwaddr) (sub : RegionId) :
    ∃ h', ∀ r, (h.link mr offset sub r).subregions =
      if r = mr then insertSubregion h' sub (h r).subregions else (h r).subregions := by
  refine ⟨h.modify sub fun r => { r with parent := some mr, addr := offset }, fun r => ?_⟩
  unfold Heap.link Heap.modify
  split_ifs <;> rfl

lemma Linked.link (hl : Linked h) (hparent : (h sub).parent = none) :
    Linked (h.link mr offset sub) := by
  obtain ⟨h', hsubs⟩ := link_subregions h mr offset sub
  have hperm := fun r => insertSubregion_perm h' sub (h r).subregions
  constructor
  · intro r s
    rw [link_parent, hsubs]
    have hmem := hl.mem r s
    by_cases hr : r = mr
    · rw [if_pos hr, (hperm r).mem_iff, mem_cons, hmem, hr]
      split
      next hs => exact ⟨fun _ => rfl, fun _ => .inl hs⟩
      next hs => exact ⟨fun hp => hp.resolve_left hs, .inr⟩
    · rw [if_neg hr]
      split
      next hs =>
        refine ⟨fun hm => absurd (hs ▸ hm) (hl.not_mem hparent r), fun hp => ?_⟩
        exact absurd (Option.some.inj hp).symm hr
      next => exact hmem
  · intro r
    rw [hsubs]
    split
    · rw [(hperm r).nodup_iff]
      exact List.nodup_cons.mpr ⟨hl.not_mem hparent r, hl.nodup r⟩
    · exact hl.nodup r

lemma Alike.link (hl : Linked h) (hparent : (h sub).parent = none)
    (hd : ((h mr).enabled && (h sub).enabled) = false) : Alike h (h.link mr offset sub) := by
  refine ⟨link_enabled, fun r _ => link_look r, fun r hr => ?_, fun r _ s hs _ => ?_⟩
  · obtain ⟨h', hsubs⟩ := link_subregions h mr offset sub
    rw [hsubs]
    split
    next heq =>
      rw [← heq, hr] at hd
      exact insertSubregion_filter h' _ hd
    next => rfl
  · rw [link_addr, if_neg]
    rintro rfl
    exact hl.not_mem hparent r hs

section
variable (r : RegionId)
include r

lemma unlink_enabled : (h.unlink mr sub r).enabled = (h r).enabled := by
  unfold Heap.unlink Heap.modify
  split_ifs <;> rfl

lemma unlink_look : (h.unlink mr sub r).look = (h r).look := by
  unfold Heap.unlink Heap.modify
  split_ifs <;> rfl

lemma unlink_addr : (h.unlink mr sub r).addr = (h r).addr := by
  unfold Heap.unlink Heap.modify
  split_ifs <;> rfl

lemma unlink_parent : (h.unlink mr sub r).parent = if r = sub then none else (h r).parent := by
  unfold Heap.unlink Heap.modify
  split_ifs <;> rfl

lemma unlink_subregions : (h.unlink mr sub r).subregions =
    if r = mr then (h r).subregions.erase sub else (h r).subregions := by
  unfold Heap.unlink Heap.modify
  split_ifs <;> rfl

end

lemma Linked.unlink (hl : Linked h) (hparent : (h sub).parent = some mr) :
    Linked (h.unlink mr sub) := by
  constructor
  · intro r s
    rw [unlink_parent, unlink_subregions]
    have hmem := hl.mem r s
    by_cases hr : r = mr
    · rw [if_pos hr, (hl.nodup r).mem_erase_iff, hmem]
      split
      next hs => exact ⟨fun hm => absurd hs hm.1, fun hp => nomatch hp⟩
      next hs => exact ⟨fun hm => hm.2, fun hp => ⟨hs, hp⟩⟩
    · rw [if_neg hr]
      split
      next hs =>
        rw [hmem, hs, hparent]
        exact ⟨fun hp => absurd (Option.some.inj hp).symm hr, fun hp => nomatch hp⟩
      next => exact hmem
  · intro r
    rw [unlink_subregions]
    split
    · exact (hl.nodup r).erase sub
    · exact hl.nodup r

lemma erase_filter {p : RegionId → Bool} (hp : p sub = false) (l : List RegionId) :
    (l.erase sub).filter p = l.filter p := by
  induction l with
  | nil => rfl
  | cons a l ih =>
    rw [erase_cons]
    split
    next ha =>
      rw [filter_cons_of_neg]
      rw [eq_of_beq ha, hp]
      exact Bool.false_ne_true
    next => rw [filter_cons, filter_cons, ih]

lemma Alike.unlink (hd : ((h mr).enabled && (h sub).enabled) = false) :
    Alike h (h.unlink mr sub) := by
  refine ⟨unlink_enabled, fun r _ => unlink_look r, fun r hr => ?_, fun r _ s _ _ => unlink_addr s⟩
  · rw [unlink_subregions]
    split
    next heq =>
      rw [← heq, hr] at hd
      exact erase_filter (p := fun s => (h s).enabled) hd _
    next => rfl

/-! ## the invariant -/

structure Inv (s : State) : Prop where
  linked : Linked s.heap
  current : s.updatePending = true ∨
    ∀ as ∈ s.addressSpaces, Shows s.heap as.root as.currentMap
  told : ∀ l ∈ s.listeners, l.Told (sections s.addressSpaces)

/-- between calls -/
def Quiet (s : State) : Prop := s.transactionDepth = 0 → s.updatePending = false

section
variable {fuel : Nat} {s s' : State}

lemma Inv.begin (hi : Inv s) : Inv (memoryRegionTransactionBegin s) :=
  ⟨hi.linked, hi.current, hi.told⟩

lemma Inv.set (hi : Inv s) {changed : Bool} (hl : Linked h')
    (hshow : s.updatePending = false → changed = false → ∀ as ∈ s.addressSpaces,
      Shows s.heap as.root as.currentMap → Shows h' as.root as.currentMap) :
    Inv (s.set h' changed) := by
  refine ⟨hl, ?_, hi.told⟩
  show (s.updatePending || changed) = true ∨ _
  cases hp : s.updatePending with
  | true => exact .inl rfl
  | false =>
    cases hc : changed with
    | true => exact .inl rfl
    | false =>
      refine .inr fun as has => hshow hp hc as has ?_
      rcases hi.current with h | h
      · rw [hp] at h
        cases h
      · exact h as has

def Flushes (fuel : Nat) (s s' : State) : Prop :=
  s.transactionDepth - 1 = 0 ∧ s.updatePending = true ∧ s'.updatePending = false ∧
    s'.heap = s.heap ∧ ∃ ls, updateSpaces s.heap fuel s.addressSpaces
      (memoryListenerCallGlobal .begin s.listeners) = .ok (s'.addressSpaces, ls) ∧
      s'.listeners = memoryListenerCallGlobal .commit ls

lemma commit_spec (hrun : memoryRegionTransactionCommit fuel s = .ok s') :
    s.transactionDepth ≠ 0 ∧ s'.transactionDepth = s.transactionDepth - 1 ∧
      (Flushes fuel s s' ∨ ¬ (s.transactionDepth - 1 = 0 ∧ s.updatePending = true) ∧
        s' = { s with transactionDepth := s.transactionDepth - 1 }) := by
  unfold memoryRegionTransactionCommit at hrun
  split at hrun
  · cases hrun
  next hdepth =>
    dsimp only at hrun
    split at hrun
    next hflush =>
      obtain ⟨⟨spaces, ls⟩, h1, h2⟩ := bind_ok_inv hrun
      cases h2
      exact ⟨hdepth, rfl, .inl ⟨hflush.1, hflush.2, rfl, rfl, ls, h1, rfl⟩⟩
    next hflush =>
      cases hrun
      exact ⟨hdepth, rfl, .inr ⟨hflush, rfl⟩⟩

lemma Inv.commit (hi : Inv s) (hrun : memoryRegionTransactionCommit fuel s = .ok s') :
    Inv s' ∧ Quiet s' := by
  obtain ⟨-, hdepth, ⟨-, -, hpending, hheap, ls, hspaces, hls⟩ | ⟨hno, rfl⟩⟩ := commit_spec hrun
  · obtain ⟨hupdated, htold⟩ := updateSpaces_spec hspaces
    refine ⟨⟨hheap ▸ hi.linked, .inr fun as' has' => ?_, ?_⟩, fun _ => hpending⟩
    · obtain ⟨as, -, -, hroot, hmap⟩ := hupdated as' has'
      rw [hheap, hroot]
      exact ⟨fuel, hmap⟩
    · rw [hls]
      exact told_global (htold [] (told_global hi.told _)) _
  · refine ⟨⟨hi.linked, hi.current, hi.told⟩, fun hzero => ?_⟩
    exact Bool.eq_false_iff.mpr fun hp => hno ⟨hzero, hp⟩

lemma commit_spaces (hrun : memoryRegionTransactionCommit fuel s = .ok s') :
    ∀ as' ∈ s'.addressSpaces, ∃ as ∈ s.addressSpaces, as'.id = as.id ∧ as'.root = as.root ∧
      (as' = as ∨ generateMemoryTopology s.heap fuel as.root = .ok as'.currentMap) := by
  obtain ⟨-, -, ⟨-, -, -, -, ls, hspaces, -⟩ | ⟨-, rfl⟩⟩ := commit_spec hrun
  · intro as' has'
    obtain ⟨as, has, hid, hroot, hmap⟩ := (updateSpaces_spec hspaces).1 as' has'
    exact ⟨as, has, hid, hroot, .inr hmap⟩
  · exact fun as has => ⟨as, has, rfl, rfl, .inl rfl⟩

/-! ## operations on regions -/

lemma Inv.assign (hi : Inv s) {f : MemoryRegion → MemoryRegion}
    (hrun : assign fuel mr f s = .ok s') (henabled : ∀ r, (f r).enabled = r.enabled)
    (hparent : ∀ r, (f r).parent = r.parent)
    (hsubs : ∀ r, (f r).subregions = r.subregions) (haddr : ∀ r, (f r).addr = r.addr) :
    Inv s' ∧ Quiet s' := by
  refine Inv.commit (hi.begin.set ?_ fun _ hd as _ hshow => ?_) hrun
  · exact hi.linked.congr (modify_field _ hsubs) (modify_field _ hparent)
  · exact hshow.alike (.disabled hd henabled) fun r _ _ => modify_field _ haddr r

lemma Inv.setEnabled (hi : Inv s) (hq : Quiet s) {enabled : Bool}
    (hrun : memoryRegionSetEnabled fuel mr enabled s = .ok s') : Inv s' ∧ Quiet s' := by
  unfold memoryRegionSetEnabled at hrun
  split at hrun
  · cases hrun
    exact ⟨hi, hq⟩
  · refine Inv.commit (hi.begin.set ?_ ?_) hrun
    · exact hi.linked.congr (modify_field _ fun _ => rfl) (modify_field _ fun _ => rfl)
    · intro _ hd
      cases hd

/-- a region that is the root of an address space and enabled gets another address only if it is in
an enabled region, or when an update is pending anyway -/
def RootStays (s : State) (mr : RegionId) (addr : Hwaddr) (parent : Option RegionId) : Prop :=
  s.updatePending = false → (s.heap mr).enabled = true → addr ≠ (s.heap mr).addr →
    (∃ as ∈ s.addressSpaces, as.root = some mr) → ∃ p, parent = some p ∧ (s.heap p).enabled = true

lemma Inv.del (hi : Inv s) (hrun : memoryRegionDelSubregion fuel mr sub s = .ok s') :
    (s.heap sub).parent = some mr ∧ memoryRegionTransactionCommit fuel
      ((memoryRegionTransactionBegin s).set (s.heap.unlink mr sub)
        ((s.heap mr).enabled && (s.heap sub).enabled)) = .ok s' ∧
    Inv ((memoryRegionTransactionBegin s).set (s.heap.unlink mr sub)
        ((s.heap mr).enabled && (s.heap sub).enabled)) := by
  unfold memoryRegionDelSubregion at hrun
  dsimp only at hrun
  split at hrun
  · cases hrun
  next hparent =>
    have hparent : (s.heap sub).parent = some mr := Decidable.not_not.mp hparent
    refine ⟨hparent, ?_, hi.begin.set (hi.linked.unlink hparent) fun _ hd as _ hshow => ?_⟩
    · rw [← hrun]
      show memoryRegionTransactionCommit fuel (State.set _ _ _) =
        memoryRegionTransactionCommit fuel (State.set _ (s.heap.unlink mr sub)
          ((s.heap.unlink mr sub mr).enabled && (s.heap.unlink mr sub sub).enabled))
      rw [unlink_enabled, unlink_enabled]
    · exact hshow.alike (.unlink hd) fun r _ _ => unlink_addr r

lemma Inv.addCommon (hi : Inv s) (hroot : RootStays s sub offset (some mr))
    (hrun : memoryRegionAddSubregionCommon fuel mr offset sub s = .ok s') : Inv s' ∧ Quiet s' := by
  unfold memoryRegionAddSubregionCommon at hrun
  dsimp only at hrun
  split at hrun
  · cases hrun
  next hparent =>
    have hparent : (s.heap sub).parent = none := Decidable.not_not.mp hparent
    have hset : Inv ((memoryRegionTransactionBegin s).set (s.heap.link mr offset sub)
        ((s.heap.link mr offset sub mr).enabled && (s.heap.link mr offset sub sub).enabled)) := by
      refine hi.begin.set (hi.linked.link hparent) fun hp hd as has hshow => ?_
      rw [link_enabled, link_enabled] at hd
      refine hshow.alike (.link hi.linked hparent hd) fun r hr hen => ?_
      rw [link_addr]
      split
      next hsub =>
        rw [hsub] at hen hr ⊢
        by_contra hne
        obtain ⟨p, hp', hpen⟩ := hroot hp hen hne ⟨as, has, hr⟩
        cases hp'
        rw [hpen, hen] at hd
        cases hd
      next => rfl
    exact hset.commit hrun

lemma addCommon_depth (hrun : memoryRegionAddSubregionCommon fuel mr offset sub s = .ok s') :
    s'.transactionDepth = s.transactionDepth := by
  unfold memoryRegionAddSubregionCommon at hrun
  dsimp only at hrun
  split at hrun
  · cases hrun
  · rw [(commit_spec hrun).2.1]
    exact BitVec.add_sub_cancel _ _

lemma Inv.heap (hi : Inv s) (hl : Linked h)
    (hshow : s.updatePending = false → ∀ as ∈ s.addressSpaces,
      Shows s.heap as.root as.currentMap → Shows h as.root as.currentMap) :
    Inv { s with heap := h } := by
  refine ⟨hl, ?_, hi.told⟩
  rcases Bool.eq_false_or_eq_true s.updatePending with hp | hp
  · exact .inl hp
  · refine .inr fun as has => hshow hp as has ?_
    rcases hi.current with hc | hc
    · rw [hp] at hc
      cases hc
    · exact hc as has

lemma Inv.overlap (hi : Inv s) (sub : RegionId) (mayOverlap : Bool) (priority : BitVec 32) :
    Inv { s with heap := s.heap.modify sub fun r =>
      { r with mayOverlap := mayOverlap, priority := priority } } := by
  refine hi.heap ?_ fun _ as _ hshow => ?_
  · exact hi.linked.congr (modify_field _ fun _ => rfl) (modify_field _ fun _ => rfl)
  · refine hshow.alike ?_ fun r _ _ => modify_field _ (by exact fun _ => rfl) r
    exact .unseen (fun _ => rfl) (fun _ => rfl) (fun _ => rfl) fun _ => rfl

lemma RootStays.overlap {parent : Option RegionId}
    (hroot : RootStays s sub offset parent) (mayOverlap : Bool) (priority : BitVec 32) :
    RootStays { s with heap := s.heap.modify sub fun r =>
      { r with mayOverlap := mayOverlap, priority := priority } } sub offset parent := by
  have henabled : ∀ r, ((s.heap.modify sub fun r =>
      { r with mayOverlap := mayOverlap, priority := priority }) r).enabled = (s.heap r).enabled :=
    modify_field _ fun _ => rfl
  have haddr : ((s.heap.modify sub fun r =>
      { r with mayOverlap := mayOverlap, priority := priority }) sub).addr = (s.heap sub).addr :=
    modify_field _ (by exact fun _ => rfl) sub
  intro hp hen hne has
  rw [henabled] at hen
  rw [haddr] at hne
  obtain ⟨p, hparent, hpen⟩ := hroot hp hen hne has
  exact ⟨p, hparent, (henabled p).trans hpen⟩

lemma Inv.addSubregion (hi : Inv s) {mayOverlap : Bool}
    {priority : BitVec 32} (hroot : RootStays s sub offset (some mr))
    (hrun : memoryRegionAddSubregionCommon fuel mr offset sub
      { s with heap := s.heap.modify sub fun r =>
        { r with mayOverlap := mayOverlap, priority := priority } } = .ok s') :
    Inv s' ∧ Quiet s' :=
  (hi.overlap sub mayOverlap priority).addCommon (hroot.overlap mayOverlap priority) hrun

lemma Inv.place (hi : Inv s) {addr : Hwaddr}
    (hparent : (s.heap mr).parent = none) (hroot : RootStays s mr addr none) :
    Inv { s with heap := s.heap.modify mr fun r => { r with addr := addr } } := by
  refine hi.heap ?_ fun hp as has hshow => ?_
  · exact hi.linked.congr (modify_field _ fun _ => rfl) (modify_field _ fun _ => rfl)
  refine hshow.alike (.moved hi.linked hparent addr) fun r hr hen => ?_
  by_cases heq : r = mr
  · rw [heq, modify_self]
    rw [heq] at hr hen
    by_contra hne
    obtain ⟨p, hp', -⟩ := hroot hp hen hne ⟨as, has, hr⟩
    cases hp'
  · rw [modify_ne heq]

lemma modify_same_addr (h : Heap) (mr : RegionId) :
    (h.modify mr fun r => { r with addr := (h mr).addr }) = h := by
  funext r
  unfold Heap.modify
  split
  next heq =>
    rw [heq]
  next => rfl

lemma Inv.setAddress (hi : Inv s) (hq : Quiet s) {addr : Hwaddr}
    (hroot : RootStays s mr addr (s.heap mr).parent)
    (hrun : memoryRegionSetAddress fuel mr addr s = .ok s') : Inv s' ∧ Quiet s' := by
  unfold memoryRegionSetAddress at hrun
  cases hparent : (s.heap mr).parent with
  | none =>
    rw [hparent] at hrun hroot
    cases hrun
    exact ⟨hi.place hparent hroot, hq⟩
  | some parent =>
    rw [hparent] at hrun hroot
    dsimp only at hrun
    split at hrun
    next haddr =>
      cases hrun
      rw [haddr, modify_same_addr]
      exact ⟨hi, hq⟩
    next haddr =>
      obtain ⟨s₁, h1, h2⟩ := bind_ok_inv hrun
      obtain ⟨mayOverlap, priority, s₂, h3, h4⟩ : ∃ mayOverlap priority s₂,
          memoryRegionAddSubregionCommon fuel parent addr mr
            { s₁ with heap := s₁.heap.modify mr fun r =>
              { r with mayOverlap := mayOverlap, priority := priority } } = .ok s₂ ∧
          memoryRegionTransactionCommit fuel s₂ = .ok s' := by
        split at h2
        · obtain ⟨s₂, h3, h4⟩ := bind_ok_inv h2
          exact ⟨true, _, s₂, h3, h4⟩
        · obtain ⟨s₂, h3, h4⟩ := bind_ok_inv h2
          exact ⟨false, 0, s₂, h3, h4⟩
      obtain ⟨-, hcommit, hset⟩ := hi.begin.del h1
      -- the commit in `memory_region_del_subregion` is not the last one
      have hdepth : s₁.transactionDepth ≠ 0 := by
        have hs₂ := addCommon_depth h3
        rw [← hs₂]
        exact (commit_spec h4).1
      obtain ⟨-, hd, ⟨hzero, -⟩ | ⟨-, hs₁⟩⟩ := commit_spec hcommit
      · exact absurd (hd.trans hzero) hdepth
      have hroot₁ : RootStays s₁ mr addr (some parent) := by
        rw [hs₁]
        intro hp hen hne has
        dsimp only [State.set] at hp hen hne has ⊢
        rw [unlink_enabled] at hen
        rw [unlink_addr] at hne
        obtain ⟨p, hp', hpen⟩ := hroot (Bool.or_eq_false_iff.mp hp).1 hen hne has
        exact ⟨p, hp', (unlink_enabled p).trans hpen⟩
      have hi₁ := (hset.commit hcommit).1
      exact (hi₁.addSubregion hroot₁ h3).1.commit h4

/-! ## listeners and address spaces -/

variable {l : MemoryListener} {ls : List MemoryListener} {x : MemoryListener}

lemma mem_insertBefore (hx : x ∈ insertBefore l ls) : x = l ∨ x ∈ ls := by
  induction ls with
  | nil => exact .inl (List.mem_singleton.mp hx)
  | cons other rest ih =>
    unfold insertBefore at hx
    split at hx
    · exact List.mem_cons.mp hx
    · rcases List.mem_cons.mp hx with rfl | hx
      · exact .inr mem_cons_self
      · exact (ih hx).imp_right (mem_cons_of_mem other)

lemma mem_insertListener (hx : x ∈ insertListener l ls) : x = l ∨ x ∈ ls := by
  unfold insertListener at hx
  split at hx
  · exact .inl (List.mem_singleton.mp hx)
  · split at hx
    · rcases List.mem_append.mp hx with hx | hx
      · exact .inr hx
      · exact .inl (List.mem_singleton.mp hx)
    · exact mem_insertBefore hx

lemma fresh_told (hl : l.received = []) : l.Told [] := by
  intro _ _ sec
  unfold MemoryListener.times
  rw [hl]
  split <;> rfl

lemma register_spec {id : ListenerId} {callbacks : Callback → Bool} {priority : BitVec 32}
    {filter : Option SpaceId} (hrun : memoryListenerRegister id callbacks priority filter s = .ok s')
    (htold : ∀ l ∈ s.listeners, l.Told (sections s.addressSpaces)) :
    ∃ ls, s' = { s with listeners := ls } ∧ ∀ l ∈ ls, l.Told (sections s.addressSpaces) := by
  unfold memoryListenerRegister at hrun
  split at hrun
  · cases hrun
  obtain ⟨l, h1, h2⟩ := bind_ok_inv hrun
  cases h2
  refine ⟨_, rfl, fun x hx => ?_⟩
  rcases mem_insertListener hx with rfl | hx
  · exact register_told h1 (fresh_told rfl)
  · exact htold x hx

lemma unregister_spec {id : ListenerId} (hrun : memoryListenerUnregister id s = .ok s') :
    ∃ ls, s' = { s with listeners := ls } ∧ ∀ l ∈ ls, l ∈ s.listeners := by
  unfold memoryListenerUnregister at hrun
  split at hrun
  · cases hrun
    exact ⟨_, rfl, fun l hl => mem_of_mem_eraseP hl⟩
  · cases hrun

variable {as : SpaceId}

lemma Inv.spaceInit (hi : Inv s) {root : RegionId}
    (hrun : addressSpaceInit fuel as root s = .ok s') : Inv s' ∧ Quiet s' := by
  unfold addressSpaceInit at hrun
  split at hrun
  · cases hrun
  obtain ⟨s₁, h1, h2⟩ := bind_ok_inv hrun
  have hsections : sections (s.addressSpaces ++
      [{ id := as, root := some root, currentMap := [] }]) = sections s.addressSpaces := by
    unfold sections
    rw [flatMap_append]
    exact append_nil _
  obtain ⟨ls, rfl, hls⟩ := register_spec h1 fun l hl => by
    show l.Told (sections (s.addressSpaces ++ [_]))
    rw [hsections]
    exact hi.told l hl
  refine Inv.commit ?_ h2
  refine ⟨hi.linked, ?_, hls⟩
  show (s.updatePending || (s.heap root).enabled) = true ∨ _
  cases hroot : (s.heap root).enabled with
  | true => exact .inl (Bool.or_true _)
  | false =>
    rcases hi.current with hp | hshow
    · exact .inl (by rw [hp]; rfl)
    · exact .inr (forall_mem_append.mpr ⟨hshow, forall_mem_singleton.mpr (.disabled hroot)⟩)

lemma sections_eraseP {spaces : List AddressSpace}
    (hempty : ∀ a ∈ spaces, a.id = as → a.currentMap = []) :
    sections (spaces.eraseP fun a => a.id == as) = sections spaces := by
  induction spaces with
  | nil => rfl
  | cons a spaces ih =>
    rw [eraseP_cons]
    cases hid : a.id == as with
    | true =>
      show sections spaces = a.currentMap.map _ ++ sections spaces
      rw [hempty a mem_cons_self (eq_of_beq hid)]
      rfl
    | false =>
      show a.currentMap.map _ ++ sections _ = a.currentMap.map _ ++ sections spaces
      rw [ih fun b hb => hempty b (mem_cons_of_mem a hb)]

lemma Inv.spaceDestroy (hi : Inv s) (hempty : ∀ a ∈ s.addressSpaces, a.id = as → a.currentMap = [])
    (hrun : addressSpaceDestroy fuel as s = .ok s') : Inv s' ∧ Quiet s' := by
  unfold addressSpaceDestroy at hrun
  split at hrun
  · obtain ⟨s₁, h1, h2⟩ := bind_ok_inv hrun
    have hcut : Inv { memoryRegionTransactionBegin s with
        addressSpaces := s.addressSpaces.map fun a =>
          if a.id = as then { a with root := none } else a } := by
      refine ⟨hi.linked, hi.current.imp_right fun hshow a' ha' => ?_, ?_⟩
      · obtain ⟨a, ha, rfl⟩ := List.mem_map.mp ha'
        split
        next hid =>
          rw [hempty a ha hid]
          exact ⟨0, rfl⟩
        next => exact hshow a ha
      · have hsections : sections (s.addressSpaces.map fun a =>
            if a.id = as then { a with root := none } else a) = sections s.addressSpaces := by
          unfold sections
          rw [flatMap_map]
          congr 1
          funext a
          split <;> rfl
        rw [hsections]
        exact hi.told
    obtain ⟨hi₁, hq₁⟩ := hcut.commit h1
    have hempty₁ : ∀ a ∈ s₁.addressSpaces, a.id = as → a.currentMap = [] := by
      intro a' ha' hid
      obtain ⟨a₀, ha₀, hid₀, -, hmap⟩ := commit_spaces h1 a' ha'
      obtain ⟨a, ha, rfl⟩ := List.mem_map.mp ha₀
      have hida : a.id = as := by
        rw [← hid, hid₀]
        split <;> rfl
      rw [if_pos hida] at hmap
      rcases hmap with rfl | hmap
      · exact hempty a ha hida
      · have hnone : generateMemoryTopology s.heap fuel none = .ok [] := rfl
        exact (Except.ok.inj (hnone.symm.trans hmap)).symm
    obtain ⟨ls, rfl, hls⟩ := unregister_spec h2
    refine ⟨⟨hi₁.linked, hi₁.current.imp_right fun hshow a ha => ?_, fun l hl => ?_⟩, hq₁⟩
    · exact hshow a (mem_of_mem_eraseP ha)
    · dsimp only
      rw [sections_eraseP hempty₁]
      exact hi₁.told l (hls l hl)
  · cases hrun

/-! ## runs -/

/-- a call that changes what is rendered sends an update on its way: an enabled root keeps its
address (see `RootStays`), and an address space has nothing mapped when it is destroyed.  The
transaction depth is a 32-bit counter. -/
def Noticed (call : Call) (s : State) : Prop :=
  match call with
  | .transactionBegin => s.transactionDepth ≠ BitVec.allOnes 32
  | .addSubregion mr offset subregion => RootStays s subregion offset (some mr)
  | .addSubregionOverlap mr offset subregion _ => RootStays s subregion offset (some mr)
  | .setAddress mr addr => RootStays s mr addr (s.heap mr).parent
  | .spaceDestroy as => ∀ a ∈ s.addressSpaces, a.id = as → a.currentMap = []
  | _ => True

lemma Inv.call (hi : Inv s) (hq : Quiet s) {call : Call} (hn : Noticed call s)
    (hrun : call.apply fuel s = .ok s') : Inv s' ∧ Quiet s' := by
  cases call with
  | transactionBegin =>
    cases hrun
    refine ⟨hi.begin, fun hzero => absurd ?_ hn⟩
    have hdepth : s.transactionDepth + 1 = 0 := hzero
    exact BitVec.eq_of_toNat_eq (by
      have := congrArg BitVec.toNat hdepth
      rw [BitVec.toNat_add] at this
      rw [BitVec.toNat_allOnes]
      simp only [BitVec.ofNat_eq_ofNat, BitVec.toNat_ofNat] at this
      omega)
  | transactionCommit => exact hi.commit hrun
  | addSubregion mr offset subregion | addSubregionOverlap mr offset subregion priority =>
    exact hi.addSubregion hn hrun
  | delSubregion mr subregion =>
    obtain ⟨-, hcommit, hset⟩ := hi.del hrun
    exact hset.commit hcommit
  | setEnabled mr enabled => exact hi.setEnabled hq hrun
  | setAddress mr addr => exact hi.setAddress hq hn hrun
  | setAliasOffset mr offset =>
    have hrun : memoryRegionSetAliasOffset fuel mr offset s = .ok s' := hrun
    unfold memoryRegionSetAliasOffset at hrun
    split at hrun
    · cases hrun
    · split at hrun
      · cases hrun
        exact ⟨hi, hq⟩
      · exact hi.assign hrun (fun _ => rfl) (fun _ => rfl) (fun _ => rfl) fun _ => rfl
  | setReadonly mr readonly =>
    have hrun : memoryRegionSetReadonly fuel mr readonly s = .ok s' := hrun
    unfold memoryRegionSetReadonly at hrun
    split at hrun
    · exact hi.assign hrun (fun _ => rfl) (fun _ => rfl) (fun _ => rfl) fun _ => rfl
    · cases hrun
      exact ⟨hi, hq⟩
  | setRomd mr romdMode =>
    have hrun : memoryRegionRomDeviceSetRomd fuel mr romdMode s = .ok s' := hrun
    unfold memoryRegionRomDeviceSetRomd at hrun
    split at hrun
    · exact hi.assign hrun (fun _ => rfl) (fun _ => rfl) (fun _ => rfl) fun _ => rfl
    · cases hrun
      exact ⟨hi, hq⟩
  | setLog mr log client =>
    exact hi.assign hrun (fun _ => rfl) (fun _ => rfl) (fun _ => rfl) fun _ => rfl
  | spaceInit as root => exact hi.spaceInit hrun
  | spaceDestroy as => exact hi.spaceDestroy hn hrun
  | listenerRegister n callbacks priority filter =>
    obtain ⟨ls, rfl, hls⟩ := register_spec hrun hi.told
    exact ⟨⟨hi.linked, hi.current, hls⟩, hq⟩
  | listenerUnregister n =>
    obtain ⟨ls, rfl, hls⟩ := unregister_spec hrun
    exact ⟨⟨hi.linked, hi.current, fun l hl => hi.told l (hls l hl)⟩, hq⟩

lemma Inv.init (hfresh : Fresh h) : Inv (.init h) := by
  refine ⟨⟨fun mr s => ?_, fun mr => ?_⟩, .inr fun as has => (nomatch has), fun l hl => nomatch hl⟩
  · show s ∈ (h mr).subregions ↔ (h s).parent = some mr
    rw [hfresh.parent, hfresh.subregions]
    exact ⟨fun hm => (nomatch hm), fun hp => nomatch hp⟩
  · show (h mr).subregions.Nodup
    rw [hfresh.subregions]
    exact nodup_nil
end

/-- outside transactions every map is that of its root, and the deletions of a listener have kept up
with its additions for every address space that is not registered (any more) -/
def Followed (s : State) : Prop :=
  (s.transactionDepth = 0 → ∀ as ∈ s.addressSpaces,
    ∃ n, ∀ m ≥ n, generateMemoryTopology s.heap m as.root = .ok as.currentMap) ∧
  ∀ l ∈ s.listeners, l.callbacks .regionAdd = true → l.callbacks .regionDel = true →
    ∀ sec, (∀ as ∈ s.addressSpaces, as.id ≠ sec.addressSpace) →
      l.times .regionDel sec = l.times .regionAdd sec

lemma Inv.followed {s : State} (hi : Inv s) (hq : Quiet s) : Followed s := by
  constructor
  · intro hdepth as has
    rcases hi.current with hp | hshow
    · rw [hq hdepth] at hp
      cases hp
    · exact (hshow as has).enough
  · intro l hl hadd hdel sec hsec
    have hcount : (sections s.addressSpaces).count sec = 0 := by
      refine List.count_eq_zero.mpr fun hmem => ?_
      obtain ⟨as, has, hmem⟩ := List.mem_flatMap.mp hmem
      obtain ⟨fr, -, rfl⟩ := List.mem_map.mp hmem
      exact hsec as has rfl
    have htold := hi.told l hl hadd hdel sec
    rw [hcount, ite_self] at htold
    exact htold.symm

/-- **In a run whose calls are all noticed the maps follow the regions.** -/
theorem maps_follow (h : Heap) (hfresh : Fresh h) (fuel : Nat) (calls : List Call)
    (hnoticed : Meets (Call.exec fuel) Noticed (.init h) calls) :
    Visits (Call.exec fuel) Followed (.init h) calls := by
  refine visits_of_meets (P := fun _ s => Inv s ∧ Quiet s) ?_ ?_ ?_ hnoticed
  · intro _ call s s' ⟨hi, hq⟩ hn hrun
    exact hi.call hq hn (lift_ok_inv hrun)
  · exact fun _ s ⟨hi, hq⟩ => hi.followed hq
  · exact ⟨.init hfresh, fun _ => rfl⟩

/-- a container and a page of memory -/
def boardHeap : Heap
  | 0 => memoryRegionInit (BitVec.allOnes 64)
  | 1 => { memoryRegionInit 0x1000 with terminates := true }
  | _ => memoryRegionInit 0

lemma boardHeap_fresh : Fresh boardHeap := by
  constructor
  · rintro (_ | _ | _) <;> rfl
  · rintro (_ | _ | _) <;> rfl

/-- the page is mapped, hidden in a transaction, moved and unmapped -/
def boardCalls : List Call :=
  [.listenerRegister 0 (fun _ => true) 10 none, .spaceInit 0 0, .addSubregion 0 0x1000 1,
    .transactionBegin, .setEnabled 1 false, .setReadonly 1 true, .setEnabled 1 true,
    .transactionCommit, .setAddress 1 0x8000, .delSubregion 0 1, .spaceDestroy 0]

theorem maps_follow_board :
    (stateOf (runAll (Call.exec 3) boardCalls (.init boardHeap))).transactionDepth = 0 ∧
      Visits (Call.exec 3) Followed (.init boardHeap) boardCalls := by
  refine ⟨by decide +kernel, maps_follow boardHeap boardHeap_fresh 3 boardCalls ?_⟩
  refine .cons trivial (eq_ok (by decide +kernel)) ?_
  refine .cons trivial (eq_ok (by decide +kernel)) ?_
  refine .cons (fun _ _ _ _ => ⟨_, rfl, rfl⟩) (eq_ok (by decide +kernel)) ?_
  refine .cons (show State.transactionDepth _ ≠ BitVec.allOnes 32 by decide +kernel)
    (eq_ok (by decide +kernel)) ?_
  refine .cons trivial (eq_ok (by decide +kernel)) ?_
  refine .cons trivial (eq_ok (by decide +kernel)) ?_
  refine .cons trivial (eq_ok (by decide +kernel)) ?_
  refine .cons trivial (eq_ok (by decide +kernel)) ?_
  refine .cons (fun _ _ _ _ => ⟨_, rfl, rfl⟩) (eq_ok (by decide +kernel)) ?_
  refine .cons trivial (eq_ok (by decide +kernel)) ?_
  exact ⟨show ∀ a ∈ State.addressSpaces _, a.id = 0 → a.currentMap = [] by decide +kernel,
    fun _ _ => trivial⟩

/-- the page itself is the root -/
def pageMoved : List Call := [.spaceInit 0 1, .setAddress 1 0x8000]

/-- the address space goes while the page is mapped -/
def pageDropped : List Call :=
  [.listenerRegister 0 (fun _ => true) 10 none, .spaceInit 0 1, .spaceDestroy 0]

theorem update_missed :
    (∃ s, runAll (Call.exec 2) pageMoved (.init boardHeap) = .ok () s ∧ s.transactionDepth = 0 ∧
      s.addressSpaces.map (fun as => as.currentMap.map fun fr => fr.addr.start) = [[0]] ∧
      (s.addressSpaces.map fun as => (generateMemoryTopology s.heap 2 as.root).toOption.map
        (List.map fun fr => fr.addr.start)) = [some [0x8000]]) ∧
    ∃ s, runAll (Call.exec 2) pageDropped (.init boardHeap) = .ok () s ∧ s.addressSpaces.isEmpty ∧
      s.listeners.map (fun l => l.received.map fun call => call.1) =
        [[.begin, .regionAdd, .commit]] :=
  ⟨⟨stateOf (runAll (Call.exec 2) pageMoved (.init boardHeap)), eq_ok (by decide +kernel),
      by decide +kernel, by decide +kernel, by decide +kernel⟩,
    stateOf (runAll (Call.exec 2) pageDropped (.init boardHeap)), eq_ok (by decide +kernel),
      by decide +kernel, by decide +kernel⟩

end Memory
