import TraceSyscallObj.RevSem.Edges
import TraceSyscallObj.RevSem.Vcpu

/-!
# The types of the arguments of a call (`recover_sem_types`)

At a call of a function with a known signature each argument that points into a tracked object
gives the object's type a field type.  `get_parameter` lays the words of the arguments out in the
array `paras`, registers first; `recover_sem_types` walks over the array by the sizes of the
arguments.

* `getParameter`: the words; a third register only for more than two arguments;
* `recoverSemTypes`: the lookups; `lookups` is a history variable;
* `layoutWord`: word `k` of an argument list;
* `lookups_right_iff`: when every argument is looked up by its own first word.
-/

namespace RevSem
open Function List PTree Run

/-- `struct Args`; the size is in words -/
structure Args where
  size : Nat
  type : String
  size_word : size = 1 ∨ size = 2

/-- `struct Func` -/
structure Func where
  name : String
  args : List Args

inductive SemFault where
  | tree (f : Fault)
  | paraOverflow
  | paraUnset
  | stackAssert
  deriving DecidableEq, Repr

/-- the object tree and the `types` of the database entries -/
structure SemState where
  tree : TreeState
  types : BitVec 64 → BitVec 32 → Finset String
  lookups : List (BitVec 32)

abbrev SemM := EStateM SemFault SemState

/-- `paras[++index] = w`; the array has 50 entries and the list is its filled part -/
def pushPara (paras : List (BitVec 32)) (w : BitVec 32) : Except SemFault (List (BitVec 32)) :=
  if paras.length < 50 then .ok (paras ++ [w]) else .error .paraOverflow

/-- the stack word `i` -/
def Vcpu.stackWord (g : Vcpu) (i : Nat) : Option (BitVec 32) :=
  g.mem.word (g.regs .esp + BitVec.ofNat 32 (4 * i))

def stackParas (g : Vcpu) : (todo i : Nat) → List (BitVec 32) →
    Except SemFault (List (BitVec 32))
  | 0, _, paras => .ok paras
  | todo + 1, i, paras =>
    match g.stackWord i with
    | none => .error .stackAssert
    | some val =>
      match pushPara paras val with
      | .error e => .error e
      | .ok paras => stackParas g todo (i + 1) paras

/-- `n` is the number of arguments -/
def getParameter (g : Vcpu) (n : Nat) : Except SemFault (List (BitVec 32)) :=
  if n > 2 then stackParas g (2 * n) 0 [g.regs .eax, g.regs .edx, g.regs .ecx]
  else stackParas g (2 * n) 0 [g.regs .eax, g.regs .edx]

def liftTree {α : Type} (x : TreeM α) : SemM α := fun σ =>
  match x σ.tree with
  | .ok a t => .ok a { σ with tree := t }
  | .error f t => .error (.tree f) { σ with tree := t }

/-- `(*mp)[off].insert(type)` -/
def insertType (mp : BitVec 32 → Finset String) (off : BitVec 32) (type : String) :
    BitVec 32 → Finset String := update mp off (insert type (mp off))

/-- only where the database knows the type of the object -/
def SemState.noteType (σ : SemState) (node : NodeType) (word : BitVec 32) (type : String) :
    SemState :=
  if (σ.tree.database node.type).isSome then
    let mp := insertType (σ.types node.type) (word - node.key) type
    { σ with types := update σ.types node.type mp }
  else σ

def lookupArg (H : Host) (word : BitVec 32) (type : String) : SemM Unit := do
  modify fun σ => { σ with lookups := σ.lookups ++ [word] }
  let p ← liftTree (dsCodeRbtFind2 H word)
  if p = .null then pure ()
  else
    let node ← liftTree (load p)
    modify fun σ => σ.noteType node word type

def recoverArgs (H : Host) (paras : List (BitVec 32)) : List Args → Nat → SemM Unit
  | [], _ => pure ()
  | a :: as, index =>
    match paras[index]? with
    | none => throw .paraUnset
    | some word => do
      lookupArg H word a.type
      recoverArgs H paras as (index + a.size)

def recoverFunc (H : Host) (g : Vcpu) (func : Func) : SemM Int :=
  match getParameter g func.args.length with
  | .error e => throw e
  | .ok paras => do
    recoverArgs H paras func.args 0
    pure 0

def recoverSemTypes (H : Host) (funcs : BitVec 32 → Option Func) (g : Vcpu)
    (targetPc : BitVec 32) : SemM Int :=
  match funcs targetPc with
  | none => pure (-1)
  | some func => recoverFunc H g func

/-! ## what should be looked up -/

/-- word `k` of the arguments: three registers, then the stack -/
def layoutWord (g : Vcpu) : Nat → Option (BitVec 32)
  | 0 => some (g.regs .eax)
  | 1 => some (g.regs .edx)
  | 2 => some (g.regs .ecx)
  | k + 3 => g.stackWord k

/-- `word` at the first words of the arguments, when the first argument starts at word `k` -/
def firstWords (word : Nat → Option (BitVec 32)) : List Args → Nat → List (Option (BitVec 32))
  | [], _ => []
  | a :: as, k => word k :: firstWords word as (k + a.size)

/-- the call returns, and has looked up the first word of every argument, in order -/
structure LooksUp (g : Vcpu) (args : List Args) (σ : SemState)
    (run : EStateM.Result SemFault SemState Int) : Prop where
  right : ∃ σ' ws, run = .ok 0 σ' ∧ σ'.lookups = σ.lookups ++ ws ∧
    ws.map some = firstWords (layoutWord g) args 0

/-- the stack words that `get_parameter` copies are there and fit, and `ECX` is not left out, or is
the word on the stack -/
structure Laid (g : Vcpu) (args : List Args) : Prop where
  fits : args.length ≤ 23
  readable : ∀ i < 2 * args.length, (g.stackWord i).isSome
  third : args.length = 2 → (args.map Args.size).head? = some 2 →
    g.stackWord 0 = some (g.regs .ecx)

section words
variable {g : Vcpu} {n : Nat} {paras ps : List (BitVec 32)} {args : List Args}
  {word word' : Nat → Option (BitVec 32)} {k : Nat}

lemma stackParas_ok_iff (todo i : Nat) (hlen : paras.length ≤ 50) :
    stackParas g todo i paras = .ok ps ↔ paras.length + todo ≤ 50 ∧
      ∃ ws, ps = paras ++ ws ∧ ws.map some = (List.range' i todo).map g.stackWord := by
  induction todo generalizing i paras with
  | zero =>
    constructor
    · intro h
      injection h with h
      exact ⟨hlen, [], by rw [h, append_nil], rfl⟩
    · rintro ⟨-, ws, rfl, hws⟩
      rw [range'_zero, map_nil, map_eq_nil_iff] at hws
      rw [hws, append_nil]
      rfl
  | succ todo ih =>
    unfold stackParas
    rw [range'_succ, map_cons]
    cases hw : g.stackWord i with
    | none =>
      simp only [reduceCtorEq, false_iff]
      rintro ⟨-, ws, -, hws⟩
      cases ws with
      | nil | cons w ws => cases hws
    | some val =>
      unfold pushPara
      by_cases hroom : paras.length < 50
      · simp only [if_pos hroom]
        rw [ih (i + 1) (by rw [length_append]; exact hroom), length_append]
        constructor
        · rintro ⟨hle, ws, rfl, hws⟩
          refine ⟨by simp only [length_singleton] at hle; omega, val :: ws, ?_, ?_⟩
          · rw [append_assoc]
            rfl
          · rw [map_cons, hws]
        · rintro ⟨hle, ws, rfl, hws⟩
          cases ws with
          | nil => cases hws
          | cons w ws =>
            injection hws with hval hws
            injection hval with hval
            refine ⟨by simp only [length_singleton]; omega, ws, ?_, hws⟩
            rw [append_assoc, hval]
            rfl
      · simp only [if_neg hroom, reduceCtorEq, false_iff]
        rintro ⟨hle, -⟩
        omega

lemma getParameter_ok_iff : getParameter g n = .ok ps ↔ n ≤ 23 ∧
    ∃ ws, ps = g.regs .eax :: g.regs .edx :: (if n > 2 then g.regs .ecx :: ws else ws) ∧
      ws.map some = (List.range' 0 (2 * n)).map g.stackWord := by
  unfold getParameter
  by_cases hn : n > 2
  · have hroom : 3 + 2 * n ≤ 50 ↔ n ≤ 23 := by omega
    simp only [if_pos hn]
    rw [stackParas_ok_iff _ _ (by simp)]
    exact and_congr_left fun _ => hroom
  · have hroom : 2 + 2 * n ≤ 50 ↔ n ≤ 23 := by omega
    simp only [if_neg hn]
    rw [stackParas_ok_iff _ _ (by simp)]
    exact and_congr_left fun _ => hroom

lemma exists_map_some_iff {l : List (Option (BitVec 32))} :
    (∃ ws : List (BitVec 32), ws.map some = l) ↔ ∀ o ∈ l, o.isSome := by
  induction l with
  | nil => exact ⟨fun _ => by simp, fun _ => ⟨[], rfl⟩⟩
  | cons o l ih =>
    constructor
    · rintro ⟨ws, hws⟩ o' ho'
      rw [← hws] at ho'
      obtain ⟨w, -, rfl⟩ := List.mem_map.mp ho'
      rfl
    · intro h
      obtain ⟨w, hw⟩ := Option.isSome_iff_exists.mp (h o mem_cons_self)
      obtain ⟨ws, hws⟩ := ih.mpr fun o' ho' => h o' (mem_cons_of_mem _ ho')
      exact ⟨w :: ws, by rw [map_cons, hws, hw]⟩

lemma firstWords_congr (h : ∀ j < k + 2 * args.length, word j = word' j) :
    firstWords word args k = firstWords word' args k := by
  induction args generalizing k with
  | nil => rfl
  | cons a as ih =>
    rw [length_cons] at h
    have hsize : a.size ≤ 2 := by
      rcases a.size_word with hs | hs <;> omega
    unfold firstWords
    rw [h k (by omega), ih fun j hj => h j (by omega)]

lemma mem_firstWords {o : Option (BitVec 32)} (h : o ∈ firstWords word args k) :
    ∃ j < k + 2 * args.length, word j = o := by
  induction args generalizing k with
  | nil => cases h
  | cons a as ih =>
    have hsize : a.size ≤ 2 := by
      rcases a.size_word with hs | hs <;> omega
    rcases List.mem_cons.mp h with rfl | h
    · exact ⟨k, by rw [length_cons]; omega, rfl⟩
    · obtain ⟨j, hj, hw⟩ := ih h
      exact ⟨j, by rw [length_cons]; omega, hw⟩

lemma getParameter_layout (hn : n > 2) (h : getParameter g n = .ok ps) (hk : k < 3 + 2 * n) :
    ps[k]? = layoutWord g k ∧ (layoutWord g k).isSome := by
  obtain ⟨-, ws, rfl, hws⟩ := getParameter_ok_iff.mp h
  have hlen : ws.length = 2 * n := by
    have := congrArg List.length hws
    simpa using this
  rw [if_pos hn]
  match k with
  | 0 | 1 | 2 => exact ⟨rfl, rfl⟩
  | k + 3 =>
    have hk' : k < ws.length := by omega
    have hget : some ws[k] = g.stackWord k := by
      have := congrArg (fun l : List (Option (BitVec 32)) => l[k]?) hws
      simp only [List.getElem?_map, List.getElem?_eq_getElem hk',
        List.getElem?_range' (by omega : k < 2 * n)] at this
      simpa using this
    refine ⟨?_, ?_⟩
    · show ws[k]? = g.stackWord k
      rw [List.getElem?_eq_getElem hk', hget]
    · show (g.stackWord k).isSome
      rw [← hget]
      rfl

lemma getParameter_short (hn : ¬ n > 2) (h : getParameter g n = .ok ps) :
    ps[0]? = some (g.regs .eax) ∧ ps[1]? = some (g.regs .edx) ∧
      (0 < n → ps[2]? = g.stackWord 0) := by
  obtain ⟨-, ws, rfl, hws⟩ := getParameter_ok_iff.mp h
  rw [if_neg hn]
  refine ⟨rfl, rfl, fun hpos => ?_⟩
  obtain ⟨m, hm⟩ : ∃ m, 2 * n = m + 1 := ⟨2 * n - 1, by omega⟩
  rw [hm] at hws
  cases ws with
  | nil => cases hws
  | cons w ws =>
    injection hws with hw _

end words

/-! ## the lookups -/

section lookups
variable {H : Host} {t : CTree Ptr} {σ : SemState} {paras : List (BitVec 32)} {args : List Args}

lemma noteType_keeps (σ : SemState) (node : NodeType) (w : BitVec 32) (type : String) :
    (σ.noteType node w type).tree = σ.tree ∧ (σ.noteType node w type).lookups = σ.lookups := by
  unfold SemState.noteType
  split <;> exact ⟨rfl, rfl⟩

section
variable (h : IsSearchTree σ.tree t) (hf : t.ptrs.length < H.fuel)
include h hf

lemma lookupArg_ok (w : BitVec 32) (type : String) :
    ∃ σ', lookupArg H w type σ = .ok () σ' ∧ σ'.tree = σ.tree ∧
      σ'.lookups = σ.lookups ++ [w] := by
  obtain ⟨hrun, hp⟩ := h.find2_found hf w
  have hlift : liftTree (dsCodeRbtFind2 H w) { σ with lookups := σ.lookups ++ [w] } =
      .ok (foundAt H σ.tree w) { σ with lookups := σ.lookups ++ [w] } := by
    unfold liftTree
    rw [hrun]
  have hnote : (modify fun σ => { σ with lookups := σ.lookups ++ [w] } : SemM Unit) σ =
      .ok () { σ with lookups := σ.lookups ++ [w] } := rfl
  unfold lookupArg
  rw [bind_ok hnote, bind_ok hlift]
  by_cases hnull : foundAt H σ.tree w = .null
  · rw [if_pos hnull]
    exact ⟨_, rfl, rfl, rfl⟩
  have hload : liftTree (load (foundAt H σ.tree w)) { σ with lookups := σ.lookups ++ [w] } =
      .ok (σ.tree.mem (foundAt H σ.tree w)) { σ with lookups := σ.lookups ++ [w] } := by
    unfold liftTree
    rw [load_ok (h.holds.node_ne (hp hnull).1).2.2]
  rw [if_neg hnull, bind_ok hload]
  exact ⟨_, rfl, noteType_keeps ..⟩

lemma recoverArgs_ok (k : Nat) {ws : List (BitVec 32)}
    (hws : ws.map some = firstWords (paras[·]?) args k) :
    ∃ σ', recoverArgs H paras args k σ = .ok () σ' ∧ σ'.lookups = σ.lookups ++ ws := by
  induction args generalizing σ k ws with
  | nil =>
    rw [List.map_eq_nil_iff.mp hws]
    exact ⟨σ, rfl, (append_nil _).symm⟩
  | cons a as ih =>
    cases ws with
    | nil => cases hws
    | cons w ws =>
      injection hws with hw hws
      obtain ⟨σ₁, hrun₁, htree, hlook₁⟩ := lookupArg_ok h hf w a.type
      obtain ⟨σ', hrun, hlook⟩ := ih (σ := σ₁) (by rw [htree]; exact h) (k + a.size) hws
      refine ⟨σ', ?_, ?_⟩
      · have hw' : paras[k]? = some w := hw.symm
        unfold recoverArgs
        rw [hw']
        exact (bind_ok hrun₁).trans hrun
      · rw [hlook, hlook₁, append_assoc]
        rfl

lemma recoverArgs_inv {σ' : SemState} (k : Nat) (hrun : recoverArgs H paras args k σ = .ok () σ') :
    ∀ o ∈ firstWords (paras[·]?) args k, o.isSome := by
  induction args generalizing σ k with
  | nil =>
    intro o ho
    cases ho
  | cons a as ih =>
    unfold recoverArgs at hrun
    cases hw : paras[k]? with
    | none =>
      rw [hw] at hrun
      cases hrun
    | some w =>
      rw [hw] at hrun
      obtain ⟨σ₁, hrun₁, htree, -⟩ := lookupArg_ok h hf w a.type
      have hrest : recoverArgs H paras as (k + a.size) σ₁ = .ok () σ' :=
        (bind_ok hrun₁).symm.trans hrun
      intro o ho
      rcases List.mem_cons.mp ho with rfl | ho
      · show (paras[k]?).isSome
        rw [hw]
        rfl
      · exact ih (by rw [htree]; exact h) (k + a.size) hrest o ho

end

variable {funcs : BitVec 32 → Option Func} {func : Func} {g : Vcpu} {pc : BitVec 32}

lemma looksUp_iff (h : IsSearchTree σ.tree t) (hf : t.ptrs.length < H.fuel)
    (hfunc : funcs pc = some func) :
    LooksUp g func.args σ (recoverSemTypes H funcs g pc σ) ↔
      ∃ paras, getParameter g func.args.length = .ok paras ∧
        (∀ o ∈ firstWords (paras[·]?) func.args 0, o.isSome) ∧
        firstWords (paras[·]?) func.args 0 = firstWords (layoutWord g) func.args 0 := by
  have hdef : recoverSemTypes H funcs g pc = recoverFunc H g func := by
    unfold recoverSemTypes
    rw [hfunc]
  rw [hdef]
  unfold recoverFunc
  cases hpar : getParameter g func.args.length with
  | error e =>
    constructor
    · rintro ⟨σ', ws, hrun, -⟩
      cases hrun
    · rintro ⟨paras, hp, -⟩
      cases hp
  | ok paras =>
    constructor
    · rintro ⟨σ', ws, hrun, hlook, hws⟩
      obtain ⟨_, σ₁, hloop, hret⟩ := Run.bind_inv hrun
      cases hret
      have hsome := recoverArgs_inv h hf 0 hloop
      obtain ⟨ws', hws'⟩ := exists_map_some_iff.mpr hsome
      obtain ⟨σ₂, hloop₂, hlook₂⟩ := recoverArgs_ok h hf 0 hws'
      rw [hloop] at hloop₂
      cases hloop₂
      have heq : ws' = ws := append_cancel_left (hlook₂.symm.trans hlook)
      rw [heq] at hws'
      exact ⟨paras, rfl, hsome, hws'.symm.trans hws⟩
    · rintro ⟨paras', hp, hsome, heq⟩
      injection hp with hp
      subst hp
      obtain ⟨ws, hws⟩ := exists_map_some_iff.mpr hsome
      obtain ⟨σ', hloop, hlook⟩ := recoverArgs_ok h hf 0 hws
      exact ⟨σ', ws, (bind_ok hloop), hlook, hws.trans heq⟩

lemma readable_iff {n : Nat} : (∃ ws : List (BitVec 32), ws.map some =
    (List.range' 0 (2 * n)).map g.stackWord) ↔ ∀ i < 2 * n, (g.stackWord i).isSome := by
  rw [exists_map_some_iff]
  constructor
  · intro h i hi
    exact h _ (List.mem_map.mpr ⟨i, List.mem_range'_1.mpr (by omega), rfl⟩)
  · intro h o ho
    obtain ⟨i, hi, rfl⟩ := List.mem_map.mp ho
    exact h i (by have := List.mem_range'_1.mp hi; omega)

lemma Laid.getParameter_ok {args : List Args} (h : Laid g args) :
    ∃ paras, getParameter g args.length = .ok paras := by
  obtain ⟨ws, hws⟩ := readable_iff.mpr h.readable
  exact ⟨_, getParameter_ok_iff.mpr ⟨h.fits, ws, rfl, hws⟩⟩

lemma Laid.firstWords_eq {args : List Args} {paras : List (BitVec 32)} (h : Laid g args)
    (hpar : getParameter g args.length = .ok paras) :
    (∀ o ∈ firstWords (paras[·]?) args 0, o.isSome) ∧
      firstWords (paras[·]?) args 0 = firstWords (layoutWord g) args 0 := by
  by_cases hn : args.length > 2
  · have heq : firstWords (paras[·]?) args 0 = firstWords (layoutWord g) args 0 :=
      firstWords_congr fun j hj => (getParameter_layout hn hpar (by omega)).1
    refine ⟨fun o ho => ?_, heq⟩
    rw [heq] at ho
    obtain ⟨j, hj, rfl⟩ := mem_firstWords ho
    exact (getParameter_layout hn hpar (by omega)).2
  · obtain ⟨h0, h1, h2⟩ := getParameter_short hn hpar
    -- at most two arguments: only the second can start at the word that is left out
    match args, h with
    | [], _ => simp [firstWords]
    | [a], _ => simp [firstWords, h0, layoutWord]
    | [a, b], h =>
      rcases a.size_word with hs | hs
      · simp [firstWords, h0, h1, hs, layoutWord]
      · have hecx := h.third rfl (by simp [hs])
        simp [firstWords, h0, h2, hs, hecx, layoutWord]
    | _ :: _ :: _ :: _, _ => simp at hn

/-- **every argument is looked up by its first word exactly if the arguments are laid out so** -/
theorem lookups_right_iff (h : IsSearchTree σ.tree t) (hf : t.ptrs.length < H.fuel)
    (hfunc : funcs pc = some func) :
    LooksUp g func.args σ (recoverSemTypes H funcs g pc σ) ↔ Laid g func.args := by
  rw [looksUp_iff h hf hfunc]
  constructor
  · rintro ⟨paras, hpar, -, heq⟩
    obtain ⟨hfits, ws, -, hws⟩ := getParameter_ok_iff.mp hpar
    refine ⟨hfits, readable_iff.mp ⟨ws, hws⟩, fun hlen hhead => ?_⟩
    obtain ⟨-, -, h2⟩ := getParameter_short (by omega) hpar
    obtain ⟨a, b, hargs⟩ := List.length_eq_two.mp hlen
    rw [hargs] at heq hhead
    have hs : a.size = 2 := by simpa using hhead
    have hboth : paras[0]? = some (g.regs .eax) ∧ paras[2]? = some (g.regs .ecx) := by
      simpa [firstWords, hs, layoutWord] using heq
    rw [← h2 (by omega), hboth.2]
  · intro hlaid
    obtain ⟨paras, hpar⟩ := hlaid.getParameter_ok
    exact ⟨paras, hpar, hlaid.firstWords_eq hpar⟩

end lookups

/-- registers 1, 2, 3; every stack word is `0x11111111` -/
def plainGuest : Vcpu where
  regs r := match r with
    | .eax => 1
    | .edx => 2
    | .ecx => 3
    | _ => 0
  segBase _ := 0
  mem _ := some fun _ => 0x11

/-- a function whose arguments have the sizes `ns` -/
def sizedFunc (ns : List (Fin 2)) : Func where
  name := "f"
  args := ns.map fun n => ⟨n.val + 1, "int", by omega⟩

def noObjects : SemState := ⟨.init blank, fun _ _ => ∅, []⟩

theorem lookups_right_three : LooksUp plainGuest (sizedFunc [0, 1, 0]).args noObjects
    (recoverSemTypes (.bump 4) (fun _ => some (sizedFunc [0, 1, 0])) plainGuest 0 noObjects) := by
  obtain ⟨t, ht, hes⟩ := init_stores blank
  have hlen : t.ptrs.length < (Host.bump 4).fuel := by
    rw [← length_entries (TreeState.init blank) t, hes]
    decide
  exact (lookups_right_iff (σ := noObjects) ⟨ht.holds, ht.ordered⟩ hlen rfl).mpr
    ⟨by decide, by decide +kernel, by decide⟩

/-- the second of two arguments, behind one of two words, is looked up by a word of the stack -/
theorem second_lookup_wrong :
    Run.valueOf ((do
      let r ← recoverSemTypes (.bump 4) (fun _ => some (sizedFunc [1, 0])) plainGuest 0
      let σ ← get
      pure (r, σ.lookups) : SemM (Int × List (BitVec 32))) noObjects) =
        some (0, [1, 0x11111111]) ∧
    firstWords (layoutWord plainGuest) (sizedFunc [1, 0]).args 0 = [some 1, some 3] := by
  decide +kernel

end RevSem
