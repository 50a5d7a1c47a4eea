import Mathlib.Data.Finset.Card
import Mathlib.Data.Finset.Sum
import Mathlib.Data.Fintype.Card
import Mathlib.Logic.Function.Basic
import WallUnit.Foundations.Machine

/-!
Owns the discipline of a program that allocates, uses and frees named blocks: the set of
blocks it holds, and the rules by which a sequence of operations is judged a piece at a time.
A use or a free of a block that is not held, and a second allocation under a name that is, are
not steps, so a program with a run never frees twice and never uses what it has freed; a
program that ends with nothing held leaks nothing. Blocks of two kinds are judged apart
(`takes_disjSum`). Where the program keeps its blocks in named places, each held block is in
exactly one of them (`Owned`), and putting, dropping and moving a block keep that so.

Does not own addresses, sizes or contents.
-/

namespace WallUnit.Foundations

variable {Block : Type} [DecidableEq Block]

inductive HeapOp (Block : Type) where
  | alloc (block : Block)
  | use (block : Block)
  | free (block : Block)
deriving DecidableEq, Repr

def heapStep (held : Finset Block) : HeapOp Block → Option (Finset Block)
  | .alloc block => if block ∈ held then none else some (insert block held)
  | .use block => if block ∈ held then some held else none
  | .free block => if block ∈ held then some (held.erase block) else none

/-- A program that holds nothing at its start. -/
def heapMachine (Block : Type) [DecidableEq Block] : Machine (Finset Block) (HeapOp Block) where
  init := ∅
  step := heapStep

/-- The operations are all allowed and lead from one set of held blocks to the other. -/
def Takes (before : Finset Block) (ops : List (HeapOp Block)) (after : Finset Block) : Prop :=
  (heapMachine Block).runFrom before ops = some after

instance (before : Finset Block) (ops : List (HeapOp Block)) (after : Finset Block) :
    Decidable (Takes before ops after) := inferInstanceAs (Decidable (_ = _))

namespace Takes

variable {before middle after held : Finset Block} {first second ops : List (HeapOp Block)}
  {block : Block}

theorem nil (held : Finset Block) : Takes held [] held := rfl

theorem cons_iff {op : HeapOp Block} :
    Takes before (op :: ops) after ↔
      ∃ middle, heapStep before op = some middle ∧ Takes middle ops after :=
  Machine.runFrom_cons_eq_some

theorem cons {op : HeapOp Block} (step : heapStep before op = some middle)
    (rest : Takes middle ops after) : Takes before (op :: ops) after :=
  cons_iff.mpr ⟨middle, step, rest⟩

/-- Behind operations that are allowed, the rest is judged by itself. -/
theorem append_iff (left : Takes before first middle) :
    Takes before (first ++ second) after ↔ Takes middle second after := by
  rw [Takes, Takes, Machine.runFrom_append second left]

theorem append (left : Takes before first middle) (right : Takes middle second after) :
    Takes before (first ++ second) after :=
  (append_iff left).mpr right

theorem alloc (fresh : block ∉ before) (rest : Takes (insert block before) ops after) :
    Takes before (.alloc block :: ops) after :=
  cons (if_neg fresh) rest

theorem use (live : block ∈ before) (rest : Takes before ops after) :
    Takes before (.use block :: ops) after :=
  cons (if_pos live) rest

theorem free (live : block ∈ before) (rest : Takes (before.erase block) ops after) :
    Takes before (.free block :: ops) after :=
  cons (if_pos live) rest

theorem snoc {op : HeapOp Block} (past : Takes before ops middle)
    (step : heapStep middle op = some after) : Takes before (ops ++ [op]) after :=
  past.append (cons step (nil after))

/-- Uses of what is held leave it held. -/
theorem uses (live : ∀ op ∈ ops, ∃ block ∈ held, op = .use block) : Takes held ops held := by
  induction ops with
  | nil => exact nil held
  | cons op rest inductionHypothesis =>
      obtain ⟨block, member, rfl⟩ := live op List.mem_cons_self
      apply use member
      apply inductionHypothesis
      intro other below
      exact live other (List.mem_cons_of_mem _ below)

/-- A block that is allocated, used and freed again between two points. -/
theorem bracket (fresh : block ∉ held) (inside : ∀ op ∈ ops, op = .use block) :
    Takes held (.alloc block :: ops ++ [.free block]) held := by
  have member : block ∈ insert block held := Finset.mem_insert_self block held
  apply alloc fresh
  apply append (uses _)
  · apply free member
    rw [Finset.erase_insert fresh]
    exact nil held
  · intro op below
    exact ⟨block, member, inside op below⟩

end Takes

/-! ### Two kinds of blocks -/

section

variable {Kept : Type} [DecidableEq Kept]

def HeapOp.map {Other : Type} (rename : Block → Other) : HeapOp Block → HeapOp Other
  | .alloc block => .alloc (rename block)
  | .use block => .use (rename block)
  | .free block => .free (rename block)

/-- Operations on blocks of two kinds, as operations on the blocks of both. -/
def mergeOp : HeapOp Block ⊕ HeapOp Kept → HeapOp (Block ⊕ Kept) :=
  Sum.elim (HeapOp.map Sum.inl) (HeapOp.map Sum.inr)

theorem heapStep_inl (held : Finset Block) (kept : Finset Kept) (op : HeapOp Block) :
    heapStep (held.disjSum kept) (op.map Sum.inl) =
      (heapStep held op).map fun next => next.disjSum kept := by
  cases op with
  | alloc block =>
      have grown : insert (Sum.inl block) (held.disjSum kept) =
          (insert block held).disjSum kept := by
        ext (other | other) <;> simp
      simp only [HeapOp.map, heapStep, Finset.inl_mem_disjSum, grown]
      split_ifs <;> rfl
  | use block =>
      simp only [HeapOp.map, heapStep, Finset.inl_mem_disjSum]
      split_ifs <;> rfl
  | free block =>
      have shrunk : (held.disjSum kept).erase (Sum.inl block) =
          (held.erase block).disjSum kept := by
        ext (other | other) <;> simp
      simp only [HeapOp.map, heapStep, Finset.inl_mem_disjSum, shrunk]
      split_ifs <;> rfl

theorem heapStep_inr (held : Finset Block) (kept : Finset Kept) (op : HeapOp Kept) :
    heapStep (held.disjSum kept) (op.map Sum.inr) =
      (heapStep kept op).map fun next => held.disjSum next := by
  cases op with
  | alloc block =>
      have grown : insert (Sum.inr block) (held.disjSum kept) =
          held.disjSum (insert block kept) := by
        ext (other | other) <;> simp
      simp only [HeapOp.map, heapStep, Finset.inr_mem_disjSum, grown]
      split_ifs <;> rfl
  | use block =>
      simp only [HeapOp.map, heapStep, Finset.inr_mem_disjSum]
      split_ifs <;> rfl
  | free block =>
      have shrunk : (held.disjSum kept).erase (Sum.inr block) =
          held.disjSum (kept.erase block) := by
        ext (other | other) <;> simp
      simp only [HeapOp.map, heapStep, Finset.inr_mem_disjSum, shrunk]
      split_ifs <;> rfl

/-- Operations on blocks of two kinds are allowed when those on each kind are. -/
theorem takes_disjSum {ops : List (HeapOp Block ⊕ HeapOp Kept)} {before after : Finset Block}
    {keptBefore keptAfter : Finset Kept} :
    Takes (before.disjSum keptBefore) (ops.map mergeOp) (after.disjSum keptAfter) ↔
      Takes before (ops.filterMap Sum.getLeft?) after ∧
        Takes keptBefore (ops.filterMap Sum.getRight?) keptAfter := by
  induction ops generalizing before keptBefore with
  | nil =>
      simp only [List.map_nil, List.filterMap_nil, Takes, Machine.runFrom, Option.some.injEq,
        Finset.disjSum_inj]
  | cons op rest inductionHypothesis =>
      cases op with
      | inl op =>
          have lefts : (Sum.inl op :: rest).filterMap Sum.getLeft? =
              op :: rest.filterMap Sum.getLeft? := rfl
          have rights : (Sum.inl op :: rest).filterMap Sum.getRight? =
              rest.filterMap Sum.getRight? := rfl
          have step : heapStep _ (mergeOp (.inl op)) = _ := heapStep_inl before keptBefore op
          rw [List.map_cons, lefts, rights, Takes.cons_iff, Takes.cons_iff, step]
          cases heapStep before op with
          | none => simp
          | some next => simp [inductionHypothesis]
      | inr op =>
          have lefts : (Sum.inr op :: rest).filterMap Sum.getLeft? =
              rest.filterMap Sum.getLeft? := rfl
          have rights : (Sum.inr op :: rest).filterMap Sum.getRight? =
              op :: rest.filterMap Sum.getRight? := rfl
          have step : heapStep _ (mergeOp (.inr op)) = _ := heapStep_inr before keptBefore op
          rw [List.map_cons, lefts, rights, Takes.cons_iff, Takes.cons_iff, step]
          cases heapStep keptBefore op with
          | none => simp
          | some next => simp [inductionHypothesis]

end

/-! ### The places that hold the blocks -/

/-- Each held block is in exactly one place, and no place holds another. -/
structure Owned {Place : Type} (owner : Place → Option Block) (held : Finset Block) : Prop where
  covers : ∀ block, block ∈ held ↔ ∃ place, owner place = some block
  single : ∀ {one other block}, owner one = some block → owner other = some block → one = other

namespace Owned

variable {Place : Type} {owner : Place → Option Block} {held : Finset Block} {block : Block}
  {place target : Place}

omit [DecidableEq Block] in
theorem empty : Owned (fun _ : Place => (none : Option Block)) ∅ where
  covers := fun block => by simp
  single := fun same => absurd same (Option.some_ne_none _).symm

omit [DecidableEq Block] in
theorem mem (owned : Owned owner held) (owns : owner place = some block) : block ∈ held :=
  (owned.covers block).mpr ⟨place, owns⟩

omit [DecidableEq Block] in
/-- No more blocks than places. -/
theorem card_le [Fintype Place] (owned : Owned owner held) : held.card ≤ Fintype.card Place := by
  classical
  have inside : held.image some ⊆ Finset.univ.image owner := by
    intro entry member
    obtain ⟨block, below, rfl⟩ := Finset.mem_image.mp member
    obtain ⟨place, owns⟩ := (owned.covers block).mp below
    exact Finset.mem_image.mpr ⟨place, Finset.mem_univ place, owns⟩
  calc held.card = (held.image some).card :=
        (Finset.card_image_of_injective held (Option.some_injective Block)).symm
    _ ≤ (Finset.univ.image owner).card := Finset.card_le_card inside
    _ ≤ Fintype.card Place := Finset.card_image_le

variable [DecidableEq Place]

/-- A block that is not held goes into an empty place. -/
theorem put (owned : Owned owner held) (vacant : owner place = none) (fresh : block ∉ held) :
    Owned (Function.update owner place (some block)) (insert block held) := by
  have elsewhere : ∀ other, owner other ≠ some block := by
    intro other owns
    exact fresh (owned.mem owns)
  refine ⟨fun other => ?_, ?_⟩
  · rw [Finset.mem_insert, owned.covers]
    constructor
    · rintro (rfl | ⟨home, owns⟩)
      · exact ⟨place, Function.update_self ..⟩
      · refine ⟨home, ?_⟩
        have distinct : home ≠ place := by
          rintro rfl
          exact absurd (vacant.symm.trans owns) (Option.some_ne_none other).symm
        rw [Function.update_of_ne distinct, owns]
    · rintro ⟨home, owns⟩
      by_cases same : home = place
      · rw [same, Function.update_self] at owns
        exact Or.inl (Option.some.inj owns).symm
      · rw [Function.update_of_ne same] at owns
        exact Or.inr ⟨home, owns⟩
  · intro one other named first second
    by_cases here : one = place <;> by_cases there : other = place
    · rw [here, there]
    · rw [here, Function.update_self] at first
      rw [Function.update_of_ne there, ← first] at second
      exact absurd second (elsewhere other)
    · rw [there, Function.update_self] at second
      rw [Function.update_of_ne here, ← second] at first
      exact absurd first (elsewhere one)
    · rw [Function.update_of_ne here] at first
      rw [Function.update_of_ne there] at second
      exact owned.single first second

/-- The block in a place is given up. -/
theorem drop (owned : Owned owner held) (owns : owner place = some block) :
    Owned (Function.update owner place none) (held.erase block) := by
  refine ⟨fun other => ?_, ?_⟩
  · rw [Finset.mem_erase, owned.covers]
    constructor
    · rintro ⟨distinct, home, ownsOther⟩
      refine ⟨home, ?_⟩
      have elsewhere : home ≠ place := by
        rintro rfl
        exact distinct (Option.some.inj (ownsOther.symm.trans owns))
      rw [Function.update_of_ne elsewhere, ownsOther]
    · rintro ⟨home, ownsOther⟩
      by_cases same : home = place
      · rw [same, Function.update_self] at ownsOther
        exact absurd ownsOther (Option.some_ne_none other).symm
      · rw [Function.update_of_ne same] at ownsOther
        refine ⟨?_, home, ownsOther⟩
        rintro rfl
        exact same (owned.single ownsOther owns)
  · intro one other named first second
    by_cases here : one = place
    · rw [here, Function.update_self] at first
      exact absurd first (Option.some_ne_none named).symm
    · by_cases there : other = place
      · rw [there, Function.update_self] at second
        exact absurd second (Option.some_ne_none named).symm
      · rw [Function.update_of_ne here] at first
        rw [Function.update_of_ne there] at second
        exact owned.single first second

/-- A block changes its place. -/
theorem move (owned : Owned owner held) (owns : owner place = some block)
    (vacant : owner target = none) :
    Owned (Function.update (Function.update owner place none) target (some block)) held := by
  have distinct : target ≠ place := by
    rintro rfl
    exact absurd (vacant.symm.trans owns) (Option.some_ne_none block).symm
  have dropped := owned.drop owns
  have still : Function.update owner place none target = none := by
    rw [Function.update_of_ne distinct, vacant]
  have moved := dropped.put still (Finset.notMem_erase block held)
  rwa [Finset.insert_erase (owned.mem owns)] at moved

end Owned

end WallUnit.Foundations
