import SavanXP.Memory.Heap

/-!
# What a well-formed heap looks like

A view lists the arenas of the heap and the blocks of each in address order.
A state holds a view when its pointers and headers say exactly that, the
blocks of each arena fill it from its payload start to its end, and no two
free blocks are neighbours.
-/

namespace SavanXP.Heap

open SavanXP.Library SavanXP.Memory List

/-! ## Blocks that fill a range -/

structure Block where
  address : Nat
  size : Nat
  free : Bool
deriving DecidableEq

def Block.stop (b : Block) : Nat := b.address + headerSize + b.size

def Tiles : Nat → List Block → Nat → Prop
  | start, [], stop => start = stop
  | start, b :: rest, stop => b.address = start ∧ Tiles b.stop rest stop

variable {blocks : List Block}

theorem tiles_append {start stop : Nat} {front back : List Block} :
    Tiles start (front ++ back) stop ↔ ∃ middle, Tiles start front middle ∧
      Tiles middle back stop := by
  induction front generalizing start with
  | nil => exact ⟨fun tiles => ⟨start, rfl, tiles⟩, fun ⟨_, same, tiles⟩ => same ▸ tiles⟩
  | cons b front ih =>
    rw [cons_append, Tiles, ih]
    constructor
    · rintro ⟨first, middle, tiles, rest⟩
      exact ⟨middle, ⟨first, tiles⟩, rest⟩
    · rintro ⟨middle, ⟨first, tiles⟩, rest⟩
      exact ⟨first, middle, tiles, rest⟩

theorem Tiles.le {start stop : Nat} (tiles : Tiles start blocks stop) :
    start ≤ stop := by
  induction blocks generalizing start with
  | nil => exact Nat.le_of_eq tiles
  | cons b rest ih =>
    obtain ⟨rfl, tiles⟩ := tiles
    have := ih tiles
    unfold Block.stop at this
    omega

theorem Tiles.inside {start stop : Nat} (tiles : Tiles start blocks stop)
    {b : Block} (mem : b ∈ blocks) : start ≤ b.address ∧ b.stop ≤ stop := by
  induction blocks generalizing start with
  | nil => cases mem
  | cons first rest ih =>
    obtain ⟨rfl, tiles⟩ := tiles
    rcases mem_cons.mp mem with rfl | t
    · exact ⟨le_refl _, tiles.le⟩
    · have := ih tiles t
      unfold Block.stop at this ⊢
      omega

/-- Every block has a header. -/
theorem Tiles.length_le {start stop : Nat} (tiles : Tiles start blocks stop) :
    start + blocks.length ≤ stop := by
  induction blocks generalizing start with
  | nil => exact Nat.le_of_eq tiles
  | cons b rest ih =>
    obtain ⟨rfl, tiles⟩ := tiles
    have := ih tiles
    simp only [Block.stop, headerSize, length_cons] at this ⊢
    omega

/-- A block, what comes before it and what comes after it. -/
theorem Tiles.around {start stop : Nat} {front back : List Block} {b : Block}
    (tiles : Tiles start (front ++ b :: back) stop) :
    Tiles start front b.address ∧ Tiles b.stop back stop := by
  obtain ⟨middle, old, first, after⟩ := tiles_append.mp tiles
  exact ⟨first ▸ old, after⟩

/-! ## Arenas -/

structure ArenaView where
  address : Nat
  allocation : PageAllocation
  blocks : List Block

namespace ArenaView

def capacity (view : ArenaView) : Nat := view.allocation.pageCount.toNat * pageSize

def stop (view : ArenaView) : Nat := view.address + view.capacity

/-- The view with other blocks. -/
def withBlocks (view : ArenaView) (blocks : List Block) : ArenaView :=
    { view with blocks := blocks }

end ArenaView

/-- The header in memory is that of the block. -/
structure Stored (s : State) (arena : Nat) (b : Block) : Prop where
  size : (s.blocks b.address).size = b.size
  free : (s.blocks b.address).free = b.free
  arena : (s.blocks b.address).arena = some arena
  magic : (s.blocks b.address).magic = blockMagic

def nextBlock (s : State) (b : Nat) : Option Nat := (s.blocks b).next

def previousBlock (s : State) (b : Nat) : Option Nat := (s.blocks b).previous

def nextArena (s : State) (arena : Nat) : Option Nat := (s.arenas arena).next

def previousArena (s : State) (arena : Nat) : Option Nat := (s.arenas arena).previous

def Apart (first second : Block) : Prop := ¬ (first.free = true ∧ second.free = true)

structure HoldsArena (s : State) (view : ArenaView) : Prop where
  allocation : (s.arenas view.address).allocation = view.allocation
  first : (s.arenas view.address).firstBlock = (view.blocks.map Block.address).head?
  linked : Links (nextBlock s) (previousBlock s) none (view.blocks.map Block.address) none
  stored : ∀ b ∈ view.blocks, Stored s view.address b
  tiles : Tiles (arenaPayloadStart view.address) view.blocks view.stop

/-- Two arenas that share no byte. -/
def Disjoint (first second : ArenaView) : Prop :=
  first.stop ≤ second.address ∨ second.stop ≤ first.address

structure Holds (s : State) (views : List ArenaView) : Prop where
  first : s.firstArena = (views.map ArenaView.address).head?
  linked : Links (nextArena s) (previousArena s) none (views.map ArenaView.address) none
  count : s.arenaCount = views.length
  arenas : ∀ view ∈ views, HoldsArena s view
  settled : ∀ view ∈ views, view.blocks.IsChain Apart
  apart : views.Pairwise Disjoint

theorem Disjoint.symm {first second : ArenaView} (disjoint : Disjoint first second) :
    Disjoint second first :=
  Or.symm disjoint

instance : Std.Symm Disjoint := ⟨fun _ _ => Disjoint.symm⟩

/-- Only the headers of its blocks and its own record matter to an arena. -/
theorem HoldsArena.frame {s s' : State} {view : ArenaView} (holds : HoldsArena s view)
    (sameBlocks : ∀ b ∈ view.blocks, s'.blocks b.address = s.blocks b.address)
    (sameAllocation : (s'.arenas view.address).allocation = (s.arenas view.address).allocation)
    (sameFirst : (s'.arenas view.address).firstBlock = (s.arenas view.address).firstBlock) :
    HoldsArena s' view := by
  refine ⟨sameAllocation.trans holds.allocation, sameFirst.trans holds.first, ?_, ?_, holds.tiles⟩
  · refine holds.linked.congr ?_ ?_
    · intro a mem
      obtain ⟨b, ins, rfl⟩ := mem_map.mp mem
      exact congrArg BlockHeader.next (sameBlocks b ins)
    · intro a mem
      obtain ⟨b, ins, rfl⟩ := mem_map.mp mem
      exact congrArg BlockHeader.previous (sameBlocks b ins)
  · intro b ins
    have same := sameBlocks b ins
    have stored := holds.stored b ins
    exact ⟨same ▸ stored.size, same ▸ stored.free, same ▸ stored.arena, same ▸ stored.magic⟩

/-- Different blocks do not meet. -/
theorem Tiles.apart {start stop : Nat} (tiles : Tiles start blocks stop)
    {b o : Block} (mem : b ∈ blocks) (other : o ∈ blocks) (different : o ≠ b) :
    o.stop ≤ b.address ∨ b.stop ≤ o.address := by
  obtain ⟨front, back, rfl⟩ := append_of_mem mem
  obtain ⟨before, after⟩ := tiles.around
  rcases mem_append.mp other with ins | ins
  · exact .inl (before.inside ins).2
  · exact .inr (after.inside ((mem_cons.mp ins).resolve_left different)).1

theorem HoldsArena.inside {s : State} {view : ArenaView} (holds : HoldsArena s view)
    {b : Block} (mem : b ∈ view.blocks) :
    arenaPayloadStart view.address ≤ b.address ∧ b.stop ≤ view.stop :=
  holds.tiles.inside mem

theorem Holds.apart_blocks {s : State} {views : List ArenaView} (holds : Holds s views)
    {view other : ArenaView} {b o : Block} (ins : view ∈ views) (mem : b ∈ view.blocks)
    (among : other ∈ views) (ofOther : o ∈ other.blocks) (different : o ≠ b) :
    o.stop ≤ b.address ∨ b.stop ≤ o.address := by
  by_cases same : other = view
  · subst same
    exact (holds.arenas other ins).tiles.apart mem ofOther different
  have disjoint := holds.apart.forall among ins same
  have here := (holds.arenas view ins).inside mem
  have there := (holds.arenas other among).inside ofOther
  simp only [arenaPayloadStart, Disjoint] at disjoint here there
  omega

end SavanXP.Heap
