import SavanXP.Memory.HeapSteps
import SavanXP.Memory.PageConservation

/-!
# Searching, taking and returning arenas

The search for room looks at the blocks of the arenas in list order.  A fresh
arena is one free block, with room for the request it was made for unless the
rounding to pages leaves less than its alignment needs.
-/

namespace SavanXP.Heap

open SavanXP.Library SavanXP.Memory List

/-! ## Alignment -/

theorem alignUp_bounds {v alignment : Nat} (positive : 0 < alignment)
    (small : v + (alignment - 1) < 2 ^ 64) :
    v ≤ alignUp v alignment ∧ alignUp v alignment < v + alignment ∧
      alignment ∣ alignUp v alignment := by
  rw [alignUp, alignDown, wrap_of_lt small]
  have parts := Nat.div_add_mod (v + (alignment - 1)) alignment
  have rest := Nat.mod_lt (v + (alignment - 1)) positive
  rw [Nat.mul_comm] at parts
  exact ⟨by omega, by omega, Nat.dvd_mul_left _ _⟩

theorem alignUp_lt (v alignment : Nat) : alignUp v alignment < 2 ^ 64 :=
  (Nat.div_mul_le_self _ _).trans_lt (Nat.mod_lt _ (by decide))

/-- The alignments the heap works with: powers of two from 16 on. -/
structure Alignment (alignment : Nat) : Prop where
  power : ∃ exponent, alignment = 2 ^ exponent
  least : minimumAlignment ≤ alignment

variable {alignment : Nat}

theorem normalizeAlignment_alignment (align : Nat) : Alignment (normalizeAlignment align) := by
  unfold normalizeAlignment
  split
  · exact ⟨⟨4, rfl⟩, le_refl _⟩
  · next proper =>
    rw [not_or, Bool.not_eq_false, Nat.not_lt] at proper
    have nonzero_single := of_decide_eq_true proper.1
    exact ⟨(Nat.and_sub_one_eq_zero_iff_isPowerOfTwo nonzero_single.1).mp nonzero_single.2,
      proper.2⟩

theorem normalizeAlignment_le (align : Nat) :
    normalizeAlignment align ≤ max align minimumAlignment := by
  unfold normalizeAlignment
  split
  · exact le_max_right ..
  · exact le_max_left ..

theorem Alignment.positive (proper : Alignment alignment) : 0 < alignment :=
  Nat.lt_of_lt_of_le (by decide) proper.least

/-- Small alignments are four; the others are multiples of 256. -/
theorem Alignment.cases (proper : Alignment alignment) :
    alignment = 16 ∨ alignment = 32 ∨ alignment = 64 ∨ alignment = 128 ∨ 256 ∣ alignment := by
  obtain ⟨⟨exponent, rfl⟩, least⟩ := proper
  rcases Nat.lt_or_ge exponent 8 with low | high
  · unfold minimumAlignment at least
    interval_cases exponent <;> simp_all
  · exact .inr (.inr (.inr (.inr (Nat.pow_dvd_pow 2 high))))

/-! ## Fitting an allocation into a block -/

variable {b : Block} {size rounds payload start stop : Nat} {lay : AllocationLayout}

/-- One round of the search, where the payload does not wrap. -/
theorem layoutFrom_succ (low : start + 48 ≤ payload) (high : payload + alignment < 2 ^ 64) :
    layoutFrom start stop size alignment (rounds + 1) payload =
      if stop < wrap (payload + size) then none
      else if payload = start + 48 ∨ start + 112 ≤ payload then
        some ⟨payload - 48, payload - 48 - start, stop - wrap (payload + size)⟩
      else layoutFrom start stop size alignment rounds
        (alignUp (payload + alignment) alignment) := by
  have header_eq : wrap (payload + 2 ^ 64 - headerSize) = payload - 48 := by
    unfold wrap headerSize
    omega
  have end_eq : payload - 48 + headerSize + size = payload + size := by
    unfold headerSize
    omega
  have inside : ¬ payload - 48 < start := by omega
  have spaced : payload - 48 - start = 0 ∨ minimumBlockSpan ≤ payload - 48 - start ↔
      payload = start + 48 ∨ start + 112 ≤ payload := by
    unfold minimumBlockSpan headerSize minimumAlignment
    omega
  rw [layoutFrom, header_eq, end_eq, wrap_of_lt high]
  simp only [inside, false_or, spaced]

theorem layoutFrom_placed (positive : 0 < alignment)
    (bound : b.address + 112 + 3 * alignment + size < 2 ^ 64)
    (low : b.address + headerSize ≤ payload) (high : payload ≤ b.address + 112 + 2 * alignment)
    (aligned : alignment ∣ payload)
    (found : layoutFrom b.address b.stop size alignment rounds payload = some lay) :
    Placed b size lay ∧ alignment ∣ lay.headerAddress + headerSize := by
  induction rounds generalizing payload with
  | zero => cases found
  | succ rounds ih =>
    unfold headerSize at low
    rw [layoutFrom_succ low (by omega), wrap_of_lt (by omega)] at found
    split at found
    · cases found
    next ins =>
    split at found
    · next spaced =>
      cases found
      refine ⟨⟨by dsimp only; omega, ?_, by dsimp only [headerSize]; omega⟩, ?_⟩
      · unfold minimumBlockSpan headerSize minimumAlignment
        dsimp only
        omega
      rw [headerSize, Nat.sub_add_cancel (by omega)]
      exact aligned
    · next cramped =>
      have bounds := @alignUp_bounds (payload + alignment) alignment positive (by omega)
      exact ih (by unfold headerSize; omega) (by omega) bounds.2.2 found

variable {s : State}

/-- The addresses where a layout can be computed without overflow. -/
structure Reaches (b : Block) (size alignment : Nat) : Prop where
  positive : 0 < alignment
  sum : b.address + 112 + 3 * alignment + size < 2 ^ 64
  stop : b.stop < 2 ^ 64

theorem computeLayout_placed {arena : Nat} (stored : Stored s arena b)
    (reaches : Reaches b size alignment)
    (found : computeLayout (s.blocks b.address) b.address size alignment = some lay) :
    b.free = true ∧ Placed b size lay ∧ alignment ∣ lay.headerAddress + headerSize := by
  obtain ⟨positive, sum, stop⟩ := reaches
  unfold computeLayout at found
  rw [stored.free, stored.size] at found
  split at found
  · cases found
  next free =>
  have end_eq : wrap (b.address + headerSize + b.size) = b.stop := wrap_of_lt stop
  have start_eq : wrap (b.address + headerSize) = b.address + headerSize := by
    unfold wrap headerSize
    omega
  rw [end_eq, start_eq] at found
  unfold headerSize at found
  have bounds := @alignUp_bounds (b.address + 48) alignment positive (by omega)
  exact ⟨Bool.not_eq_false _ |>.mp free,
    layoutFrom_placed positive sum (by unfold headerSize; omega) (by omega) bounds.2.2 found⟩

/-! ## Fitting an allocation into a fresh arena -/

theorem arenaPayloadStart_eq (arena : Nat) : arenaPayloadStart arena = arena + 48 := rfl

/-- The requests, after rounding, that can be added to an address with `spare`
bytes above it. -/
structure Request (spare size alignment : Nat) : Prop where
  sum : size + 3 * alignment + pageSize + 128 ≤ spare
  alignment : Alignment alignment

theorem arenaPages_bytes (size alignment : Nat) : arenaPages size alignment * pageSize < 2 ^ 64 :=
  (Nat.div_mul_le_self _ _).trans_lt (Nat.mod_lt _ (by decide))

/-- What the size of an arena does for its request: it is enough for the payload
and the alignment, or the sum of these wrapped and the arena has the least size. -/
inductive Covers (size alignment : Nat) : Prop
  | enough (capacity : 96 + size + alignment ≤ arenaPages size alignment * pageSize)
  | wrapped (beyond : 2 ^ 64 ≤ 96 + size + alignment) (small : size < 2 ^ 64)
      (low : alignment ≤ pageSize) (least : arenaPages size alignment * pageSize = 0x10000)

theorem arenaPages_enough (small : 96 + size + alignment + pageSize ≤ 2 ^ 64) :
    Covers size alignment := by
  have rounded : alignUp arenaSize minimumAlignment = 48 := by decide
  refine .enough ?_
  unfold arenaPages
  rw [rounded]
  unfold wrap headerSize defaultArenaPages
  unfold pageSize at *
  dsimp only
  split <;> omega

/-- An arena that is not without pages covers its request. -/
theorem arenaPages_covers (small : size < 2 ^ 64) (low : alignment ≤ pageSize)
    (positive : arenaPages size alignment ≠ 0) : Covers size alignment := by
  by_cases fits : 96 + size + alignment + pageSize ≤ 2 ^ 64
  · exact arenaPages_enough fits
  have rounded : alignUp arenaSize minimumAlignment = 48 := by decide
  have pages : arenaPages size alignment = if 2 ^ 64 ≤ 96 + size + alignment then 16 else 0 := by
    unfold arenaPages
    rw [rounded]
    unfold wrap headerSize defaultArenaPages
    unfold pageSize at *
    dsimp only
    split <;> split <;> omega
  rw [pages] at positive
  split at positive
  · next beyond =>
    refine .wrapped beyond small low ?_
    rw [pages, if_pos beyond]
    rfl
  · exact absurd rfl positive

/-- The requests that an arena made for them can hold.  At the alignments 64 and
128 the first aligned payload leaves too short a block before it, so the
payload starts one alignment later than the arena's size allows for.  Where the
size of the arena wraps, the end of the payload wraps too and looks near. -/
def Roomy (size alignment : Nat) : Prop :=
  alignment = 64 ∨ alignment = 128 → 96 + size + alignment < 2 ^ 64 →
    alignment + 128 + size ≤ arenaPages size alignment * pageSize

instance (size alignment : Nat) : Decidable (Roomy size alignment) :=
  inferInstanceAs (Decidable (_ → _ → _))

theorem alignUp_eq {v alignment target : Nat} (aligned : alignment ∣ target)
    (near : v + (alignment - 1) < 2 ^ 64 ∧ v ≤ target ∧ target < v + alignment) :
    alignUp v alignment = target := by
  obtain ⟨low, high, divides⟩ := @alignUp_bounds v alignment (by omega) near.1
  obtain ⟨first, isFirst⟩ := divides
  obtain ⟨second, rfl⟩ := aligned
  rw [isFirst] at low high ⊢
  have upper : first < second + 1 := Nat.lt_of_mul_lt_mul_left (a := alignment)
    (by rw [Nat.mul_succ]; omega)
  have lower : second < first + 1 := Nat.lt_of_mul_lt_mul_left (a := alignment)
    (by rw [Nat.mul_succ]; omega)
  rw [show first = second by omega]

/-- The layout at the first aligned payload, where that leaves no block before it
or one of its own. -/
theorem layoutFrom_here (low : start + 48 ≤ payload) (high : payload + alignment < 2 ^ 64)
    (spaced : payload = start + 48 ∨ start + 112 ≤ payload) :
    (layoutFrom start stop size alignment (rounds + 1) payload).isSome ↔
      wrap (payload + size) ≤ stop := by
  rw [layoutFrom_succ low high, if_pos spaced]
  split <;> simp <;> omega

theorem layoutFrom_further (high : payload + alignment < 2 ^ 64)
    (cramped : start + 48 < payload ∧ payload < start + 112) (fits : wrap (payload + size) ≤ stop) :
    layoutFrom start stop size alignment (rounds + 1) payload =
      layoutFrom start stop size alignment rounds (alignUp (payload + alignment) alignment) := by
  rw [layoutFrom_succ (by omega) high, if_neg (by omega), if_neg (by omega)]

/-- A request fits into the arena made for it exactly when it is roomy. -/
theorem computeLayout_fresh {hdr : BlockHeader} {arena size alignment : Nat}
    (covers : Covers size alignment) (proper : Alignment alignment) (aligned : pageSize ∣ arena)
    (low : 2 * pageSize ≤ arena)
    (bound : arena + arenaPages size alignment * pageSize + alignment + pageSize ≤ 2 ^ 64)
    (free : hdr.free = true) (whole : hdr.size = arenaPages size alignment * pageSize - 96) :
    (computeLayout hdr (arenaPayloadStart arena) size alignment).isSome ↔ Roomy size alignment := by
  have bytes : (96 + size + alignment < 2 ^ 64 ∧
        96 + size + alignment ≤ arenaPages size alignment * pageSize) ∨
      (2 ^ 64 ≤ 96 + size + alignment ∧ size < 2 ^ 64 ∧ alignment ≤ pageSize ∧
        arenaPages size alignment * pageSize = 0x10000) := by
    have := arenaPages_bytes size alignment
    cases covers with
    | enough capacity => exact .inl ⟨by omega, capacity⟩
    | wrapped beyond small low least => exact .inr ⟨beyond, small, low, least⟩
  unfold computeLayout
  rw [if_neg (by rw [free]; exact nofun), arenaPayloadStart_eq, whole]
  unfold headerSize
  unfold Roomy
  generalize arenaPages size alignment * pageSize = pages at *
  unfold pageSize at *
  rw [wrap_of_lt (show arena + 48 + 48 + (pages - 96) < 2 ^ 64 by omega),
    wrap_of_lt (show arena + 48 + 48 < 2 ^ 64 by omega)]
  -- the first payload is at 96 or 128 bytes, or beyond the place for a block of its own
  rcases proper.cases with rfl | rfl | rfl | rfl | large
  · rw [@alignUp_eq _ 16 (arena + 96) (by omega) (by omega),
      layoutFrom_here (by omega) (by omega) (by omega), wrap]
    omega
  · rw [@alignUp_eq _ 32 (arena + 96) (by omega) (by omega),
      layoutFrom_here (by omega) (by omega) (by omega), wrap]
    omega
  · rw [@alignUp_eq _ 64 (arena + 128) (by omega) (by omega),
      layoutFrom_further (by omega) (by omega) (by unfold wrap; omega),
      @alignUp_eq _ 64 (arena + 192) (by omega) (by omega),
      layoutFrom_here (by omega) (by omega) (by omega), wrap]
    omega
  · rw [@alignUp_eq _ 128 (arena + 128) (by omega) (by omega),
      layoutFrom_further (by omega) (by omega) (by unfold wrap; omega),
      @alignUp_eq _ 128 (arena + 256) (by omega) (by omega),
      layoutFrom_here (by omega) (by omega) (by omega), wrap]
    omega
  · have payload := @alignUp_bounds (arena + 48 + 48) alignment proper.positive (by omega)
    have divides : 256 ∣ alignUp (arena + 48 + 48) alignment := large.trans payload.2.2
    rw [layoutFrom_here (by omega) (by omega) (by omega), wrap]
    omega

/-! ## Searching -/

variable {blocks : List Block} {choice : Nat × AllocationLayout} {old : Option Nat}

/-- Following the blocks of one arena. -/
theorem findBlock_found
    (linked : Links (nextBlock s) (previousBlock s) old (blocks.map Block.address) none)
    (res : findBlock s size alignment rounds (blocks.map Block.address).head? = some choice) :
    ∃ b ∈ blocks, b.address = choice.1 ∧
      computeLayout (s.blocks b.address) b.address size alignment = some choice.2 := by
  induction rounds generalizing old blocks with
  | zero => cases res
  | succ rounds ih =>
    cases blocks with
    | nil => cases res
    | cons b rest =>
      obtain ⟨_, isNext, linked⟩ := linked
      rw [map_cons, head?_cons, findBlock] at res
      split at res
      · next lay fits =>
        cases res
        exact ⟨b, mem_cons_self, rfl, fits⟩
      · rw [Option.or_none] at isNext
        rw [show (s.blocks b.address).next = _ from isNext] at res
        obtain ⟨o, mem, facts⟩ := ih linked res
        exact ⟨o, mem_cons_of_mem b mem, facts⟩

variable {views : List ArenaView}

theorem findInArenas_found
    (linked : Links (nextArena s) (previousArena s) old (views.map ArenaView.address) none)
    (arenas : ∀ view ∈ views, HoldsArena s view)
    (res : findInArenas s size alignment rounds (views.map ArenaView.address).head? = some choice) :
    ∃ view ∈ views, ∃ b ∈ view.blocks, b.address = choice.1 ∧
      computeLayout (s.blocks b.address) b.address size alignment = some choice.2 := by
  induction rounds generalizing old views with
  | zero => cases res
  | succ rounds ih =>
    cases views with
    | nil => cases res
    | cons view rest =>
      obtain ⟨_, isNext, linked⟩ := linked
      rw [forall_mem_cons] at arenas
      rw [map_cons, head?_cons, findInArenas, arenas.1.first] at res
      split at res
      · next here fits =>
        cases res
        exact ⟨view, mem_cons_self, findBlock_found arenas.1.linked fits⟩
      · rw [Option.or_none] at isNext
        rw [show (s.arenas view.address).next = _ from isNext] at res
        obtain ⟨o, mem, facts⟩ := ih linked arenas.2 res
        exact ⟨o, mem_cons_of_mem view mem, facts⟩

theorem Holds.found (holds : Holds s views)
    (res : findAllocatedBlock s size alignment = some choice) :
    ∃ view ∈ views, ∃ b ∈ view.blocks, b.address = choice.1 ∧
      computeLayout (s.blocks b.address) b.address size alignment = some choice.2 := by
  unfold findAllocatedBlock at res
  rw [holds.first] at res
  exact findInArenas_found holds.linked holds.arenas res

theorem findBlock_none
    (linked : Links (nextBlock s) (previousBlock s) old (blocks.map Block.address) none)
    (long : blocks.length ≤ rounds)
    (res : findBlock s size alignment rounds (blocks.map Block.address).head? = none) :
    ∀ b ∈ blocks, computeLayout (s.blocks b.address) b.address size alignment = none := by
  induction rounds generalizing old blocks with
  | zero =>
    rw [length_eq_zero_iff.mp (Nat.le_zero.mp long)]
    exact forall_mem_nil _
  | succ rounds ih =>
    cases blocks with
    | nil => exact forall_mem_nil _
    | cons b rest =>
      obtain ⟨_, isNext, linked⟩ := linked
      rw [map_cons, head?_cons, findBlock] at res
      split at res
      · cases res
      · next unfit =>
        rw [Option.or_none] at isNext
        rw [show (s.blocks b.address).next = _ from isNext] at res
        exact forall_mem_cons.mpr ⟨unfit, ih linked (Nat.le_of_succ_le_succ long) res⟩

theorem findInArenas_none
    (linked : Links (nextArena s) (previousArena s) old (views.map ArenaView.address) none)
    (arenas : ∀ view ∈ views, HoldsArena s view) (long : views.length ≤ rounds)
    (res : findInArenas s size alignment rounds (views.map ArenaView.address).head? = none) :
    ∀ view ∈ views, ∀ b ∈ view.blocks,
      computeLayout (s.blocks b.address) b.address size alignment = none := by
  induction rounds generalizing old views with
  | zero =>
    rw [length_eq_zero_iff.mp (Nat.le_zero.mp long)]
    exact forall_mem_nil _
  | succ rounds ih =>
    cases views with
    | nil => exact forall_mem_nil _
    | cons view rest =>
      obtain ⟨_, isNext, linked⟩ := linked
      rw [forall_mem_cons] at arenas
      rw [map_cons, head?_cons, findInArenas, arenas.1.first] at res
      split at res
      · cases res
      · next unfit =>
        rw [Option.or_none] at isNext
        rw [show (s.arenas view.address).next = _ from isNext] at res
        have fewer : view.blocks.length ≤ s.rounds (some view.address) := by
          have tiled := arenas.1.tiles.length_le
          rw [State.rounds, Arena.capacity, arenas.1.allocation]
          simp only [ArenaView.stop, ArenaView.capacity, arenaPayloadStart_eq] at tiled
          omega
        exact forall_mem_cons.mpr ⟨findBlock_none arenas.1.linked fewer unfit,
          ih linked arenas.2 (Nat.le_of_succ_le_succ long) res⟩

/-- The search fails exactly when no block fits. -/
theorem Holds.unfit_iff (holds : Holds s views) :
    findAllocatedBlock s size alignment = none ↔ ∀ view ∈ views, ∀ b ∈ view.blocks,
      computeLayout (s.blocks b.address) b.address size alignment = none := by
  constructor
  · intro res
    unfold findAllocatedBlock at res
    rw [holds.first, holds.count] at res
    exact findInArenas_none holds.linked holds.arenas le_rfl res
  · intro unfit
    by_contra found
    obtain ⟨choice, res⟩ := Option.ne_none_iff_exists'.mp found
    obtain ⟨view, ins, b, mem, _, fits⟩ := holds.found res
    rw [unfit view ins b mem] at fits
    cases fits

/-- Whether a block fits is a matter of its size and whether it is free. -/
theorem Stored.computeLayout {s s' : State} {arena : Nat} (stored : Stored s arena b)
    (stored' : Stored s' arena b) :
    computeLayout (s'.blocks b.address) b.address size alignment =
      computeLayout (s.blocks b.address) b.address size alignment := by
  unfold Heap.computeLayout
  rw [stored.free, stored.size, stored'.free, stored'.size]

variable {view : ArenaView}

/-- The search finds a first block that fits. -/
theorem Holds.finds {rest : List Block} (holds : Holds s (view :: views))
    (blocks : view.blocks = b :: rest)
    (fits : computeLayout (s.blocks b.address) b.address size alignment = some lay) :
    findAllocatedBlock s size alignment = some (b.address, lay) := by
  have arena := holds.arenas view mem_cons_self
  obtain ⟨rounds, long⟩ := arena.long (show b ∈ view.blocks by rw [blocks]; exact mem_cons_self)
  rw [findAllocatedBlock, holds.first, holds.count, map_cons, head?_cons, length_cons,
    findInArenas, arena.first, blocks, map_cons, head?_cons, State.rounds, long, findBlock, fits]

/-! ## One arena among others -/

/-- Only the headers, the arena records and the list of arenas matter. -/
theorem Holds.congr {s s' : State} (holds : Holds s views)
    (blocks : s'.blocks = s.blocks) (arenas : s'.arenas = s.arenas)
    (first : s'.firstArena = s.firstArena) (n : s'.arenaCount = s.arenaCount) : Holds s' views := by
  refine ⟨first.trans holds.first, holds.linked.congr ?_ ?_, n.trans holds.count, ?_, holds.settled,
    holds.apart⟩
  · exact fun _ _ => by rw [nextArena, nextArena, arenas]
  · exact fun _ _ => by rw [previousArena, previousArena, arenas]
  · intro view ins
    exact (holds.arenas view ins).frame (fun _ _ => congrFun blocks _) (by rw [arenas])
      (by rw [arenas])

/-- The headers of an arena lie outside any other. -/
theorem HoldsArena.away {o : ArenaView} (holds : HoldsArena s o)
    (disjoint : Disjoint view o) (ins : b ∈ o.blocks) :
    b.address < view.address ∨ view.stop ≤ b.address := by
  obtain ⟨low, high⟩ := holds.inside ins
  simp only [Block.stop, headerSize, arenaPayloadStart] at low high
  unfold Disjoint at disjoint
  omega

theorem Holds.update {s s' : State} {old after : List ArenaView}
    (holds : Holds s (old ++ view :: after))
    (rewritten : Rewritten s s' view blocks) (settled : blocks.IsChain Apart) :
    Holds s' (old ++ view.withBlocks blocks :: after) := by
  have addresses : (old ++ view.withBlocks blocks :: after).map ArenaView.address =
      (old ++ view :: after).map ArenaView.address := by
    simp [ArenaView.withBlocks]
  have apart := pairwise_append.mp holds.apart
  obtain ⟨afterApart, restApart⟩ := pairwise_cons.mp apart.2.1
  have others : ∀ o, (o ∈ old ∨ o ∈ after) → HoldsArena s' o := by
    intro o mem
    have disjoint : Disjoint view o := mem.elim
      (fun ins => (apart.2.2 o ins view mem_cons_self).symm) (afterApart o)
    have held := holds.arenas o (mem_append.mpr (mem.imp_right (mem_cons_of_mem view)))
    exact held.frame (fun b ins => rewritten.outside _ (held.away disjoint ins))
      (by rw [rewritten.arenas]) (by rw [rewritten.arenas])
  have everySettled := forall_mem_append.mp holds.settled
  refine ⟨?_, ?_, ?_, ?_, ?_, ?_⟩
  · rw [addresses]
    exact (congrArg Globals.firstArena rewritten.globals).trans holds.first
  · rw [addresses]
    exact holds.linked.congr (fun _ _ => by rw [nextArena, nextArena, rewritten.arenas])
      fun _ _ => by rw [previousArena, previousArena, rewritten.arenas]
  · rw [show s'.arenaCount = s.arenaCount from congrArg Globals.arenaCount rewritten.globals]
    simpa using holds.count
  · exact forall_mem_append.mpr ⟨fun o ins => others o (.inl ins),
      forall_mem_cons.mpr ⟨rewritten.holds, fun o ins => others o (.inr ins)⟩⟩
  · exact forall_mem_append.mpr ⟨everySettled.1,
      forall_mem_cons.mpr ⟨settled, (forall_mem_cons.mp everySettled.2).2⟩⟩
  · refine pairwise_append.mpr ⟨apart.1, pairwise_cons.mpr ⟨afterApart, restApart⟩, ?_⟩
    intro o ins
    exact forall_mem_cons.mpr ⟨apart.2.2 o ins view mem_cons_self,
      fun another t => apart.2.2 o ins another (mem_cons_of_mem view t)⟩

/-! ## Opening an arena -/

theorem Arena.initialBlockSize_eq (arena : Arena) :
    arena.initialBlockSize = arena.capacity - 96 := by
  have rounded : alignUp arenaSize minimumAlignment = 48 := by decide
  rw [Arena.initialBlockSize, rounded, headerSize, Nat.sub_sub]

/-- An arena that is one free block. -/
def freshView (allocation : PageAllocation) : ArenaView :=
  ⟨allocation.virtualAddress, allocation,
    [⟨arenaPayloadStart allocation.virtualAddress,
      allocation.pageCount.toNat * pageSize - 96, true⟩]⟩

section Open

variable {s : State} {allocation : PageAllocation}
  (fresh : s.firstArena ≠ some allocation.virtualAddress)

include fresh

theorem openArena_blocks (address : Nat) : (openArena s allocation).blocks address =
    if address = arenaPayloadStart allocation.virtualAddress then
      ⟨allocation.pageCount.toNat * pageSize - 96, some allocation.virtualAddress, none, none,
        blockMagic,
        true⟩ else s.blocks address := by
  unfold openArena stampBlock
  simp only [setArena_blocks, setBlock_blocks, setArenaIf_blocks, Arena.initialBlockSize_eq,
    setArenaIf_arenas, setArena_arenas, fresh, if_true, if_false]
  split <;> rfl

theorem openArena_arenas (address : Nat) : (openArena s allocation).arenas address =
    if address = allocation.virtualAddress then
      ⟨allocation, s.firstArena, none, some (arenaPayloadStart allocation.virtualAddress)⟩
    else if s.firstArena = some address then
      { s.arenas address with previous := some allocation.virtualAddress }
    else s.arenas address := by
  unfold openArena stampBlock
  simp only [setArena_arenas, setBlock_arenas, setArenaIf_arenas, fresh, if_true, if_false]
  split <;> rfl

end Open

theorem openArena_arenaCount (s : State) (allocation : PageAllocation) :
    (openArena s allocation).arenaCount = s.arenaCount + 1 := by
  have kept := congrArg Globals.arenaCount (setArenaIf_globals
    (s.setArena allocation.virtualAddress fun hdr =>
      { hdr with allocation := allocation, next := s.firstArena, previous := none })
    s.firstArena fun hdr => { hdr with previous := some allocation.virtualAddress })
  exact congrArg Nat.succ kept

theorem freshView_tiles {allocation : PageAllocation}
    (long : 96 ≤ allocation.pageCount.toNat * pageSize) :
    Tiles (arenaPayloadStart (freshView allocation).address) (freshView allocation).blocks
      (freshView allocation).stop := by
  refine ⟨rfl, ?_⟩
  simp only [Tiles, Block.stop, freshView, ArenaView.stop, ArenaView.capacity, arenaPayloadStart_eq,
    headerSize]
  omega

theorem head_not_mem_tail {nodes : List Nat} {node : Nat} (distinct : nodes.Nodup)
    (isHead : nodes.head? = some node) : node ∉ nodes.tail := by
  obtain ⟨rest, rfl⟩ := head?_eq_some_iff.mp isHead
  exact (nodup_cons.mp distinct).1

theorem Holds.distinct (holds : Holds s views) : (views.map ArenaView.address).Nodup := by
  refine pairwise_map.mpr (holds.apart.imp_of_mem ?_)
  intro first second inFirst inSecond disjoint same
  have firstLong := (holds.arenas first inFirst).tiles.le
  have secondLong := (holds.arenas second inSecond).tiles.le
  simp only [Disjoint, arenaPayloadStart_eq] at disjoint firstLong secondLong
  omega

/-- A fresh arena comes first in the list and leaves the others as they are. -/
theorem Holds.openArena {allocation : PageAllocation} (holds : Holds s views)
    (long : 96 ≤ allocation.pageCount.toNat * pageSize)
    (apart : ∀ view ∈ views, Disjoint (freshView allocation) view) :
    Holds (openArena s allocation) (freshView allocation :: views) := by
  have elsewhere : ∀ view ∈ views, view.address ≠ allocation.virtualAddress := by
    intro view ins same
    have disjoint := apart view ins
    have tiles := (holds.arenas view ins).tiles.le
    simp only [Disjoint, freshView, ArenaView.stop, ArenaView.capacity, arenaPayloadStart_eq]
      at disjoint tiles
    omega
  have fresh : s.firstArena ≠ some allocation.virtualAddress := by
    rw [holds.first]
    intro same
    rw [head?_map] at same
    obtain ⟨view, isHead, eq⟩ := Option.map_eq_some_iff.mp same
    exact elsewhere view (mem_of_head? isHead) eq
  have blocks := openArena_blocks fresh
  have arenas := openArena_arenas fresh
  have r := (arenas allocation.virtualAddress).trans (if_pos rfl)
  have initial := (blocks (arenaPayloadStart allocation.virtualAddress)).trans (if_pos rfl)
  refine ⟨rfl, ⟨congrArg Arena.previous r, ?_, ?_⟩, ?_, ?_, ?_,
    pairwise_cons.mpr ⟨apart, holds.apart⟩⟩
  · rw [Option.or_none, ← holds.first]
    exact congrArg Arena.next r
  · refine holds.linked.changeBefore _ ?_ ?_ ?_
    · intro address ins
      obtain ⟨view, mem, rfl⟩ := mem_map.mp ins
      rw [nextArena, arenas, if_neg (elsewhere view mem)]
      split <;> rfl
    · intro address isHead
      rw [← holds.first] at isHead
      rw [previousArena, arenas, if_neg fun same => fresh (isHead.trans (congrArg some same)),
        if_pos isHead]
      rfl
    · intro address ins
      have notFirst : s.firstArena ≠ some address :=
        fun same => head_not_mem_tail holds.distinct (holds.first ▸ same) ins
      obtain ⟨view, mem, rfl⟩ := mem_map.mp (mem_of_mem_tail ins)
      rw [previousArena, arenas, if_neg (elsewhere view mem), if_neg notFirst]
      rfl
  · rw [openArena_arenaCount, holds.count]
    rfl
  · refine forall_mem_cons.mpr ⟨⟨congrArg Arena.allocation r, congrArg Arena.firstBlock r,
      ⟨congrArg BlockHeader.previous initial, congrArg BlockHeader.next initial, trivial⟩,
      forall_mem_cons.mpr ⟨?_, forall_mem_nil _⟩, freshView_tiles long⟩, ?_⟩
    · exact ⟨congrArg BlockHeader.size initial, congrArg BlockHeader.free initial,
        congrArg BlockHeader.arena initial, congrArg BlockHeader.magic initial⟩
    intro view ins
    have held := holds.arenas view ins
    refine held.frame (fun b mem => ?_) ?_ ?_
    · rw [blocks, if_neg]
      intro same
      have away := held.away (apart view ins) mem
      simp only [freshView, ArenaView.stop, ArenaView.capacity, same, arenaPayloadStart_eq] at away
      omega
    all_goals
      rw [arenas, if_neg (elsewhere view ins)]
      split <;> rfl
  · exact forall_mem_cons.mpr ⟨isChain_singleton _, holds.settled⟩

/-! ## Returning an arena -/

/-- An arena without allocated blocks. -/
def ArenaView.Idle (view : ArenaView) : Prop := ∀ b ∈ view.blocks, b.free = true

/-- Free neighbours do not exist, so an idle arena is one block. -/
theorem idle_single (tiles : Tiles start blocks stop) (settled : blocks.IsChain Apart)
    (idle : ∀ b ∈ blocks, b.free = true) (long : start < stop) :
    ∃ b, blocks = [b] ∧ b.address = start ∧ b.stop = stop ∧ b.free = true := by
  cases blocks with
  | nil => exact absurd tiles (Nat.ne_of_lt long)
  | cons b rest =>
    obtain ⟨isFree, restFree⟩ := forall_mem_cons.mp idle
    obtain ⟨first, restTiles⟩ := tiles
    cases rest with
    | nil => exact ⟨b, rfl, first, restTiles, isFree⟩
    | cons next rest =>
      obtain ⟨apart, _⟩ := isChain_cons_cons.mp settled
      exact absurd ⟨isFree, restFree next mem_cons_self⟩ apart

section

variable {s : State} (holds : Holds s views)
include holds

theorem Holds.idle_blocks (ins : view ∈ views) (long : 96 ≤ view.capacity) (idle : view.Idle) :
    view.blocks = [⟨arenaPayloadStart view.address, view.capacity - 96, true⟩] := by
  have tiles := (holds.arenas view ins).tiles
  have spacious : arenaPayloadStart view.address < view.stop := by
    rw [arenaPayloadStart_eq, ArenaView.stop]
    omega
  obtain ⟨⟨address, size, isFree⟩, blocks, rfl, stop, rfl⟩ :=
    idle_single tiles (holds.settled view ins) idle spacious
  rw [blocks]
  simp only [Block.stop, ArenaView.stop, arenaPayloadStart_eq, headerSize] at stop
  have : size = view.capacity - 96 := by omega
  rw [this]

theorem Holds.arenaIsFullyFree_iff (ins : view ∈ views) (long : 96 ≤ view.capacity) :
    arenaIsFullyFree s view.address = true ↔ view.Idle := by
  have held := holds.arenas view ins
  have capacity : (s.arenas view.address).capacity = view.capacity := by
    rw [Arena.capacity, held.allocation]
    rfl
  unfold arenaIsFullyFree
  rw [held.first, Arena.initialBlockSize_eq, capacity]
  constructor
  · intro whole
    cases blocks : view.blocks with
    | nil =>
      rw [blocks] at whole
      cases whole
    | cons b rest =>
      rw [blocks] at whole
      obtain ⟨isFree, _, isLast, first, size⟩ := of_decide_eq_true whole
      have stored := held.stored b (by rw [blocks]; exact mem_cons_self)
      have linked := held.linked
      rw [blocks] at linked
      have single : rest = [] := by
        have next : nextBlock s b.address = _ := linked.2.1
        rw [nextBlock, isLast, Option.or_none] at next
        cases rest with
        | nil => rfl
        | cons o rest => cases next
      intro o mem
      rw [blocks, single, mem_singleton] at mem
      rw [mem, ← stored.free]
      exact isFree
  · intro idle
    have blocks := holds.idle_blocks ins long idle
    have linked := held.linked
    have stored := held.stored
    rw [blocks] at linked stored ⊢
    obtain ⟨size, isFree, _, _⟩ := stored _ mem_cons_self
    exact decide_eq_true ⟨isFree, linked.1, linked.2.1, rfl, size⟩

end

theorem releaseArena_kept {arena : Nat}
    (kept : s.arenaCount ≤ 1 ∨ arenaIsFullyFree s arena = false) :
    releaseArena s (some arena) = s :=
  if_pos kept

section Release

variable {s : State} {arena : Nat}
  (returned : ¬ (s.arenaCount ≤ 1 ∨ arenaIsFullyFree s arena = false))

include returned

theorem releaseArena_arenas (o : Nat) :
    let changed := if (s.arenas arena).previous = some o then
        { s.arenas o with next := (s.arenas arena).next }
      else s.arenas o
    (releaseArena s (some arena)).arenas o = if (s.arenas arena).next = some o then
        { changed with previous := (s.arenas arena).previous }
      else changed := by
  rw [releaseArena, if_neg returned]
  cases previous : (s.arenas arena).previous with
  | none => exact setArenaIf_arenas ..
  | some old =>
    refine (setArenaIf_arenas _ o _ _).trans ?_
    simp only [setArena_arenas, Option.some.injEq, @eq_comm Nat old o]
    by_cases same : o = old
    · rw [if_pos same, if_pos same, same]
    · rw [if_neg same, if_neg same]

theorem releaseArena_blocks : (releaseArena s (some arena)).blocks = s.blocks := by
  rw [releaseArena, if_neg returned]
  refine (setArenaIf_blocks _ _ _).trans ?_
  cases (s.arenas arena).previous <;> rfl

theorem releaseArena_globals : (releaseArena s (some arena)).globals =
    { s.globals with
      firstArena := if (s.arenas arena).previous = none then (s.arenas arena).next
        else s.firstArena
      arenaCount := s.arenaCount - 1
      memory := (freeAllocation s.memory (s.arenas arena).allocation).2 } := by
  rw [releaseArena, if_neg returned]
  cases (s.arenas arena).previous <;> cases (s.arenas arena).next <;> rfl

end Release

theorem last_not_mem_dropLast {nodes : List Nat} {node : Nat} (distinct : nodes.Nodup)
    (isLast : nodes.getLast? = some node) : node ∉ nodes.dropLast := by
  obtain ⟨front, rfl⟩ := getLast?_eq_some_iff.mp isLast
  rw [dropLast_concat]
  exact fun ins => (nodup_append.mp distinct).2.2 node ins node mem_cons_self rfl

/-- The arenas around a returned one are linked to each other. -/
theorem Holds.release {old after : List ArenaView}
    (holds : Holds s (old ++ view :: after))
    (returned : ¬ (s.arenaCount ≤ 1 ∨ arenaIsFullyFree s view.address = false)) :
    Holds (releaseArena s (some view.address)) (old ++ after) := by
  have distinct := holds.distinct
  have linked := holds.linked
  have first := holds.first
  rw [map_append, map_cons] at distinct linked first
  obtain ⟨beforeDistinct, restDistinct, crossing⟩ := nodup_append.mp distinct
  have afterDistinct := (nodup_cons.mp restDistinct).2
  obtain ⟨_, previous_eq, next_eq, _⟩ := links_append.mp linked
  rw [Option.or_none] at previous_eq next_eq
  have arenas := releaseArena_arenas returned
  rw [show (s.arenas view.address).previous = _ from previous_eq,
    show (s.arenas view.address).next = _ from next_eq] at arenas
  have notNext : ∀ address ∈ old.map ArenaView.address,
      (after.map ArenaView.address).head? ≠ some address := fun address ins isHead =>
    crossing address ins address (mem_cons_of_mem _ (mem_of_head? isHead)) rfl
  have notPrevious : ∀ address ∈ after.map ArenaView.address,
      (old.map ArenaView.address).getLast? ≠ some address := fun address ins isLast =>
    crossing address (mem_of_getLast? isLast) address (mem_cons_of_mem _ ins) rfl
  have globals := releaseArena_globals returned
  have kept : (old ++ after).Sublist (old ++ view :: after) :=
    (sublist_cons_self view after).append_left old
  refine ⟨?_, ?_, ?_, ?_, ?_, holds.apart.sublist kept⟩
  · rw [show (releaseArena s (some view.address)).firstArena = _
      from congrArg Globals.firstArena globals,
      show (s.arenas view.address).previous = _ from previous_eq,
      show (s.arenas view.address).next = _ from next_eq, first, map_append]
    cases old with
    | nil => rfl
    | cons head rest => simp
  · rw [map_append]
    refine linked.remove ?_ ?_ ?_ ?_ ?_ ?_
    · intro address ins
      rw [previousArena, arenas, if_neg (notNext address ins)]
      split <;> rfl
    · intro address isLast
      rw [nextArena, arenas, if_neg (notNext address (mem_of_getLast? isLast)), if_pos isLast,
        next_eq]
    · intro address ins
      rw [nextArena, arenas, if_neg (notNext address ((dropLast_sublist _).subset ins)), if_neg]
      · rfl
      · exact fun isLast => last_not_mem_dropLast beforeDistinct isLast ins
    · intro address ins
      rw [nextArena, arenas, if_neg (notPrevious address ins)]
      split <;> rfl
    · intro address isHead
      rw [previousArena, arenas, if_pos isHead, previous_eq]
    · intro address ins
      rw [previousArena, arenas, if_neg, if_neg (notPrevious address (mem_of_mem_tail ins))]
      · rfl
      · exact fun isHead => head_not_mem_tail afterDistinct isHead ins
  · rw [show (releaseArena s (some view.address)).arenaCount = _
      from congrArg Globals.arenaCount globals,
      holds.count]
    simp
  · intro o ins
    refine (holds.arenas o (kept.subset ins)).frame
      (fun b _ => congrFun (releaseArena_blocks returned) _) ?_ ?_
    all_goals
      rw [arenas]
      split <;> split <;> rfl
  · exact fun o ins => holds.settled o (kept.subset ins)

end SavanXP.Heap
