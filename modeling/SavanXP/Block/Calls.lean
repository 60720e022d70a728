import SavanXP.Block.Background

/-!
# What callers of the block layer see

The books record what the calls made of the sectors of each device, as if every
write went to a plain array at once, and in which order writes were accepted and
ordering points set.  Every run of the block layer agrees with its books.
-/

namespace SavanXP.Block

open SavanXP.Library List Function

variable {S : Type}

/-! ## Reading -/

theorem overlayRecord_range (lba count : Nat) (medium : Nat → S) (r : Pending S) :
    overlayRecord lba ((range count).map fun off => medium (lba + off)) r =
      (range count).map fun off => store (cells r.lba r.data) medium (lba + off) := by
  unfold overlayRecord
  rw [length_map, length_range]
  dsimp only
  generalize first_eq : (if lba < r.lba then r.lba else lba) = first
  generalize last_eq : (if r.lba + r.data.length < lba + count then
    r.lba + r.data.length else lba + count) = last
  have firstBounds : lba ≤ first ∧ r.lba ≤ first ∧ (first = lba ∨ first = r.lba) := by
    rw [← first_eq]
    split <;> omega
  have lastBounds : last ≤ lba + count ∧ last ≤ r.lba + r.data.length ∧
      (last = lba + count ∨ last = r.lba + r.data.length) := by
    rw [← last_eq]
    split <;> omega
  split
  · next none =>
    refine map_congr_left fun off ins => ?_
    rw [mem_range] at ins
    rw [store_cells]
    split
    · rw [getElem?_eq_none (by omega)]
      rfl
    · rfl
  · next some =>
    have front : (take (first - lba) ((range count).map fun off => medium (lba + off))).length =
        first - lba := by
      rw [length_take, length_map, length_range]
      omega
    have middle : ((r.data.drop (first - r.lba)).take (last - first)).length = last - first := by
      rw [length_take, length_drop]
      omega
    apply ext_getElem?
    intro off
    rw [getElem?_append, getElem?_append, front, middle, getElem?_map]
    by_cases low : off < first - lba
    · rw [if_pos low, getElem?_take_of_lt low, getElem?_map, getElem?_range (by omega),
        Option.map_some, Option.map_some, store_cells, if_neg (by omega)]
    rw [if_neg low]
    by_cases ins : off - (first - lba) < last - first
    · have within : lba + off - r.lba < r.data.length := by omega
      rw [if_pos ins, getElem?_take_of_lt ins, getElem?_drop,
        getElem?_range (by omega), Option.map_some, store_cells, if_pos (by omega),
        show first - r.lba + (off - (first - lba)) = lba + off - r.lba by omega,
        getElem?_eq_getElem within]
      rfl
    · rw [if_neg ins, getElem?_drop, getElem?_map,
        show last - lba + (off - (first - lba) - (last - first)) = off by omega]
      by_cases short : off < count
      · rw [getElem?_range short, Option.map_some, Option.map_some, store_cells]
        split
        · rw [getElem?_eq_none (by omega)]
          rfl
        · rfl
      · rw [getElem?_eq_none (by rw [length_range]; omega)]
        rfl

theorem overlayQueued_range (queue : List (Pending S)) (i lba count : Nat) (medium : Nat → S) :
    overlayQueued queue i lba ((range count).map fun off => medium (lba + off)) =
      (range count).map fun off => store (queuedCells i queue) medium (lba + off) := by
  induction queue generalizing medium with
  | nil => rfl
  | cons r rest ih =>
    rw [overlayQueued, foldl_cons]
    have cells_eq : queuedCells i (r :: rest) =
        (if r.device = i then cells r.lba r.data else []) ++ queuedCells i rest := rfl
    rw [cells_eq]
    by_cases skipped : r.device ≠ i ∨ r.data.length = 0
    · rw [if_pos skipped]
      have nothing : (if r.device = i then cells r.lba r.data else []) = [] := by
        rcases skipped with o | point
        · exact if_neg o
        · rw [length_eq_zero_iff.mp point]
          split <;> rfl
      rw [nothing]
      exact ih medium
    · rw [if_neg skipped, overlayRecord_range]
      rw [not_or, not_not] at skipped
      rw [if_pos skipped.1]
      simp only [store_append]
      exact ih _

variable {w : World} {s : State S} {i lba : Nat}

theorem deviceForIndex_some {dev : Device S} (found : deviceForIndex s i = some dev) :
    s.devices i = dev ∧ i < s.deviceCount ∧ dev.present = true := by
  unfold deviceForIndex at found
  split at found
  · cases found
  · next ins =>
    rw [not_or, Nat.not_le, Bool.not_eq_false] at ins
    obtain rfl := Option.some.inj found
    exact ⟨rfl, ins⟩

theorem queuedCells_direct (orderly : Orderly s)
    (direct : (s.devices i).deferredWrites = false ∨ s.queue = []) :
    queuedCells i s.queue = [] := by
  rcases direct with direct | empty
  · refine flatMap_eq_nil_iff.mpr fun r ins => if_neg fun same => ?_
    rw [← same, orderly.deferred r ins] at direct
    cases direct
  · rw [empty]
    rfl

/-- A read that succeeds returns the view of its device. -/
theorem read_view {count : Nat} {buf : List S} (orderly : Orderly s)
    (success : (read w s i lba count).1 = some buf) :
    buf = (range count).map fun off => view s i (lba + off) := by
  unfold read at success
  split at success
  · cases success
  next dev found =>
  obtain ⟨rfl, _, _⟩ := deviceForIndex_some found
  split at success
  · cases success
  split at success
  · cases success
  obtain rfl := Option.some.inj success
  unfold view
  split
  · exact overlayQueued_range ..
  · next direct =>
    rw [queuedCells_direct orderly (.inl (Bool.not_eq_true _ |>.mp direct))]
    rfl

/-! ## Writing -/

/-- A call that changes some sectors of one device and gives it commands. -/
structure Writes (s s' : State S) (i : Nat) (changed : List (Nat × S))
    (commands : List (Command S)) : Prop where
  orderly : Orderly s'
  count : s'.deviceCount = s.deviceCount
  config : ∀ o, (s'.devices o).config = (s.devices o).config
  view : ∀ o, view s' o =
    if o = i then store changed (view s o) else view s o
  flow : ∀ o, (s.devices o).deferredWrites = true →
    flow s' o = if o = i then flow s o ++ commands else flow s o


/-- A write that goes to the driver while nothing of its device is queued. -/
theorem through_writes {s' : State S} {changed : List (Nat × S)} {commands : List (Command S)}
    (orderly : Orderly s) (direct : (s.devices i).deferredWrites = false ∨ s.queue = [])
    (queue : s'.queue = s.queue) (count : s'.deviceCount = s.deviceCount)
    (others : ∀ o ≠ i, s'.devices o = s.devices o)
    (config : (s'.devices i).config = (s.devices i).config)
    (medium : (s'.devices i).medium = store changed (s.devices i).medium)
    (received : (s'.devices i).received = (s.devices i).received ++ commands)
    (clean : (s'.devices i).deferredWrites = true → (s'.devices i).hasFlush = true →
      (s'.devices i).unflushed = false → Flushed (s'.devices i).received) :
    Writes s s' i changed commands := by
  have configs : ∀ o, (s'.devices o).config = (s.devices o).config := by
    intro o
    by_cases same : o = i
    · rw [same, config]
    · rw [others o same]
  refine ⟨⟨?_, queue ▸ orderly.untouched, ?_, ?_⟩, count, configs, ?_, ?_⟩
  · intro r ins
    rw [Device.config_deferred (configs r.device)]
    exact orderly.deferred r (queue ▸ ins)
  · intro r ins
    rw [queue] at ins
    by_cases same : r.device = i
    · rcases direct with direct | empty
      · rw [← same, orderly.deferred r ins] at direct
        cases direct
      · rw [empty] at ins
        cases ins
    · rw [others _ same]
      exact orderly.landed r ins
  · intro o isDeferred hasFlush unflushed
    by_cases same : o = i
    · rw [same] at isDeferred hasFlush unflushed ⊢
      exact clean isDeferred hasFlush unflushed
    · rw [others o same] at isDeferred hasFlush unflushed ⊢
      exact orderly.clean o isDeferred hasFlush unflushed
  · intro o
    rw [view, view, queue]
    split
    · next same =>
      rw [same, medium, queuedCells_direct orderly direct]
      rfl
    · next ne => rw [others o ne]
  · intro o isDeferred
    rw [flow, flow, queue]
    split
    · next same =>
      rw [same] at isDeferred ⊢
      have empty : s.queue = [] := direct.resolve_left (by simp [isDeferred])
      rw [received, empty]
      exact (append_nil _).trans (congrArg (· ++ commands) (append_nil _).symm)
    · next ne => rw [others o ne]

theorem Quiet.answered (orderly : Orderly s) : Quiet s s.answered :=
  ⟨{ orderly with }, rfl, fun _ => rfl, fun _ => rfl, fun _ _ => ⟨fun _ => .refl _, rfl⟩⟩

/-- A record added to the queue. -/
theorem enqueue_writes {s s' : State S} {r : Pending S} (orderly : Orderly s)
    (deferred : (s.devices r.device).deferredWrites = true) (fresh : r.written = 0)
    (devices : s'.devices = s.devices) (count : s'.deviceCount = s.deviceCount)
    (queue : s'.queue = s.queue ++ [r]) : Writes s s' r.device (cells r.lba r.data) r.commands := by
  have mine : ∀ o ∈ [r], o.device = r.device := fun o ins => by
    rw [mem_singleton.mp ins]
  refine ⟨⟨?_, ?_, ?_, ?_⟩, count, fun o => by rw [devices], ?_, ?_⟩
  · rw [queue, devices]
    exact forall_mem_append.mpr ⟨orderly.deferred, forall_mem_cons.mpr ⟨deferred, nofun⟩⟩
  · rw [queue]
    intro o ins
    cases parts : s.queue with
    | nil =>
      rw [parts] at ins
      cases ins
    | cons head rest =>
      rw [parts] at ins
      have untouched := orderly.untouched
      rw [parts] at untouched
      rcases mem_append.mp ins with old | new
      · exact untouched o old
      · rw [mem_singleton.mp new]
        exact fresh
  · rw [queue, devices]
    refine forall_mem_append.mpr ⟨orderly.landed, forall_mem_cons.mpr ⟨?_, nofun⟩⟩
    rw [fresh]
    rfl
  · rw [devices]
    exact orderly.clean
  · intro o
    rw [view, view, queue, devices, queuedCells_append, store_append]
    split
    · next same =>
      rw [same]
      simp [queuedCells]
    · next ne =>
      rw [queuedCells_other ne mine]
      rfl
  · intro o _
    rw [flow, Block.flow, queue, devices, queuedCommands_append, ← append_assoc]
    split
    · next same =>
      rw [same]
      simp [queuedCommands]
    · next ne =>
      rw [queuedCommands_other ne mine, append_nil]

/-- The sectors a write changes, given how it ended. -/
def WriteEnd.changed : WriteEnd → List (Nat × S) → List (Nat × S)
  | .refused, _ => []
  | .torn landed, written => select landed written
  | .accepted, written => written

/-- The commands its device gets for a write, given how it ended. -/
def WriteEnd.commands : WriteEnd → List (Command S) → List (Command S)
  | .accepted, written => written
  | _, _ => []

theorem Writes.nothing (orderly : Orderly s) (i : Nat) : Writes s s i [] [] := by
  refine ⟨orderly, rfl, fun _ => rfl, fun o => ?_, fun o _ => ?_⟩
  · split <;> rfl
  · split
    · exact (append_nil _).symm
    · rfl


theorem requestInRange_length {dev : Device S} {count : Nat}
    (inRange : requestInRange dev lba count ≠ false) : count ≠ 0 := by
  rw [Bool.ne_false_iff] at inRange
  unfold requestInRange at inRange
  simp only [Bool.and_eq_true, bne_iff_ne] at inRange
  exact inRange.1.2

/-- What a driver write does to its device. -/
theorem driverWrite_cases (w : World) (s : State S) (i lba : Nat) (data : List S) :
    (driverWrite w s i lba data).2.queue = s.queue ∧
      (driverWrite w s i lba data).2.deviceCount = s.deviceCount ∧
      (∀ o ≠ i, (driverWrite w s i lba data).2.devices o = s.devices o) ∧
      (driverWrite w s i lba data).2.devices i =
        { s.devices i with
          medium := store ((if (driverWrite w s i lba data).1 then WriteEnd.accepted
            else .torn (w s.asked (.write i)).landed).changed (cells lba data)) (s.devices i).medium
          received := (s.devices i).received ++
            (if (driverWrite w s i lba data).1 then WriteEnd.accepted
              else .torn (w s.asked (.write i)).landed).commands (writes lba data) } := by
  unfold driverWrite
  dsimp only
  split
  all_goals
    refine ⟨rfl, rfl, fun o ne => ?_, ?_⟩
    · simp [State.answered, ne]
    · simp [State.answered, WriteEnd.changed, WriteEnd.commands]

theorem writeThrough_writes {data : List S} (orderly : Orderly s)
    (direct : (s.devices i).deferredWrites = false) : Writes s (writeThrough w s i lba data).2 i
      ((writeThrough w s i lba data).1.changed (cells lba data))
      ((writeThrough w s i lba data).1.commands (writes lba data)) := by
  obtain ⟨queue, count, others, mine⟩ := driverWrite_cases w s i lba data
  have shape : writeThrough w s i lba data =
      (if (driverWrite w s i lba data).1 then WriteEnd.accepted
        else .torn (w s.asked (.write i)).landed, (driverWrite w s i lba data).2) := by
    unfold writeThrough
    dsimp only
    split <;> rfl
  rw [shape]
  refine through_writes orderly (.inl direct) queue count others ?_ ?_ ?_ ?_
  · rw [mine]
    rfl
  · rw [mine]
  · rw [mine]
  rw [mine]
  intro isDeferred
  rw [direct] at isDeferred
  cases isDeferred

/-- Without memory, the write goes behind everything that was queued. -/
theorem writeUncached_writes {s : State S} {data : List S} (orderly : Orderly s) :
    ∃ middle, Quiet s middle ∧ Writes middle (writeUncached w s i lba data).2 i
        ((writeUncached w s i lba data).1.changed (cells lba data))
        ((writeUncached w s i lba data).1.commands (writes lba data)) := by
  obtain ⟨quiet, drained⟩ := drainAll_quiet w orderly
  unfold writeUncached
  dsimp only
  split
  · exact ⟨_, quiet, .nothing quiet.orderly i⟩
  · next success =>
    have empty := (drained (Bool.not_eq_false _ |>.mp success)).1
    refine ⟨_, quiet, ?_⟩
    obtain ⟨queue, count, others, mine⟩ := driverWrite_cases w (drainAll w s).2 i lba data
    unfold writeThrough
    dsimp only
    split
    · next granted =>
      change Writes _ (markUnflushed _ i true) i _ _
      rw [granted] at mine
      refine through_writes quiet.orderly (.inr empty) queue count ?_ ?_ ?_ ?_ ?_
      · intro o ne
        rw [markUnflushed, setDevice_devices, if_neg ne, others o ne]
      · rw [markUnflushed, setDevice_devices, if_pos rfl, mine]
        rfl
      · rw [markUnflushed, setDevice_devices, if_pos rfl, mine]
        rfl
      · rw [markUnflushed, setDevice_devices, if_pos rfl, mine]
        rfl
      · rw [markUnflushed, setDevice_devices, if_pos rfl]
        intro _ _ clean
        cases clean
    · next refused =>
      change Writes _ (driverWrite w (drainAll w s).2 i lba data).2 i _ _
      rw [Bool.not_eq_true _ |>.mp refused] at mine
      refine through_writes quiet.orderly (.inr empty) queue count others ?_ ?_ ?_ ?_
      · rw [mine]
        rfl
      · rw [mine]
        rfl
      · rw [mine]
        rfl
      · rw [mine]
        intro isDeferred hasFlush unflushed
        exact (append_nil _).symm ▸ quiet.orderly.clean i isDeferred hasFlush unflushed

section

variable (w : World)

theorem writeCachedEnd_writes (i lba : Nat) (data : List S) (orderly : Orderly s) :
    ∃ middle, Quiet s middle ∧ Writes middle (writeCachedEnd w s i lba data).2 i
        ((writeCachedEnd w s i lba data).1.changed (cells lba data))
        ((writeCachedEnd w s i lba data).1.commands (writes lba data)) := by
  have untried : ∃ middle, Quiet s middle ∧
      Writes middle s i (WriteEnd.refused.changed (cells lba data))
        (WriteEnd.refused.commands (writes lba data)) := ⟨s, .refl orderly, .nothing orderly i⟩
  unfold writeCachedEnd
  split
  · exact untried
  next dev found =>
  obtain ⟨rfl, _, _⟩ := deviceForIndex_some found
  split
  · exact untried
  next proper =>
  rw [not_or] at proper
  have nonempty := requestInRange_length proper.2
  split
  · next direct => exact ⟨s, .refl orderly, writeThrough_writes orderly direct⟩
  next isDeferred =>
  split
  · exact untried
  have room := makeRoomLoop_quiet w (data.length * sectorSize) (s.work + 1) orderly
  have asked := room.trans (.answered room.orderly)
  dsimp only
  split
  · exact ⟨_, room, .nothing room.orderly i⟩
  split
  · obtain ⟨middle, quiet, wrote⟩ := @writeUncached_writes S w i lba
      (makeRoom w s (data.length * sectorSize)).2.answered data asked.orderly
    exact ⟨middle, asked.trans quiet, wrote⟩
  · refine ⟨_, asked, ?_⟩
    have deferredNow := (Device.config_deferred (asked.config i)).trans
      (Bool.not_eq_false _ |>.mp isDeferred)
    have queued := @enqueue_writes S _ (queueWrite
      (makeRoom w s (data.length * sectorSize)).2.answered
      i lba data) ⟨i, lba, 0, _, data⟩ asked.orderly deferredNow rfl rfl rfl rfl
    rw [Pending.commands, if_neg nonempty] at queued
    exact queued

theorem Writes.quiet {s s' : State S} {i : Nat} {commands : List (Command S)}
    (wrote : Writes s s' i [] commands)
    (harmless : ∀ flow, Orders flow (flow ++ commands)) : Quiet s s' := by
  have orders : ∀ o, (s.devices o).deferredWrites = true →
      Orders (Block.flow s o) (Block.flow s' o) := by
    intro o isDeferred
    rw [wrote.flow o isDeferred]
    split
    · exact harmless _
    · exact .refl _
  refine ⟨wrote.orderly, wrote.count, wrote.config, fun o => ?_, fun o isDeferred =>
    ⟨fun _ => orders o isDeferred, (orders o isDeferred).1⟩⟩
  rw [wrote.view o]
  split <;> rfl

/-! ## Ordering points -/

/-- A device that is written through is flushed at once. -/
theorem driverFlush_quiet (orderly : Orderly s) (direct : (s.devices i).deferredWrites = false) :
    Quiet s (driverFlush w s i).2 := by
  unfold driverFlush
  split
  · have flushed : Writes s (s.answered.setDevice i fun dev =>
        { dev with received := dev.received ++ [.flush] }) i [] [.flush] := by
      refine through_writes orderly (.inl direct) rfl rfl ?_ ?_ ?_ ?_ ?_
      · intro o ne
        rw [setDevice_devices, if_neg ne]
        rfl
      all_goals rw [setDevice_devices, if_pos rfl]
      · rfl
      · rfl
      · rfl
      · intro isDeferred
        cases direct.symm.trans isDeferred
    exact flushed.quiet .extra_flush
  · exact .answered orderly

/-- An ordering point that was accepted stands at the end of what a deferred device
receives. -/
theorem flush_quiet (i : Nat) (orderly : Orderly s) : Quiet s (flush w s i).2 ∧
    ((flush w s i).1 = true → (s.devices i).deferredWrites = true → (s.devices i).hasFlush = true →
      Flushed (flow (flush w s i).2 i)) := by
  unfold flush
  split
  · exact ⟨.refl orderly, nofun⟩
  next dev found =>
  obtain ⟨rfl, ins, present⟩ := deviceForIndex_some found
  split
  · exact ⟨.refl orderly, nofun⟩
  split
  · next direct =>
    refine ⟨?_, fun _ isDeferred => nomatch direct.symm.trans isDeferred⟩
    split
    · exact driverFlush_quiet w orderly direct
    · exact .refl orderly
  next isDeferred =>
  rw [Bool.not_eq_false] at isDeferred
  split
  · exact ⟨.refl orderly, nofun⟩
  split
  · next idle =>
    refine ⟨.refl orderly, fun _ _ hasFlush => ?_⟩
    have nothing : queuedCommands i s.queue = [] := by
      refine flatMap_eq_nil_iff.mpr fun r mem => if_neg fun same => ?_
      have listed := any_eq_false.mp idle.2 r mem
      exact listed (decide_eq_true same)
    rw [flow, nothing, append_nil]
    exact orderly.clean i isDeferred hasFlush idle.1
  split
  · next last =>
    refine ⟨.refl orderly, fun _ _ _ => ?_⟩
    obtain ⟨r, isLast, facts⟩ := Option.map_eq_some_iff.mp last
    obtain ⟨front, parts⟩ := List.getLast?_eq_some_iff.mp isLast
    have mine : r.device = i := congrArg Prod.fst facts
    have point : r.data.length = 0 := congrArg Prod.snd facts
    rw [flow, parts, queuedCommands_append, ← append_assoc]
    have one : queuedCommands i [r] = [.flush] := by
      simp [queuedCommands, mine, Pending.commands, length_eq_zero_iff.mp point]
    rw [one]
    exact .end _
  split
  · have asked := Quiet.answered orderly
    obtain ⟨quiet, drained⟩ := drainAll_quiet w asked.orderly
    refine ⟨asked.trans quiet, fun success _ hasFlush => ?_⟩
    obtain ⟨empty, settled⟩ := drained success
    have config := (asked.trans quiet).config i
    have isPresent := (congrArg Prod.fst config).trans present
    have stillDeferred := (Device.config_deferred config).trans isDeferred
    rw [flow, empty]
    refine (append_nil _).symm ▸ quiet.orderly.clean i stillDeferred
      ((Device.config_hasFlush config).trans hasFlush) (settled i ins isPresent stillDeferred)
  · have asked := Quiet.answered orderly
    have queued := @enqueue_writes S s.answered (enqueue s.answered ⟨i, 0, 0, 0, []⟩)
      ⟨i, 0, 0, _, []⟩ asked.orderly isDeferred rfl rfl rfl rfl
    refine ⟨asked.trans (queued.quiet .extra_flush), fun _ _ _ => ?_⟩
    rw [queued.flow i isDeferred, if_pos rfl]
    exact .end _


theorem sync_quiet (i : Nat) (orderly : Orderly s) : Quiet s (sync w s i).2 := by
  unfold sync
  split
  · exact .refl orderly
  · exact (drainAll_quiet w orderly).1

theorem writebackTick_quiet (nowMs : UInt64) (orderly : Orderly s) :
    Quiet s (writebackTick w s nowMs) := by
  have ticked : ∀ lastForcedMs, Quiet s { s with clockMs := nowMs, lastForcedMs := lastForcedMs } :=
    fun _ => ⟨{ orderly with }, rfl, fun _ => rfl, fun _ => rfl, fun _ _ => ⟨fun _ => .refl _, rfl⟩⟩
  unfold writebackTick
  dsimp only
  split
  · exact ticked ..
  · split
    · exact ticked ..
    · exact (ticked nowMs).trans (step_quiet w (ticked nowMs).orderly)

end

/-! ## Calls and their books -/

inductive Call (S : Type) where
  | writeCached (i lba : Nat) (data : List S)
  | write (i lba : Nat) (data : List S)
  | flush (i : Nat)
  | sync (i : Nat)
  | writebackStep
  | writebackTick (nowMs : UInt64)
  | read (i lba count : Nat)

def perform (w : World) (s : State S) : Call S → State S
  | .writeCached i lba data => (writeCached w s i lba data).2
  | .write i lba data => (write w s i lba data).2
  | .flush i => (flush w s i).2
  | .sync i => (sync w s i).2
  | .writebackStep => (writebackStep w s).2
  | .writebackTick nowMs => writebackTick w s nowMs
  | .read i lba count => (read w s i lba count).2

/-- The sectors of each device as a plain array, and the writes it accepted and
the ordering points set, in the order of the calls. -/
structure Books (S : Type) where
  ledger : Nat → Nat → S
  issued : Nat → List (Command S)

namespace Books

def wrote (books : Books S) (i lba : Nat) (data : List S) (ended : WriteEnd) : Books S where
  ledger := update books.ledger i (store (ended.changed (cells lba data)) (books.ledger i))
  issued := update books.issued i (books.issued i ++ ended.commands (writes lba data))

def flushed (books : Books S) (i : Nat) (success : Bool) : Books S :=
  if success then
    { books with issued := update books.issued i (books.issued i ++ [.flush]) }
  else books

theorem wrote_ledger (books : Books S) (i lba : Nat) (data : List S) (ended : WriteEnd) (o : Nat) :
    (books.wrote i lba data ended).ledger o =
      if o = i then store (ended.changed (cells lba data)) (books.ledger o)
      else books.ledger o := by
  refine (update_apply books.ledger i _ o).trans ?_
  split
  · next same => rw [same]
  · rfl

theorem wrote_issued (books : Books S) (i lba : Nat) (data : List S) (ended : WriteEnd) (o : Nat) :
    (books.wrote i lba data ended).issued o =
      if o = i then books.issued o ++ ended.commands (writes lba data) else books.issued o := by
  refine (update_apply books.issued i _ o).trans ?_
  split
  · next same => rw [same]
  · rfl

theorem flushed_ledger (books : Books S) (i : Nat) (success : Bool) :
    (books.flushed i success).ledger = books.ledger := by
  unfold flushed
  split <;> rfl

end Books

/-- The books after a call. -/
def account (w : World) (s : State S) (books : Books S) : Call S → Books S
  | .writeCached i lba data => books.wrote i lba data (writeCachedEnd w s i lba data).1
  | .write i lba data =>
    let ended := writeCachedEnd w s i lba data
    let written := books.wrote i lba data ended.1
    if ended.1.isAccepted then written.flushed i (flush w ended.2 i).1 else written
  | .flush i => books.flushed i (flush w s i).1
  | _ => books

def runCalls (w : World) : List (Call S) → State S × Books S → State S × Books S
  | [], reached => reached
  | call :: rest, reached =>
    runCalls w rest (perform w reached.1 call, account w reached.1 reached.2 call)

/-- Devices that were just registered. -/
structure Fresh (s : State S) : Prop where
  queue : s.queue = []
  devices : ∀ i, (s.devices i).unflushed = false ∧ (s.devices i).failed = false ∧
    (s.devices i).received = []

/-- The books before any call. -/
def openingBooks (s : State S) : Books S := ⟨fun i => (s.devices i).medium, fun _ => []⟩

/-- The block layer agrees with the books. -/
structure Matches (start s : State S) (books : Books S) : Prop where
  orderly : Orderly s
  count : s.deviceCount = start.deviceCount
  config : ∀ i, (s.devices i).config = (start.devices i).config
  ledger : ∀ i, books.ledger i = view s i
  issued : ∀ i, (s.devices i).deferredWrites = true →
    ((s.devices i).hasFlush = true → Orders (books.issued i) (flow s i)) ∧
      sectors (flow s i) = sectors (books.issued i)

theorem Fresh.matches (fresh : Fresh s) : Matches s s (openingBooks s) := by
  refine ⟨⟨?_, ?_, ?_, ?_⟩, rfl, fun _ => rfl, fun i => ?_, fun i _ => ?_⟩
  · rw [fresh.queue]
    exact nofun
  · rw [fresh.queue]
    exact nofun
  · rw [fresh.queue]
    exact nofun
  · intro i _ _ _
    rw [(fresh.devices i).2.2]
    exact .inl rfl
  · rw [view, fresh.queue]
    rfl
  · rw [flow, fresh.queue, (fresh.devices i).2.2]
    exact ⟨fun _ => .refl _, rfl⟩

theorem Matches.quiet {start s s' : State S} {books : Books S} (agree : Matches start s books)
    (quiet : Quiet s s') : Matches start s' books := by
  refine ⟨quiet.orderly, quiet.count.trans agree.count,
    fun i => (quiet.config i).trans (agree.config i),
    fun i => (agree.ledger i).trans (quiet.view i).symm,
    fun i isDeferred => ?_⟩
  have wasDeferred := (Device.config_deferred (quiet.config i)).symm.trans isDeferred
  obtain ⟨orders, same⟩ := agree.issued i wasDeferred
  obtain ⟨t, sameLater⟩ := quiet.flow i wasDeferred
  refine ⟨fun hasFlush => ?_, sameLater.trans same⟩
  have hadFlush := (Device.config_hasFlush (quiet.config i)).symm.trans hasFlush
  exact (orders hadFlush).trans (t hadFlush)

variable {start : State S} {books : Books S}

theorem Matches.wrote {s' : State S} {data : List S} {ended : WriteEnd}
    (agree : Matches start s books) (writes : Writes s s' i (ended.changed (cells lba data))
      (ended.commands (writes lba data))) : Matches start s' (books.wrote i lba data ended) := by
  refine ⟨writes.orderly, writes.count.trans agree.count,
    fun o => (writes.config o).trans (agree.config o), fun o => ?_, fun o isDeferred => ?_⟩
  · rw [writes.view o, Books.wrote_ledger, agree.ledger o]
  have wasDeferred := (Device.config_deferred (writes.config o)).symm.trans isDeferred
  obtain ⟨orders, same⟩ := agree.issued o wasDeferred
  have hadFlush (hasFlush : (s'.devices o).hasFlush = true) :=
    (Device.config_hasFlush (writes.config o)).symm.trans hasFlush
  rw [writes.flow o wasDeferred, Books.wrote_issued]
  split
  · refine ⟨fun hasFlush => (orders (hadFlush hasFlush)).append _, ?_⟩
    rw [sectors_append, sectors_append, same]
  · exact ⟨fun hasFlush => orders (hadFlush hasFlush), same⟩

/-- An accepted ordering point goes into the books of a deferred device. -/
theorem Matches.flushed {books : Books S} (agree : Matches start s books) (i : Nat) :
    Matches start (flush w s i).2 (books.flushed i (flush w s i).1) := by
  obtain ⟨quiet, ordered⟩ := flush_quiet w i agree.orderly
  have t := agree.quiet quiet
  unfold Books.flushed
  split
  · next success =>
    refine ⟨t.orderly, t.count, t.config, t.ledger, fun o isDeferred => ?_⟩
    obtain ⟨orders, same⟩ := t.issued o isDeferred
    dsimp only
    by_cases isHere : o = i
    · rw [isHere] at isDeferred orders same ⊢
      rw [update_self]
      refine ⟨fun hasFlush => ?_, same.trans (Orders.extra_flush _).1.symm⟩
      have config := quiet.config i
      have flushed := ordered success ((Device.config_deferred config).symm.trans isDeferred)
        ((Device.config_hasFlush config).symm.trans hasFlush)
      exact ((orders hasFlush).append _).trans (.drop_flush flushed)
    · rw [update_of_ne isHere]
      exact ⟨orders, same⟩
  · exact t

theorem writeCached_matches {books : Books S}
    (agree : Matches start s books) (i lba : Nat) (data : List S) :
    Matches start (writeCachedEnd w s i lba data).2
      (books.wrote i lba data (writeCachedEnd w s i lba data).1) := by
  obtain ⟨middle, quiet, wrote⟩ := writeCachedEnd_writes w i lba data agree.orderly
  exact (agree.quiet quiet).wrote wrote

theorem write_matches (agree : Matches start s books) (i lba : Nat) (data : List S) :
    Matches start (write w s i lba data).2 (account w s books (.write i lba data)) := by
  have written := @writeCached_matches S w s start books agree i lba data
  have flushed := @Matches.flushed S w _ start _ written i
  unfold write writeCached account
  dsimp only
  split
  · next refused =>
    rw [refused, if_neg nofun]
    exact written
  · next accepted =>
    rw [if_pos (Bool.not_eq_false _ |>.mp accepted)]
    split
    · exact flushed
    · exact flushed.quiet (sync_quiet w i flushed.orderly)

theorem perform_matches (w : World) (agree : Matches start s books) (call : Call S) :
    Matches start (perform w s call) (account w s books call) := by
  cases call with
  | writeCached i lba data => exact writeCached_matches agree ..
  | write i lba data => exact write_matches agree ..
  | flush i => exact agree.flushed i
  | sync i => exact agree.quiet (sync_quiet w i agree.orderly)
  | writebackStep => exact agree.quiet (step_quiet w agree.orderly)
  | writebackTick nowMs => exact agree.quiet (writebackTick_quiet w nowMs agree.orderly)
  | read i lba count =>
    refine agree.quiet ?_
    change Quiet s (read w s i lba count).2
    unfold read
    split
    · exact .refl agree.orderly
    split
    · exact .refl agree.orderly
    · split <;> exact .answered agree.orderly

theorem runCalls_matches (w : World) (calls : List (Call S)) {start : State S}
    {reached : State S × Books S} (agree : Matches start reached.1 reached.2) :
    Matches start (runCalls w calls reached).1 (runCalls w calls reached).2 := by
  induction calls generalizing reached with
  | nil => exact agree
  | cons call rest ih => exact ih (perform_matches w agree call)

end SavanXP.Block
